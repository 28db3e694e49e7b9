import Scenario.Json.Reader
import Scenario.Yaml.Cursor

/-!
# Scalars of documents

The texts of a document: plain ones, quoted ones, and blocks of lines. Each reader starts at the
first character of a text and gives the text and the cursor after it.
-/

namespace Scenario

namespace Yaml

/-- A text that was read. -/
structure ScalarRead where
  text : List Char
  /-- Whether a line has ended after the text. -/
  lineEnded : Bool := false
  after : Cursor

/-! ### Plain texts -/

/-- Whether a character structures a flow collection. -/
def isFlowMark (c : Char) : Bool := c ∈ [',', '[', ']', '\x7b', '\x7d']

/-- Reads a word of a plain text. -/
def readWord (inFlow : Bool) (acc : List Char) (at_ : Cursor) :
    (fuel : Nat) → Option (List Char × Cursor)
  | 0 => some (acc, at_)
  | fuel + 1 =>
    match at_.rest with
    | [] => some (acc, at_)
    | c :: rest =>
      if endsHere (c :: rest) then some (acc, at_)
      else if inFlow && c = ':' && rest.head?.any (fun d => isFlowMark d || d = '?') then none
      else if (c = ':' && endsHere rest) || (inFlow && isFlowMark c) then some (acc, at_)
      else readWord inFlow (c :: acc) (at_.skip 1) fuel

/-- Reads a plain text; `acc` is what has been read, last character first, and `gap` what stands
before the next word. -/
def readPlain (fuel : Nat) (inFlow : Bool) (indent : Nat) (acc : List Char) (gap : Gap)
    (at_ : Cursor) : Option ScalarRead :=
  match fuel with
  | 0 => some ⟨acc.reverse, gap.broken, at_⟩
  | fuel + 1 =>
    if at_.atMark || at_.sees '#' then some ⟨acc.reverse, gap.broken, at_⟩
    else
      match readWord inFlow [] at_ (at_.rest.length + 1) with
      | none => none
      | some (word, after) =>
        -- the gap before the first word is no part of the text
        let gapText := if acc.isEmpty then [] else gap.text
        let acc := if word.isEmpty then acc else word ++ (gapText.reverse ++ acc)
        let gap : Gap := if word.isEmpty then gap else {}
        if !endsHere after.rest || after.rest.isEmpty then some ⟨acc.reverse, gap.broken, after⟩
        else
          match readGap (after.rest.length + 1) indent gap after with
          | none => none
          | some (gap, next) =>
            -- a line that is less deep belongs to something else
            if !inFlow && next.column < indent then some ⟨acc.reverse, gap.broken, next⟩
            else readPlain fuel inFlow indent acc gap next

/-! ### Quoted texts -/

/-- The characters that a letter after a backslash stands for. -/
def simpleEscape? : Char → Option (List Char)
  | '0' => some ['\x00']
  | 'a' => some ['\x07']
  | 'b' => some ['\x08']
  | 't' => some ['\t']
  | '\t' => some ['\t']
  | 'n' => some ['\n']
  | 'v' => some ['\x0b']
  | 'f' => some ['\x0c']
  | 'r' => some ['\r']
  | 'e' => some ['\x1b']
  | ' ' => some [' ']
  | '\x22' => some ['\x22']
  | '/' => some ['/']
  | '\\' => some ['\\']
  | 'N' => some [Char.ofNat 0x85]
  | '_' => some [Char.ofNat 0xA0]
  | 'L' => some [Char.ofNat 0x2028]
  | 'P' => some [Char.ofNat 0x2029]
  | _ => none

/-- The number of hexadecimal digits after a letter. -/
def codeLength? : Char → Option Nat
  | 'x' => some 2
  | 'u' => some 4
  | 'U' => some 8
  | _ => none

/-- The character of a code in hexadecimal digits. -/
def charOfDigits? (digits : List Char) : Option Char :=
  (digits.foldlM (fun n c => (Json.hexValue? c).map fun d => n * 16 + d) 0).bind fun code =>
    if code < 0xD800 || (0xDFFF < code && code < 0x110000) then some (Char.ofNat code) else none

/-- Reads the characters of a quoted text up to a blank, a break or the end, last one first. The
last part of the result says whether a break has been escaped. -/
def readQuotedWord (double : Bool) (acc : List Char) (at_ : Cursor) :
    (fuel : Nat) → Option (List Char × Cursor × Bool)
  | 0 => some (acc, at_, false)
  | fuel + 1 =>
    match at_.rest with
    | [] => some (acc, at_, false)
    | c :: rest =>
      if isSpacing c || isBreak c then some (acc, at_, false)
      else if !double && c = '\x27' then
        -- a quote that is doubled stands for itself
        if rest.head? = some '\x27' then readQuotedWord double ('\x27' :: acc) (at_.skip 2) fuel
        else some (acc, at_, false)
      else if double && c = '\x22' then some (acc, at_, false)
      else if double && c = '\\' then
        match rest with
        | [] => none
        | d :: more =>
          -- an escaped break stands for nothing at all
          if isBreak d then some (acc, (at_.skip 1).takeBreak.2, true)
          else
            match simpleEscape? d, codeLength? d with
            | some cs, _ => readQuotedWord double (cs.reverse ++ acc) (at_.skip 2) fuel
            | none, some count =>
              if more.length < count then none
              else
                match charOfDigits? (more.take count) with
                | some c => readQuotedWord double (c :: acc) (at_.skip (2 + count)) fuel
                | none => none
            | none, none => none
      else readQuotedWord double (c :: acc) (at_.skip 1) fuel

/-- Reads a quoted text after its opening quote. -/
def readQuotedParts (fuel : Nat) (double : Bool) (acc : List Char) (at_ : Cursor) :
    Option ScalarRead :=
  match fuel with
  | 0 => none
  | fuel + 1 =>
    if at_.atMark || at_.rest.isEmpty then none
    else
      match readQuotedWord double acc at_ (at_.rest.length + 1) with
      | none => none
      | some (acc, after, escaped) =>
        if !escaped && after.sees (if double then '\x22' else '\x27') then
          some ⟨acc.reverse, false, after.skip 1⟩
        else
          match readGap (after.rest.length + 1) 0 { broken := escaped } after with
          | none => none
          | some (gap, next) =>
            if next.index = at_.index then none
            else readQuotedParts fuel double (gap.text.reverse ++ acc) next

/-- Reads a quoted text. -/
def readQuoted (double : Bool) (at_ : Cursor) : Option ScalarRead :=
  readQuotedParts (at_.rest.length + 1) double [] (at_.skip 1)

/-! ### Blocks of lines -/

/-- What becomes of the breaks at the end of a block. -/
inductive Ending where
  | stripped
  | single
  | kept
deriving DecidableEq

/-- The signs behind the mark of a block: how it ends, and how deep it is indented. -/
def readBlockSigns (at_ : Cursor) : Option (Ending × Option Nat × Cursor) :=
  let ending? : Char → Option Ending
    | '+' => some .kept
    | '-' => some .stripped
    | _ => none
  let digit? (c : Char) : Option Nat := if c.isDigit then some (c.toNat - 48) else none
  match at_.rest with
  | c :: rest =>
    match ending? c, digit? c with
    | some e, _ =>
      match rest.head?.bind digit? with
      | some 0 => none
      | some n => some (e, some n, at_.skip 2)
      | none => some (e, none, at_.skip 1)
    | none, some 0 => none
    | none, some n =>
      match rest.head?.bind ending? with
      | some e => some (e, some n, at_.skip 2)
      | none => some (.single, some n, at_.skip 1)
    | none, none => some (.single, none, at_)
  | [] => some (.single, none, at_)

/-- The cursor after blanks. -/
def skipSpacing (at_ : Cursor) : Cursor := at_.skip (at_.rest.takeWhile isSpacing).length

/-- The cursor after a comment, if there is one. -/
def skipComment (at_ : Cursor) : Cursor :=
  if at_.sees '#' then at_.skip (at_.rest.takeWhile fun c => !isBreak c).length else at_

/-- Reads empty lines and the indentation of the next line, up to `indent` blanks if that is known.
The third part of the result is the deepest indentation that was seen. -/
def readEmptyLines (fuel : Nat) (indent : Option Nat) (deepest : Nat) (breaks : List Char)
    (at_ : Cursor) : Option (List Char × Nat × Cursor) :=
  match fuel with
  | 0 => some (breaks, deepest, at_)
  | fuel + 1 =>
    let spaces := (at_.rest.takeWhile (· = ' ')).length
    let at_ := at_.skip (match indent with
      | none => spaces
      | some n => min spaces (n - at_.column))
    let deepest := max deepest at_.column
    -- a tab may not indent a line
    if at_.sees '\t' && indent.all (fun n => at_.column < n) then none
    else if at_.rest.head?.any isBreak then
      let (text, after) := at_.takeBreak
      readEmptyLines fuel indent deepest (breaks ++ text) after
    else some (breaks, deepest, at_)

/-- Reads the lines of a block. `pending` is the break before the next line, `breaks` are those of
empty lines after it. -/
def readLines (fuel : Nat) (folded : Bool) (indent : Nat) (acc pending breaks : List Char)
    (blankBefore : Bool) (at_ : Cursor) :
    Option (List Char × List Char × List Char × Cursor) :=
  match fuel with
  | 0 => some (acc, pending, breaks, at_)
  | fuel + 1 =>
    match at_.rest with
    | [] => some (acc, pending, breaks, at_)
    | c :: _ =>
      if at_.column ≠ indent then some (acc, pending, breaks, at_)
      else
        let blankHere := isSpacing c
        -- a folded break is a blank, unless empty lines or a deeper line stand beside it
        let joint :=
          if folded && pending = ['\n'] && !blankBefore && !blankHere then
            (if breaks.isEmpty then [' '] else [])
          else pending
        let line := at_.rest.takeWhile fun c => !isBreak c
        let acc := acc ++ (joint ++ (breaks ++ line))
        let (pending, after) := (at_.skip line.length).takeBreak
        match readEmptyLines (after.rest.length + 1) (some indent) 0 [] after with
        | none => none
        | some (breaks, _, next) => readLines fuel folded indent acc pending breaks blankHere next

/-- Reads a block of lines from its mark on; `parent` is the indentation of what it is a part of,
plus one. -/
def readBlock (parent : Nat) (at_ : Cursor) : Option ScalarRead :=
  let folded := at_.sees '>'
  match readBlockSigns (at_.skip 1) with
  | none => none
  | some (ending, increment, after) =>
    let after := skipComment (skipSpacing after)
    if after.rest.head?.any fun c => !isBreak c then none
    else
      let start := after.takeBreak.2
      -- an indentation that is given counts from that of the parent
      let known := increment.map fun n => (parent - 1) + n
      match readEmptyLines (start.rest.length + 1) known 0 [] start with
      | none => none
      | some (breaks, deepest, start) =>
        -- otherwise the first lines tell it
        let indent := known.getD (max deepest (max parent 1))
        match readLines (start.rest.length + 1) folded indent [] [] breaks false start with
        | none => none
        | some (text, pending, breaks, after) =>
          let tail := match ending with
            | .stripped => []
            | .single => pending
            | .kept => pending ++ breaks
          some ⟨text ++ tail, true, after⟩

end Yaml

end Scenario
