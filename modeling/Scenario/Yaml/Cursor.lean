/-!
# The place in a document

A `Cursor` is what is left of a document together with the place of its next character. Line breaks
are read as `\n`, whichever characters they are written with.
-/

namespace Scenario

namespace Yaml

/-- What is left of a document, and where. -/
structure Cursor where
  rest : List Char
  index : Nat := 0
  line : Nat := 0
  column : Nat := 0

/-- Whether a character is a blank on a line. -/
def isSpacing (c : Char) : Bool := c = ' ' || c = '\t'

/-- Whether a character breaks a line. -/
def isBreak (c : Char) : Bool :=
  c = '\n' || c = '\r' || c.toNat = 0x85 || c.toNat = 0x2028 || c.toNat = 0x2029

/-- Whether a document may hold a character. -/
def isAllowed (c : Char) : Bool :=
  let n := c.toNat
  c = '\t' || c = '\n' || c = '\r' || (0x20 ≤ n && n ≤ 0x7E) || n = 0x85 ||
    (0xA0 ≤ n && n ≤ 0xD7FF) || (0xE000 ≤ n && n ≤ 0xFFFD) || 0x10000 ≤ n

/-- Whether nothing, a blank or a break comes next. -/
def endsHere : List Char → Bool
  | [] => true
  | c :: _ => isSpacing c || isBreak c

namespace Cursor

/-- The next character. -/
def next? (at_ : Cursor) : Option Char := at_.rest.head?

/-- Whether a character comes next. -/
def sees (at_ : Cursor) (c : Char) : Bool := at_.rest.head? = some c

/-- The cursor after some characters of its line. -/
def skip (at_ : Cursor) (count : Nat) : Cursor :=
  { at_ with
    rest := at_.rest.drop count
    index := at_.index + count
    column := at_.column + count }

/-- The cursor after a line break, and the text of the break. -/
def takeBreak (at_ : Cursor) : List Char × Cursor :=
  let after (rest : List Char) (count : Nat) : Cursor :=
    ⟨rest, at_.index + count, at_.line + 1, 0⟩
  match at_.rest with
  | '\r' :: '\n' :: rest => (['\n'], after rest 2)
  | c :: rest =>
    if c.toNat = 0x2028 || c.toNat = 0x2029 then ([c], after rest 1) else (['\n'], after rest 1)
  | [] => ([], at_)

/-- Whether a document begins or ends here. -/
def atMark (at_ : Cursor) : Bool :=
  at_.column = 0 &&
    match at_.rest with
    | '-' :: '-' :: '-' :: rest => endsHere rest
    | '.' :: '.' :: '.' :: rest => endsHere rest
    | _ => false

end Cursor

/-! ### Folding -/

/-- The blanks between two words of a text that runs over lines: blanks on the line, or the first
break and the breaks after it. -/
structure Gap where
  blanks : List Char := []
  firstBreak : List Char := []
  laterBreaks : List Char := []
  /-- Whether a line has ended. -/
  broken : Bool := false

/-- What a gap stands for: a single break is a blank, of several breaks the first is left out. -/
def Gap.text (gap : Gap) : List Char :=
  if !gap.broken then gap.blanks
  else if gap.firstBreak = ['\n'] then
    (if gap.laterBreaks.isEmpty then [' '] else gap.laterBreaks)
  else gap.firstBreak ++ gap.laterBreaks

/-- Reads blanks and breaks into a gap. Tabs in the indentation of a line, up to `indent`, are
refused. -/
def readGap (fuel : Nat) (indent : Nat) (gap : Gap) (at_ : Cursor) : Option (Gap × Cursor) :=
  match fuel, at_.rest with
  | 0, _ => some (gap, at_)
  | _, [] => some (gap, at_)
  | fuel + 1, c :: _ =>
    if isSpacing c then
      if gap.broken then
        if c = '\t' && at_.column < indent then none else readGap fuel indent gap (at_.skip 1)
      else readGap fuel indent { gap with blanks := gap.blanks ++ [c] } (at_.skip 1)
    else if isBreak c then
      let (text, after) := at_.takeBreak
      if gap.broken then
        readGap fuel indent { gap with laterBreaks := gap.laterBreaks ++ text } after
      else readGap fuel indent { gap with blanks := [], firstBreak := text, broken := true } after
    else some (gap, at_)

end Yaml

end Scenario
