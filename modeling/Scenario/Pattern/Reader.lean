import Scenario.Pattern.Flaw
import Scenario.Pattern.Syntax
import Scenario.Power

/-!
# Reading patterns

`read` turns the text of a pattern into its syntax. The reader walks over the characters with their
places, so that a flaw can point at what is wrong.

Alternatives, sequences and parts are mutually recursive; every step consumes a character, so the
length of the pattern bounds the depth.
-/

namespace Scenario

namespace Pattern

/-- What the flags say. -/
structure Flags where
  ignoreCase : Bool
  multiLine : Bool
  dotMatchesLine : Bool
  lazy : Bool
  unicode : Bool
  verbose : Bool
deriving DecidableEq, Repr

/-- The flags at the beginning of a pattern. -/
def Flags.start : Flags := ⟨false, false, false, false, true, false⟩

/-- Where the reader stands, and what it has met. -/
structure Reader where
  rest : List Char
  spot : Spot
  flags : Flags
  groups : Nat
  names : List (List Char × Span)

/-- A part of the reader. -/
abbrev Read := StateT Reader (Except Flaw)

namespace Read

/-! ### Characters and places -/

/-- The place after a character. -/
def after (spot : Spot) (c : Char) : Spot :=
  if c = '\n' then ⟨spot.line + 1, 1⟩ else ⟨spot.line, spot.column + 1⟩

/-- Fails with a cause at a span. -/
def fail {α : Type} (cause : Cause) (span : Span) : Read α :=
  fun _ => .error ⟨cause, span, none⟩

/-- Fails with a cause that refers to an earlier span. -/
def failAgain {α : Type} (cause : Cause) (span earlier : Span) : Read α :=
  fun _ => .error ⟨cause, span, some earlier⟩

/-- The next character. -/
def peek : Read (Option Char) := fun r => .ok (r.rest.head?, r)

/-- The character after the next one. -/
def peekSecond : Read (Option Char) := fun r => .ok (r.rest.tail.head?, r)

def spot : Read Spot := fun r => .ok (r.spot, r)

def flags : Read Flags := fun r => .ok (r.flags, r)

/-- The empty span at the reader's place. -/
def here : Read Span := fun r => .ok (⟨r.spot, r.spot⟩, r)

/-- The span of the next character. -/
def nextSpan : Read Span := fun r =>
  match r.rest with
  | [] => .ok (⟨r.spot, r.spot⟩, r)
  | c :: _ => .ok (⟨r.spot, after r.spot c⟩, r)

/-- The span from a place to the reader's place. -/
def since (start : Spot) : Read Span := fun r => .ok (⟨start, r.spot⟩, r)

/-- Steps over one character. -/
def bump : Read Unit := fun r =>
  match r.rest with
  | [] => .ok ((), r)
  | c :: rest => .ok ((), { r with rest := rest, spot := after r.spot c })

/-- A reader after `n` characters. -/
def advance (r : Reader) : Nat → Reader
  | 0 => r
  | n + 1 =>
    match r.rest with
    | [] => r
    | c :: rest => advance { r with rest := rest, spot := after r.spot c } n

/-- Steps over a word if it comes next. -/
def bumpIf (word : List Char) : Read Bool := fun r =>
  if Text.startsWith word r.rest then .ok (true, advance r word.length) else .ok (false, r)

/-- How many characters of blanks and comments come next. -/
def blankCount (comment : Bool) : List Char → Nat
  | [] => 0
  | c :: rest =>
    if comment then blankCount (c ≠ '\n') rest + 1
    else if Text.isBlank c then blankCount false rest + 1
    else if c = '#' then blankCount true rest + 1
    else 0

/-- Steps over blanks and comments where they do not count. -/
def bumpSpace : Read Unit := fun r =>
  if r.flags.verbose then .ok ((), advance r (blankCount false r.rest)) else .ok ((), r)

/-- Steps over one character and what does not count; tells whether there is more. -/
def bumpAndSpace : Read Bool := do
  bump
  bumpSpace
  return (← peek).isSome

/-- The character after the next one and after what does not count. -/
def peekSpace : Read (Option Char) := fun r =>
  if r.flags.verbose then
    let tail := r.rest.tail
    .ok ((tail.drop (blankCount false tail)).head?, r)
  else .ok (r.rest.tail.head?, r)

/-- Takes characters while `p` holds, skipping after each what does not count. -/
def takeWhile (p : Char → Bool) : Nat → Read (List Char)
  | 0 => return []
  | fuel + 1 => do
    match ← peek with
    | some c =>
      if p c then
        let _ ← bumpAndSpace
        return c :: (← takeWhile p fuel)
      else return []
    | none => return []

/-- The number of characters left. -/
def left : Read Nat := fun r => .ok (r.rest.length, r)

/-! ### Numbers -/

def skipBlanks : Read Unit := do
  let _ ← takeWhile Text.isBlank (← left)

/-- A decimal number below `2^32`, or the flaw of what stands in its place. -/
def decimal (ifEmpty : Cause) : Read (Except Flaw Nat) := do
  skipBlanks
  let start ← spot
  let digits ← takeWhile Char.isDigit (← left)
  let span ← since start
  skipBlanks
  let n := digits.foldl (fun n c => 10 * n + (c.toNat - 48)) 0
  if digits.isEmpty then return .error ⟨ifEmpty, span, none⟩
  else if 2 ^ 32 ≤ n then return .error ⟨.invalidDecimal, span, none⟩
  else return .ok n

/-- The number, or failure with its flaw. -/
def settle (n : Except Flaw Nat) : Read Nat := fun r => n.map fun n => (n, r)

/-- The value of a hexadecimal digit. -/
def hexValue? (c : Char) : Option Nat :=
  if c.isDigit then some (c.toNat - 48)
  else if 'a' ≤ c && c ≤ 'f' then some (c.toNat - 87)
  else if 'A' ≤ c && c ≤ 'F' then some (c.toNat - 55)
  else none

/-- The character with a code point, where there is one. -/
def charOf (n : Nat) (span : Span) : Read Char :=
  if h : n.isValidChar then return Char.ofNatAux n h else fail .invalidHex span

/-- Exactly `count` hexadecimal digits; `value` is what came before. -/
def fixedHex (start : Spot) (value : Nat) : Nat → Read Char
  | 0 => do charOf value (← since start)
  | count + 1 => do
    match ← peek with
    | none => fail .unfinishedEscape (← here)
    | some c =>
      match hexValue? c with
      | none => fail .invalidHexDigit (← nextSpan)
      | some d =>
        let _ ← bumpAndSpace
        fixedHex start (16 * value + d) count

/-- Hexadecimal digits up to a closing brace. -/
def bracedDigits (fuel : Nat) (value count : Nat) : Read (Nat × Nat) := do
  match fuel, ← peek with
  | 0, _ => return (value, count)
  | _, none => return (value, count)
  | fuel + 1, some c =>
    if c = '\x7d' then return (value, count)
    else
      match hexValue? c with
      | none => fail .invalidHexDigit (← nextSpan)
      | some d =>
        let _ ← bumpAndSpace
        bracedDigits fuel (16 * value + d) (count + 1)

/-- A character given by its code point, after the letter of the escape. -/
def hexEscape (digits : Nat) : Read Char := do
  if !(← bumpAndSpace) then fail .unfinishedEscape (← here)
  else if (← peek) = some '\x7b' then
    let brace ← spot
    let _ ← bumpAndSpace
    let start := after brace '\x7b'
    let (value, count) ← bracedDigits (← left) 0 0
    if (← peek).isNone then fail .unfinishedEscape (← since brace)
    else
      let inner ← since start
      let _ ← bumpAndSpace
      if count = 0 then fail .emptyHex (← since brace) else charOf value inner
  else fixedHex (← spot) 0 digits

/-! ### Escapes -/

/-- What an escape stands for. -/
inductive Escape where
  | literal (c : Char)
  | set (s : CharSet)
  | look (l : Look)

/-- The name in a class `\p…`: one letter, or what stands between braces. -/
def className : Read (List Char) := do
  if !(← bumpAndSpace) then fail .unfinishedEscape (← here)
  else
    match ← peek with
    | some '\x7b' =>
      let _ ← bumpAndSpace
      let name ← takeWhile (· ≠ '\x7d') (← left)
      if (← peek).isNone then fail .unfinishedEscape (← here)
      else
        bump
        return name
    | some c =>
      if c = '\\' then fail .invalidUnicodeClass (← nextSpan)
      else
        let _ ← bumpAndSpace
        return [c]
    | none => fail .unfinishedEscape (← here)

/-- A name split at the first occurrence of a sign: the part before and the part after. -/
def splitAt? (sign : List Char) : List Char → Option (List Char × List Char)
  | [] => none
  | c :: rest =>
    match Text.after? sign (c :: rest) with
    | some after => some ([], after)
    | none => (splitAt? sign rest).map fun (before, after) => (c :: before, after)

/-- The class with a name that may hold a property and its value. -/
def unicodeClass (start : Spot) (negated : Bool) (name : List Char) : Read CharSet := do
  let span ← since start
  let pair (negated : Bool) (property value : List Char) : Read CharSet :=
    match valued? (String.ofList property) (String.ofList value) with
    | some s => return .negateIf negated s
    | none =>
      if plainName (String.ofList property) ∈ ["generalcategory", "gc", "category"] then
        fail .unknownPropertyValue span
      else fail .unknownProperty span
  -- the sign that comes first decides nothing: these are looked for in this order
  match splitAt? ['!', '='] name with
  | some (property, value) => pair (!negated) property value
  | none =>
    match splitAt? [':'] name with
    | some (property, value) => pair negated property value
    | none =>
      match splitAt? ['='] name with
      | some (property, value) => pair negated property value
      | none =>
        match named? (String.ofList name) with
        | some s => return .negateIf negated s
        | none => fail .unknownProperty span

/-- The class of a letter after a backslash. -/
def letterClass? (unicode : Bool) (c : Char) : Option CharSet :=
  let pick (p : Property) (name : String) : CharSet :=
    if unicode then .property p else CharSet.ofRanges ((asciiRanges? name).getD [])
  match c with
  | 'd' => some (pick .digit "digit")
  | 'D' => some (.complement (pick .digit "digit"))
  | 's' => some (pick .space "space")
  | 'S' => some (.complement (pick .space "space"))
  | 'w' => some (pick .word "word")
  | 'W' => some (.complement (pick .word "word"))
  | _ => none

/-- The control character of a letter after a backslash. -/
def controlEscape? : Char → Option Char
  | 'a' => some '\x07'
  | 'f' => some '\x0c'
  | 't' => some '\t'
  | 'n' => some '\n'
  | 'r' => some '\r'
  | 'v' => some '\x0b'
  | _ => none

/-- The look of a word between braces after `\b`. -/
def boundaryNamed? : String → Option Look
  | "start" => some .wordStart
  | "end" => some .wordEnd
  | "start-half" => some .wordStartHalf
  | "end-half" => some .wordEndHalf
  | _ => none

/-- What may follow `\b`: a kind of boundary between braces, or something else altogether. -/
def boundary (start : Spot) : Read Look := fun r => do
  if r.rest.head? ≠ some '\x7b' then return (.wordBoundary, r)
  let isWordLetter (c : Char) : Bool := c.isAlpha || c = '-'
  let brace := r.spot
  let (more, inside) ← bumpAndSpace.run r
  if !more then .error ⟨.unfinishedBoundary, ⟨start, inside.spot⟩, none⟩
  -- braces that hold no word are the bounds of a repetition, which is read later
  else if !(inside.rest.head?.any isWordLetter) then return (.wordBoundary, r)
  else
    let (word, after) ← (takeWhile isWordLetter inside.rest.length).run inside
    if after.rest.head? ≠ some '\x7d' then
      .error ⟨.unclosedBoundary, ⟨brace, after.spot⟩, none⟩
    else
      match boundaryNamed? (String.ofList word) with
      | some look => do
        let ((), done) ← bump.run after
        return (look, done)
      | none => .error ⟨.unknownBoundary, ⟨inside.spot, after.spot⟩, none⟩

/-- Whether a character other than a letter or digit stands for itself after a backslash. -/
def standsForItself (c : Char) : Bool :=
  c.toNat < 0x80 && !c.isAlphanum && c ≠ '<' && c ≠ '>'

/-- An escape, from its backslash. -/
def escape : Read Escape := do
  let start ← spot
  bump
  match ← peek with
  | none => fail .unfinishedEscape (← since start)
  | some c =>
    -- digits would be a reference to a group
    if c.isDigit then fail .backreference ⟨start, (← nextSpan).stop⟩
    else if c = 'x' then return .literal (← hexEscape 2)
    else if c = 'u' then return .literal (← hexEscape 4)
    else if c = 'U' then return .literal (← hexEscape 8)
    else if c = 'p' || c = 'P' then
      let name ← className
      return .set (.foldIf (← flags).ignoreCase (← unicodeClass start (c = 'P') name))
    else
      bump
      let span ← since start
      -- the letter is read before it is known to be one
      match letterClass? (← flags).unicode c, controlEscape? c with
      | some s, _ => return .set s
      | none, some control => return .literal control
      | none, none =>
        if standsForItself c then return .literal c
        else
          match c with
          | 'A' => return .look .textStart
          | 'z' => return .look .textEnd
          | 'b' => return .look (← boundary start)
          | 'B' => return .look .noWordBoundary
          | '<' => return .look .wordStart
          | '>' => return .look .wordEnd
          | _ => fail .unknownEscape span

/-! ### Classes between brackets -/

/-- An item of a class, with the place where it starts. -/
def classItem : Read (Escape × Spot) := do
  let start ← spot
  match ← peek with
  | some '\\' => return (← escape, start)
  | some c => do
    bump
    return (.literal c, start)
  | none => return (.literal '\x00', start)

/-- A literal item, as the end of a range must be. -/
def rangeEnd (item : Escape) (span : Span) : Read Char :=
  match item with
  | .literal c => return c
  | _ => fail .rangeNotLiteral span

/-- An item or a range; `opened` is the innermost open bracket. -/
def classRange (opened : Span) : Read CharSet := do
  let (first, start) ← classItem
  let firstSpan ← since start
  bumpSpace
  match ← peek with
  | none => fail .unclosedClass opened
  | some c =>
    let next ← peekSpace
    -- a hyphen before a bracket or before another hyphen makes no range
    if c ≠ '-' || next = some ']' || next = some '-' then
      match first with
      | .literal c => return .single c
      | .set s => return s
      | .look _ => fail .invalidClassEscape firstSpan
    else if !(← bumpAndSpace) then fail .unclosedClass opened
    else
      let (last, lastStart) ← classItem
      let lastSpan ← since lastStart
      let low ← rangeEnd first firstSpan
      let high ← rangeEnd last lastSpan
      if high < low then fail .invalidClassRange ⟨start, lastSpan.stop⟩
      else return .range low high

/-- A class with a name between colons, if one stands at the bracket. -/
def asciiClass? (text : List Char) : Option (CharSet × Nat) :=
  match text with
  | '[' :: ':' :: rest =>
    let (negated, body) :=
      match rest with
      | '^' :: more => (true, more)
      | more => (false, more)
    let name := body.takeWhile (· ≠ ':')
    match body.dropWhile (· ≠ ':'), asciiRanges? (String.ofList name) with
    | ':' :: ']' :: _, some ranges =>
      some (.negateIf negated (CharSet.ofRanges ranges),
        name.length + (if negated then 5 else 4))
    -- without its colon and bracket it is a class in a class like any other
    | _, _ => none
  | _ => none

/-- An operation that waits for its right side. -/
inductive Operation where
  | intersection
  | difference
  | symmetricDifference

/-- A class on its way: the operations that wait with their left sides, outermost last, and the items
since the last operation, in reverse. -/
structure OpenClass where
  waiting : List (Operation × CharSet)
  items : List CharSet

/-- The items so far as one class, joined to what waits for them. -/
def OpenClass.close (ignoreCase : Bool) (c : OpenClass) : CharSet :=
  let right := CharSet.foldIf ignoreCase (.union c.items.reverse)
  match c.waiting with
  | [] => right
  | (.intersection, left) :: _ => .intersection left right
  | (.difference, left) :: _ => .difference left right
  | (.symmetricDifference, left) :: _ => .symmetricDifference left right

/-- Hyphens at the beginning of a class. -/
def leadingHyphens (start : Spot) : Nat → Read (List CharSet)
  | 0 => return []
  | fuel + 1 => do
    if (← peek) = some '-' then
      if !(← bumpAndSpace) then fail .unclosedClass ⟨start, start⟩
      else return .single '-' :: (← leadingHyphens start fuel)
    else return []

/-- Steps over a sign that is known to come next; the class must go on after it. -/
def stepOver (there : Bool) (start : Spot) : Read Unit := do
  if there then
    if !(← bumpAndSpace) then fail .unclosedClass (← since start)

mutual

/-- A class from its opening bracket. -/
def bracket (fuel : Nat) : Read CharSet := do
  match fuel with
  | 0 => fail .unclosedClass (← here)
  | fuel + 1 =>
    let start ← spot
    if !(← bumpAndSpace) then fail .unclosedClass (← since start)
    else
      let negated := (← peek) = some '^'
      stepOver negated start
      let hyphens ← leadingHyphens start (← left)
      -- a bracket that would close an empty class is an item
      let closing := hyphens.isEmpty && (← peek) = some ']'
      stepOver closing start
      let items := if closing then [.single ']'] else hyphens.reverse
      let s ← classItems fuel (← since start) ⟨[], items⟩
      return .negateIf negated (.foldIf (← flags).ignoreCase s)

/-- The rest of a class up to its closing bracket. -/
def classItems (fuel : Nat) (opened : Span) (c : OpenClass) : Read CharSet := do
  match fuel with
  | 0 => fail .unclosedClass opened
  | fuel + 1 =>
    bumpSpace
    let ignoreCase := (← flags).ignoreCase
    match ← peek with
    | none => fail .unclosedClass opened
    | some '[' =>
      let text ← (fun r => .ok (r.rest, r) : Read (List Char))
      match asciiClass? text with
      | some (s, count) =>
        (fun r => .ok ((), advance r count) : Read Unit)
        classItems fuel opened { c with items := s :: c.items }
      | none =>
        let s ← bracket fuel
        classItems fuel opened { c with items := s :: c.items }
    | some ']' => do
      bump
      return c.close ignoreCase
    | some d =>
      let operation? : Option Operation :=
        match d with
        | '&' => some .intersection
        | '-' => some .difference
        | '~' => some .symmetricDifference
        | _ => none
      -- an operation is spelled by a sign that stands twice
      let doubled := (← peekSecond) = some d
      match operation?.filter fun _ => doubled with
      | some operation =>
        bump
        bump
        classItems fuel opened ⟨[(operation, c.close ignoreCase)], []⟩
      | none =>
        let s ← classRange opened
        classItems fuel opened { c with items := s :: c.items }

end

/-! ### Repetition -/

/-- A part of a sequence: something that can be repeated, or flags. -/
inductive Part where
  | node (n : Node)
  | flags

/-- The last part, which is to be repeated, and the parts before it. -/
def lastPart (parts : List Part) : Read (Node × List Part) := do
  match parts with
  | .node n :: rest => return (n, rest)
  | _ => fail .nothingToRepeat (← here)

/-- Whether a question mark turns the repetition into a lazy one. -/
def greediness : Read Bool := do
  let lazy := (← flags).lazy
  if (← peek) = some '?' then
    bump
    return lazy
  else return !lazy

/-- A repetition by one sign. -/
def simpleRepetition (least : Nat) (most : Option Nat) (parts : List Part) : Read (List Part) := do
  let (body, rest) ← lastPart parts
  bump
  return .node (.repeated least most (← greediness) body) :: rest

/-- The bounds between braces. -/
def bounds (start : Spot) : Read (Nat × Option Nat) := do
  let unclosed : Read (Nat × Option Nat) := do fail .unclosedCount (← since start)
  let least ← decimal .emptyCount
  match ← peek with
  | none => unclosed
  | some ',' =>
    if !(← bumpAndSpace) then unclosed
    else if (← peek) = some '\x7d' then return (← settle least, none)
    else
      let low ← settle least
      return (low, some (← settle (← decimal .emptyCount)))
  | some _ =>
    let low ← settle least
    return (low, some low)

/-- A repetition by bounds. -/
def countedRepetition (parts : List Part) : Read (List Part) := do
  let (body, rest) ← lastPart parts
  let start ← spot
  if !(← bumpAndSpace) then fail .unclosedCount (← since start)
  else
    let (least, most) ← bounds start
    if (← peek) ≠ some '\x7d' then fail .unclosedCount (← since start)
    else
      let _ ← bumpAndSpace
      let greedy ← greediness
      if most.any (· < least) then fail .invalidCount (← since start)
      else return .node (.repeated least most greedy body) :: rest

/-! ### Groups -/

/-- A flag by its letter. -/
inductive FlagItem where
  | negation
  | flag (letter : Char)
deriving DecidableEq

/-- Sets one flag. -/
def setFlag (f : Flags) (letter : Char) (on : Bool) : Flags :=
  match letter with
  | 'i' => { f with ignoreCase := on }
  | 'm' => { f with multiLine := on }
  | 's' => { f with dotMatchesLine := on }
  | 'U' => { f with lazy := on }
  | 'u' => { f with unicode := on }
  | 'x' => { f with verbose := on }
  | _ => f

/-- Sets the flags of a list: on before the negation sign, off after it. -/
def setFlags (on : Bool) (f : Flags) : List FlagItem → Flags
  | [] => f
  | .negation :: rest => setFlags false f rest
  | .flag letter :: rest => setFlags on (setFlag f letter on) rest

/-- The flag letters up to a colon or a closing parenthesis; `seen` holds the items before, latest
first. -/
def flagItems (seen : List (FlagItem × Span)) : Nat → Read (List (FlagItem × Span))
  | 0 => return seen
  | fuel + 1 => do
    match ← peek with
    | none => return seen
    | some c =>
      let span ← nextSpan
      if c = ':' || c = ')' then
        match seen with
        | (.negation, negation) :: _ => fail .danglingNegation negation
        | _ => return seen
      else
        let item : FlagItem := if c = '-' then .negation else .flag c
        if c ≠ '-' && !(c ∈ ['i', 'm', 's', 'U', 'u', 'R', 'x']) then fail .unknownFlag span
        else
          -- the error names both places
          match seen.find? fun (i, _) => i = item with
          | some (_, earlier) =>
            failAgain (if c = '-' then .repeatedNegation else .repeatedFlag) span earlier
          | none =>
            bump
            if (← peek).isNone then fail .unfinishedFlags (← here)
            else flagItems ((item, span) :: seen) fuel

/-- Whether a character may stand in the name of a group. -/
def isNameChar (first : Bool) (c : Char) : Bool :=
  let category := Text.Category.of c
  let letter := category.isLetter || category = .nl
  if first then c = '_' || letter
  else c = '_' || c = '.' || c = '[' || c = ']' || letter || category.isNumber

/-- The characters of a name up to the closing angle. -/
def nameChars (start : Spot) : Nat → Read (List Char)
  | 0 => return []
  | fuel + 1 => do
    match ← peek with
    | none => return []
    | some '>' => return []
    | some c =>
      if !isNameChar ((← spot) = start) c then fail .invalidName (← nextSpan)
      else
        bump
        return c :: (← nameChars start fuel)

/-- The name of a group, from after its opening angle. -/
def groupName : Read Unit := do
  if (← peek).isNone then fail .unfinishedName (← here)
  else
    let start ← spot
    let name ← nameChars start (← left)
    let span ← since start
    if (← peek).isNone then fail .unfinishedName (← here)
    else
      bump
      if name.isEmpty then fail .emptyName ⟨start, start⟩
      else
        let known : List (List Char × Span) ← (fun r => .ok (r.names, r))
        match known.find? fun (n, _) => n = name with
        | some (_, earlier) => failAgain .repeatedName span earlier
        | none => (fun r => .ok ((), { r with names := (name, span) :: r.names }))

/-- The number of the next remembered group. -/
def nextGroup : Read Nat := fun r => .ok (r.groups + 1, { r with groups := r.groups + 1 })

/-- Replaces the flags. -/
def useFlags (f : Flags) : Read Unit := fun r => .ok ((), { r with flags := f })

/-- How a group opens. -/
inductive Opening where
  /-- Flags for the rest of the group around. -/
  | flags
  /-- A group with a number, or without one. -/
  | group (number : Option Nat)

/-- The beginning of a group, from its parenthesis. -/
def opening : Read Opening := do
  let span ← nextSpan
  bump
  bumpSpace
  -- an angle alone may also begin a name, so that these are tried first
  for word in ([['?', '='], ['?', '!'], ['?', '<', '='], ['?', '<', '!']] : List (List Char)) do
    if ← bumpIf word then
      let _ : Unit ← fail .lookAround (← since span.start)
  let inner ← here
  if ← (do if ← bumpIf ['?', 'P', '<'] then return true else bumpIf ['?', '<']) then
    let number ← nextGroup
    groupName
    return .group (some number)
  else if ← bumpIf ['?'] then
    if (← peek).isNone then fail .unclosedGroup span
    else
      let items ← flagItems [] (← left)
      let changed := setFlags true (← flags) (items.reverse.map Prod.fst)
      if (← peek) = some ')' then
        bump
        -- `(?)` reads as a repetition of nothing
        if items.isEmpty then fail .nothingToRepeat inner
        else
          useFlags changed
          return .flags
      else
        bump
        useFlags changed
        return .group none
  else return .group (some (← nextGroup))

/-! ### The whole pattern -/

/-- The parts of a sequence, given in reverse. -/
def sequence (parts : List Part) : Node :=
  let nodes := parts.reverse.filterMap fun
    | .node n => some n
    | .flags => none
  match nodes with
  | [] => .empty
  | [n] => n
  | many => .sequence many

/-- A single character as a node. -/
def literal (f : Flags) (c : Char) : Node :=
  .one (.foldIf f.ignoreCase (.single c))

/-- What a dot matches. -/
def dot (f : Flags) : Node :=
  if f.dotMatchesLine then .one (.property .any) else .one (.complement (.single '\n'))

mutual

/-- Alternatives up to a closing parenthesis or the end; `done` holds those before, in reverse. -/
def alternatives (fuel : Nat) (done : List Node) : Read Node := do
  match fuel with
  | 0 => return .alternatives done.reverse
  | fuel + 1 =>
    let branch ← parts fuel []
    if (← peek) = some '|' then
      bump
      alternatives fuel (branch :: done)
    else
      match done with
      | [] => return branch
      | _ => return .alternatives (branch :: done).reverse

/-- The parts of one alternative; `before` holds those before, in reverse. -/
def parts (fuel : Nat) (before : List Part) : Read Node := do
  match fuel with
  | 0 => return sequence before
  | fuel + 1 =>
    bumpSpace
    let f ← flags
    match ← peek with
    | none => return sequence before
    | some ')' => return sequence before
    | some '|' => return sequence before
    | some '(' =>
      let span ← nextSpan
      match ← opening with
      | .flags => parts fuel (.flags :: before)
      | .group number =>
        let body ← alternatives fuel []
        if (← peek).isNone then fail .unclosedGroup span
        else
          bump
          -- flags that are set in a group end with it
          useFlags f
          match number with
          | some n => parts fuel (.node (.group n body) :: before)
          | none => parts fuel (.node body :: before)
    | some '[' => parts fuel (.node (.one (← bracket (2 * (← left) + 2))) :: before)
    | some '?' => parts fuel (← simpleRepetition 0 (some 1) before)
    | some '*' => parts fuel (← simpleRepetition 0 none before)
    | some '+' => parts fuel (← simpleRepetition 1 none before)
    | some '\x7b' => parts fuel (← countedRepetition before)
    | some '\\' =>
      match ← escape with
      | .literal c => parts fuel (.node (literal f c) :: before)
      | .set s => parts fuel (.node (.one s) :: before)
      | .look l => parts fuel (.node (.look l) :: before)
    | some '.' => do
      bump
      parts fuel (.node (dot f) :: before)
    | some '^' => do
      bump
      parts fuel (.node (.look (if f.multiLine then .lineStart else .textStart)) :: before)
    | some '$' => do
      bump
      parts fuel (.node (.look (if f.multiLine then .lineEnd else .textEnd)) :: before)
    | some c => do
      bump
      parts fuel (.node (literal f c) :: before)

end

end Read

/-- **Reading a pattern.** -/
def read (pattern : String) : Except Flaw Node := do
  let chars := pattern.toList
  let start : Reader := ⟨chars, ⟨1, 1⟩, .start, 0, []⟩
  let (node, rest) ← (Read.alternatives (2 * chars.length + 2) []).run start
  match rest.rest with
  | [] => return node
  | c :: _ => .error ⟨.unopenedGroup, ⟨rest.spot, Read.after rest.spot c⟩, none⟩

end Pattern

end Scenario
