/-!
# Blanks

`isBlank` is the Unicode property of white space; `trim` cuts blanks off both ends of a text.
-/

namespace Scenario

namespace Text

/-- Whether a character is white space. -/
def isBlank (c : Char) : Bool :=
  let n := c.toNat
  (9 ≤ n && n ≤ 13) || n = 0x20 || n = 0x85 || n = 0xA0 || n = 0x1680 ||
    (0x2000 ≤ n && n ≤ 0x200A) || n = 0x2028 || n = 0x2029 || n = 0x202F || n = 0x205F ||
    n = 0x3000

/-- The characters without the leading ones that satisfy `p`. -/
def trimStartList (p : Char → Bool) (text : List Char) : List Char :=
  text.dropWhile p

/-- The characters without the trailing ones that satisfy `p`. -/
def trimEndList (p : Char → Bool) (text : List Char) : List Char :=
  (text.reverse.dropWhile p).reverse

/-- The characters without blanks at both ends. -/
def trimList (text : List Char) : List Char :=
  trimEndList isBlank (trimStartList isBlank text)

/-- **The text without blanks at both ends.** -/
def trim (text : String) : String :=
  String.ofList (trimList text.toList)

/-- Whether a text holds blanks only. -/
def isAllBlank (text : String) : Bool :=
  text.toList.all isBlank

/-- The text without leading characters that satisfy `p`. -/
def trimStart (p : Char → Bool) (text : String) : String :=
  String.ofList (trimStartList p text.toList)

/-- The text without trailing characters that satisfy `p`. -/
def trimEnd (p : Char → Bool) (text : String) : String :=
  String.ofList (trimEndList p text.toList)

/-- The text in ASCII lower case. -/
def asciiLower (text : String) : String :=
  String.ofList (text.toList.map Char.toLower)

/-- The text in ASCII upper case. -/
def asciiUpper (text : String) : String :=
  String.ofList (text.toList.map Char.toUpper)

/-- Equality of texts up to the case of ASCII letters. -/
def sameIgnoringCase (a b : String) : Bool :=
  asciiLower a = asciiLower b

/-- The parts of a list between occurrences of a separator; there is always at least one part. -/
def splitOnChar (separator : Char) : List Char → List (List Char)
  | [] => [[]]
  | c :: rest =>
    if c = separator then [] :: splitOnChar separator rest
    else
      match splitOnChar separator rest with
      | [] => [[c]]
      | part :: parts => (c :: part) :: parts

/-- The parts of a text between occurrences of a separator. -/
def split (separator : Char) (text : String) : List String :=
  (splitOnChar separator text.toList).map String.ofList

/-- The text before and after the first occurrence of a character. -/
def splitOnce? (separator : Char) (text : String) : Option (String × String) :=
  let (before, after) := text.toList.span (· ≠ separator)
  match after with
  | [] => none
  | _ :: rest => some (String.ofList before, String.ofList rest)

/-- The rest of a list after a given beginning. -/
def after? : List Char → List Char → Option (List Char)
  | [], text => some text
  | _ :: _, [] => none
  | p :: start, c :: text => if p = c then after? start text else none

/-- Whether `part` begins the list. -/
def startsWith (part text : List Char) : Bool :=
  (after? part text).isSome

/-- Whether `part` occurs in the list. -/
def occursIn (part : List Char) : List Char → Bool
  | [] => part.isEmpty
  | c :: rest => startsWith part (c :: rest) || occursIn part rest

/-- Whether `part` occurs in the text. -/
def contains (text part : String) : Bool :=
  occursIn part.toList text.toList

/-! ### Small laws -/

theorem after?_eq_some_iff {part text rest : List Char} :
    after? part text = some rest ↔ text = part ++ rest := by
  induction part generalizing text with
  | nil => simp [after?]
  | cons p start ih =>
    cases text with
    | nil => simp [after?]
    | cons c more =>
      rw [after?]
      split
      next hc => rw [ih, hc, List.cons_append, List.cons_inj_right]
      next hc => simp [eq_comm, hc]

theorem startsWith_iff {part text : List Char} : startsWith part text = true ↔ part <+: text := by
  rw [startsWith, Option.isSome_iff_exists]
  exact exists_congr fun _ => after?_eq_some_iff.trans eq_comm

theorem occursIn_iff {part text : List Char} : occursIn part text = true ↔ part <:+: text := by
  induction text with
  | nil => rw [occursIn, List.isEmpty_iff, List.infix_nil]
  | cons c rest ih => rw [occursIn, Bool.or_eq_true, startsWith_iff, ih, List.infix_cons_iff]

end Text

end Scenario
