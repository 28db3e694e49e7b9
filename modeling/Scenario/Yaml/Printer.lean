import Scenario.Record.Data

/-!
# Writing documents

Data as the lines of a document: one entry or item per line, deeper collections indented by two
blanks, the items of a list under a key not indented any further.

A text is written in the plainest way that reads back as the same text: unquoted, in single quotes,
as a block if it has lines, and in double quotes with escapes if nothing else will do.
-/

namespace Scenario

namespace Yaml

open Record

/-! ### Texts -/

/-- Whether a character can stand for itself. -/
def isPrintable (c : Char) : Bool :=
  let n := c.toNat
  (0x20 ≤ n && n ≤ 0x7E) || (0xA0 ≤ n && n ≤ 0xD7FF && n ≠ 0x2028 && n ≠ 0x2029) ||
    (0xE000 ≤ n && n ≤ 0xFFFD && n ≠ 0xFEFF)

/-- Whether a text could be taken for something else than a text. -/
def isAmbiguous (s : String) : Bool :=
  let word := s.toLower
  match Scalar.ofSpelling s with
  | .text _ =>
    Scalar.spellsNull word || (Scalar.boolOfSpelling? word).isSome || Scalar.isZeroPadded s ||
      word ∈ ["y", "yes", "n", "no", "on", "off"]
  | _ => true

/-- Whether a character that has some text before and after it gives a line a structure. -/
def isMark (before after : List Char) (c : Char) : Bool :=
  let apart := after.head?.all fun d => d = ' ' || d = '\n'
  if c = ':' then apart
  else if before.isEmpty then
    (c ∈ ['#', ',', '[', ']', '\x7b', '\x7d', '&', '*', '!', '|', '>', '\x27', '\x22', '%', '@',
      '\x60']) || ((c = '-' || c = '?') && apart)
  else c = '#' && before.head?.any fun d => d = ' ' || d = '\n'

/-- Whether some character of a text gives a line a structure; `before` is what stands before the
text, last character first. -/
def hasMark (before : List Char) : List Char → Bool
  | [] => false
  | c :: rest => isMark before rest c || hasMark (c :: before) rest

/-- Whether a text of one line can stand without quotes. -/
def standsBare (s : String) : Bool :=
  !s.isEmpty && !isAmbiguous s && !hasMark [] s.toList && !s.startsWith " " && !s.endsWith " " &&
    !s.startsWith "---" && !s.startsWith "..."

/-- A number in hexadecimal capitals, of a fixed length. -/
def hexCapitals (length n : Nat) : String :=
  let digits := (Nat.toDigits 16 n).map Char.toUpper
  String.ofList (List.replicate (length - digits.length) '0' ++ digits)

/-- A character between double quotes. -/
def escapeChar (c : Char) : String :=
  match c with
  | '\x22' => "\\\""
  | '\\' => "\\\\"
  | '\x00' => "\\0"
  | '\x07' => "\\a"
  | '\x08' => "\\b"
  | '\t' => "\\t"
  | '\n' => "\\n"
  | '\x0b' => "\\v"
  | '\x0c' => "\\f"
  | '\r' => "\\r"
  | '\x1b' => "\\e"
  | c =>
    let n := c.toNat
    -- the shortest escape that holds the number
    if isPrintable c then c.toString
    else if n = 0x85 then "\\N"
    else if n = 0x2028 then "\\L"
    else if n = 0x2029 then "\\P"
    else if n < 0x100 then "\\x" ++ hexCapitals 2 n
    else if n < 0x10000 then "\\u" ++ hexCapitals 4 n
    else "\\U" ++ hexCapitals 8 n

/-- A text between double quotes. -/
def doubleQuoted (s : String) : String :=
  "\"" ++ String.join (s.toList.map escapeChar) ++ "\""

/-- A text between single quotes. -/
def singleQuoted (s : String) : String :=
  "'" ++ s.replace "'" "''" ++ "'"

/-- Whether a text with lines can be written as a block. -/
def fitsBlock (s : String) : Bool :=
  (s.toList.all fun c => isPrintable c || c = '\n') && !s.endsWith " " &&
    (s.splitOn " \n").length = 1

/-- The mark of a block: whether its first line is indented on its own, and how it ends. -/
def blockMark (s : String) : String :=
  "|" ++ (if s.startsWith " " || s.startsWith "\n" then "2" else "") ++
    (if !s.endsWith "\n" then "-" else if s = "\n" || s.endsWith "\n\n" then "+" else "")

/-- A text: what stands on the line, and the lines below it, which are indented. -/
def textLines (s : String) : String × List String :=
  if s.contains '\n' then
    if fitsBlock s then
      (blockMark s, ((if s.endsWith "\n" then (s.dropEnd 1).toString else s).splitOn "\n"))
    else (doubleQuoted s, [])
  else if !s.toList.all isPrintable then (doubleQuoted s, [])
  else if standsBare s then (s, [])
  else (singleQuoted s, [])

/-- A scalar: what stands on the line, and the lines below it, which are indented. -/
def scalarLines : Scalar → String × List String
  | .null => ("null", [])
  | .bool b => (if b then "true" else "false", [])
  | .integer n => (toString n, [])
  | .float (.finite x) => (x.pointStyle "", [])
  | .float (.infinity negative) => (if negative then "-.inf" else ".inf", [])
  | .float .nan => (".nan", [])
  | .text s => textLines s

/-! ### Collections -/

/-- A line, indented by two blanks unless it is empty. -/
def indented (line : String) : String :=
  if line.isEmpty then line else "  " ++ line

/-- Lines behind a sign of two characters. -/
def behind (sign : String) : List String → List String
  | [] => []
  | first :: rest => (sign ++ first) :: rest.map indented

/-- Whether a key stands on its line without a sign before it. -/
def isShortKey (key : String) : Bool :=
  !key.contains '\n' && key.utf8ByteSize ≤ 128

/-- The lines of data below a key. -/
def underKey (key : String) (d : Data) (lines : List String) : List String :=
  match isShortKey key, d with
  | false, _ =>
    let (head, tail) := textLines key
    behind "? " (head :: tail) ++ behind ": " lines
  | true, .map (_ :: _) => ((textLines key).1 ++ ":") :: lines.map indented
  | true, .list (_ :: _) => ((textLines key).1 ++ ":") :: lines
  | true, _ => behind ((textLines key).1 ++ ": ") lines

mutual

/-- The lines of data. -/
def linesOf : Data → List String
  | .scalar value _ => (scalarLines value).1 :: (scalarLines value).2
  | .list [] => ["[]"]
  | .list (d :: rest) => behind "- " (linesOf d) ++ linesOfItems rest
  | .map [] => ["\x7b\x7d"]
  | .map ((key, d) :: rest) => underKey key d (linesOf d) ++ linesOfEntries rest

def linesOfItems : List Data → List String
  | [] => []
  | d :: rest => behind "- " (linesOf d) ++ linesOfItems rest

def linesOfEntries : List (String × Data) → List String
  | [] => []
  | (key, d) :: rest => underKey key d (linesOf d) ++ linesOfEntries rest

end

/-- **The document of data.** -/
def render (d : Data) : String :=
  let lines := match d with
    | .scalar .. => behind "" (linesOf d)
    | _ => linesOf d
  String.join (lines.map (· ++ "\n"))

end Yaml

end Scenario
