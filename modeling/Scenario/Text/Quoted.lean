import Scenario.Text.Category
import Scenario.Text.Blank

/-!
# Quoted text

The quoting that log lines and messages use for names: a text between double quotes in which quotes,
backslashes and everything without a visible form of its own is escaped, the latter by code point.
-/

namespace Scenario

namespace Text

namespace Quoted

/-- Spacing marks and other characters that extend the character before them although their category
does not tell. -/
def extendingRanges : List (Nat × Nat) := [
  (0x9BE, 0x9BE), (0x9D7, 0x9D7), (0xB3E, 0xB3E), (0xB57, 0xB57), (0xBBE, 0xBBE), (0xBD7, 0xBD7),
  (0xCC2, 0xCC2), (0xCD5, 0xCD6), (0xD3E, 0xD3E), (0xD57, 0xD57), (0xDCF, 0xDCF), (0xDDF, 0xDDF),
  (0x1B35, 0x1B35), (0x302E, 0x302F), (0xFF9E, 0xFF9F), (0x1133E, 0x1133E), (0x11357, 0x11357),
  (0x114B0, 0x114B0), (0x114BD, 0x114BD), (0x115AF, 0x115AF), (0x11930, 0x11930),
  (0x1D165, 0x1D165), (0x1D16E, 0x1D172)]

/-- Whether a character extends the one before it. -/
def isExtending (c : Char) : Bool :=
  match Category.of c with
  | .mn | .me => true
  | _ => extendingRanges.any fun (first, last) => first ≤ c.toNat && c.toNat ≤ last

/-- Whether a character has a visible form; the plain blank counts as visible. -/
def isVisible (c : Char) : Bool :=
  let category := Category.of c
  c = ' ' || !(category.isSeparator || category.isOther)

/-- Hexadecimal digits without leading zeros. -/
def hex (n : Nat) : String := String.ofList (Nat.toDigits 16 n)

/-- One character inside the quotes. -/
def encodeChar (c : Char) : String :=
  if c = '\x00' then "\\0"
  else if c = '\t' then "\\t"
  else if c = '\n' then "\\n"
  else if c = '\r' then "\\r"
  else if c = '\x22' then "\\\""
  else if c = '\\' then "\\\\"
  else if c.toNat < 0x7F && 0x20 ≤ c.toNat then c.toString
  else if isExtending c || !isVisible c then "\\u\x7b" ++ hex c.toNat ++ "\x7d"
  else c.toString

/-- **The quoted form of a text.** -/
def encode (text : String) : String :=
  "\"" ++ text.toList.foldl (fun acc c => acc ++ encodeChar c) "" ++ "\""

/-- A list of written items between brackets. -/
def list (items : List String) : String :=
  "[" ++ ", ".intercalate items ++ "]"

end Quoted

end Text

end Scenario
