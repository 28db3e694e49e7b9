import Scenario.Binary64.Decimal
import Scenario.Json.Printer

/-!
# Script literals

`ofValue` writes a JSON value as a literal of the script language: `()` for null, `[a, b]` for a
list, `#\x7b"k": v\x7d` for an object, and a string between double quotes. A floating-point number without
a fraction keeps one place, so that the script reads it as a floating-point number again.
-/

namespace Scenario

namespace Script

namespace Literal

/-- Whether a character is a control character. -/
def isControl (c : Char) : Bool :=
  c.toNat < 0x20 || (0x7F ≤ c.toNat && c.toNat < 0xA0)

/-- A character inside double quotes. -/
def encodeChar (c : Char) : List Char :=
  if c = '\\' then ['\\', '\\']
  else if c = '\x22' then ['\\', '\x22']
  else if c = '\n' then ['\\', 'n']
  else if c = '\r' then ['\\', 'r']
  else if c = '\t' then ['\\', 't']
  else if isControl c then '\\' :: 'u' :: Json.fourHex c.toNat
  else [c]

/-- What stands between the quotes of a string literal. -/
def escape (text : List Char) : List Char :=
  text.flatMap encodeChar

/-- A string literal. -/
def quote (text : String) : String :=
  "\"" ++ String.ofList (escape text.toList) ++ "\""

/-- A number. Integers beyond 64 bits with a sign are written as floating-point numbers. -/
def number (n : Json.Number) : String :=
  match n.toInt64? with
  | some i => toString i
  | none =>
    let x := n.toFinite
    if x.isIntegral then Binary64.fixedStyle 1 (.finite x) else n.text

mutual

/-- **The literal of a value.** -/
def ofValue : Json.Value → String
  | .null => "()"
  | .bool b => if b then "true" else "false"
  | .number n => number n
  | .string s => quote s
  | .array items => "[" ++ ", ".intercalate (ofItems items) ++ "]"
  | .object members => "#\x7b" ++ ", ".intercalate (ofMembers members) ++ "\x7d"

def ofItems : List Json.Value → List String
  | [] => []
  | v :: rest => ofValue v :: ofItems rest

def ofMembers : List (String × Json.Value) → List String
  | [] => []
  | (k, v) :: rest => (quote k ++ ": " ++ ofValue v) :: ofMembers rest

end

end Literal

end Script

end Scenario
