import Scenario.Binary64.Decimal
import Scenario.Json.Value

/-!
# Writing JSON

`Value.compact` writes a value without blanks, `Value.pretty` with a line per item and two blanks
per level. `Quoted.encode` is the quoting of both.
-/

namespace Scenario

namespace Json

/-- A lower-case hexadecimal digit. -/
def hexDigit (n : Nat) : Char :=
  Nat.digitChar n

/-- The four hexadecimal digits of a UTF-16 unit. -/
def fourHex (n : Nat) : List Char :=
  [hexDigit (n / 4096 % 16), hexDigit (n / 256 % 16), hexDigit (n / 16 % 16), hexDigit (n % 16)]

namespace Quoted

/-- One character of a string: a quote, a backslash and the control characters are escaped, by a
letter where there is one. -/
def encodeChar (c : Char) : List Char :=
  if c = '\x22' then ['\\', '\x22']
  else if c = '\\' then ['\\', '\\']
  else if c = '\x08' then ['\\', 'b']
  else if c = '\x0c' then ['\\', 'f']
  else if c = '\n' then ['\\', 'n']
  else if c = '\r' then ['\\', 'r']
  else if c = '\t' then ['\\', 't']
  else if c.toNat < 0x20 then '\\' :: 'u' :: fourHex c.toNat
  else [c]

/-- The quoted form of a string. -/
def encode (s : String) : String :=
  "\"" ++ String.ofList (s.toList.flatMap encodeChar) ++ "\""

end Quoted

/-- The text of a number. -/
def Number.text : Number → String
  | .integer n => toString n
  | .float x => x.exponentStyle

namespace Value

mutual

/-- **The compact form:** no blanks, members in key order. -/
def compact : Value → String
  | .null => "null"
  | .bool b => if b then "true" else "false"
  | .number n => n.text
  | .string s => Quoted.encode s
  | .array items => "[" ++ ",".intercalate (compactItems items) ++ "]"
  | .object members => "\x7b" ++ ",".intercalate (compactMembers members) ++ "\x7d"

def compactItems : List Value → List String
  | [] => []
  | v :: rest => compact v :: compactItems rest

def compactMembers : List (String × Value) → List String
  | [] => []
  | (k, v) :: rest => (Quoted.encode k ++ ":" ++ compact v) :: compactMembers rest

end

/-- Two blanks per level. -/
def indentation (level : Nat) : String :=
  String.ofList (List.replicate (2 * level) ' ')

mutual

/-- **The indented form:** every item and member on a line of its own. -/
def prettyAt (level : Nat) : Value → String
  | .array [] => "[]"
  | .array items =>
    "[\n" ++ ",\n".intercalate (prettyItems (level + 1) items) ++ "\n" ++ indentation level ++ "]"
  | .object [] => "\x7b\x7d"
  | .object members =>
    "\x7b\n" ++ ",\n".intercalate (prettyMembers (level + 1) members) ++ "\n" ++
      indentation level ++ "\x7d"
  | v => compact v

def prettyItems (level : Nat) : List Value → List String
  | [] => []
  | v :: rest => (indentation level ++ prettyAt level v) :: prettyItems level rest

def prettyMembers (level : Nat) : List (String × Value) → List String
  | [] => []
  | (k, v) :: rest =>
    (indentation level ++ Quoted.encode k ++ ": " ++ prettyAt level v) :: prettyMembers level rest

end

def pretty (v : Value) : String := prettyAt 0 v

end Value

end Json

end Scenario
