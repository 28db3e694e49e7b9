/-!
# Percent encoding

A byte outside a set of plain characters is written as `%` and two upper-case hexadecimal digits.
`encode` writes texts byte by byte in UTF-8, `formEncode` writes the pairs of a form, and
`decodeBytes` reads the escapes back.
-/

namespace Scenario

namespace Http

namespace Percent

/-- An upper-case hexadecimal digit. -/
def hexDigit (n : Nat) : Char :=
  if n < 10 then Char.ofNat (48 + n) else Char.ofNat (55 + n)

/-- The escape of a byte. -/
def escape (byte : UInt8) : List Char :=
  ['%', hexDigit (byte.toNat / 16), hexDigit (byte.toNat % 16)]

/-- The bytes of a character. -/
def bytesOf (c : Char) : List UInt8 :=
  c.toString.toUTF8.toList

/-- The characters of a text, with those outside ASCII and those that satisfy `escaped` escaped. -/
def encodeChars (escaped : Char → Bool) (text : List Char) : List Char :=
  text.flatMap fun c =>
    if 0x80 ≤ c.toNat || escaped c then (bytesOf c).flatMap escape else [c]

/-- **The text with escapes.** -/
def encode (escaped : Char → Bool) (text : String) : String :=
  String.ofList (encodeChars escaped text.toList)

/-- Control characters. -/
def isControl (c : Char) : Bool := c.toNat < 0x20 || c = '\x7f'

/-- What is escaped in a fragment. -/
def inFragment (c : Char) : Bool :=
  isControl c || c ∈ [' ', '\x22', '<', '>', '\x60']

/-- What is escaped in a path. -/
def inPath (c : Char) : Bool :=
  inFragment c || c ∈ ['#', '?', '\x7b', '\x7d']

/-- What is escaped in a query. -/
def inQuery (c : Char) : Bool :=
  isControl c || c ∈ [' ', '\x22', '#', '<', '>', '\x27']

/-- What is escaped in the name of a form part. -/
def inPartName (c : Char) : Bool :=
  isControl c || c ∈ [' ', '\x22', '<', '>', '\x60', '#', '?', '\x7b', '\x7d', '/', '%']

/-- The value of a hexadecimal digit. -/
def hexValue? (c : Char) : Option Nat :=
  if c.isDigit then some (c.toNat - 48)
  else if 'a' ≤ c && c ≤ 'f' then some (c.toNat - 87)
  else if 'A' ≤ c && c ≤ 'F' then some (c.toNat - 55)
  else none

/-- The bytes of a text whose escapes are read; an escape that is none stays as it is. -/
def decodeBytes : List Char → List UInt8
  | '%' :: a :: b :: rest =>
    match hexValue? a, hexValue? b with
    | some x, some y => UInt8.ofNat (16 * x + y) :: decodeBytes rest
    | _, _ => UInt8.ofNat 0x25 :: decodeBytes (a :: b :: rest)
  | c :: rest => bytesOf c ++ decodeBytes rest
  | [] => []

/-- A form character: letters, digits and `*-._` stand for themselves, a blank becomes `+`. -/
def formByte (byte : UInt8) : List Char :=
  let c := Char.ofNat byte.toNat
  if byte.toNat < 0x80 && (c.isAlphanum || c ∈ ['*', '-', '.', '_']) then [c]
  else if c = ' ' then ['+']
  else escape byte

/-- A form text. -/
def formText (text : String) : String :=
  String.ofList (text.toUTF8.toList.flatMap formByte)

/-- **The pairs of a form.** -/
def formEncode (pairs : List (String × String)) : String :=
  "&".intercalate (pairs.map fun (k, v) => formText k ++ "=" ++ formText v)

end Percent

end Http

end Scenario
