/-!
# Base 64

Three bytes become four characters of six bits each; the last group is filled with equals signs.
-/

namespace Scenario

namespace Text

namespace Base64

/-- The character of six bits. -/
def char (n : Nat) : Char :=
  if n < 26 then Char.ofNat (65 + n)
  else if n < 52 then Char.ofNat (71 + n)
  else if n < 62 then Char.ofNat (n - 4)
  else if n = 62 then '+'
  else '/'

/-- The characters of a list of bytes. -/
def encodeBytes : List UInt8 → List Char
  | [] => []
  | [a] => [char (a.toNat / 4), char (a.toNat % 4 * 16), '=', '=']
  | [a, b] =>
    [char (a.toNat / 4), char (a.toNat % 4 * 16 + b.toNat / 16), char (b.toNat % 16 * 4), '=']
  | a :: b :: c :: rest =>
    char (a.toNat / 4) :: char (a.toNat % 4 * 16 + b.toNat / 16) ::
      char (b.toNat % 16 * 4 + c.toNat / 64) :: char (c.toNat % 64) :: encodeBytes rest

/-- **The base 64 form** of a text in UTF-8. -/
def encode (text : String) : String :=
  String.ofList (encodeBytes text.toUTF8.toList)

end Base64

end Text

end Scenario
