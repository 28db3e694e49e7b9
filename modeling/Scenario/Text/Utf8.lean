/-!
# Reading UTF-8 that may be broken

`Text.ofBytes` reads bytes as UTF-8. Where the bytes are no UTF-8, the longest start of a character
that cannot be completed, or else a single byte, becomes one replacement character.
-/

namespace Scenario

namespace Text

/-- The replacement character. -/
def replacement : Char := Char.ofNat 0xFFFD

/-- What a first byte announces: the number of bytes that follow, the bits that it carries itself,
and the range of the second byte. -/
def leadByte? (b : Nat) : Option (Nat × Nat × Nat × Nat) :=
  if 0xC2 ≤ b && b ≤ 0xDF then some (1, b % 32, 0x80, 0xBF)
  else if b = 0xE0 then some (2, 0, 0xA0, 0xBF)
  else if b = 0xED then some (2, 13, 0x80, 0x9F)
  else if 0xE1 ≤ b && b ≤ 0xEF then some (2, b % 16, 0x80, 0xBF)
  else if b = 0xF0 then some (3, 0, 0x90, 0xBF)
  else if 0xF1 ≤ b && b ≤ 0xF3 then some (3, b % 8, 0x80, 0xBF)
  else if b = 0xF4 then some (3, 4, 0x80, 0x8F)
  else none

/-- A character on its way. -/
structure OpenChar where
  /-- The bytes still to come. -/
  missing : Nat
  bits : Nat
  /-- The range of the next byte. -/
  low : Nat
  high : Nat

/-- The characters that a byte completes when no character is open, and the character it opens. -/
def startByte (b : Nat) : List Char × Option OpenChar :=
  if b < 0x80 then ([Char.ofNat b], none)
  else
    match leadByte? b with
    | some (missing, bits, low, high) => ([], some ⟨missing, bits, low, high⟩)
    | none => ([replacement], none)

/-- One byte more. -/
def takeByte (state : Option OpenChar) (b : Nat) : List Char × Option OpenChar :=
  match state with
  | none => startByte b
  | some c =>
    if c.low ≤ b && b ≤ c.high then
      let bits := c.bits * 64 + b % 64
      if c.missing ≤ 1 then ([Char.ofNat bits], none)
      else ([], some ⟨c.missing - 1, bits, 0x80, 0xBF⟩)
    else
      let (chars, next) := startByte b
      (replacement :: chars, next)

/-- The characters of bytes. -/
def lossyChars (state : Option OpenChar) : List UInt8 → List Char
  | [] => if state.isSome then [replacement] else []
  | b :: rest =>
    let (chars, next) := takeByte state b.toNat
    chars ++ lossyChars next rest

/-- **The text of bytes.** -/
def ofBytes (bytes : ByteArray) : String :=
  match String.fromUTF8? bytes with
  | some s => s
  | none => String.ofList (lossyChars none bytes.toList)

end Text

end Scenario
