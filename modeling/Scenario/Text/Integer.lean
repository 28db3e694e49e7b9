import Scenario.Power
import Scenario.Text.Blank

/-!
# Integers as text

Readers of decimal integers of 64 bits. A sign may precede the digits, a minus sign only where
negative numbers are allowed; a number out of range is no number.
-/

namespace Scenario

namespace Text

/-- The value of a text of digits, of which there must be at least one. -/
def digitsValue? (digits : List Char) : Option Nat :=
  if digits.isEmpty || !digits.all Char.isDigit then none
  else some (digits.foldl (fun n c => 10 * n + (c.toNat - 48)) 0)

/-- A natural number below `2^64`. -/
def natural? (text : List Char) : Option Nat :=
  let digits :=
    match text with
    | '+' :: rest => rest
    | other => other
  (digitsValue? digits).filter (· < 2 ^ 64)

/-- An integer from `-2^63` to `2^63 - 1`. -/
def integer? (text : List Char) : Option Int :=
  match text with
  | '-' :: rest => ((digitsValue? rest).filter (· ≤ 2 ^ 63)).map fun n => -(n : Int)
  | '+' :: rest => ((digitsValue? rest).filter (· < 2 ^ 63)).map Int.ofNat
  | rest => ((digitsValue? rest).filter (· < 2 ^ 63)).map Int.ofNat

/-- A natural number as a signed 64-bit word. -/
def signed64 (n : Nat) : Int :=
  Int.bmod n (2 ^ 64)

end Text

end Scenario
