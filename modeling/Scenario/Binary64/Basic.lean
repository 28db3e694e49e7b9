import Scenario.Power

/-!
# Binary64 numbers

The floating-point numbers of the interchange format binary64, in exact integer arithmetic. A finite
number is a sign, a significand `m` and an exponent `e` and stands for `± m · 2^e`; the pair is kept
in the one canonical form that the format stores, so equal data is equal numbers up to the sign of
zero.

* `Binary64.round` is the nearest number to a ratio of two naturals, ties to the even significand.
  Every operation below is an exact operation on integers followed by this one rounding.
* `Finite.scaled` is the value in units of the smallest positive number `2^-1074`: an integer.
  Comparison of finite numbers is comparison of these integers.
-/

namespace Scenario

namespace Binary64

/-- The pairs the format stores: at most 53 significant bits, the exponent in range, and a full
significand unless the exponent is the least one. -/
def Canonical (significand : Nat) (exponent : Int) : Prop :=
  significand < 2 ^ 53 ∧ -1074 ≤ exponent ∧ exponent ≤ 971 ∧
    (exponent = -1074 ∨ 2 ^ 52 ≤ significand)

instance (significand : Nat) (exponent : Int) : Decidable (Canonical significand exponent) :=
  inferInstanceAs (Decidable (_ ∧ _))

/-- A finite number `± significand · 2^exponent`. -/
structure Finite where
  negative : Bool
  significand : Nat
  exponent : Int
  canonical : Canonical significand exponent
deriving DecidableEq

namespace Finite

/-- Zero with the given sign. -/
def zero (negative : Bool) : Finite :=
  ⟨negative, 0, -1074, by decide⟩

instance : Inhabited Finite := ⟨zero false⟩

/-- The number with the opposite sign. -/
def neg (x : Finite) : Finite :=
  { x with negative := !x.negative }

/-- The magnitude in units of `2^-1074`. -/
def magnitude (x : Finite) : Nat :=
  x.significand * 2 ^ (x.exponent + 1074).toNat

/-- The value in units of `2^-1074`; the two zeros have the same value. -/
def scaled (x : Finite) : Int :=
  if x.negative then -(x.magnitude : Int) else x.magnitude

/-- **Order by value.** -/
def compare (x y : Finite) : Ordering :=
  Ord.compare x.scaled y.scaled

/-- Equality of values: a zero equals the other zero. -/
def sameValue (x y : Finite) : Bool :=
  x.scaled = y.scaled

/-- Whether the value is an integer. -/
def isIntegral (x : Finite) : Bool :=
  x.magnitude % 2 ^ 1074 = 0

/-- The integer part, toward zero. -/
def truncate (x : Finite) : Int :=
  x.scaled.tdiv (2 ^ 1074)

/-- The nearest integer; a half goes away from zero. -/
def roundAway (x : Finite) : Int :=
  let rounded : Nat := (2 * x.magnitude + 2 ^ 1074) / 2 ^ 1075
  if x.negative then -(rounded : Int) else (rounded : Int)

end Finite

end Binary64

/-- A binary64 number: finite, infinite, or not a number. -/
inductive Binary64 where
  | finite (x : Binary64.Finite)
  | infinity (negative : Bool)
  | nan
deriving DecidableEq

namespace Binary64

/-- Zero with the given sign. -/
def zero (negative : Bool) : Binary64 := .finite (.zero negative)

instance : Inhabited Binary64 := ⟨zero false⟩

/-- The stored number with these parts; parts beyond the range stand for an infinity. -/
def ofParts (negative : Bool) (significand : Nat) (exponent : Int) : Binary64 :=
  if h : Canonical significand exponent then .finite ⟨negative, significand, exponent, h⟩
  else .infinity negative

/-- The integer nearest to `num / den`, the even one of two equally near. -/
def roundHalfEven (num den : Nat) : Nat :=
  let quotient := num / den
  let rest := num % den
  if den < 2 * rest || (2 * rest = den && quotient % 2 = 1) then quotient + 1 else quotient

/-- The exponent of the last significand bit of a number near `num / den`: the one that leaves 53
bits before the binary point, but no less than that of the smallest numbers. -/
def unitExponent (num den : Nat) : Int :=
  let scale : Int := (Nat.log2 num : Int) - Nat.log2 den
  let reached :=
    if 0 ≤ scale then den * 2 ^ scale.toNat ≤ num else den ≤ num * 2 ^ (-scale).toNat
  max (-1074) (if reached then scale - 52 else scale - 53)

/-- **The nearest number** to `± num / den`, ties to the even significand. -/
def round (negative : Bool) (num den : Nat) : Binary64 :=
  if num = 0 then zero negative
  else
    let exponent := unitExponent num den
    let significand :=
      if 0 ≤ exponent then roundHalfEven num (den * 2 ^ exponent.toNat)
      else roundHalfEven (num * 2 ^ (-exponent).toNat) den
    if significand = 2 ^ 53 then ofParts negative (2 ^ 52) (exponent + 1)
    else ofParts negative significand exponent

/-- The nearest number to an integer. -/
def ofInt (n : Int) : Binary64 :=
  round (n < 0) n.natAbs 1

/-- The finite number nearest to a 64-bit integer (every such integer is far inside the range). -/
def Finite.ofInt (n : Int) : Finite :=
  match Binary64.ofInt n with
  | .finite x => x
  | _ => .zero false

/-- The finite number, if it is one. -/
def toFinite? : Binary64 → Option Finite
  | .finite x => some x
  | _ => none

def isFinite (x : Binary64) : Bool := x.toFinite?.isSome

def isNaN : Binary64 → Bool
  | .nan => true
  | _ => false

/-- Whether the sign bit is set; a NaN counts as unsigned. -/
def isNegative : Binary64 → Bool
  | .finite x => x.negative
  | .infinity negative => negative
  | .nan => false

/-! ### Arithmetic -/

def neg : Binary64 → Binary64
  | .finite x => .finite x.neg
  | .infinity negative => .infinity (!negative)
  | .nan => .nan

/-- The sum, rounded once. An exact zero is positive unless both terms are negative zeros. -/
def add : Binary64 → Binary64 → Binary64
  | .finite x, .finite y =>
    let total := x.scaled + y.scaled
    if total = 0 then zero (x.negative && y.negative)
    else round (total < 0) total.natAbs (2 ^ 1074)
  | .infinity s, .finite _ => .infinity s
  | .finite _, .infinity s => .infinity s
  | .infinity s, .infinity t => if s = t then .infinity s else .nan
  | _, _ => .nan

def sub (x y : Binary64) : Binary64 := add x (neg y)

/-- `num · 2^exponent`, rounded. -/
def roundScaled (negative : Bool) (num : Nat) (exponent : Int) : Binary64 :=
  if 0 ≤ exponent then round negative (num * 2 ^ exponent.toNat) 1
  else round negative num (2 ^ (-exponent).toNat)

/-- The product, rounded once. -/
def mul : Binary64 → Binary64 → Binary64
  | .finite x, .finite y =>
    roundScaled (x.negative != y.negative) (x.significand * y.significand) (x.exponent + y.exponent)
  | .infinity s, .finite y => if y.significand = 0 then .nan else .infinity (s != y.negative)
  | .finite x, .infinity s => if x.significand = 0 then .nan else .infinity (s != x.negative)
  | .infinity s, .infinity t => .infinity (s != t)
  | _, _ => .nan

/-- The quotient, rounded once. A nonzero number over zero is an infinity. -/
def div : Binary64 → Binary64 → Binary64
  | .finite x, .finite y =>
    let negative := x.negative != y.negative
    if y.significand = 0 then (if x.significand = 0 then .nan else .infinity negative)
    else
      let exponent := x.exponent - y.exponent
      if 0 ≤ exponent then round negative (x.significand * 2 ^ exponent.toNat) y.significand
      else round negative x.significand (y.significand * 2 ^ (-exponent).toNat)
  | .infinity s, .finite y => .infinity (s != y.negative)
  | .finite x, .infinity s => zero (x.negative != s)
  | _, _ => .nan

/-- The remainder of the division toward zero; it has the sign of `x` and is exact. -/
def rem : Binary64 → Binary64 → Binary64
  | .finite x, .finite y =>
    if y.significand = 0 then .nan
    else
      let rest := x.magnitude % y.magnitude
      if rest = 0 then zero x.negative else round x.negative rest (2 ^ 1074)
  | .finite x, .infinity _ => .finite x
  | _, _ => .nan

/-! ### Comparison -/

/-- Order of values; a NaN is ordered with nothing. -/
def compare? : Binary64 → Binary64 → Option Ordering
  | .finite x, .finite y => some (x.compare y)
  | .finite _, .infinity s => some (if s then .gt else .lt)
  | .infinity s, .finite _ => some (if s then .lt else .gt)
  | .infinity s, .infinity t =>
    some (if s = t then .eq else if s then .lt else .gt)
  | _, _ => none

def lt (x y : Binary64) : Bool := compare? x y = some .lt

def le (x y : Binary64) : Bool := compare? x y = some .lt || compare? x y = some .eq

def sameValue (x y : Binary64) : Bool := compare? x y = some .eq

/-- The smaller of two numbers; a NaN gives way to the other one. -/
def minimum (x y : Binary64) : Binary64 :=
  if x.isNaN then y else if y.isNaN then x else if lt y x then y else x

/-! ### The stored bits -/

/-- The 64 bits of the interchange format; every NaN has the quiet pattern. -/
def toBits : Binary64 → UInt64
  | .finite x =>
    let sign : Nat := if x.negative then 2 ^ 63 else 0
    if x.significand < 2 ^ 52 then UInt64.ofNat (sign + x.significand)
    else UInt64.ofNat (sign + (x.exponent + 1075).toNat * 2 ^ 52 + (x.significand - 2 ^ 52))
  | .infinity negative => UInt64.ofNat ((if negative then 2 ^ 63 else 0) + 0x7FF * 2 ^ 52)
  | .nan => UInt64.ofNat (0x7FF8 * 2 ^ 48)

/-- The number with the given bits. -/
def ofBits (bits : UInt64) : Binary64 :=
  let word := bits.toNat
  let negative := 2 ^ 63 ≤ word
  let exponent : Nat := word / 2 ^ 52 % 2 ^ 11
  let fraction := word % 2 ^ 52
  if exponent = 0x7FF then (if fraction = 0 then .infinity negative else .nan)
  else if exponent = 0 then ofParts negative fraction (-1074)
  else ofParts negative (2 ^ 52 + fraction) ((exponent : Int) - 1075)

end Binary64

end Scenario
