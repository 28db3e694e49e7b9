import Scenario.Binary64.Decimal
import Scenario.Json.Value

/-!
# Scaling by a power of ten

A JSON number with a fraction or an exponent is read in two rounded steps: its leading digits, as
many as fit 64 bits, become a floating-point number, which is then multiplied or divided by a power
of ten. Up to fifteen digits and small exponents the result is the nearest number; beyond that it
may be a neighbour of it.
-/

namespace Scenario

namespace Json

/-- The floating-point number nearest to `10^n`. -/
def powerOfTen (n : Nat) : Binary64 :=
  Binary64.round false (10 ^ n) 1

/-- Divides by `10^308` until the exponent is at least `-308`, then by the rest. The number of steps
is bounded because a number that has become zero stays zero. -/
def scaleDown (x : Binary64) (exponent : Nat) : Nat → Binary64
  | 0 => x
  | steps + 1 =>
    if exponent ≤ 308 then x.div (powerOfTen exponent)
    else if x.sameValue (Binary64.zero false) then x
    else scaleDown (x.div (powerOfTen 308)) (exponent - 308) steps

/-- **The number `± significand · 10^exponent`,** or nothing when it is too large. -/
def scaled? (negative : Bool) (significand : Nat) (exponent : Int) : Option Binary64.Finite :=
  let start := Binary64.ofInt significand
  let magnitude :=
    if exponent < 0 then scaleDown start (-exponent).toNat 5
    else if 308 < exponent then
      (if start.sameValue (Binary64.zero false) then start else .infinity false)
    else start.mul (powerOfTen exponent.toNat)
  (if negative then magnitude.neg else magnitude).toFinite?

end Json

end Scenario
