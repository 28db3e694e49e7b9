import Mathlib.Algebra.Order.Field.Power
import Mathlib.Algebra.Order.Field.Rat
import Mathlib.Tactic.FieldSimp
import Mathlib.Tactic.Linarith
import Mathlib.Tactic.Positivity
import Mathlib.Tactic.Ring
import Scenario.Binary64.Decimal
import Scenario.Proofs.Binary64.Values

/-!
# What rounds to a number

About every positive binary64 number lies the interval of the ratios nearer to it than to its
neighbours, with its ends if the significand is even.

* `Finite.low`, `Finite.high`, `Finite.Covers` — the interval as a set of rational numbers;
  `Finite.interval_holds_iff` says that `Finite.interval` is its description in natural numbers.
* `Finite.high_le_low` — of two numbers the interval of the smaller one lies below that of the larger
  one, and where they meet one of the two is open.
* `Finite.Covers.unique` — **so no ratio belongs to two numbers.**
-/

namespace Scenario

namespace Binary64

/-- A power with an integer exponent as a ratio of two natural powers. -/
theorem zpow_eq_div (b : ℚ) (e : Int) : b ^ e = b ^ e.toNat / b ^ (-e).toNat := by
  rcases Int.le_total 0 e with h | h
  · obtain ⟨n, rfl⟩ := Int.eq_ofNat_of_zero_le h
    simp
  · obtain ⟨n, hn⟩ := Int.eq_ofNat_of_zero_le (Int.neg_nonneg_of_nonpos h)
    obtain rfl : e = -n := by omega
    simp

namespace Finite

/-- Whether the numbers below lie twice as close as those above. -/
def AtPower (x : Finite) : Prop := x.significand = 2 ^ 52 ∧ -1074 < x.exponent

instance (x : Finite) : Decidable x.AtPower := inferInstanceAs (Decidable (_ ∧ _))

/-- The lower end of the interval in quarters of the unit. -/
def lowQuarters (x : Finite) : Nat :=
  if x.AtPower then 4 * x.significand - 1 else 4 * x.significand - 2

/-- The lower end of the interval. -/
def low (x : Finite) : ℚ := x.lowQuarters * 2 ^ (x.exponent - 2)

/-- The upper end of the interval. -/
def high (x : Finite) : ℚ := (4 * x.significand + 2 : Nat) * 2 ^ (x.exponent - 2)

/-- Whether a ratio rounds to the magnitude of a number. -/
def Covers (x : Finite) (q : ℚ) : Prop :=
  if x.significand % 2 = 0 then x.low ≤ q ∧ q ≤ x.high else x.low < q ∧ q < x.high

variable {x y : Finite} {q : ℚ}

theorem Covers.le (h : x.Covers q) : x.low ≤ q ∧ q ≤ x.high := by
  unfold Covers at h
  split at h
  · exact h
  · exact ⟨h.1.le, h.2.le⟩

theorem Covers.lt (h : x.Covers q) (hodd : x.significand % 2 = 1) : x.low < q ∧ q < x.high := by
  unfold Covers at h
  rwa [if_neg (by omega)] at h

/-! ### Intervals of different numbers -/

/-- Numbers with one exponent: the significands decide. -/
theorem quarters_le_of_eq (hlt : x.significand < y.significand) (hexp : y.exponent = x.exponent) :
    4 * x.significand + 2 ≤ y.lowQuarters ∧
      (4 * x.significand + 2 = y.lowQuarters →
        x.significand % 2 = 1 ∨ y.significand % 2 = 1) := by
  obtain ⟨-, -, -, hfull⟩ := x.canonical
  -- below a power of two the exponent would be smaller
  have hpower : ¬ y.AtPower := by
    rintro ⟨hpow, hleast⟩
    have := hfull.resolve_left (by omega)
    omega
  rw [lowQuarters, if_neg hpower]
  omega

/-- Numbers with different exponents: the larger one has all 53 bits. -/
theorem quarters_le_of_lt {k : Nat} (hk : y.exponent = x.exponent + (k + 1 : Nat)) :
    4 * x.significand + 2 ≤ y.lowQuarters * 2 ^ (k + 1) ∧
      (4 * x.significand + 2 = y.lowQuarters * 2 ^ (k + 1) →
        x.significand % 2 = 1 ∨ y.significand % 2 = 1) := by
  obtain ⟨hbits, hleast, -, -⟩ := x.canonical
  have hfull : 2 ^ 52 ≤ y.significand := y.canonical.2.2.2.resolve_left (by omega)
  have hlow : 2 ^ 54 - 1 ≤ y.lowQuarters := by
    unfold lowQuarters
    split
    · omega
    next hpower =>
      have : y.significand ≠ 2 ^ 52 := fun h => hpower ⟨h, by omega⟩
      omega
  have htwice : y.lowQuarters * 2 ≤ y.lowQuarters * 2 ^ (k + 1) :=
    Nat.mul_le_mul_left _ (Nat.le_pow (Nat.succ_pos k))
  omega

/-- **The interval of the smaller number lies below,** and of two that meet one is open. -/
theorem high_le_low (hlt : x.magnitude < y.magnitude) :
    x.high ≤ y.low ∧ (x.high = y.low → x.significand % 2 = 1 ∨ y.significand % 2 = 1) := by
  have hexp : x.exponent ≤ y.exponent :=
    y.canonical.exponent_le x.canonical (Nat.le_of_lt hlt)
  -- both bounds are counted in quarters of the unit of the smaller number
  obtain ⟨k, hk⟩ : ∃ k : Nat, y.exponent = x.exponent + k :=
    ⟨(y.exponent - x.exponent).toNat, by omega⟩
  have hquarters : 4 * x.significand + 2 ≤ y.lowQuarters * 2 ^ k ∧
      (4 * x.significand + 2 = y.lowQuarters * 2 ^ k →
        x.significand % 2 = 1 ∨ y.significand % 2 = 1) := by
    cases k with
    | zero =>
      rw [Nat.pow_zero, Nat.mul_one]
      have hexp : y.exponent = x.exponent := by omega
      refine quarters_le_of_eq ?_ hexp
      rw [magnitude, magnitude, hexp] at hlt
      exact Nat.lt_of_mul_lt_mul_right hlt
    | succ k => exact quarters_le_of_lt hk
  have hunit : (0 : ℚ) < 2 ^ (x.exponent - 2) := by positivity
  have hlow : y.low = (y.lowQuarters * 2 ^ k : Nat) * 2 ^ (x.exponent - 2) := by
    rw [low, hk, show x.exponent + k - 2 = (k : Int) + (x.exponent - 2) by omega,
      zpow_add₀ two_ne_zero, zpow_natCast, Nat.cast_mul, Nat.cast_pow, Nat.cast_ofNat, mul_assoc]
  rw [hlow, high]
  constructor
  · exact mul_le_mul_of_nonneg_right (Nat.cast_le.mpr hquarters.1) hunit.le
  · intro heq
    exact hquarters.2 (Nat.cast_injective (mul_right_cancel₀ hunit.ne' heq))

theorem Covers.magnitude_le (hx : x.Covers q) (hy : y.Covers q) : y.magnitude ≤ x.magnitude := by
  refine Nat.not_lt.mp fun hlt => ?_
  -- the intervals would meet in the ratio, and there one of them is open
  obtain ⟨hle, hmeet⟩ := high_le_low hlt
  have hends : x.high = y.low := le_antisymm hle (hy.le.1.trans hx.le.2)
  rcases hmeet hends with hodd | hodd
  · exact absurd (hx.lt hodd).2 (not_lt.mpr (hends.trans_le hy.le.1))
  · exact absurd (hy.lt hodd).1 (not_lt.mpr (hx.le.2.trans_eq hends))

/-- **No ratio rounds to two magnitudes.** -/
theorem Covers.unique (hx : x.Covers q) (hy : y.Covers q) : x.magnitude = y.magnitude :=
  Nat.le_antisymm (hy.magnitude_le hx) (hx.magnitude_le hy)

/-! ### The interval in natural numbers -/

theorem interval_low (x : Finite) :
    x.interval.low = x.lowQuarters * 2 ^ (x.exponent - 2).toNat := by
  have hpower : (x.significand = 2 ^ 52 && decide (-1074 < x.exponent)) = decide x.AtPower := by
    rw [Bool.eq_iff_iff, Bool.and_eq_true, decide_eq_true_eq, decide_eq_true_eq, decide_eq_true_eq]
    rfl
  unfold interval lowQuarters
  simp only [hpower, decide_eq_true_eq]

theorem interval_den_pos (x : Finite) : 0 < x.interval.den := Nat.two_pow_pos _

/-- A number of quarters, over the common denominator. -/
theorem quarters_div_den (x : Finite) (n : Nat) :
    ((n * 2 ^ (x.exponent - 2).toNat : Nat) : ℚ) / x.interval.den = n * 2 ^ (x.exponent - 2) := by
  rw [zpow_eq_div 2 (x.exponent - 2), Int.neg_sub, Nat.cast_mul, Nat.cast_pow, Nat.cast_ofNat,
    mul_div_assoc]
  congr 2
  exact (Nat.cast_pow 2 _)

/-- `Interval.holds` decides whether a ratio rounds to the number. -/
theorem interval_holds_iff {n d : Nat} (hd : 0 < d) :
    x.interval.holds n d = true ↔ x.Covers (n / d) := by
  have hden : (0 : ℚ) < x.interval.den := Nat.cast_pos.mpr x.interval_den_pos
  have hd' : (0 : ℚ) < d := Nat.cast_pos.mpr hd
  have hlow : x.low = x.interval.low / x.interval.den := by
    rw [interval_low, quarters_div_den, low]
  have hhigh : x.high = x.interval.high / x.interval.den := (x.quarters_div_den _).symm
  have hclosed : x.interval.closed = decide (x.significand % 2 = 0) := rfl
  rw [Covers, hlow, hhigh, div_le_div_iff₀ hden hd', div_le_div_iff₀ hd' hden,
    div_lt_div_iff₀ hden hd', div_lt_div_iff₀ hd' hden, Interval.holds, hclosed]
  norm_cast
  by_cases heven : x.significand % 2 = 0 <;> simp [heven]

end Finite

end Binary64

end Scenario
