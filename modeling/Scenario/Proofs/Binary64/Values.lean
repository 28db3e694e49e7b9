import Scenario.Binary64.Basic

/-!
# Values of finite numbers

Two finite binary64 numbers have the same value only if they are the same number, but for the two
zeros.

* `Canonical.unique` — a magnitude above zero has one canonical form.
* `Finite.unsigned` — the number without the sign of a zero; `sameValue_iff` says that equality of
  values is equality of what is left.
-/

namespace Scenario

namespace Binary64

/-! ### Canonical forms -/

/-- A canonical form with a larger exponent stands for more than 53 bits of the smaller unit. -/
theorem Canonical.exponent_le {m m' : Nat} {e e' : Int} (h : Canonical m e) (h' : Canonical m' e')
    (hle : m' * 2 ^ (e' + 1074).toNat ≤ m * 2 ^ (e + 1074).toNat) : e' ≤ e := by
  obtain ⟨hbits, hleast, -, -⟩ := h
  obtain ⟨-, hleast', -, hfull⟩ := h'
  refine Int.not_lt.mp fun hlt => ?_
  obtain ⟨d, hd⟩ : ∃ d, (e' + 1074).toNat = (e + 1074).toNat + (d + 1) :=
    ⟨(e' + 1074).toNat - (e + 1074).toNat - 1, by omega⟩
  have hsplit : m' * 2 ^ (d + 1) ≤ m := by
    rw [hd, Nat.pow_add, Nat.mul_comm (2 ^ _), ← Nat.mul_assoc] at hle
    exact Nat.le_of_mul_le_mul_right hle (Nat.two_pow_pos _)
  have hm' : 2 ^ 52 ≤ m' := hfull.resolve_left (by omega)
  have htwice : m' * 2 ≤ m' * 2 ^ (d + 1) := Nat.mul_le_mul_left m' (Nat.le_pow (Nat.succ_pos d))
  omega

/-- **One canonical form:** it is determined by the magnitude. -/
theorem Canonical.unique {m m' : Nat} {e e' : Int} (h : Canonical m e) (h' : Canonical m' e')
    (heq : m * 2 ^ (e + 1074).toNat = m' * 2 ^ (e' + 1074).toNat) : m = m' ∧ e = e' := by
  have he : e = e' :=
    Int.le_antisymm (h'.exponent_le h (Nat.le_of_eq heq)) (h.exponent_le h' (Nat.le_of_eq heq.symm))
  subst he
  exact ⟨Nat.eq_of_mul_eq_mul_right (Nat.two_pow_pos _) heq, rfl⟩

namespace Finite

variable {x y : Finite}

theorem magnitude_eq_zero_iff : x.magnitude = 0 ↔ x.significand = 0 := by
  rw [magnitude, Nat.mul_eq_zero]
  exact or_iff_left (Nat.ne_of_gt (Nat.two_pow_pos _))

/-- A number is known by its sign and its magnitude. -/
theorem ext_magnitude (hsign : x.negative = y.negative) (hmag : x.magnitude = y.magnitude) :
    x = y := by
  obtain ⟨s, m, e, hx⟩ := x
  obtain ⟨s', m', e', hy⟩ := y
  obtain ⟨rfl, rfl⟩ := hx.unique hy hmag
  obtain rfl : s = s' := hsign
  rfl

/-- The number without the sign of a zero. -/
def unsigned (x : Finite) : Finite :=
  if x.significand = 0 then zero false else x

theorem scaled_unsigned (x : Finite) : x.unsigned.scaled = x.scaled := by
  unfold unsigned
  split
  next h =>
    have hmag : x.magnitude = 0 := magnitude_eq_zero_iff.mpr h
    rw [scaled, scaled, hmag]
    cases x.negative <;> rfl
  next => rfl

/-- **Equality of values** is equality up to the sign of a zero. -/
theorem sameValue_iff : x.sameValue y = true ↔ x.unsigned = y.unsigned := by
  rw [sameValue, decide_eq_true_eq]
  constructor
  · intro h
    have hmag : x.magnitude = y.magnitude := by
      unfold scaled at h
      split at h <;> split at h <;> omega
    by_cases hzero : x.magnitude = 0
    · have hx : x.significand = 0 := magnitude_eq_zero_iff.mp hzero
      have hy : y.significand = 0 := magnitude_eq_zero_iff.mp (hmag ▸ hzero)
      rw [unsigned, unsigned, if_pos hx, if_pos hy]
    · have hsign : x.negative = y.negative := by
        unfold scaled at h
        cases hx : x.negative <;> cases hy : y.negative <;> simp [hx, hy] at h ⊢ <;> omega
      rw [ext_magnitude hsign hmag]
  · intro h
    rw [← scaled_unsigned x, h, scaled_unsigned]

end Finite

end Binary64

end Scenario
