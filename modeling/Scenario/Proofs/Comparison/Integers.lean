import Scenario.Proofs.Binary64.Rounding
import Scenario.Proofs.Comparison.Equality
import Scenario.Proofs.Digits

/-!
# Comparing integers

Integers are compared as binary64 numbers, also where both could be compared exactly.

* `Holds` — a value that holds an integer of 64 bits, with or without a sign, as a number or as its
  plain text. A text is taken for its number below `2^63` only (`normalize_of_holds`).
* `Exact` — the six operators of equality and order answer as they should for two integers.
* `exact_nearest` — integers compare as the numbers of 53 bits nearest to them. So an answer is never
  inverted, and it is right unless both integers have one nearest number (`exact_iff`).
* `exact_of_resolved` — **it is right for integers of at most 53 bits, and for any that are further
  apart than the spacing of the binary64 numbers about them.**
-/

namespace Scenario

namespace Comparison

open Json Binary64

variable {a b n : Int} {x y : Value}

/-! ### Values that hold integers -/

/-- An integer that a JSON number holds exactly, and a value that stands for it: the number, or its
plain text. -/
structure Holds (n : Int) (x : Value) : Prop where
  low : -2 ^ 63 ≤ n
  high : n < 2 ^ 64
  form : x = .ofInt n ∨ x = .string (toString n)

/-- A text of digits after at most a minus sign spells the integer that is read from it. -/
theorem spelled?_of_digits {s : String} {c : Char} {digits : List Char}
    (hall : (c :: digits).all Char.isDigit = true)
    (hlist : s.toList = c :: digits ∨ s.toList = '-' :: c :: digits)
    (hread : Text.integer? s.toList = some n) : spelled? s = some (.ofInt n) := by
  rcases hlist with hlist | hlist <;> rw [hlist] at hread <;> simp only [spelled?, hlist, hread]
  · split
    next heq =>
      rw [(List.cons.inj heq).1] at hall
      simp at hall
    next =>
      rw [hall]
      rfl
  · rw [hall]
    rfl

/-- The plain text of an integer is taken for it as long as it is a signed one. -/
theorem spelled?_toString (hlow : -2 ^ 63 ≤ n) (hhigh : n < 2 ^ 63) :
    spelled? (toString n) = some (.ofInt n) := by
  obtain ⟨c, rest, hcons, -⟩ := Text.head_toDigits n.natAbs
  refine spelled?_of_digits (hcons ▸ Text.all_isDigit_toDigits n.natAbs) ?_
    (Text.integer?_toString hlow hhigh)
  rw [Text.toList_toString, ← hcons]
  split
  · exact .inl rfl
  · exact .inr rfl

/-- A value that holds an integer stands for it, but for the text of a large one. -/
theorem normalize_of_holds (h : Holds n x) (htaken : x = .ofInt n ∨ n < 2 ^ 63) :
    normalize x = .ofInt n := by
  rcases h.form with rfl | rfl
  · rfl
  · have hhigh : n < 2 ^ 63 := htaken.resolve_left (by intro h; cases h)
    exact normalize_of_spelled (spelled?_toString h.low hhigh)

/-! ### Answers -/

/-- The answers of the six operators of equality and order are those for two integers. -/
structure Exact (x y : Value) (a b : Int) : Prop where
  eq : compare x .eq y = .ok (decide (a = b))
  ne : compare x .ne y = .ok (decide (a ≠ b))
  gt : compare x .gt y = .ok (decide (b < a))
  ge : compare x .ge y = .ok (decide (b ≤ a))
  lt : compare x .lt y = .ok (decide (a < b))
  le : compare x .le y = .ok (decide (a ≤ b))

/-- **Integers compare as the numbers of 53 bits nearest to them.** -/
theorem exact_nearest (hx : Holds a x) (hy : Holds b y) (hxt : x = .ofInt a ∨ a < 2 ^ 63)
    (hyt : y = .ofInt b ∨ b < 2 ^ 63) : Exact x y (nearest a) (nearest b) := by
  have hnx := normalize_of_holds hx hxt
  have hny := normalize_of_holds hy hyt
  have ha : (Finite.ofInt a).scaled = nearest a * (2 ^ 1074 : Nat) :=
    Finite.scaled_ofInt (by have := hx.low; have := hx.high; omega)
  have hb : (Finite.ofInt b).scaled = nearest b * (2 ^ 1074 : Nat) :=
    Finite.scaled_ofInt (by have := hy.low; have := hy.high; omega)
  have hunit : (0 : Int) < (2 ^ 1074 : Nat) := Int.natCast_pos.mpr (Nat.two_pow_pos 1074)
  -- both numbers are multiples of one unit, and compare as the factors do
  generalize ((2 ^ 1074 : Nat) : Int) = unit at ha hb hunit
  have hsame : looseEq x y = decide (nearest a = nearest b) := by
    rw [Bool.eq_iff_iff, looseEq_iff, ← same_iff, hnx, hny, decide_eq_true_eq]
    show (Finite.ofInt a).sameValue (Finite.ofInt b) = true ↔ _
    rw [Finite.sameValue, decide_eq_true_eq, ha, hb]
    exact Int.mul_eq_mul_right_iff (Int.ne_of_gt hunit)
  have horder : looseCompare x y = Ord.compare (nearest a) (nearest b) := by
    rw [looseCompare, hnx, hny]
    show Ord.compare (Finite.ofInt a).scaled (Finite.ofInt b).scaled = _
    rw [ha, hb]
    simp only [Int.compare_eq_ite_lt, Int.mul_lt_mul_right hunit]
  constructor <;> simp [compare, hsame, horder, Int.compare_eq_gt, Int.compare_eq_lt]

/-- **An answer is right** unless two integers have one nearest number. -/
theorem exact_iff (hx : Holds a x) (hy : Holds b y) (hxt : x = .ofInt a ∨ a < 2 ^ 63)
    (hyt : y = .ofInt b ∨ b < 2 ^ 63) : Exact x y a b ↔ (nearest a = nearest b → a = b) := by
  have hnearest := exact_nearest hx hy hxt hyt
  constructor
  · intro h heq
    have := h.eq.symm.trans hnearest.eq
    simpa [heq] using this
  · intro h
    -- rounding keeps the order, and where it makes nothing equal it keeps it strictly
    have heq : nearest a = nearest b ↔ a = b := ⟨h, fun hab => hab ▸ rfl⟩
    have hlt : nearest a < nearest b ↔ a < b := nearest_lt_iff h
    have hgt : nearest b < nearest a ↔ b < a := nearest_lt_iff fun hba => (h hba.symm).symm
    have hle : nearest a ≤ nearest b ↔ a ≤ b := by omega
    have hge : nearest b ≤ nearest a ↔ b ≤ a := by omega
    constructor
    · simpa only [heq] using hnearest.eq
    · simpa only [ne_eq, heq] using hnearest.ne
    · simpa only [hgt] using hnearest.gt
    · simpa only [hge] using hnearest.ge
    · simpa only [hlt] using hnearest.lt
    · simpa only [hle] using hnearest.le

/-- Integers that rounding keeps apart: both of at most 53 bits, but for zeros behind them, or further
apart than the binary64 numbers about them. -/
def Resolved (a b : Int) : Prop :=
  a = b ∨ (Fits a ∧ Fits b) ∨
    a + (max (spacing a.natAbs) (spacing b.natAbs) : Nat) < b ∨
    b + (max (spacing a.natAbs) (spacing b.natAbs) : Nat) < a

theorem Resolved.nearest_inj (h : Resolved a b) (heq : nearest a = nearest b) : a = b := by
  rcases h with hab | ⟨ha, hb⟩ | hlt | hlt
  · exact hab
  · rwa [nearest_of_fits ha, nearest_of_fits hb] at heq
  · exact absurd heq (Int.ne_of_lt (nearest_lt_of_apart hlt))
  · rw [Nat.max_comm] at hlt
    exact absurd heq.symm (Int.ne_of_lt (nearest_lt_of_apart hlt))

/-- **Comparison of integers is exact** where rounding to 53 bits keeps them apart and a text is that
of a signed integer. -/
theorem exact_of_resolved (hx : Holds a x) (hy : Holds b y) (hxt : x = .ofInt a ∨ a < 2 ^ 63)
    (hyt : y = .ofInt b ∨ b < 2 ^ 63) (h : Resolved a b) : Exact x y a b :=
  (exact_iff hx hy hxt hyt).mpr h.nearest_inj

theorem exact_of_resolved_mixed :
    Holds (-5) (.string "-5") ∧ Holds (2 ^ 64 - 1) (.ofInt (2 ^ 64 - 1)) ∧
      Exact (.string "-5") (.ofInt (2 ^ 64 - 1)) (-5) (2 ^ 64 - 1) := by
  have hx : Holds (-5) (.string "-5") := ⟨by decide, by decide, .inr (congrArg _ rfl)⟩
  have hy : Holds (2 ^ 64 - 1) (.ofInt (2 ^ 64 - 1)) := ⟨by decide, by decide, .inl rfl⟩
  have hapart : Resolved (-5) (2 ^ 64 - 1) := .inr (.inr (.inl (by decide)))
  exact ⟨hx, hy, exact_of_resolved hx hy (.inr (by decide)) (.inl rfl) hapart⟩

/-- Beyond 53 bits unequal integers may be equal, and the text of an unsigned integer is not taken for
it. -/
theorem not_exact_of_large :
    ¬ Exact (.ofInt 9007199254740993) (.ofInt 9007199254740992) 9007199254740993 9007199254740992 ∧
      ¬ Exact (.ofInt 18446744073709551615) (.string "18446744073709551615")
        18446744073709551615 18446744073709551615 := by
  constructor
  · intro h
    have hwrong : looseEq (.ofInt 9007199254740993) (.ofInt 9007199254740992) = true := by
      decide +kernel
    cases hwrong.symm.trans (Except.ok.inj h.eq)
  · intro h
    have hwrong : looseEq (.ofInt 18446744073709551615) (.string "18446744073709551615") = false :=
      by decide +kernel
    cases hwrong.symm.trans (Except.ok.inj h.eq)

end Comparison

end Scenario
