import Scenario.Text.Integer

/-!
# Integers as decimal text

The text of an integer is its digits, and a minus sign before those of a negative one
(`Text.toList_toString`). It tells the integer (`Text.toString_inj`), and a reader of signed 64-bit
integers reads it back (`Text.integer?_toString`). A reader of natural numbers reads digits as the
number that they are (`Text.natural?_eq_some_iff`).
-/

namespace Scenario

namespace Text

/-- No digit is a blank. -/
theorem not_isDigit_of_isBlank {c : Char} (h : isBlank c = true) : c.isDigit = false := by
  have hbounds : ¬ (48 ≤ c.toNat ∧ c.toNat ≤ 57) := by
    simp only [isBlank, Bool.or_eq_true, Bool.and_eq_true, decide_eq_true_eq] at h
    omega
  simpa [Char.isDigit, UInt32.le_iff_toNat_le] using hbounds

theorem all_isDigit_toDigits (n : Nat) : (Nat.toDigits 10 n).all Char.isDigit = true :=
  List.all_eq_true.mpr fun _ hc => Nat.isDigit_of_mem_toDigits (by decide) (by decide) hc

theorem digitsValue?_toDigits (n : Nat) : digitsValue? (Nat.toDigits 10 n) = some n := by
  have hvalue : (Nat.toDigits 10 n).foldl (fun n c => 10 * n + (c.toNat - 48)) 0 = n :=
    Nat.ofDigitChars_ten_toDigits
  simp [digitsValue?, all_isDigit_toDigits, hvalue, Nat.toDigits_ne_nil]

/-- A text with a value is one of digits. -/
theorem isDigit_of_digitsValue? {text : List Char} {n : Nat} (h : digitsValue? text = some n) :
    ∀ c ∈ text, c.isDigit = true := by
  rw [digitsValue?] at h
  split at h
  · cases h
  · next hdigits => simpa using (not_or.mp (mt Bool.or_eq_true_iff.mpr hdigits)).2

/-- **A natural number without a sign** is read as its digits say, if it fits 64 bits. -/
theorem natural?_eq_some_iff {text : List Char} {n : Nat} (hsign : text.head? ≠ some '+') :
    natural? text = some n ↔ digitsValue? text = some n ∧ n < 2 ^ 64 := by
  have hplain : natural? text = (digitsValue? text).filter (· < 2 ^ 64) := by
    unfold natural?
    split
    · exact absurd rfl hsign
    · rfl
  rw [hplain, Option.filter_eq_some_iff]
  simp

theorem natural?_of_digitsValue? {text : List Char} {n : Nat} (h : digitsValue? text = some n)
    (hn : n < 2 ^ 64) : natural? text = some n := by
  refine (natural?_eq_some_iff fun hsign => ?_).mpr ⟨h, hn⟩
  exact absurd (isDigit_of_digitsValue? h '+' (List.mem_of_head? hsign)) (by decide)

/-- Digits begin with no sign. -/
theorem head_toDigits (n : Nat) : ∃ c rest, Nat.toDigits 10 n = c :: rest ∧ c.isDigit = true := by
  obtain ⟨c, rest, hlist⟩ := List.exists_cons_of_ne_nil (Nat.toDigits_ne_nil (n := n) (b := 10))
  refine ⟨c, rest, hlist, ?_⟩
  exact Nat.isDigit_of_mem_toDigits (n := n) (by decide) (by decide) (hlist ▸ List.mem_cons_self)

/-- The text of an integer: its digits, and a minus sign before those of a negative one. -/
theorem toList_toString (n : Int) :
    (toString n).toList =
      if 0 ≤ n then Nat.toDigits 10 n.natAbs else '-' :: Nat.toDigits 10 n.natAbs := by
  rw [Int.toString_eq_repr, Int.repr_eq_if]
  split
  · rw [Nat.toList_repr, show n.toNat = n.natAbs by omega]
  · rw [String.toList_append, Nat.toList_repr, show (-n).toNat = n.natAbs by omega]
    rfl

theorem toDigits_inj {m n : Nat} (h : Nat.toDigits 10 m = Nat.toDigits 10 n) : m = n := by
  rw [← Nat.ofDigitChars_ten_toDigits (n := m), h, Nat.ofDigitChars_ten_toDigits]

theorem toDigits_ne_cons_minus {n : Nat} {rest : List Char} : Nat.toDigits 10 n ≠ '-' :: rest := by
  intro h
  obtain ⟨c, rest', hlist, hdigit⟩ := head_toDigits n
  cases hlist.symm.trans h
  exact absurd hdigit (by decide)

/-- Different integers have different texts. -/
theorem toString_inj {m n : Int} (h : toString m = toString n) : m = n := by
  have hlists := congrArg String.toList h
  rw [toList_toString, toList_toString] at hlists
  split at hlists <;> split at hlists
  · have := toDigits_inj hlists
    omega
  · exact absurd hlists toDigits_ne_cons_minus
  · exact absurd hlists.symm toDigits_ne_cons_minus
  · have := toDigits_inj (List.cons.inj hlists).2
    omega

theorem integer?_toString {n : Int} (hlow : -2 ^ 63 ≤ n) (hhigh : n < 2 ^ 63) :
    integer? (toString n).toList = some n := by
  have hvalue := digitsValue?_toDigits n.natAbs
  rw [toList_toString]
  split
  -- a digit comes first, which is no sign
  next hsign =>
    obtain ⟨c, rest, hlist, hdigit⟩ := head_toDigits n.natAbs
    rw [hlist] at hvalue ⊢
    unfold integer?
    split
    next hminus =>
      cases hminus
      exact absurd hdigit (by decide)
    next hplus =>
      cases hplus
      exact absurd hdigit (by decide)
    next =>
      have hfits : n.natAbs < 2 ^ 63 := by omega
      rw [hvalue, Option.filter_some_pos (by simpa using hfits), Option.map_some]
      exact congrArg some (Int.natAbs_of_nonneg hsign)
  -- there is one more negative number than positive ones
  next hsign =>
    simp only [integer?, hvalue]
    have hfits : n.natAbs ≤ 2 ^ 63 := by omega
    rw [Option.filter_some_pos (by simpa using hfits)]
    exact congrArg some (show -(n.natAbs : Int) = n by omega)

end Text

end Scenario
