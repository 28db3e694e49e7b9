import Scenario.Proofs.Binary64.Values

/-!
# Integers as binary64 numbers

An integer of more than 53 bits is no binary64 number unless its last bits are zeros. What it becomes
is again an integer.

* `spacing` — how far apart the numbers of 53 bits lie about an integer.
* `nearest` — the nearest one, with ties to the even significand. It keeps the order
  (`nearest_mono`), leaves alone what fits 53 bits (`nearest_of_fits`) and moves nothing by more than
  half the spacing, so integers further apart than the spacing stay apart (`nearest_lt_of_apart`).
* `Finite.scaled_ofInt` — **the binary64 number of a 64-bit integer is its `nearest`.**
-/

namespace Scenario

namespace Binary64

/-! ### Rounding a quotient -/

section Quotient

variable {n m d k : Nat}

theorem roundHalfEven_cases (n d : Nat) :
    (roundHalfEven n d = n / d ∧ 2 * (n % d) ≤ d) ∨
      (roundHalfEven n d = n / d + 1 ∧ d ≤ 2 * (n % d)) := by
  unfold roundHalfEven
  dsimp only
  split
  next h =>
    simp only [Bool.or_eq_true, Bool.and_eq_true, decide_eq_true_eq] at h
    exact .inr ⟨rfl, by omega⟩
  next h =>
    simp only [Bool.or_eq_true, Bool.and_eq_true, decide_eq_true_eq] at h
    exact .inl ⟨rfl, by omega⟩

/-- The nearest multiple of `d` is at most `d / 2` away. -/
theorem roundHalfEven_near (n : Nat) (hd : 0 < d) :
    2 * (roundHalfEven n d * d) ≤ 2 * n + d ∧ 2 * n ≤ 2 * (roundHalfEven n d * d) + d := by
  have hdiv := Nat.div_add_mod' n d
  have hlt := Nat.mod_lt n hd
  rcases roundHalfEven_cases n d with ⟨heq, hrest⟩ | ⟨heq, hrest⟩ <;> rw [heq]
  · omega
  · rw [Nat.add_one_mul (n / d) d]
    omega

theorem roundHalfEven_mul (hd : 0 < d) : roundHalfEven (k * d) d = k := by
  have hdiv : k * d / d = k := Nat.mul_div_cancel k hd
  have hmod : k * d % d = 0 := Nat.mul_mod_left k d
  rcases roundHalfEven_cases (k * d) d with ⟨heq, -⟩ | ⟨-, hrest⟩
  · rw [heq, hdiv]
  · omega

/-- Rounding keeps the order: of two numbers with one quotient the larger has the larger rest. -/
theorem roundHalfEven_mono (d : Nat) (hnm : n ≤ m) :
    roundHalfEven n d ≤ roundHalfEven m d := by
  rcases Nat.lt_or_ge (n / d) (m / d) with hlt | hge
  · have hn : roundHalfEven n d ≤ n / d + 1 := by
      rcases roundHalfEven_cases n d with h | h <;> omega
    have hm : m / d ≤ roundHalfEven m d := by
      rcases roundHalfEven_cases m d with h | h <;> omega
    omega
  · have hquot : n / d = m / d := Nat.le_antisymm (Nat.div_le_div_right hnm) hge
    have hrest : n % d ≤ m % d := by
      have hn := Nat.div_add_mod' n d
      have hm := Nat.div_add_mod' m d
      rw [hquot] at hn
      omega
    unfold roundHalfEven
    simp only [hquot, Bool.or_eq_true, Bool.and_eq_true, decide_eq_true_eq]
    split <;> split <;> omega

end Quotient

/-! ### The nearest number of 53 bits -/

/-- How far apart the numbers of 53 bits lie about `n`. -/
def spacing (n : Nat) : Nat := 2 ^ (Nat.log2 n - 52)

/-- The number of 53 bits nearest to a natural number. -/
def nearestNat (n : Nat) : Nat := roundHalfEven n (spacing n) * spacing n

/-- **The number of 53 bits nearest to an integer,** of two equally near the even one. -/
def nearest (n : Int) : Int :=
  if n < 0 then -(nearestNat n.natAbs : Int) else nearestNat n.natAbs

section Nearest

variable {n m : Nat}

theorem spacing_pos (n : Nat) : 0 < spacing n := Nat.two_pow_pos _

/-- From one power of two to the next there are at most `2^52` steps of the spacing. -/
theorem exists_mul_spacing (n : Nat) : ∃ k, 2 ^ Nat.log2 n = k * spacing n :=
  ⟨2 ^ (Nat.log2 n - (Nat.log2 n - 52)), by
    rw [spacing, ← Nat.pow_add, Nat.sub_add_cancel (Nat.sub_le ..)]⟩

theorem nearestNat_of_dvd (h : spacing n ∣ n) : nearestNat n = n := by
  obtain ⟨k, hk⟩ := h
  rw [Nat.mul_comm] at hk
  have hround : roundHalfEven n (spacing n) = k := by
    conv => lhs; arg 1; rw [hk]
    exact roundHalfEven_mul (spacing_pos n)
  rw [nearestNat, hround, ← hk]

/-- Rounding does not leave the powers of two about a number. -/
theorem nearestNat_bounds (h : n ≠ 0) :
    2 ^ Nat.log2 n ≤ nearestNat n ∧ nearestNat n ≤ 2 ^ (Nat.log2 n + 1) := by
  obtain ⟨k, hk⟩ := exists_mul_spacing n
  have htwice : 2 ^ (Nat.log2 n + 1) = 2 * k * spacing n := by
    rw [Nat.pow_succ, hk, Nat.mul_comm, Nat.mul_assoc]
  constructor
  · rw [hk, nearestNat]
    refine Nat.mul_le_mul_right _ ?_
    have hmono := roundHalfEven_mono (spacing n) (hk ▸ Nat.log2_self_le h)
    rwa [roundHalfEven_mul (spacing_pos n)] at hmono
  · rw [htwice, nearestNat]
    refine Nat.mul_le_mul_right _ ?_
    have hmono := roundHalfEven_mono (spacing n) (Nat.le_of_lt (htwice ▸ Nat.lt_log2_self))
    rwa [roundHalfEven_mul (spacing_pos n)] at hmono

theorem nearestNat_zero : nearestNat 0 = 0 := by decide

theorem nearestNat_mono (hnm : n ≤ m) : nearestNat n ≤ nearestNat m := by
  by_cases hn : n = 0
  · rw [hn, nearestNat_zero]
    exact Nat.zero_le _
  have hm : m ≠ 0 := by omega
  -- a power of two lies between the numbers, or the spacing is the same about both
  rcases Nat.lt_or_ge (Nat.log2 n) (Nat.log2 m) with hlt | hge
  · calc nearestNat n ≤ 2 ^ (Nat.log2 n + 1) := (nearestNat_bounds hn).2
      _ ≤ 2 ^ Nat.log2 m := Nat.pow_le_pow_right (by decide) hlt
      _ ≤ nearestNat m := (nearestNat_bounds hm).1
  · have hlog : Nat.log2 n = Nat.log2 m := by
      refine Nat.le_antisymm ?_ hge
      exact (Nat.le_log2 hm).mpr (Nat.le_trans (Nat.log2_self_le hn) hnm)
    have hspacing : spacing n = spacing m := by rw [spacing, spacing, hlog]
    rw [nearestNat, nearestNat, hspacing]
    exact Nat.mul_le_mul_right _ (roundHalfEven_mono (spacing m) hnm)

/-! ### Integers -/

variable {a b : Int}

/-- A number of 53 bits, and zeros behind them. -/
def Fits (n : Int) : Prop := spacing n.natAbs ∣ n.natAbs

instance (n : Int) : Decidable (Fits n) :=
  inferInstanceAs (Decidable (_ ∣ _))

theorem nearest_of_fits (h : Fits a) : nearest a = a := by
  rw [nearest, nearestNat_of_dvd h]
  split <;> omega

/-- Rounding keeps the order. -/
theorem nearest_mono (h : a ≤ b) : nearest a ≤ nearest b := by
  unfold nearest
  split <;> split
  · have := nearestNat_mono (show b.natAbs ≤ a.natAbs by omega)
    omega
  · omega
  · omega
  · have := nearestNat_mono (show a.natAbs ≤ b.natAbs by omega)
    omega

/-- Rounding moves an integer by half the spacing at most. -/
theorem nearest_near (n : Int) :
    2 * nearest n ≤ 2 * n + spacing n.natAbs ∧ 2 * n ≤ 2 * nearest n + spacing n.natAbs := by
  have hnear := roundHalfEven_near n.natAbs (spacing_pos n.natAbs)
  rw [nearest, nearestNat]
  split <;> omega

/-- Integers further apart than the numbers about them stay apart. -/
theorem nearest_lt_of_apart
    (h : a + (max (spacing a.natAbs) (spacing b.natAbs) : Nat) < b) : nearest a < nearest b := by
  have ha := nearest_near a
  have hb := nearest_near b
  omega

/-- Where rounding keeps two integers apart it keeps their order as well. -/
theorem nearest_lt_iff (h : nearest a = nearest b → a = b) : nearest a < nearest b ↔ a < b := by
  constructor
  · intro hlt
    exact Int.not_le.mp fun hle => Int.not_le.mpr hlt (nearest_mono hle)
  · intro hlt
    have hle := nearest_mono (Int.le_of_lt hlt)
    omega

end Nearest

/-! ### The binary64 number of an integer -/

section OfInt

variable {n : Nat}

/-- The number of given parts stands for its significand times the power of two. -/
theorem ofParts_of_canonical {s : Bool} {m : Nat} {e : Int} (h : Canonical m e) :
    ofParts s m e = .finite ⟨s, m, e, h⟩ :=
  dif_pos h

theorem unitExponent_ofNat (h : n ≠ 0) : unitExponent n 1 = (Nat.log2 n : Int) - 52 := by
  have hscale : (Nat.log2 n : Int) - (Nat.log2 1 : Nat) = Nat.log2 n := by
    rw [show Nat.log2 1 = 0 by decide]
    exact Int.sub_zero _
  have hreached : 1 * 2 ^ (Nat.log2 n : Int).toNat ≤ n := by
    rw [Nat.one_mul]
    exact Nat.log2_self_le h
  unfold unitExponent
  simp only [hscale, Int.natCast_nonneg, if_true, hreached]
  omega

/-- Above 52 bits the significand counts steps of the spacing. -/
theorem roundHalfEven_spacing_bounds (h : 52 ≤ Nat.log2 n) :
    2 ^ 52 ≤ roundHalfEven n (spacing n) ∧ roundHalfEven n (spacing n) ≤ 2 ^ 53 := by
  have hn : n ≠ 0 := by
    rintro rfl
    exact absurd h (by decide)
  obtain ⟨hlow, hhigh⟩ := nearestNat_bounds hn
  have hsplit : Nat.log2 n = 52 + (Nat.log2 n - 52) := by omega
  rw [hsplit, Nat.add_right_comm, Nat.pow_add, nearestNat] at hhigh
  rw [hsplit, Nat.pow_add, nearestNat] at hlow
  exact ⟨Nat.le_of_mul_le_mul_right hlow (spacing_pos n),
    Nat.le_of_mul_le_mul_right hhigh (spacing_pos n)⟩

/-- What a natural number becomes: the sign it is given, and the nearest magnitude. -/
def Rounds (s : Bool) (n : Nat) : Prop :=
  ∃ x : Finite, round s n 1 = .finite x ∧ x.negative = s ∧ x.magnitude = nearestNat n * 2 ^ 1074

theorem rounds_zero (s : Bool) : Rounds s 0 := by
  refine ⟨.zero s, rfl, rfl, ?_⟩
  simp only [nearestNat_zero, Nat.zero_mul]
  exact Finite.magnitude_eq_zero_iff.mpr rfl

/-- A number of at most 52 bits is moved up to 53 bits, with zeros behind it. -/
theorem rounds_of_few_bits (s : Bool) (hn : n ≠ 0) (hfew : Nat.log2 n < 52) : Rounds s n := by
  have hexact : nearestNat n = n := by
    refine nearestNat_of_dvd ?_
    rw [spacing, Nat.sub_eq_zero_of_le (Nat.le_of_lt hfew)]
    exact Nat.one_dvd n
  have hround : roundHalfEven (n * 2 ^ (52 - Nat.log2 n)) 1 = n * 2 ^ (52 - Nat.log2 n) := by
    simpa only [Nat.mul_one] using roundHalfEven_mul (k := n * 2 ^ (52 - Nat.log2 n)) Nat.one_pos
  -- moved up, the number has exactly 53 bits, which makes it canonical
  have hlow : 2 ^ 52 ≤ n * 2 ^ (52 - Nat.log2 n) := by
    calc 2 ^ 52 = 2 ^ Nat.log2 n * 2 ^ (52 - Nat.log2 n) := by
          rw [← Nat.pow_add, Nat.add_sub_cancel' (Nat.le_of_lt hfew)]
      _ ≤ _ := Nat.mul_le_mul_right _ (Nat.log2_self_le hn)
  have hhigh : n * 2 ^ (52 - Nat.log2 n) < 2 ^ 53 := by
    calc n * 2 ^ (52 - Nat.log2 n) < 2 ^ (Nat.log2 n + 1) * 2 ^ (52 - Nat.log2 n) :=
          Nat.mul_lt_mul_of_pos_right Nat.lt_log2_self (Nat.two_pow_pos _)
      _ = 2 ^ 53 := by rw [← Nat.pow_add, show Nat.log2 n + 1 + (52 - Nat.log2 n) = 53 by omega]
  have hcanonical : Canonical (n * 2 ^ (52 - Nat.log2 n)) ((Nat.log2 n : Int) - 52) :=
    ⟨hhigh, by omega, by omega, .inr hlow⟩
  refine ⟨⟨s, _, _, hcanonical⟩, ?_, rfl, ?_⟩
  · have hshift : (-((Nat.log2 n : Int) - 52)).toNat = 52 - Nat.log2 n := by omega
    rw [round, if_neg hn, unitExponent_ofNat hn]
    simp only [show ¬(0 : Int) ≤ (Nat.log2 n : Int) - 52 by omega, if_false, hshift, hround,
      Nat.ne_of_lt hhigh]
    exact ofParts_of_canonical hcanonical
  · rw [hexact, Finite.magnitude, Nat.mul_assoc, ← Nat.pow_add,
      show 52 - Nat.log2 n + ((Nat.log2 n : Int) - 52 + 1074).toNat = 1074 by omega]

/-- The magnitude of a number whose exponent is not negative. -/
theorem Finite.magnitude_ofNat {s : Bool} {m e : Nat} (h : Canonical m e) :
    (⟨s, m, e, h⟩ : Finite).magnitude = m * 2 ^ e * 2 ^ 1074 := by
  rw [magnitude, Nat.mul_assoc, ← Nat.pow_add 2 e 1074]
  rfl

/-- A longer number keeps 53 bits; a carry beyond them gives the next power of two. -/
theorem rounds_of_many_bits (s : Bool) (hmany : 52 ≤ Nat.log2 n) (hrange : n < 2 ^ 64) :
    Rounds s n := by
  have hn : n ≠ 0 := by
    rintro rfl
    exact absurd hmany (by decide)
  have hlog : Nat.log2 n < 64 := (Nat.log2_lt hn).mpr hrange
  obtain ⟨hlow, hhigh⟩ := roundHalfEven_spacing_bounds hmany
  have hexponent : (Nat.log2 n : Int) - 52 = (Nat.log2 n - 52 : Nat) := by omega
  unfold Rounds
  rw [round, if_neg hn, unitExponent_ofNat hn, nearestNat, hexponent]
  simp only [Int.natCast_nonneg, if_true, Int.toNat_natCast, Nat.one_mul,
    show 2 ^ (Nat.log2 n - 52) = spacing n from rfl]
  -- rounding up may carry into a 54th bit, which is then the only one
  by_cases hcarry : roundHalfEven n (spacing n) = 2 ^ 53
  · have hcanonical : Canonical (2 ^ 52) (Nat.log2 n - 52 + 1 : Nat) :=
      ⟨by decide, by omega, by omega, .inr (Nat.le_refl _)⟩
    rw [if_pos hcarry]
    refine ⟨_, ofParts_of_canonical hcanonical, rfl, ?_⟩
    rw [Finite.magnitude_ofNat, hcarry, spacing, ← Nat.pow_add 2 52, ← Nat.pow_add 2 53,
      show 52 + (Nat.log2 n - 52 + 1) = 53 + (Nat.log2 n - 52) by omega]
  · have hcanonical : Canonical (roundHalfEven n (spacing n)) (Nat.log2 n - 52 : Nat) :=
      ⟨Nat.lt_of_le_of_ne hhigh hcarry, by omega, by omega, .inr hlow⟩
    rw [if_neg hcarry]
    exact ⟨_, ofParts_of_canonical hcanonical, rfl, Finite.magnitude_ofNat hcanonical⟩

theorem rounds_of_lt (s : Bool) (h : n < 2 ^ 64) : Rounds s n := by
  by_cases hzero : n = 0
  · exact hzero ▸ rounds_zero s
  · rcases Nat.lt_or_ge (Nat.log2 n) 52 with hfew | hmany
    · exact rounds_of_few_bits s hzero hfew
    · exact rounds_of_many_bits s hmany h

/-- A 64-bit integer is never too large for a binary64 number. -/
theorem ofInt_eq_finite {a : Int} (h : a.natAbs < 2 ^ 64) : ofInt a = .finite (.ofInt a) := by
  obtain ⟨x, hx, -⟩ := rounds_of_lt (a < 0) h
  rw [Finite.ofInt, ofInt, hx]

/-- **The binary64 number of a 64-bit integer** has the value of the nearest number of 53 bits. -/
theorem Finite.scaled_ofInt {a : Int} (h : a.natAbs < 2 ^ 64) :
    (Finite.ofInt a).scaled = nearest a * (2 ^ 1074 : Nat) := by
  obtain ⟨x, hx, hsign, hmag⟩ := rounds_of_lt (a < 0) h
  rw [Finite.ofInt, Binary64.ofInt, hx]
  simp only [scaled, hsign, hmag, nearest, decide_eq_true_eq]
  split
  · exact (congrArg Neg.neg (Int.natCast_mul ..)).trans (Int.neg_mul ..).symm
  · exact Int.natCast_mul ..

end OfInt

end Binary64

end Scenario
