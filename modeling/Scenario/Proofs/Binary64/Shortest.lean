import Scenario.Proofs.Binary64.Neighbours

/-!
# The fewest digits read back

`Finite.shortest` looks for a decimal number in the interval of a binary64 number, on finer and finer
grids. It finds one: on the grid of eighteen digits the points lie closer than a quarter of the unit,
so the one nearest to the number is inside (`onGrid?_isSome`).

* `Interval.leadingPlace_le` — the place the search starts from is no higher than the number.
* `Finite.shortest_covers` — **the decimal number that is found rounds to the number.**
* `Finite.magnitude_eq_of_shortest` — so different magnitudes have different decimal numbers.
-/

namespace Scenario

namespace Binary64

/-- The value of a decimal number. -/
def Decimal.value (d : Decimal) : ℚ := d.digits * 10 ^ d.exponent

/-- Stripping zeros keeps the value. -/
theorem Decimal.value_stripZeros (d : Decimal) (limit : Nat) :
    (d.stripZeros limit).value = d.value := by
  induction limit generalizing d with
  | zero => rfl
  | succ limit ih =>
    unfold stripZeros
    split
    next hzero =>
      simp only [Bool.and_eq_true, decide_eq_true_eq] at hzero
      have hdigits : d.digits = d.digits / 10 * 10 := by omega
      rw [ih, value, value, zpow_add_one₀ (by norm_num : (10 : ℚ) ≠ 0)]
      conv => rhs; rw [hdigits]
      push_cast
      ring
    next => rfl

namespace Interval

variable {i : Interval} {place : Int} {n : Nat}

/-! ### One grid -/

/-- What a grid gives is in the interval. -/
theorem holds_of_onGrid? (h : i.onGrid? place = some n) :
    n ≠ 0 ∧ i.holds (n * 10 ^ place.toNat) (10 ^ (-place).toNat) = true := by
  unfold onGrid? at h
  dsimp only at h
  split at h
  all_goals
    split at h
    · cases h
      simp_all
    · split at h
      · cases h
        simp_all
      · cases h

/-- A ratio between the ends is in the interval. -/
theorem holds_of_between {d : Nat} (hlow : i.low * d < n * i.den) (hhigh : n * i.den < i.high * d) :
    i.holds n d = true := by
  unfold holds
  split <;> simp only [Bool.and_eq_true, decide_eq_true_eq] <;> omega

/-- **A fine grid has a point in the interval:** half of its spacing is less than the distance from
the middle to either end. -/
theorem onGrid?_isSome (hden : 0 < i.den)
    (hlow : i.den * 10 ^ place.toNat + 2 * (i.low * 10 ^ (-place).toNat)
      < 2 * (i.mid * 10 ^ (-place).toNat))
    (hhigh : i.den * 10 ^ place.toNat + 2 * (i.mid * 10 ^ (-place).toNat)
      < 2 * (i.high * 10 ^ (-place).toNat)) :
    (i.onGrid? place).isSome = true := by
  have hup : 0 < 10 ^ place.toNat := Nat.pos_of_ne_zero (by positivity)
  unfold onGrid?
  dsimp only
  generalize 10 ^ place.toNat = up at *
  generalize 10 ^ (-place).toNat = down at *
  generalize hbelow : i.mid * down / (i.den * up) = below
  -- the middle lies between the points `below` and `below + 1` of the grid
  have hmid := Nat.div_add_mod' (i.mid * down) (i.den * up)
  have hrest := Nat.mod_lt (i.mid * down) (Nat.mul_pos hden hup)
  rw [hbelow] at hmid
  have hpoint : below * up * i.den = below * (i.den * up) := by ring
  have hpoint' : (below + 1) * up * i.den = below * (i.den * up) + i.den * up := by ring
  have hhalf : (below + (below + 1)) * (i.den * up) = 2 * (below * (i.den * up)) + i.den * up := by
    ring
  have htwice : 2 * i.mid * down = 2 * (i.mid * down) := Nat.mul_assoc ..
  rw [hhalf, htwice]
  split
  next hprefer =>
    have hhalfway : 2 * (i.mid * down) ≤ 2 * (below * (i.den * up)) + i.den * up := by
      simp only [Bool.or_eq_true, Bool.and_eq_true, decide_eq_true_eq] at hprefer
      omega
    have hnonzero : below ≠ 0 := by
      rintro rfl
      omega
    have hholds : i.holds (below * up) down = true :=
      holds_of_between (by omega) (by omega)
    simp [hnonzero, hholds]
  next hprefer =>
    have hhalfway : 2 * (below * (i.den * up)) + i.den * up ≤ 2 * (i.mid * down) := by
      simp only [Bool.or_eq_true, Bool.and_eq_true, decide_eq_true_eq] at hprefer
      omega
    have hholds : i.holds ((below + 1) * up) down = true :=
      holds_of_between (by omega) (by omega)
    simp [hholds]

/-! ### The search -/

/-- A search that reaches a grid with a point in the interval gives a point of some grid. -/
theorem searchGrids_found {leading : Int} {reach : Nat} (steps count : Nat) (hfrom : count ≤ reach)
    (hto : reach < count + steps) (h : (i.onGrid? (leading - reach + 1)).isSome = true) :
    ∃ place n, i.onGrid? place = some n ∧ i.searchGrids leading count steps = ⟨n, place⟩ := by
  induction steps generalizing count with
  | zero => omega
  | succ steps ih =>
    unfold searchGrids
    cases hgrid : i.onGrid? (leading - count + 1) with
    | some n => exact ⟨_, n, hgrid, by simp [hgrid]⟩
    | none =>
      have hne : count ≠ reach := by
        rintro rfl
        rw [hgrid] at h
        cases h
      obtain ⟨place, n, hplace, hsearch⟩ := ih (count + 1) (by omega) (by omega)
      exact ⟨place, n, hplace, by simp [hgrid, hsearch]⟩

end Interval

/-! ### Where the search starts -/

/-- A decimal place from a binary one: `p / q` is close to the logarithm of two to the base ten, so
the place below the estimate is reached. -/
theorem ten_zpow_le_two_zpow {p q : Nat} (hq : 0 < q) (hlow : 2 ^ q ≤ 10 ^ p)
    (hhigh : 10 ^ p ≤ 2 ^ (q + 1)) {s : Int} (hs : s ≤ q) :
    (10 : ℚ) ^ ((s * p).fdiv q - 1) ≤ 2 ^ s := by
  have hlow' : (2 : ℚ) ^ q ≤ 10 ^ p := by exact_mod_cast hlow
  have hhigh' : (10 : ℚ) ^ p ≤ 2 ^ (q + 1) := by exact_mod_cast hhigh
  have htwo : (0 : ℚ) < 2 := two_pos
  have hfloor : (s * p).fdiv q * q ≤ s * p := by
    rw [Int.fdiv_eq_ediv_of_nonneg _ (Int.natCast_nonneg q)]
    exact Int.ediv_mul_le _ (by omega)
  generalize (s * p).fdiv q = g at hfloor
  -- above zero `p / q` is too large an estimate, but by less than one place in all
  have hpower : (10 : ℚ) ^ (s * p) ≤ 2 ^ (s * q) * 10 ^ q := by
    rcases Int.le_total 0 s with hsign | hsign
    · obtain ⟨t, rfl⟩ := Int.eq_ofNat_of_zero_le hsign
      have ht : t ≤ q := by omega
      calc (10 : ℚ) ^ ((t : Int) * p) = (10 ^ p) ^ t := by rw [mul_comm, zpow_mul]; norm_cast
        _ ≤ (2 ^ (q + 1)) ^ t := pow_le_pow_left₀ (by positivity) hhigh' t
        _ = 2 ^ ((t : Int) * q) * 2 ^ t := by rw [pow_right_comm, pow_succ, zpow_mul]; norm_cast
        _ ≤ 2 ^ ((t : Int) * q) * 10 ^ q := by
          refine mul_le_mul_of_nonneg_left ?_ (by positivity)
          exact (pow_le_pow_left₀ htwo.le (by norm_num) t).trans
            (pow_le_pow_right₀ (by norm_num) ht)
    · obtain ⟨t, ht⟩ := Int.eq_ofNat_of_zero_le (Int.neg_nonneg_of_nonpos hsign)
      obtain rfl : s = -t := by omega
      have hinv : (10 : ℚ) ^ (-(t : Int) * p) ≤ 2 ^ (-(t : Int) * q) := by
        have hpow : ((2 : ℚ) ^ q) ^ t ≤ (10 ^ p) ^ t := pow_le_pow_left₀ (by positivity) hlow' t
        rw [neg_mul, neg_mul, zpow_neg, zpow_neg, mul_comm, mul_comm (t : Int) q, zpow_mul, zpow_mul]
        exact_mod_cast inv_anti₀ (by positivity) hpow
      exact hinv.trans (le_mul_of_one_le_right (by positivity) (one_le_pow₀ (by norm_num)))
  -- where the exponents are integers, all are compared as `q`-th powers
  have hroot : ((10 : ℚ) ^ g) ^ q ≤ (2 ^ s * 10) ^ q := by
    rw [mul_pow, ← zpow_natCast (10 ^ g), ← zpow_mul, ← zpow_natCast (2 ^ s), ← zpow_mul]
    exact (zpow_le_zpow_right₀ (by norm_num) hfloor).trans hpower
  have hbase : (10 : ℚ) ^ g ≤ 2 ^ s * 10 :=
    le_of_pow_le_pow_left₀ (by omega) (by positivity) hroot
  rw [zpow_sub_one₀ (by norm_num)]
  linarith

/-- Whether a power of ten is reached, in natural numbers. -/
theorem Interval.reaches_iff {i : Interval} (hden : 0 < i.den) {e : Int} :
    10 ^ e.toNat * i.den ≤ i.mid * 10 ^ (-e).toNat ↔ (10 : ℚ) ^ e ≤ i.mid / i.den := by
  have hden' : (0 : ℚ) < i.den := Nat.cast_pos.mpr hden
  rw [zpow_eq_div, div_le_div_iff₀ (by positivity) hden']
  norm_cast

/-- **The search starts no higher than the number.** -/
theorem Interval.leadingPlace_le {i : Interval} {k : Nat} (hden : i.den = 2 ^ k) (hmid : i.mid ≠ 0)
    (hrange : i.mid < 2 ^ 100000) : (10 : ℚ) ^ i.leadingPlace ≤ i.mid / i.den := by
  have hden' : 0 < i.den := hden ▸ Nat.two_pow_pos k
  unfold leadingPlace
  dsimp only
  split
  -- the first two places are tried before they are taken
  next h => exact (reaches_iff hden').mp (of_decide_eq_true h)
  next =>
    split
    next h => exact (reaches_iff hden').mp (of_decide_eq_true h)
    next =>
      -- the last one is computed from the number of bits, with a fraction that errs downwards
      have hlog : Nat.log2 i.mid < 100000 := (Nat.log2_lt hmid).mpr hrange
      have hscale : (2 : ℚ) ^ ((Nat.log2 i.mid : Int) - Nat.log2 i.den) ≤ i.mid / i.den := by
        rw [hden, Nat.log2_two_pow, zpow_sub₀ two_ne_zero, zpow_natCast, zpow_natCast, Nat.cast_pow,
          Nat.cast_ofNat]
        refine div_le_div_of_nonneg_right ?_ (by positivity)
        exact_mod_cast Nat.log2_self_le hmid
      refine le_trans ?_ hscale
      exact ten_zpow_le_two_zpow (p := 30103) (q := 100000) (by decide) (by decide +kernel)
        (by decide +kernel) (by omega)

namespace Finite

variable {x y : Finite}

theorem interval_mid_div (x : Finite) :
    (x.interval.mid : ℚ) / x.interval.den = (4 * x.significand : Nat) * 2 ^ (x.exponent - 2) :=
  x.quarters_div_den _

theorem interval_high_div (x : Finite) :
    (x.interval.high : ℚ) / x.interval.den = (4 * x.significand + 2 : Nat) * 2 ^ (x.exponent - 2) :=
  x.quarters_div_den _

/-- A distance in natural numbers, against the spacing of a grid. -/
theorem grid_lt_iff {i : Interval} (hden : 0 < i.den) {place : Int} {a b : Nat} :
    i.den * 10 ^ place.toNat + 2 * (a * 10 ^ (-place).toNat) < 2 * (b * 10 ^ (-place).toNat) ↔
      (10 : ℚ) ^ place + 2 * (a / i.den) < 2 * (b / i.den) := by
  have hden' : (0 : ℚ) < i.den := Nat.cast_pos.mpr hden
  have hdown : (0 : ℚ) < 10 ^ (-place).toNat := by positivity
  rw [zpow_eq_div, ← Nat.cast_lt (α := ℚ)]
  push_cast
  rw [← mul_lt_mul_iff_left₀ (mul_pos hden' hdown)]
  field_simp

theorem interval_mid_bounds (h : x.significand ≠ 0) :
    x.interval.mid ≠ 0 ∧ x.interval.mid < 2 ^ 100000 := by
  obtain ⟨hbits, -, hmost, -⟩ := x.canonical
  have hmid : x.interval.mid = 4 * x.significand * 2 ^ (x.exponent - 2).toNat := rfl
  have hpow := Nat.two_pow_pos (x.exponent - 2).toNat
  constructor
  · rw [hmid]
    exact Nat.mul_ne_zero (by omega) hpow.ne'
  · calc x.interval.mid < 2 ^ 55 * 2 ^ (x.exponent - 2).toNat :=
          Nat.mul_lt_mul_of_pos_right (by omega) hpow
      _ = 2 ^ (55 + (x.exponent - 2).toNat) := (Nat.pow_add ..).symm
      _ ≤ 2 ^ 100000 := Nat.pow_le_pow_right two_pos (by omega)

/-- The eighteenth digit is worth less than half a unit. -/
theorem grid_fine (h : x.significand ≠ 0) :
    (10 : ℚ) ^ (x.interval.leadingPlace - (18 : Nat) + 1) < 2 * 2 ^ (x.exponent - 2) := by
  obtain ⟨hmid, hrange⟩ := interval_mid_bounds h
  have hlead := Interval.leadingPlace_le (i := x.interval) rfl hmid hrange
  -- a significand has 53 bits, and seventeen digits more than make up for them
  have hbits : ((4 * x.significand : Nat) : ℚ) ≤ 2 ^ 55 := by
    have := x.canonical.1
    exact_mod_cast (show 4 * x.significand ≤ 2 ^ 55 by omega)
  have hunit : (0 : ℚ) < 2 ^ (x.exponent - 2) := by positivity
  rw [interval_mid_div] at hlead
  generalize (2 : ℚ) ^ (x.exponent - 2) = unit at hlead hunit ⊢
  calc (10 : ℚ) ^ (x.interval.leadingPlace - (18 : Nat) + 1)
      = 10 ^ x.interval.leadingPlace * 10 ^ (-17 : Int) := by
        rw [← zpow_add₀ (by norm_num)]
        congr 1
        omega
    _ ≤ 2 ^ 55 * unit * 10 ^ (-17 : Int) := by
        refine mul_le_mul_of_nonneg_right (hlead.trans ?_) (by positivity)
        exact mul_le_mul_of_nonneg_right hbits hunit.le
    _ = 2 ^ 55 * 10 ^ (-17 : Int) * unit := by ring
    _ < 2 * unit := mul_lt_mul_of_pos_right (by norm_num) hunit

/-- **What is found rounds to the number.** -/
theorem shortest_covers (h : x.significand ≠ 0) : x.Covers x.shortest.value := by
  have hden := x.interval_den_pos
  have hunit : (0 : ℚ) < 2 ^ (x.exponent - 2) := by positivity
  have hfine := grid_fine h
  have hquarters : (x.lowQuarters : ℚ) + 1 ≤ (4 * x.significand : Nat) := by
    have : x.lowQuarters + 1 ≤ 4 * x.significand := by
      unfold lowQuarters
      split <;> omega
    exact_mod_cast this
  -- the middle is four quarters of the significand, the ends are a quarter or more away
  have hgrid : (x.interval.onGrid? (x.interval.leadingPlace - (18 : Nat) + 1)).isSome = true := by
    refine Interval.onGrid?_isSome hden ?_ ?_
    · rw [grid_lt_iff hden, interval_mid_div, interval_low, quarters_div_den]
      have := mul_le_mul_of_nonneg_right hquarters hunit.le
      linarith
    · rw [grid_lt_iff hden, interval_mid_div, interval_high_div]
      push_cast at hfine ⊢
      linarith
  obtain ⟨place, n, hplace, hsearch⟩ :=
    Interval.searchGrids_found 18 1 (by decide) (by decide) hgrid
  obtain ⟨-, hholds⟩ := Interval.holds_of_onGrid? hplace
  have hvalue : x.shortest.value = (n * 10 ^ place.toNat : Nat) / (10 ^ (-place).toNat : Nat) := by
    rw [shortest, if_neg h]
    dsimp only
    rw [Decimal.value_stripZeros, hsearch, Decimal.value, zpow_eq_div]
    push_cast
    ring
  rw [hvalue]
  exact (interval_holds_iff (by positivity)).mp hholds

theorem shortest_of_zero (h : x.significand = 0) : x.shortest = ⟨0, 0⟩ :=
  if_pos h

/-- The decimal number of a zero is zero, and that of no other number. -/
theorem shortest_value_eq_zero_iff : x.shortest.value = 0 ↔ x.significand = 0 := by
  constructor
  · intro hvalue
    refine Classical.byContradiction fun h => ?_
    have hlow : 0 < x.low := by
      have : x.lowQuarters ≠ 0 := by
        unfold lowQuarters
        split <;> omega
      unfold low
      positivity
    have := (shortest_covers h).le.1
    linarith
  · intro h
    rw [shortest_of_zero h]
    simp [Decimal.value]

/-- **The magnitude is known from the decimal number.** -/
theorem magnitude_eq_of_shortest (h : x.shortest.value = y.shortest.value) :
    x.magnitude = y.magnitude := by
  by_cases hx : x.significand = 0
  · have hy : y.significand = 0 := by
      rw [← shortest_value_eq_zero_iff, ← h, shortest_value_eq_zero_iff]
      exact hx
    rw [magnitude_eq_zero_iff.mpr hx, magnitude_eq_zero_iff.mpr hy]
  · have hy : y.significand ≠ 0 := by
      rwa [Ne, ← shortest_value_eq_zero_iff, ← h, shortest_value_eq_zero_iff]
    exact (shortest_covers hx).unique (h ▸ shortest_covers hy)

end Finite

end Binary64

end Scenario
