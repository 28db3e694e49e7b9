import Scenario.Proofs.Binary64.Shortest
import Scenario.Proofs.Digits

/-!
# Decimal texts read back

The texts of binary64 numbers have a point, an exponent, both or neither, wherever the digits of the
decimal number happen to stand. Reading them gives its value again.

* `Reads` — a text reads as a decimal number of a value; `Reads.pointed` and `Reads.unpointed` are the
  reader on a text whose parts are known.
* `numeral_of_unsignedDecimal?` — the characters of what reads as a number.
* `Finite.pointStyle_reads` — **an unsigned text reads as the decimal number it was written from.**
* `Finite.pointStyle_inj` — **different numbers have different texts,** also the two zeros.
-/

namespace Scenario

namespace Binary64

/-! ### Digits -/

/-- A text that does not go on with a digit. -/
def Stops (text : List Char) : Prop := ∀ c ∈ text.head?, c.isDigit = false

theorem stops_nil : Stops [] := by
  intro c hc
  cases hc

theorem stops_cons {c : Char} {rest : List Char} (h : c.isDigit = false) : Stops (c :: rest) := by
  rintro _ ⟨⟩
  exact h

/-- Characters of one kind, before a text that does not go on with that kind. -/
theorem takeWhile_run {kind : Char → Bool} {run rest : List Char} (hrun : ∀ c ∈ run, kind c = true)
    (hrest : ∀ c ∈ rest.head?, kind c = false) :
    (run ++ rest).takeWhile kind = run ∧ (run ++ rest).dropWhile kind = rest := by
  rw [List.takeWhile_append_of_pos hrun, List.dropWhile_append_of_pos hrun]
  cases rest with
  | nil => exact ⟨List.append_nil run, rfl⟩
  | cons c rest =>
    have hc : ¬ kind c = true := by simp [hrest c rfl]
    rw [List.takeWhile_cons_of_neg hc, List.dropWhile_cons_of_neg hc, List.append_nil]
    exact ⟨rfl, rfl⟩

theorem takeDigits_append {digits rest : List Char} (hdigits : digits.all Char.isDigit = true)
    (hrest : Stops rest) : takeDigits (digits ++ rest) = (digits, rest) := by
  obtain ⟨htake, hdrop⟩ := takeWhile_run (List.all_eq_true.mp hdigits) hrest
  rw [takeDigits, List.span_eq_takeWhile_dropWhile, htake, hdrop]

theorem valueOfDigits_toDigits (n : Nat) : valueOfDigits (Nat.toDigits 10 n) = n :=
  Nat.ofDigitChars_ten_toDigits

theorem valueOfDigits_append_zeros (digits : List Char) (n : Nat) :
    valueOfDigits (digits ++ List.replicate n '0') = valueOfDigits digits * 10 ^ n := by
  rw [Nat.mul_comm]
  exact (Nat.ofDigitChars_append 0).trans Nat.ofDigitChars_replicate_zero

theorem valueOfDigits_zeros_append (digits : List Char) (n : Nat) :
    valueOfDigits (List.replicate n '0' ++ digits) = valueOfDigits digits := by
  refine (Nat.ofDigitChars_append 0).trans ?_
  rw [Nat.ofDigitChars_replicate_zero, Nat.mul_zero]
  rfl

/-! ### Reading the parts -/

/-- A text reads as a decimal number of the given value. -/
def Reads (text : List Char) (q : ℚ) : Prop :=
  ∃ d, unsignedDecimal? text = some d ∧ d.value = q

theorem Reads.unique {text : List Char} {q r : ℚ} (hq : Reads text q) (hr : Reads text r) :
    q = r := by
  obtain ⟨d, hd, rfl⟩ := hq
  obtain ⟨d', hd', rfl⟩ := hr
  rw [Option.some.inj (hd.symm.trans hd')]

/-- An unsigned text has no sign. -/
theorem Reads.no_sign {rest : List Char} {q : ℚ} : ¬ Reads ('-' :: rest) q := by
  rintro ⟨d, hd, -⟩
  simp [unsignedDecimal?, takeDigits, List.span_eq_takeWhile_dropWhile] at hd

/-! ### The characters of a decimal text -/

/-- The characters that decimal texts are made of. -/
def Numeral (c : Char) : Prop := c.isDigit = true ∨ c ∈ ['-', '+', '.', 'e', 'E']

instance (c : Char) : Decidable (Numeral c) := inferInstanceAs (Decidable (_ ∨ _))

theorem all_takeDigits (text : List Char) : (takeDigits text).1.all Char.isDigit = true := by
  rw [takeDigits, List.span_eq_takeWhile_dropWhile]
  exact List.all_takeWhile

theorem takeDigits_parts (text : List Char) : (takeDigits text).1 ++ (takeDigits text).2 = text := by
  rw [takeDigits, List.span_eq_takeWhile_dropWhile]
  exact List.takeWhile_append_dropWhile

theorem numeral_of_exponentPart? {text : List Char} {e : Int} (h : exponentPart? text = some e) :
    ∀ c ∈ text, Numeral c := by
  unfold exponentPart? at h
  split at h
  next => exact fun c hc => absurd hc List.not_mem_nil
  next c rest =>
    obtain ⟨hmark, h⟩ := Option.ite_none_right_eq_some.mp h
    have hc : Numeral c := by
      simp at hmark
      rcases hmark with rfl | rfl <;> exact .inr (by decide)
    dsimp only at h
    obtain ⟨hdigits, -⟩ := Option.ite_none_left_eq_some.mp h
    simp only [Bool.or_eq_true, Bool.not_eq_true', not_or, Bool.not_eq_false] at hdigits
    have hdigits := List.all_eq_true.mp hdigits.2
    refine List.forall_mem_cons.mpr ⟨hc, fun c' hc' => ?_⟩
    -- behind the mark there is a sign, of either kind, or there is none
    split at hdigits
    · rcases List.mem_cons.mp hc' with rfl | hmem
      · exact .inr (by decide)
      · exact .inl (hdigits c' hmem)
    · rcases List.mem_cons.mp hc' with rfl | hmem
      · exact .inr (by decide)
      · exact .inl (hdigits c' hmem)
    · exact .inl (hdigits c' hc')

/-- What reads as an unsigned decimal number is made of numerals, and a digit or the point comes
first. -/
theorem numeral_of_unsignedDecimal? {text : List Char} {d : Decimal}
    (h : unsignedDecimal? text = some d) :
    (∀ c ∈ text, Numeral c) ∧ ∃ c ∈ text.head?, c.isDigit = true ∨ c = '.' := by
  have hwhole := List.all_eq_true.mp (all_takeDigits text)
  have hparts := takeDigits_parts text
  unfold unsignedDecimal? at h
  generalize takeDigits text = split at h hwhole hparts
  obtain ⟨whole, rest⟩ := split
  subst hparts
  dsimp only at h
  split at h
  next more =>
    -- a point, more digits, and what may follow
    have hfraction := List.all_eq_true.mp (all_takeDigits more)
    obtain ⟨e, he, -⟩ := Option.map_eq_some_iff.mp (Option.ite_none_left_eq_some.mp h).2
    have hexponent := numeral_of_exponentPart? he
    constructor
    · intro c hc
      rcases List.mem_append.mp hc with hmem | hmem
      · exact .inl (hwhole c hmem)
      · rcases List.mem_cons.mp hmem with rfl | hmem
        · exact .inr (by decide)
        · rw [← takeDigits_parts more] at hmem
          rcases List.mem_append.mp hmem with hmem | hmem
          · exact .inl (hfraction c hmem)
          · exact hexponent c hmem
    · cases whole with
      | nil => exact ⟨'.', rfl, .inr rfl⟩
      | cons c whole => exact ⟨c, rfl, .inl (hwhole c List.mem_cons_self)⟩
  next =>
    obtain ⟨hne, h⟩ := Option.ite_none_left_eq_some.mp h
    obtain ⟨e, he, -⟩ := Option.map_eq_some_iff.mp h
    have hexponent := numeral_of_exponentPart? he
    constructor
    · intro c hc
      rcases List.mem_append.mp hc with hmem | hmem
      · exact .inl (hwhole c hmem)
      · exact hexponent c hmem
    · cases whole with
      | nil => simp at hne
      | cons c whole => exact ⟨c, rfl, .inl (hwhole c List.mem_cons_self)⟩

/-- A text that reads as a finite number begins with a numeral. -/
theorem numeral_of_ofText? {text : String} {x : Finite} (h : ofText? text = some (.finite x)) :
    ∃ c ∈ text.toList.head?, Numeral c := by
  unfold ofText? at h
  dsimp only at h
  -- a sign is a numeral itself
  split at h
  next rest hlist => exact ⟨'-', by rw [hlist]; rfl, .inr (by decide)⟩
  next rest hlist => exact ⟨'+', by rw [hlist]; rfl, .inr (by decide)⟩
  next =>
    -- the words for infinity and for no number are not finite
    split at h
    · cases h
    · split at h
      · cases h
      · obtain ⟨d, hd, -⟩ := Option.map_eq_some_iff.mp h
        obtain ⟨c, hc, hstart⟩ := (numeral_of_unsignedDecimal? hd).2
        refine ⟨c, hc, ?_⟩
        rcases hstart with hdigit | rfl
        · exact .inl hdigit
        · exact .inr (by decide)

section Parts

variable {whole fraction exponent rest : List Char} {e : Int} {q : ℚ}

/-- Digits, a point and digits, and what may follow. -/
theorem Reads.pointed (hwhole : whole.all Char.isDigit = true)
    (hfraction : fraction.all Char.isDigit = true) (hne : whole ≠ []) (hstops : Stops exponent)
    (hexponent : exponentPart? exponent = some e)
    (hvalue : (valueOfDigits (whole ++ fraction) : ℚ) * 10 ^ (e - fraction.length) = q) :
    Reads (whole ++ '.' :: (fraction ++ exponent)) q := by
  refine ⟨⟨valueOfDigits (whole ++ fraction), e - fraction.length⟩, ?_, hvalue⟩
  rw [unsignedDecimal?, takeDigits_append hwhole (stops_cons rfl)]
  simp only [takeDigits_append hfraction hstops, hexponent]
  simp [hne]

/-- Digits without a point, and an exponent. -/
theorem Reads.unpointed (hwhole : whole.all Char.isDigit = true) (hne : whole ≠ [])
    (hexponent : exponentPart? ('e' :: rest) = some e)
    (hvalue : (valueOfDigits whole : ℚ) * 10 ^ e = q) : Reads (whole ++ 'e' :: rest) q := by
  refine ⟨⟨valueOfDigits whole, e⟩, ?_, hvalue⟩
  rw [unsignedDecimal?, takeDigits_append hwhole (stops_cons rfl)]
  simp [hne, hexponent]

/-- An exponent with its sign. -/
theorem exponentPart?_spelled {plus : String} (hplus : plus = "+" ∨ plus = "") (e : Int) :
    exponentPart? ('e' :: (((if e < 0 then "" else plus) ++ toString e).toList)) = some e := by
  have hdigits := Text.all_isDigit_toDigits e.natAbs
  have hempty : (Nat.toDigits 10 e.natAbs).isEmpty = false := by
    simp [Nat.toDigits_ne_nil]
  have hvalue := valueOfDigits_toDigits e.natAbs
  rw [String.toList_append, Text.toList_toString]
  by_cases hsign : e < 0
  · rw [if_pos hsign, if_neg (by omega)]
    simpa [exponentPart?, hdigits, hempty, hvalue] using show -(e.natAbs : Int) = e by omega
  · have hpositive : (e.natAbs : Int) = e := by omega
    rw [if_neg hsign, if_pos (by omega)]
    rcases hplus with rfl | rfl
    · simpa [exponentPart?, hdigits, hempty, hvalue] using hpositive
    -- without a sign of its own, the first digit must not be taken for one
    · obtain ⟨c, rest, hlist, hdigit⟩ := Text.head_toDigits e.natAbs
      have hminus : c ≠ '-' := by
        rintro rfl
        exact absurd hdigit (by decide)
      have hplus : c ≠ '+' := by
        rintro rfl
        exact absurd hdigit (by decide)
      rw [hlist] at hdigits hvalue ⊢
      simpa [exponentPart?, hminus, hplus, hvalue, hpositive] using hdigits

end Parts

/-! ### Writing the forms -/

namespace Decimal

variable {d : Decimal}

theorem toList_digitsOf (n : Nat) : (digitsOf n).toList = Nat.toDigits 10 n := by
  simp [digitsOf]

/-- An integer: zeros behind the digits, then a point and one more zero. -/
theorem reads_integer (hdigits : d.digits ≠ 0) (hexp : 0 ≤ d.exponent) :
    Reads (d.plain ++ ".0").toList d.value := by
  have hlist : (d.plain ++ ".0").toList =
      Nat.toDigits 10 d.digits ++ List.replicate d.exponent.toNat '0' ++ '.' :: (['0'] ++ []) := by
    simp [plain, hdigits, hexp, toList_digitsOf, zeros]
  -- in front of the point there are only digits
  have hall : (Nat.toDigits 10 d.digits ++ List.replicate d.exponent.toNat '0').all Char.isDigit
      = true := by
    rw [List.all_append, Text.all_isDigit_toDigits]
    simp
  have hvalue : valueOfDigits
      (Nat.toDigits 10 d.digits ++ List.replicate d.exponent.toNat '0' ++ ['0']) =
        d.digits * 10 ^ d.exponent.toNat * 10 := by
    rw [show ['0'] = List.replicate 1 '0' from rfl, valueOfDigits_append_zeros,
      valueOfDigits_append_zeros, valueOfDigits_toDigits, Nat.pow_one]
  rw [hlist]
  refine Reads.pointed hall rfl (by simp [Nat.toDigits_ne_nil]) stops_nil rfl ?_
  rw [hvalue, value]
  obtain ⟨n, hn⟩ := Int.eq_ofNat_of_zero_le hexp
  rw [hn, Int.toNat_natCast, zpow_natCast, show (0 : Int) - (['0'].length : Nat) = -1 from rfl,
    zpow_neg_one]
  push_cast
  field_simp

/-- A number with digits behind the point. -/
theorem reads_fraction (hdigits : d.digits ≠ 0) (hexp : d.exponent < 0) :
    Reads d.plain.toList d.value := by
  have hall := Text.all_isDigit_toDigits d.digits
  have hneg : ¬ 0 ≤ d.exponent := not_le.mpr hexp
  obtain ⟨places, hplaces⟩ := Int.eq_ofNat_of_zero_le (Int.neg_nonneg_of_nonpos hexp.le)
  have hexponent : d.exponent = -places := by omega
  by_cases hlong : places < (Nat.toDigits 10 d.digits).length
  · -- the point stands among the digits
    have hlist : d.plain.toList =
        (Nat.toDigits 10 d.digits).take ((Nat.toDigits 10 d.digits).length - places) ++
          '.' :: ((Nat.toDigits 10 d.digits).drop ((Nat.toDigits 10 d.digits).length - places) ++
            []) := by
      simp [plain, hdigits, hneg, hplaces, digitsOf, hlong]
    rw [hlist]
    refine Reads.pointed ?_ ?_ ?_ stops_nil rfl ?_
    · exact List.all_eq_true.mpr fun c hc => List.all_eq_true.mp hall c (List.mem_of_mem_take hc)
    · exact List.all_eq_true.mpr fun c hc => List.all_eq_true.mp hall c (List.mem_of_mem_drop hc)
    · simp [Nat.toDigits_ne_nil]
      omega
    · rw [List.take_append_drop, valueOfDigits_toDigits, value, hexponent, List.length_drop]
      congr 2
      omega
  · -- zeros stand between the point and the digits
    have hlist : d.plain.toList =
        ['0'] ++ '.' :: (List.replicate (places - (Nat.toDigits 10 d.digits).length) '0' ++
          Nat.toDigits 10 d.digits ++ []) := by
      simp [plain, hdigits, hneg, hplaces, digitsOf, hlong, zeros]
    have hvalue : valueOfDigits (['0'] ++ (List.replicate
        (places - (Nat.toDigits 10 d.digits).length) '0' ++ Nat.toDigits 10 d.digits)) =
        d.digits := by
      rw [show ['0'] = List.replicate 1 '0' from rfl, valueOfDigits_zeros_append,
        valueOfDigits_zeros_append, valueOfDigits_toDigits]
    rw [hlist]
    refine Reads.pointed rfl ?_ (by simp) stops_nil rfl ?_
    · rw [List.all_append, hall]
      simp
    · rw [hvalue, value, hexponent, List.length_append, List.length_replicate]
      congr 2
      omega

theorem point_mem_plain (hdigits : d.digits ≠ 0) (hexp : d.exponent < 0) :
    '.' ∈ d.plain.toList := by
  unfold plain
  dsimp only
  rw [if_neg hdigits, if_neg (not_le.mpr hexp)]
  split <;> simp

/-- A number with an exponent. -/
theorem reads_scientific {plus : String} (hplus : plus = "+" ∨ plus = "") :
    Reads (d.scientific plus).toList d.value := by
  have hall := Text.all_isDigit_toDigits d.digits
  have hvalue := valueOfDigits_toDigits d.digits
  obtain ⟨c, rest, hdigits, -⟩ := Text.head_toDigits d.digits
  rw [hdigits] at hall hvalue
  have hlength : (digitsOf d.digits).length = rest.length + 1 := by
    simp [digitsOf, hdigits, Nat.add_comm]
  have hexponent : d.exponent + (digitsOf d.digits).length - 1 = d.exponent + rest.length := by
    omega
  have hspelled := exponentPart?_spelled hplus (d.exponent + rest.length)
  by_cases hshort : rest = []
  · -- one digit and no point
    subst hshort
    have hlist : (d.scientific plus).toList = [c] ++ 'e' ::
        ((if d.exponent + ([] : List Char).length < 0 then "" else plus) ++
          toString (d.exponent + ([] : List Char).length)).toList := by
      unfold scientific
      dsimp only
      rw [hexponent, if_pos (show (digitsOf d.digits).length ≤ 1 from Nat.le_of_eq hlength)]
      simp [toList_digitsOf, hdigits]
    rw [hlist]
    refine Reads.unpointed hall (by simp) hspelled ?_
    rw [hvalue, value]
    simp
  -- the point stands behind the first digit
  · have hlist : (d.scientific plus).toList = [c] ++ '.' :: (rest ++ 'e' ::
        ((if d.exponent + rest.length < 0 then "" else plus) ++
          toString (d.exponent + rest.length)).toList) := by
      unfold scientific
      dsimp only
      rw [hexponent, hlength, if_neg (by simpa using hshort)]
      simp [toList_digitsOf, hdigits]
    rw [hlist]
    refine Reads.pointed (by simp_all) (by simp_all) (by simp) (stops_cons rfl) hspelled ?_
    rw [List.singleton_append, hvalue, value]
    simp

end Decimal

/-! ### Numbers -/

namespace Finite

variable {plus : String} {x y : Finite}

/-- **An unsigned text reads as the decimal number** it was written from. -/
theorem pointStyle_reads (hplus : plus = "+" ∨ plus = "") (x : Finite) :
    ∃ body, x.pointStyle plus = (if x.negative then "-" else "") ++ body ∧
      Reads body.toList x.shortest.value := by
  unfold pointStyle
  dsimp only
  by_cases hdigits : x.shortest.digits = 0
  · refine ⟨"0.0", if_pos hdigits, ?_⟩
    have hzero : x.shortest.value = 0 := by rw [Decimal.value, hdigits, Nat.cast_zero, zero_mul]
    have hlist : "0.0".toList = ['0'] ++ '.' :: (['0'] ++ []) := by decide
    rw [hzero, hlist]
    exact Reads.pointed rfl rfl (by simp) stops_nil rfl (by simp [valueOfDigits])
  · rw [if_neg hdigits]
    -- the style is chosen by how many digits stand before the point
    split
    next h =>
      simp only [Bool.and_eq_true, decide_eq_true_eq] at h
      exact ⟨_, String.append_assoc .., Decimal.reads_integer hdigits h.1⟩
    next =>
      split
      next h =>
        simp only [Bool.and_eq_true, decide_eq_true_eq] at h
        exact ⟨_, rfl, Decimal.reads_fraction hdigits h.1.1⟩
      next => exact ⟨_, rfl, Decimal.reads_scientific hplus⟩

/-- A text is made of numerals. -/
theorem numeral_of_pointStyle (hplus : plus = "+" ∨ plus = "") (x : Finite) :
    ∀ c ∈ (x.pointStyle plus).toList, Numeral c := by
  obtain ⟨body, htext, d, hread, -⟩ := pointStyle_reads hplus x
  rw [htext, String.toList_append]
  intro c hc
  rcases List.mem_append.mp hc with hmem | hmem
  · split at hmem
    · cases List.mem_singleton.mp hmem
      exact .inr (by decide)
    · cases hmem
  · exact (numeral_of_unsignedDecimal? hread).1 c hmem

/-- A text has a point or an exponent: it is not the text of an integer. -/
theorem pointStyle_marked (plus : String) (x : Finite) :
    ∃ c ∈ (x.pointStyle plus).toList, c = '.' ∨ c = 'e' := by
  unfold pointStyle
  dsimp only
  split
  · exact ⟨'.', by simp, .inl rfl⟩
  · split
    · exact ⟨'.', by simp, .inl rfl⟩
    · split
      next hdigits _ h =>
        simp only [Bool.and_eq_true, decide_eq_true_eq] at h
        exact ⟨'.', by simp [Decimal.point_mem_plain hdigits h.1.1], .inl rfl⟩
      · exact ⟨'e', by simp [Decimal.scientific], .inr rfl⟩

/-- **Different numbers have different texts,** and so have the two zeros. -/
theorem pointStyle_inj (hplus : plus = "+" ∨ plus = "")
    (h : x.pointStyle plus = y.pointStyle plus) : x = y := by
  obtain ⟨body, hx, hbody⟩ := pointStyle_reads hplus x
  obtain ⟨body', hy, hbody'⟩ := pointStyle_reads hplus y
  rw [hx, hy] at h
  have hlists := congrArg String.toList h
  rw [String.toList_append, String.toList_append] at hlists
  -- a text without a sign does not begin with one
  have hsign : x.negative = y.negative := by
    cases hxs : x.negative <;> cases hys : y.negative <;> simp [hxs, hys] at hlists ⊢
    · exact absurd (hlists ▸ hbody) Reads.no_sign
    · exact absurd (hlists ▸ hbody') Reads.no_sign
  rw [hsign, List.append_cancel_left_eq] at hlists
  exact ext_magnitude hsign (magnitude_eq_of_shortest ((hlists ▸ hbody).unique hbody'))

end Finite

end Binary64

end Scenario
