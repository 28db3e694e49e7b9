import Scenario.Json.Printer
import Scenario.Json.Reader

/-!
# Quoted strings read back

`readString` undoes `Quoted.encode`, whatever follows the closing quote (`readString_encode`). So a
quoted string is known from its text, and so is where it ends (`Quoted.encode_append_inj`).
-/

namespace Scenario

namespace Json

/-! ### One character -/

theorem hexValue?_hexDigit : ∀ n < 16, hexValue? (hexDigit n) = some n := by
  decide

/-- Four hexadecimal digits read as the unit they were written from. -/
theorem readFourHex_fourHex {n : Nat} (h : n < 65536) (rest : List Char) :
    readFourHex (fourHex n ++ rest) = .ok (n, rest) := by
  have hdigit (m : Nat) : hexValue? (hexDigit (m % 16)) = some (m % 16) :=
    hexValue?_hexDigit _ (Nat.mod_lt m (by decide))
  simp only [fourHex, List.cons_append, List.nil_append, readFourHex, hdigit]
  congr 2
  omega

/-- A control character reads back from its four digits. -/
theorem readUnicodeEscape_fourHex {c : Char} (h : c.toNat < 0x20) (rest : List Char) :
    readUnicodeEscape (fourHex c.toNat ++ rest) = .ok (c, rest) := by
  have hread := readFourHex_fourHex (n := c.toNat) (by omega) rest
  have htrail : ¬ (0xDC00 ≤ c.toNat && c.toNat ≤ 0xDFFF) = true := by
    simp only [Bool.and_eq_true, decide_eq_true_eq]
    omega
  have hunit : (c.toNat < 0xD800 || 0xDBFF < c.toNat) = true := by
    simp only [Bool.or_eq_true, decide_eq_true_eq]
    omega
  calc readUnicodeEscape (fourHex c.toNat ++ rest) = .ok (Char.ofNat c.toNat, rest) := by
        unfold readUnicodeEscape
        dsimp only
        rw [hread]
        exact (if_neg htrail).trans (if_pos hunit)
    _ = .ok (c, rest) := by rw [Char.ofNat_toNat]

/-- A letter after a backslash. -/
theorem readStringBody_letter (fuel : Nat) (acc rest : List Char) {letter c : Char}
    (h : simpleEscape? letter = some c) :
    readStringBody (fuel + 1) acc ('\\' :: letter :: rest) = readStringBody fuel (c :: acc) rest := by
  have hunicode : letter ≠ 'u' := by
    rintro rfl
    simp [simpleEscape?] at h
  rw [readStringBody.eq_def]
  simp [h]

/-- **A character reads back,** escaped or not. -/
theorem readStringBody_encodeChar (fuel : Nat) (acc : List Char) (c : Char) (rest : List Char) :
    readStringBody (fuel + 1) acc (Quoted.encodeChar c ++ rest) =
      readStringBody fuel (c :: acc) rest := by
  unfold Quoted.encodeChar
  repeat' split
  -- the characters that a letter stands for
  iterate 7
    subst c
    exact readStringBody_letter fuel acc rest rfl
  next hcontrol =>
    rw [List.cons_append, List.cons_append, readStringBody.eq_def]
    show (readUnicodeEscape (fourHex c.toNat ++ rest) >>= fun read =>
      readStringBody fuel (read.1 :: acc) read.2) = _
    rw [readUnicodeEscape_fourHex hcontrol rest]
    rfl
  next hquote hslash _ _ _ _ _ hplain =>
    rw [readStringBody.eq_def]
    simp [hquote, hslash, hplain]

/-! ### Strings -/

theorem encodeChar_ne_nil (c : Char) : Quoted.encodeChar c ≠ [] := by
  unfold Quoted.encodeChar
  repeat' split
  all_goals simp

theorem length_le_encode (chars : List Char) :
    chars.length ≤ (chars.flatMap Quoted.encodeChar).length := by
  induction chars with
  | nil => exact Nat.le_refl 0
  | cons c chars ih =>
    have := List.length_pos_iff.mpr (encodeChar_ne_nil c)
    simp only [List.flatMap_cons, List.length_append, List.length_cons]
    omega

theorem readStringBody_encode {fuel : Nat} (chars acc rest : List Char)
    (hfuel : chars.length < fuel) :
    readStringBody fuel acc (chars.flatMap Quoted.encodeChar ++ '\x22' :: rest) =
      .ok (String.ofList (acc.reverse ++ chars), rest) := by
  induction chars generalizing fuel acc with
  | nil =>
    obtain ⟨fuel, rfl⟩ := Nat.exists_eq_succ_of_ne_zero (Nat.ne_of_gt hfuel)
    rw [readStringBody.eq_def]
    simp
  | cons c chars ih =>
    obtain ⟨fuel, rfl⟩ := Nat.exists_eq_succ_of_ne_zero (Nat.ne_of_gt (Nat.zero_lt_of_lt hfuel))
    rw [List.flatMap_cons, List.append_assoc, readStringBody_encodeChar,
      ih (c :: acc) (Nat.lt_of_succ_lt_succ hfuel)]
    simp

/-- **A quoted string reads back.** -/
theorem readString_encode (s : String) (rest : List Char) :
    readString (s.toList.flatMap Quoted.encodeChar ++ '\x22' :: rest) = .ok (s, rest) := by
  have hlength := length_le_encode s.toList
  rw [readString, readStringBody_encode _ _ _ (by simp only [List.length_append]; omega)]
  simp

theorem Quoted.toList_encode (s : String) :
    (encode s).toList = '\x22' :: (s.toList.flatMap encodeChar ++ ['\x22']) := by
  simp [encode]

/-- A quoted string is known from its text, and where it ends. -/
theorem Quoted.encode_append_inj {s t : String} {rest rest' : List Char}
    (h : (encode s).toList ++ rest = (encode t).toList ++ rest') : s = t ∧ rest = rest' := by
  have hbody : s.toList.flatMap encodeChar ++ '\x22' :: rest =
      t.toList.flatMap encodeChar ++ '\x22' :: rest' := by
    simpa [toList_encode] using h
  have hread := readString_encode s rest
  rw [hbody, readString_encode] at hread
  cases hread
  exact ⟨rfl, rfl⟩

end Json

end Scenario
