import Scenario.Proofs.Comparison.Equality
import Scenario.Proofs.Json.Printer

/-!
# Equality against order

Equality looks at normal forms, order at numbers or at the texts of the values as they stand. For
almost all pairs the two agree.

* `Coherent` — exactly one of "less", "equal" and "greater" holds, and the other operators follow.
* `Discrepant` — the pairs on which they disagree: one truth value in two spellings, lists or objects
  that differ in the signs of zeros, and a text that spells nothing against another value that is
  written just so.
* `compare_coherent` — **every other pair is coherent,** and order turns round with its arguments for
  all pairs.
* `Discrepant.not_coherent` — none of the exceptions could be left out.
-/

namespace Scenario

namespace Comparison

open Json

variable {a b v : Value} {s : String}

/-! ### Coherence -/

/-- A comparison is answered with yes. -/
def Yes (a : Value) (op : Operator) (b : Value) : Prop := compare a op b = .ok true

/-- The operators of equality and order tell one story about two values. -/
structure Coherent (a b : Value) : Prop where
  one : (Yes a .lt b ∧ ¬ Yes a .eq b ∧ ¬ Yes a .gt b) ∨
    (¬ Yes a .lt b ∧ Yes a .eq b ∧ ¬ Yes a .gt b) ∨
    (¬ Yes a .lt b ∧ ¬ Yes a .eq b ∧ Yes a .gt b)
  ge : Yes a .ge b ↔ Yes a .gt b ∨ Yes a .eq b
  le : Yes a .le b ↔ Yes a .lt b ∨ Yes a .eq b

theorem yes_eq : Yes a .eq b ↔ looseEq a b = true := by simp [Yes, compare]

theorem yes_gt : Yes a .gt b ↔ looseCompare a b = .gt := by simp [Yes, compare]

theorem yes_ge : Yes a .ge b ↔ looseCompare a b ≠ .lt := by simp [Yes, compare]

theorem yes_lt : Yes a .lt b ↔ looseCompare a b = .lt := by simp [Yes, compare]

theorem yes_le : Yes a .le b ↔ looseCompare a b ≠ .gt := by simp [Yes, compare]

/-- All depends on whether equal values are those that the order does not tell apart. -/
theorem coherent_iff : Coherent a b ↔ (looseEq a b = true ↔ looseCompare a b = .eq) := by
  constructor
  · rintro ⟨hone, -, -⟩
    simp only [yes_eq, yes_gt, yes_lt] at hone
    cases hcompare : looseCompare a b <;> simp_all
  · intro h
    constructor <;> simp only [yes_eq, yes_gt, yes_ge, yes_lt, yes_le, h] <;>
      cases looseCompare a b <;> simp

/-! ### Order -/

theorem looseCompare_of_numbers {m n : Number} (ha : normalize a = .number m)
    (hb : normalize b = .number n) : looseCompare a b = m.toFinite.compare n.toFinite := by
  rw [looseCompare, ha, hb]

/-- Unless both stand for numbers, texts are compared. -/
theorem looseCompare_of_texts
    (h : ¬ ∃ m n, normalize a = .number m ∧ normalize b = .number n) :
    looseCompare a b = Ord.compare (Placeholder.display a) (Placeholder.display b) := by
  unfold looseCompare
  split
  next m n ha hb => exact absurd ⟨m, n, ha, hb⟩ h
  next => rfl

/-- **Order turns round** with its arguments. -/
theorem looseCompare_swap (a b : Value) : looseCompare b a = (looseCompare a b).swap := by
  by_cases h : ∃ m n, normalize a = .number m ∧ normalize b = .number n
  · obtain ⟨m, n, ha, hb⟩ := h
    rw [looseCompare_of_numbers ha hb, looseCompare_of_numbers hb ha]
    exact (Int.compare_swap ..).symm
  · have hswap : ¬ ∃ m n, normalize b = .number m ∧ normalize a = .number n := by
      rintro ⟨m, n, hb, ha⟩
      exact h ⟨n, m, ha, hb⟩
    rw [looseCompare_of_texts h, looseCompare_of_texts hswap]
    exact Std.OrientedOrd.eq_swap

/-- Numbers are equal when the order does not tell them apart. -/
theorem coherent_of_numbers {m n : Number} (ha : normalize a = .number m)
    (hb : normalize b = .number n) : Coherent a b := by
  rw [coherent_iff, looseEq_iff, looseCompare_of_numbers ha hb, ha, hb, ← same_iff]
  show m.toFinite.sameValue n.toFinite = true ↔ Ord.compare _ _ = Ordering.eq
  rw [Binary64.Finite.sameValue, decide_eq_true_eq, Int.compare_eq_eq]

/-- Of other values the comparands and the texts must be equal together. -/
theorem coherent_iff_of_texts
    (h : ¬ ∃ m n, normalize a = .number m ∧ normalize b = .number n) :
    Coherent a b ↔ (comparand (normalize a) = comparand (normalize b) ↔
      Placeholder.display a = Placeholder.display b) := by
  rw [coherent_iff, looseEq_iff, looseCompare_of_texts h, Std.LawfulEqOrd.compare_eq_iff_eq]

/-! ### The pairs that disagree -/

/-- Pairs that normal forms and texts tell apart differently. -/
inductive Discrepant : Value → Value → Prop
  /-- One truth value, spelled differently. -/
  | spellings {a b : Value} {t : Bool} (ha : normalize a = .bool t) (hb : normalize b = .bool t)
    (htexts : Placeholder.display a ≠ Placeholder.display b) : Discrepant a b
  /-- Lists that differ in the signs of zeros. -/
  | lists {xs ys : List Value} (hdata : Value.unsignedItems xs = Value.unsignedItems ys)
    (hne : xs ≠ ys) : Discrepant (.array xs) (.array ys)
  /-- Objects that differ in the signs of zeros. -/
  | objects {xs ys : List (String × Value)}
    (hdata : Value.unsignedMembers xs = Value.unsignedMembers ys) (hne : xs ≠ ys) :
    Discrepant (.object xs) (.object ys)
  /-- A text that spells nothing, and another value that is written just so. -/
  | textLeft {s : String} {v : Value} (hs : spelled? s = none) (hv : ∀ t, v ≠ .string t)
    (htext : v.compact = s) : Discrepant (.string s) v
  /-- The same the other way round. -/
  | textRight {s : String} {v : Value} (hs : spelled? s = none) (hv : ∀ t, v ≠ .string t)
    (htext : v.compact = s) : Discrepant v (.string s)

theorem Discrepant.symm (h : Discrepant a b) : Discrepant b a := by
  cases h with
  | spellings ha hb htexts => exact .spellings hb ha htexts.symm
  | lists hdata hne => exact .lists hdata.symm hne.symm
  | objects hdata hne => exact .objects hdata.symm hne.symm
  | textLeft hs hv htext => exact .textRight hs hv htext
  | textRight hs hv htext => exact .textLeft hs hv htext

/-! ### Texts that spell something -/

theorem display_of_not_string (h : ∀ s, v ≠ .string s) : Placeholder.display v = v.compact := by
  cases v with
  | string s => exact absurd rfl (h s)
  | _ => rfl

/-- The text of a number begins with a numeral. -/
theorem numeral_of_spelled {n : Number} (h : spelled? s = some (.number n)) :
    ∃ c ∈ s.toList.head?, Binary64.Numeral c := by
  generalize hv : Value.number n = v at h
  cases spells_of_spelled? h with
  | @whole k digits htext hne hdigits =>
    rcases htext with hlist | hlist
    · obtain ⟨c, rest, rfl⟩ := List.exists_cons_of_ne_nil hne
      exact ⟨c, by rw [hlist]; rfl, .inl (List.all_eq_true.mp hdigits c List.mem_cons_self)⟩
    · exact ⟨'-', by rw [hlist]; rfl, .inr (by decide)⟩
  | fractional hread => exact Binary64.numeral_of_ofText? hread
  | truth t => cases hv

/-- A value whose text spells a number is a number. -/
theorem number_of_spelled {n : Number} (h : spelled? v.compact = some (.number n)) :
    ∃ m, v = .number m := by
  obtain ⟨c, hc, hnumeral⟩ := numeral_of_spelled h
  obtain ⟨d, rest, hlist, hkind⟩ := v.compact_lead
  rw [hlist] at hc
  cases hc
  rw [Value.kindOfLead, if_pos hnumeral] at hkind
  cases v <;> simp [Value.kindName] at hkind ⊢

/-- The text of a truth value begins with its first letter, small or large. -/
theorem lead_of_spelled {t : Bool} (h : spelled? s = some (.bool t)) :
    s.toList.head?.map Char.toLower = some (if t then 't' else 'f') := by
  have hhead (word : String) (hsame : Text.sameIgnoringCase s word = true) :
      s.toList.head?.map Char.toLower = word.toList.head?.map Char.toLower := by
    have hlower := congrArg String.toList (of_decide_eq_true hsame)
    rw [Text.asciiLower, Text.asciiLower, String.toList_ofList, String.toList_ofList] at hlower
    rw [← List.head?_map, ← List.head?_map, hlower]
  cases spells_of_spelled? h with
  | truth t hword =>
    refine (hhead _ hword).trans ?_
    cases t <;> rfl

theorem toLower_of_numeral {c : Char} (h : Binary64.Numeral c) :
    c.toLower ≠ 't' ∧ c.toLower ≠ 'f' := by
  rcases h with hdigit | hmem
  · have hval : c.val ≤ '9'.val := (Bool.and_eq_true_iff.mp hdigit).2 |> of_decide_eq_true
    have hlower : c.toLower = c :=
      dif_neg fun hletter => absurd (UInt32.le_trans hletter.1 hval) (by decide)
    rw [hlower]
    constructor <;> rintro rfl <;> exact absurd hdigit (by decide)
  · simp only [List.mem_cons, List.not_mem_nil, or_false] at hmem
    rcases hmem with rfl | rfl | rfl | rfl | rfl <;> decide

/-- No other kind of value begins with these letters. -/
theorem kindOfLead_of_toLower {c : Char} (h : c.toLower = 't' ∨ c.toLower = 'f') :
    Value.kindOfLead c = "boolean" ∨ Value.kindOfLead c = "" := by
  unfold Value.kindOfLead
  split
  next hnumeral =>
    obtain ⟨ht, hf⟩ := toLower_of_numeral hnumeral
    exact absurd h (not_or.mpr ⟨ht, hf⟩)
  repeat' split
  all_goals first
    | exact .inl rfl
    | exact .inr rfl
    | (subst c; exact absurd h (by decide))

/-- A value whose text spells a truth value is that truth value. -/
theorem bool_of_spelled {t : Bool} (h : spelled? v.compact = some (.bool t)) : v = .bool t := by
  have hlead := lead_of_spelled h
  obtain ⟨c, rest, hlist, hkind⟩ := v.compact_lead
  rw [hlist] at hlead
  have hletter : c.toLower = 't' ∨ c.toLower = 'f' := by
    cases t
    · exact .inr (Option.some.inj hlead)
    · exact .inl (Option.some.inj hlead)
  have hbool := kindOfLead_of_toLower hletter
  rw [hkind] at hbool
  cases v <;> simp [Value.kindName] at hbool
  case bool b =>
    rw [← hlist] at hlead
    cases b <;> cases t <;> first | rfl | exact absurd hlead (by decide)

/-! ### Equality and texts -/

theorem comparand_eq_bool {t : Bool} : comparand v = .bool t ↔ v = .bool t := by
  cases v <;> simp [comparand, Value.unsigned]

theorem number_of_comparand {n : Number} (h : comparand (.number n) = comparand v) :
    ∃ m, v = .number m := by
  cases v <;> simp [comparand, Value.unsigned] at h ⊢

/-- A text against another kind of value. -/
theorem comparand_eq_iff_text (hv : ∀ t, v ≠ .string t)
    (hnumbers : ¬ ∃ m n, normalize (.string s) = .number m ∧ normalize v = .number n)
    (h : ¬ Discrepant (.string s) v) :
    comparand (normalize (.string s)) = comparand (normalize v) ↔ s = v.compact := by
  rw [normalize_eq_self hv] at hnumbers ⊢
  cases hs : spelled? s with
  -- a text that spells nothing stands for itself, which no other kind of value does
  | none =>
    rw [normalize_of_not_spelled hs]
    refine iff_of_false (fun heq => ?_) fun htext => h (.textLeft hs hv htext.symm)
    exact hv s (comparand_eq_string.mp heq.symm)
  | some w =>
    rw [normalize_of_spelled hs] at hnumbers ⊢
    rcases spelled?_cases hs with ⟨n, rfl⟩ | ⟨t, rfl⟩
    · -- only a number equals a number, and only a number is written like one
      have hnumber : ¬ ∃ m, v = .number m := by
        rintro ⟨m, hm⟩
        exact hnumbers ⟨n, m, rfl, hm⟩
      refine iff_of_false (fun heq => hnumber (number_of_comparand heq)) fun htext => ?_
      exact hnumber (number_of_spelled (htext ▸ hs))
    -- a truth value has two spellings in lower case, and the others are discrepant
    · constructor
      · intro heq
        obtain rfl : v = .bool t := comparand_eq_bool.mp heq.symm
        refine Classical.byContradiction fun htext => h ?_
        exact .spellings (normalize_of_spelled hs) rfl htext
      · intro htext
        rw [bool_of_spelled (v := v) (htext ▸ hs)]

/-- Two texts. -/
theorem comparand_eq_iff_texts {t : String}
    (hnumbers : ¬ ∃ m n, normalize (.string s) = .number m ∧ normalize (.string t) = .number n)
    (h : ¬ Discrepant (.string s) (.string t)) :
    comparand (normalize (.string s)) = comparand (normalize (.string t)) ↔ s = t := by
  refine ⟨fun heq => ?_, fun heq => heq ▸ rfl⟩
  cases hs : spelled? s with
  -- a text that spells nothing is equal to another one of this kind only
  | none =>
    rw [normalize_of_not_spelled hs] at heq
    have ht := comparand_eq_string.mp heq.symm
    cases ht' : spelled? t with
    | none =>
      rw [normalize_of_not_spelled ht'] at ht
      exact (Value.string.inj ht).symm
    | some w =>
      rw [normalize_of_spelled ht'] at ht
      rcases spelled?_cases ht' with ⟨n, rfl⟩ | ⟨u, rfl⟩ <;> cases ht
  | some w =>
    rw [normalize_of_spelled hs] at hnumbers heq
    rcases spelled?_cases hs with ⟨n, rfl⟩ | ⟨u, rfl⟩
    · obtain ⟨m, hm⟩ := number_of_comparand heq
      exact absurd ⟨n, m, rfl, hm⟩ hnumbers
    -- two spellings of a truth value would be discrepant
    · refine Classical.byContradiction fun htext => h ?_
      exact .spellings (normalize_of_spelled hs) (comparand_eq_bool.mp heq.symm) htext

/-- Two values of other kinds. -/
theorem comparand_eq_iff_compact (ha : ∀ t, a ≠ .string t) (hb : ∀ t, b ≠ .string t)
    (hnumbers : ¬ ∃ m n, normalize a = .number m ∧ normalize b = .number n)
    (h : ¬ Discrepant a b) :
    comparand (normalize a) = comparand (normalize b) ↔ a.compact = b.compact := by
  rw [normalize_eq_self ha, normalize_eq_self hb] at hnumbers ⊢
  refine ⟨fun heq => ?_, fun htext => by rw [Value.compact_inj htext]⟩
  suffices a = b by rw [this]
  refine Classical.byContradiction fun hne => ?_
  cases a <;> cases b <;> simp [comparand, Value.unsigned] at heq
  case null.null => exact hne rfl
  case bool.bool => exact hne (congrArg _ heq)
  case number.number m n => exact hnumbers ⟨m, n, rfl, rfl⟩
  case string.string s _ => exact ha s rfl
  case array.array xs ys => exact h (.lists heq fun hlists => hne (congrArg _ hlists))
  case object.object xs ys => exact h (.objects heq fun hmembers => hne (congrArg _ hmembers))

/-- **Unless both stand for numbers, equal values are those with one text,** exceptions apart. -/
theorem comparand_eq_iff_display
    (hnumbers : ¬ ∃ m n, normalize a = .number m ∧ normalize b = .number n)
    (h : ¬ Discrepant a b) :
    comparand (normalize a) = comparand (normalize b) ↔
      Placeholder.display a = Placeholder.display b := by
  -- a text is shown as it is, and anything else in its compact form
  by_cases ha : ∃ s, a = .string s <;> by_cases hb : ∃ s, b = .string s
  · obtain ⟨s, rfl⟩ := ha
    obtain ⟨t, rfl⟩ := hb
    exact comparand_eq_iff_texts hnumbers h
  · obtain ⟨s, rfl⟩ := ha
    have hb : ∀ t, b ≠ .string t := fun t ht => hb ⟨t, ht⟩
    rw [display_of_not_string hb]
    exact comparand_eq_iff_text hb hnumbers h
  · obtain ⟨s, rfl⟩ := hb
    have ha : ∀ t, a ≠ .string t := fun t ht => ha ⟨t, ht⟩
    rw [display_of_not_string ha, eq_comm, @eq_comm String]
    refine comparand_eq_iff_text ha ?_ fun hsymm => h hsymm.symm
    rintro ⟨m, n, hm, hn⟩
    exact hnumbers ⟨n, m, hn, hm⟩
  · have ha : ∀ t, a ≠ .string t := fun t ht => ha ⟨t, ht⟩
    have hb : ∀ t, b ≠ .string t := fun t ht => hb ⟨t, ht⟩
    rw [display_of_not_string ha, display_of_not_string hb]
    exact comparand_eq_iff_compact ha hb hnumbers h

/-! ### Coherence of the other pairs -/

/-- **The comparison operators are coherent** but for the discrepant pairs, and "greater" is "less"
with the arguments exchanged. -/
theorem compare_coherent (a b : Value) :
    (Yes a .gt b ↔ Yes b .lt a) ∧ (¬ Discrepant a b → Coherent a b) := by
  constructor
  · rw [yes_gt, yes_lt, looseCompare_swap a b]
    cases looseCompare a b <;> simp
  · intro h
    by_cases hnumbers : ∃ m n, normalize a = .number m ∧ normalize b = .number n
    · obtain ⟨m, n, ha, hb⟩ := hnumbers
      exact coherent_of_numbers ha hb
    · exact (coherent_iff_of_texts hnumbers).mpr (comparand_eq_iff_display hnumbers h)

theorem compare_coherent_text :
    ¬ Discrepant (.string "on") (.bool true) ∧ Coherent (.string "on") (.bool true) := by
  have hspelled : spelled? "on" = none := Option.isNone_iff_eq_none.mp (by decide +kernel)
  have hother : ¬ Discrepant (.string "on") (.bool true) := by
    intro h
    cases h with
    | spellings ha => cases (normalize_of_not_spelled hspelled).symm.trans ha
    | textLeft _ _ htext => exact absurd htext (by decide)
  exact ⟨hother, (compare_coherent _ _).2 hother⟩

/-- A text that spells nothing is not equal to another kind of value, however that is written. -/
theorem comparand_ne_of_not_spelled (hs : spelled? s = none) (hv : ∀ t, v ≠ .string t) :
    comparand (normalize v) ≠ comparand (normalize (.string s)) := by
  rw [normalize_of_not_spelled hs, normalize_eq_self hv]
  exact fun heq => hv s (comparand_eq_string.mp heq)

/-- **A discrepant pair is incoherent.** -/
theorem Discrepant.not_coherent (h : Discrepant a b) : ¬ Coherent a b := by
  cases h with
  | @spellings _ _ t ha hb htexts =>
    have hnumbers : ¬ ∃ m n, normalize a = .number m ∧ normalize b = .number n := by
      rintro ⟨m, n, hm, -⟩
      cases ha.symm.trans hm
    rw [coherent_iff_of_texts hnumbers, ha, hb]
    exact fun hiff => htexts (hiff.mp rfl)
  -- equal as data, but the compact forms are those of two values
  | @lists xs ys hdata hne =>
    rw [coherent_iff_of_texts (by rintro ⟨m, n, hm, -⟩; cases hm)]
    intro hiff
    have htext := hiff.mp (congrArg Value.array hdata)
    exact hne (Value.array.inj (Value.compact_inj htext))
  | @objects xs ys hdata hne =>
    rw [coherent_iff_of_texts (by rintro ⟨m, n, hm, -⟩; cases hm)]
    intro hiff
    have htext := hiff.mp (congrArg Value.object hdata)
    exact hne (Value.object.inj (Value.compact_inj htext))
  | @textLeft s v hs hv htext =>
    rw [coherent_iff_of_texts (by rw [normalize_of_not_spelled hs]; rintro ⟨m, n, hm, -⟩; cases hm)]
    intro hiff
    refine comparand_ne_of_not_spelled hs hv (hiff.mpr ?_).symm
    rw [display_of_not_string hv, htext]
    rfl
  | @textRight s v hs hv htext =>
    rw [coherent_iff_of_texts (by rw [normalize_of_not_spelled hs]; rintro ⟨m, n, -, hn⟩; cases hn)]
    intro hiff
    refine comparand_ne_of_not_spelled hs hv (hiff.mpr ?_)
    rw [display_of_not_string hv, htext]
    rfl

/-- One truth value in two spellings is equal, and greater as well. -/
theorem not_coherent_spellings :
    Yes (.bool true) .eq (.string "TRUE") ∧ Yes (.bool true) .gt (.string "TRUE") ∧
      ¬ Coherent (.bool true) (.string "TRUE") := by
  have heq : Yes (.bool true) .eq (.string "TRUE") := yes_eq.mpr (by decide +kernel)
  have hgt : Yes (.bool true) .gt (.string "TRUE") := yes_gt.mpr (by decide +kernel)
  refine ⟨heq, hgt, fun h => ?_⟩
  rcases h.one with ⟨-, hne, -⟩ | ⟨-, -, hngt⟩ | ⟨-, hne, -⟩
  · exact hne heq
  · exact hngt hgt
  · exact hne heq

end Comparison

end Scenario
