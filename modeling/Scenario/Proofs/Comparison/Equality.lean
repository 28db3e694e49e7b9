import Scenario.Comparison
import Scenario.Proofs.Binary64.Values

/-!
# Loose equality

Loose equality tries two tests, on values of which one may stand for the other. Still it is an
equivalence: it is equality of what it looks at.

* `Json.Value.unsigned` — a value without the signs of its zeros; equality of data is equality of
  what is left (`Json.Value.beq_iff`).
* `Spells` — what a text can spell, so a normal form is a number, a truth value or the value itself.
* `comparand` — what `same` looks at: of a number its binary64 value, of any other value the data.
* `looseEq_iff` — **loose equality is equality of the comparands of the normal forms:** the first of
  its two tests decides nothing by itself.
* `looseEq_equivalence` — so it is reflexive, symmetric and transitive, and does not tell a value
  from its normal form.
-/

namespace Scenario

namespace Json

/-! ### Equality of data -/

namespace Number

/-- The number without the sign of a zero. -/
def unsigned : Number → Number
  | .integer n => .integer n
  | .float x => .float x.unsigned

theorem beq_iff {m n : Number} : m.beq n = true ↔ m.unsigned = n.unsigned := by
  cases m <;> cases n <;> simp [beq, unsigned, Binary64.Finite.sameValue_iff]

end Number

namespace Value

mutual

/-- The value without the signs of the zeros in it. -/
def unsigned : Value → Value
  | .number n => .number n.unsigned
  | .array items => .array (unsignedItems items)
  | .object members => .object (unsignedMembers members)
  | v => v

def unsignedItems : List Value → List Value
  | [] => []
  | v :: rest => unsigned v :: unsignedItems rest

def unsignedMembers : List (String × Value) → List (String × Value)
  | [] => []
  | (k, v) :: rest => (k, unsigned v) :: unsignedMembers rest

end

mutual

/-- **Equality of data** is equality up to the signs of zeros. -/
theorem beq_iff (v w : Value) : v.beq w = true ↔ v.unsigned = w.unsigned := by
  cases v <;> cases w
  case number.number m n => simpa [beq, unsigned] using Number.beq_iff
  case array.array xs ys => simpa [beq, unsigned] using beqItems_iff xs ys
  case object.object xs ys => simpa [beq, unsigned] using beqMembers_iff xs ys
  all_goals simp [beq, unsigned]

theorem beqItems_iff (xs ys : List Value) :
    beqItems xs ys = true ↔ unsignedItems xs = unsignedItems ys := by
  match xs, ys with
  | [], [] | [], _ :: _ | _ :: _, [] => simp [beqItems, unsignedItems]
  | x :: xs, y :: ys =>
    simp only [beqItems, unsignedItems, Bool.and_eq_true, List.cons.injEq, beq_iff x y,
      beqItems_iff xs ys]

theorem beqMembers_iff (xs ys : List (String × Value)) :
    beqMembers xs ys = true ↔ unsignedMembers xs = unsignedMembers ys := by
  match xs, ys with
  | [], [] | [], _ :: _ | _ :: _, [] => simp [beqMembers, unsignedMembers]
  | (k, x) :: xs, (l, y) :: ys =>
    simp only [beqMembers, unsignedMembers, Bool.and_eq_true, decide_eq_true_eq, List.cons.injEq,
      Prod.mk.injEq, beq_iff x y, beqMembers_iff xs ys, and_assoc]

end

end Value

end Json

namespace Comparison

open Json

variable {a b v : Value} {s : String}

/-! ### Normal forms -/

/-- **What a text can spell:** an integer, by its digits after at most a minus sign; a number with a
point; a truth value in any letter case. -/
inductive Spells (s : String) : Value → Prop
  | whole {n : Int} {digits : List Char} (htext : s.toList = digits ∨ s.toList = '-' :: digits)
    (hne : digits ≠ []) (hdigits : digits.all Char.isDigit = true) : Spells s (.ofInt n)
  | fractional {x : Binary64.Finite} (hread : Binary64.ofText? s = some (.finite x)) :
    Spells s (.number (.float x))
  | truth (t : Bool) (hword : Text.sameIgnoringCase s (if t then "true" else "false") = true) :
    Spells s (.bool t)

theorem spells_of_spelled? (h : spelled? s = some v) : Spells s v := by
  simp only [spelled?, Option.orElse_eq_orElse, Option.orElse_eq_or, Option.or_eq_some_iff] at h
  -- in the order in which a spelling is looked for
  rcases h with hwhole | ⟨-, hfractional | ⟨-, htruth⟩⟩
  · obtain ⟨hdigits, hvalue⟩ := Option.ite_none_right_eq_some.mp hwhole
    obtain ⟨n, -, rfl⟩ := Option.map_eq_some_iff.mp hvalue
    simp only [Bool.and_eq_true, Bool.not_eq_true', List.isEmpty_eq_false_iff] at hdigits
    refine .whole ?_ hdigits.1 hdigits.2
    split
    next hlist => exact .inr hlist
    next => exact .inl rfl
  · obtain ⟨-, hvalue⟩ := Option.ite_none_right_eq_some.mp hfractional
    obtain ⟨x, hread, hx⟩ := Option.bind_eq_some_iff.mp hvalue
    obtain ⟨n, hn, rfl⟩ := Option.map_eq_some_iff.mp hx
    cases x with
    | finite x =>
      cases hn
      exact .fractional hread
    | infinity negative => cases hn
    | nan => cases hn
  · split at htruth
    next htrue =>
      cases htruth
      exact .truth true htrue
    next =>
      obtain ⟨hfalse, hvalue⟩ := Option.ite_none_right_eq_some.mp htruth
      cases hvalue
      exact .truth false hfalse

/-- What a text spells is a number or a truth value. -/
theorem spelled?_cases (h : spelled? s = some v) :
    (∃ n, v = .number n) ∨ ∃ t, v = .bool t := by
  cases spells_of_spelled? h with
  | whole => exact .inl ⟨_, rfl⟩
  | fractional => exact .inl ⟨_, rfl⟩
  | truth t => exact .inr ⟨t, rfl⟩

theorem normalize_of_spelled (h : spelled? s = some v) : normalize (.string s) = v := by
  rw [normalize, h]
  rfl

theorem normalize_of_not_spelled (h : spelled? s = none) :
    normalize (.string s) = .string s := by
  rw [normalize, h]
  rfl

theorem normalize_eq_self (h : ∀ s, v ≠ .string s) : normalize v = v := by
  cases v with
  | string s => exact absurd rfl (h s)
  | _ => rfl

/-- A value in normal form is no text, or a text that spells nothing. -/
theorem normalize_idem (v : Value) : normalize (normalize v) = normalize v := by
  cases v with
  | string s =>
    cases hs : spelled? s with
    | none => rw [normalize_of_not_spelled hs, normalize_of_not_spelled hs]
    | some v =>
      rw [normalize_of_spelled hs]
      rcases spelled?_cases hs with ⟨n, rfl⟩ | ⟨t, rfl⟩ <;> rfl
  | _ => rfl

/-! ### Comparands -/

/-- **What `same` looks at:** the value of a number, and the data of anything else. -/
def comparand : Value → Value
  | .number n => .number (.float n.toFinite.unsigned)
  | v => v.unsigned

theorem same_iff : same a b = true ↔ comparand a = comparand b := by
  cases a <;> cases b
  case number.number m n => simp [same, comparand, Binary64.Finite.sameValue_iff]
  case array.array xs ys => exact Value.beq_iff (.array xs) (.array ys)
  case object.object xs ys => exact Value.beq_iff (.object xs) (.object ys)
  all_goals simp [same, comparand, Value.unsigned, BEq.beq, Value.beq]

theorem comparand_eq_string : comparand v = .string s ↔ v = .string s := by
  cases v <;> simp [comparand, Value.unsigned]

/-- What is the same stays the same in normal form. -/
theorem comparand_normalize (h : comparand a = comparand b) :
    comparand (normalize a) = comparand (normalize b) := by
  by_cases htext : ∃ s, a = .string s
  · obtain ⟨s, rfl⟩ := htext
    rw [comparand_eq_string.mp h.symm]
  · have ha : ∀ s, a ≠ .string s := fun s hs => htext ⟨s, hs⟩
    have hb : ∀ s, b ≠ .string s := by
      rintro s rfl
      exact ha s (comparand_eq_string.mp h)
    rwa [normalize_eq_self ha, normalize_eq_self hb]

/-- **Loose equality** is equality of the comparands of the normal forms. -/
theorem looseEq_iff : looseEq a b = true ↔ comparand (normalize a) = comparand (normalize b) := by
  rw [looseEq, Bool.or_eq_true, same_iff, same_iff]
  exact or_iff_right_of_imp comparand_normalize

/-- **Loose equality is an equivalence.** It is decided by the normal forms alone, normalising twice
changes nothing more, and a value equals its normal form. -/
theorem looseEq_equivalence :
    Equivalence (fun a b => looseEq a b = true) ∧
      (∀ a b, looseEq a b = same (normalize a) (normalize b)) ∧
      (∀ a, normalize (normalize a) = normalize a) ∧
      ∀ a, looseEq a (normalize a) = true := by
  refine ⟨⟨fun a => ?_, fun {a b} h => ?_, fun {a b c} hab hbc => ?_⟩, fun a b => ?_,
    normalize_idem, fun a => ?_⟩
  · exact looseEq_iff.mpr rfl
  · exact looseEq_iff.mpr (looseEq_iff.mp h).symm
  · exact looseEq_iff.mpr ((looseEq_iff.mp hab).trans (looseEq_iff.mp hbc))
  · rw [Bool.eq_iff_iff, looseEq_iff, same_iff]
  · rw [looseEq_iff, normalize_idem]

end Comparison

end Scenario
