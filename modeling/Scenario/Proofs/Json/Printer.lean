import Scenario.Proofs.Binary64.Writing
import Scenario.Proofs.Json.Quoted

/-!
# The compact form determines the value

Two values are never written alike: the first character of a compact form tells what kind of value it
is, and each kind tells where it ends.

* `Number.text_inj` — integers and floating-point numbers by their digits, their point and their
  exponent.
* `Value.compact_append_inj` — with anything behind it that a number could not go on with, a form is
  known together with its end: the invariant of the induction over values.
* `Value.compact_inj` — **different values have different compact forms.**
-/

namespace Scenario

namespace Json

open Binary64

/-! ### Numbers -/

namespace Number

variable {m n : Number}

theorem numeral_of_toString (k : Int) : ∀ c ∈ (toString k).toList, c.isDigit = true ∨ c = '-' := by
  have hdigits := List.all_eq_true.mp (Text.all_isDigit_toDigits k.natAbs)
  rw [Text.toList_toString]
  intro c hc
  split at hc
  · exact .inl (hdigits c hc)
  · rcases List.mem_cons.mp hc with rfl | hmem
    · exact .inr rfl
    · exact .inl (hdigits c hmem)

theorem numeral_of_text (n : Number) : ∀ c ∈ n.text.toList, Numeral c := by
  intro c hc
  cases n with
  | integer k =>
    rcases numeral_of_toString k c hc with hdigit | rfl
    · exact .inl hdigit
    · exact .inr (by decide)
  | float x => exact Finite.numeral_of_pointStyle (.inl rfl) x c hc

/-- An integer is not written like a floating-point number. -/
theorem toString_ne_pointStyle (k : Int) (x : Finite) : toString k ≠ x.exponentStyle := by
  intro h
  obtain ⟨c, hc, hmark⟩ := Finite.pointStyle_marked "+" x
  have hplain := numeral_of_toString k c (by rw [h]; exact hc)
  rcases hmark with rfl | rfl <;> exact absurd hplain (by decide)

/-- **Different numbers have different texts.** -/
theorem text_inj (h : m.text = n.text) : m = n := by
  cases m <;> cases n
  case integer.integer j k => exact congrArg _ (Text.toString_inj h)
  case integer.float k x => exact absurd h (toString_ne_pointStyle k x)
  case float.integer x k => exact absurd h.symm (toString_ne_pointStyle k x)
  case float.float x y => exact congrArg _ (Finite.pointStyle_inj (.inl rfl) h)

/-- A text that does not go on with a numeral. -/
def Ends (text : List Char) : Prop := ∀ c ∈ text.head?, ¬ Numeral c

theorem ends_nil : Ends [] := by
  intro c hc
  cases hc

theorem ends_cons {c : Char} {rest : List Char} (h : ¬ Numeral c) : Ends (c :: rest) := by
  rintro _ ⟨⟩
  exact h

theorem toList_text_ne_nil (n : Number) : n.text.toList ≠ [] := by
  cases n with
  | integer k =>
    rw [text, Text.toList_toString]
    split
    · exact Nat.toDigits_ne_nil
    · exact List.cons_ne_nil _ _
  | float x =>
    obtain ⟨c, hc, -⟩ := Finite.pointStyle_marked "+" x
    exact List.ne_nil_of_mem hc

theorem text_append_inj {rest rest' : List Char} (hrest : Ends rest) (hrest' : Ends rest')
    (h : m.text.toList ++ rest = n.text.toList ++ rest') : m = n ∧ rest = rest' := by
  have hkept {k : Number} {r : List Char} (hr : Ends r) :
      (k.text.toList ++ r).takeWhile (decide <| Numeral ·) = k.text.toList :=
    (takeWhile_run (fun c hc => decide_eq_true (k.numeral_of_text c hc))
      fun c hc => decide_eq_false (hr c hc)).1
  have htext : m.text.toList = n.text.toList := by rw [← hkept hrest, h, hkept hrest']
  refine ⟨text_inj (String.toList_inj.mp htext), ?_⟩
  rw [htext] at h
  exact List.append_cancel_left h

end Number

/-! ### Texts between commas -/

section Joined

variable {α : Type} {f : α → List Char} {closing : Char} {rest rest' : List Char}

/-- The texts of the elements of a list with commas between them. -/
def joined (f : α → List Char) (xs : List α) : List Char := [','].intercalate (xs.map f)

/-- What follows the first text: the closing character, or a comma and the other texts. -/
def afterFirst (f : α → List Char) (closing : Char) (xs : List α) (rest : List Char) : List Char :=
  match xs with
  | [] => closing :: rest
  | x :: xs => ',' :: (joined f (x :: xs) ++ closing :: rest)

theorem joined_cons (x : α) (xs : List α) :
    joined f (x :: xs) ++ closing :: rest = f x ++ afterFirst f closing xs rest := by
  cases xs with
  | nil => simp [joined, afterFirst]
  | cons y xs => simp [joined, afterFirst]

theorem ends_afterFirst (hclosing : ¬ Numeral closing) (xs : List α) :
    Number.Ends (afterFirst f closing xs rest) := by
  cases xs with
  | nil => exact Number.ends_cons hclosing
  | cons x xs => exact Number.ends_cons (by decide)

theorem afterFirst_eq (hcomma : closing ≠ ',') {xs ys : List α}
    (h : afterFirst f closing xs rest = afterFirst f closing ys rest') :
    joined f xs ++ closing :: rest = joined f ys ++ closing :: rest' := by
  cases xs <;> cases ys
  · exact h
  · exact absurd (List.cons.inj h).1 hcomma
  · exact absurd (List.cons.inj h).1.symm hcomma
  · exact (List.cons.inj h).2

/-- **Texts between commas are known** if each of them is, together with its end. -/
theorem joined_append_inj (hcomma : closing ≠ ',') (hclosing : ¬ Numeral closing)
    (hlead : ∀ x r r', closing :: r ≠ f x ++ r') (xs ys : List α)
    (heach : ∀ x ∈ xs, ∀ y r r', Number.Ends r → Number.Ends r' → f x ++ r = f y ++ r' →
      x = y ∧ r = r')
    (h : joined f xs ++ closing :: rest = joined f ys ++ closing :: rest') :
    xs = ys ∧ rest = rest' := by
  induction xs generalizing ys with
  -- an end is no beginning of a text, so that both sides have equally many
  | nil =>
    cases ys with
    | nil => exact ⟨rfl, (List.cons.inj h).2⟩
    | cons y ys =>
      rw [joined_cons] at h
      exact (hlead _ _ _ h).elim
  | cons x xs ih =>
    cases ys with
    | nil =>
      rw [joined_cons] at h
      exact (hlead _ _ _ h.symm).elim
    | cons y ys =>
      rw [joined_cons, joined_cons] at h
      obtain ⟨rfl, htail⟩ := heach x List.mem_cons_self y _ _ (ends_afterFirst hclosing xs)
        (ends_afterFirst hclosing ys) h
      obtain ⟨rfl, hend⟩ := ih ys (fun z hz => heach z (List.mem_cons_of_mem x hz))
        (afterFirst_eq hcomma htail)
      exact ⟨rfl, hend⟩

end Joined

/-! ### Kinds -/

namespace Value

/-- The kind of value that begins with a character. -/
def kindOfLead (c : Char) : String :=
  if Numeral c then "number"
  else if c = 'n' then "null"
  else if c = 't' ∨ c = 'f' then "boolean"
  else if c = '\x22' then "string"
  else if c = '[' then "list"
  else if c = '\x7b' then "object"
  else ""

/-- A member as it is written. -/
def memberText (member : String × Value) : List Char :=
  (Quoted.encode member.1).toList ++ ':' :: member.2.compact.toList

theorem toList_compact_array (items : List Value) :
    (array items).compact.toList = '[' :: (joined (fun v => v.compact.toList) items ++ [']']) := by
  have hitems : compactItems items = items.map compact := by
    induction items with
    | nil => rfl
    | cons v items ih => rw [compactItems, ih, List.map_cons]
  simp [compact, hitems, joined, String.toList_intercalate, Function.comp_def]

theorem toList_compact_object (members : List (String × Value)) :
    (object members).compact.toList = '\x7b' :: (joined memberText members ++ ['\x7d']) := by
  have hmembers : (compactMembers members).map String.toList = members.map memberText := by
    induction members with
    | nil => rfl
    | cons member members ih =>
      rw [compactMembers, List.map_cons, ih, List.map_cons]
      simp [memberText]
  simp [compact, hmembers, joined, String.toList_intercalate]

/-- **The first character of a compact form tells the kind.** -/
theorem compact_lead (v : Value) :
    ∃ c rest, v.compact.toList = c :: rest ∧ kindOfLead c = v.kindName := by
  cases v with
  | null => exact ⟨'n', _, rfl, by decide⟩
  | bool b => cases b <;> exact ⟨_, _, rfl, by decide⟩
  | number n =>
    obtain ⟨c, rest, hlist⟩ := List.exists_cons_of_ne_nil n.toList_text_ne_nil
    refine ⟨c, rest, hlist, if_pos (n.numeral_of_text c ?_)⟩
    rw [hlist]
    exact List.mem_cons_self
  | string s => exact ⟨_, _, Quoted.toList_encode s, (by decide : kindOfLead '\x22' = "string")⟩
  | array items => exact ⟨_, _, toList_compact_array items, (by decide : kindOfLead '[' = "list")⟩
  | object members =>
    exact ⟨_, _, toList_compact_object members, (by decide : kindOfLead '\x7b' = "object")⟩

/-! ### Two values -/

theorem kindName_eq {v w : Value} {rest rest' : List Char}
    (h : v.compact.toList ++ rest = w.compact.toList ++ rest') : v.kindName = w.kindName := by
  obtain ⟨c, _, hv, hkind⟩ := v.compact_lead
  obtain ⟨d, _, hw, hkind'⟩ := w.compact_lead
  rw [hv, hw] at h
  rw [← hkind, ← hkind', (List.cons.inj h).1]

/-- A value does not begin with the bracket that would close an empty list. -/
theorem bracket_ne_compact (v : Value) (rest rest' : List Char) :
    ']' :: rest ≠ v.compact.toList ++ rest' := by
  intro h
  obtain ⟨c, _, hv, hkind⟩ := v.compact_lead
  rw [hv] at h
  rw [← (List.cons.inj h).1, show kindOfLead ']' = "" by decide] at hkind
  cases v <;> simp [kindName] at hkind

/-- A member does not begin with the brace that would close an empty object. -/
theorem brace_ne_memberText (member : String × Value) (rest rest' : List Char) :
    '\x7d' :: rest ≠ memberText member ++ rest' := by
  intro h
  rw [memberText, Quoted.toList_encode] at h
  exact absurd (List.cons.inj h).1 (by decide)

theorem memberText_append_inj {m n : String × Value} {rest rest' : List Char}
    (hvalue : m.2.compact.toList ++ rest = n.2.compact.toList ++ rest' → m.2 = n.2 ∧ rest = rest')
    (h : memberText m ++ rest = memberText n ++ rest') : m = n ∧ rest = rest' := by
  simp only [memberText, List.append_assoc, List.cons_append] at h
  obtain ⟨hkey, hcolon⟩ := Quoted.encode_append_inj h
  obtain ⟨hvalue, hend⟩ := hvalue (List.cons.inj hcolon).2
  exact ⟨Prod.ext hkey hvalue, hend⟩

/-- Induction over a value: for lists and objects from the values in them. -/
theorem inductionOn {motive : Value → Prop} (hnull : motive .null) (hbool : ∀ b, motive (.bool b))
    (hnumber : ∀ n, motive (.number n)) (hstring : ∀ s, motive (.string s))
    (harray : ∀ items, (∀ v ∈ items, motive v) → motive (.array items))
    (hobject : ∀ members, (∀ m ∈ members, motive m.2) → motive (.object members))
    (v : Value) : motive v := by
  refine @Value.rec motive (fun items => ∀ v ∈ items, motive v)
    (fun members => ∀ m ∈ members, motive m.2) (fun m => motive m.2)
    hnull hbool hnumber hstring harray hobject ?_ ?_ ?_ ?_ ?_ v
  · exact fun v hv => absurd hv List.not_mem_nil
  · exact fun v items hv hitems => List.forall_mem_cons.mpr ⟨hv, hitems⟩
  · exact fun m hm => absurd hm List.not_mem_nil
  · exact fun m members hm hmembers => List.forall_mem_cons.mpr ⟨hm, hmembers⟩
  · exact fun k v hv => hv

/-- **A form is known together with its end,** as long as no number could go on there. -/
theorem compact_append_inj (v w : Value) {rest rest' : List Char} (hrest : Number.Ends rest)
    (hrest' : Number.Ends rest') (h : v.compact.toList ++ rest = w.compact.toList ++ rest') :
    v = w ∧ rest = rest' := by
  induction v using inductionOn generalizing w rest rest' <;> cases w
  case hnull.null => exact ⟨rfl, List.append_cancel_left h⟩
  case hbool.bool b b' =>
    cases b <;> cases b'
    · exact ⟨rfl, List.append_cancel_left h⟩
    · cases (List.cons.inj h).1
    · cases (List.cons.inj h).1
    · exact ⟨rfl, List.append_cancel_left h⟩
  case hnumber.number m n =>
    obtain ⟨rfl, hend⟩ := Number.text_append_inj hrest hrest' h
    exact ⟨rfl, hend⟩
  case hstring.string s t =>
    obtain ⟨rfl, hend⟩ := Quoted.encode_append_inj h
    exact ⟨rfl, hend⟩
  case harray.array xs ih ys =>
    rw [toList_compact_array, toList_compact_array, List.cons_append, List.cons_append,
      List.append_assoc, List.append_assoc] at h
    obtain ⟨rfl, hend⟩ := joined_append_inj (by decide) (by decide) bracket_ne_compact xs ys
      (fun x hx y _ _ => ih x hx y) (List.cons.inj h).2
    exact ⟨rfl, hend⟩
  case hobject.object xs ih ys =>
    rw [toList_compact_object, toList_compact_object, List.cons_append, List.cons_append,
      List.append_assoc, List.append_assoc] at h
    obtain ⟨rfl, hend⟩ := joined_append_inj (by decide) (by decide) brace_ne_memberText xs ys
      (fun m hm n _ _ hr hr' => memberText_append_inj (ih m hm n.2 hr hr')) (List.cons.inj h).2
    exact ⟨rfl, hend⟩
  -- the first characters are those of different kinds
  all_goals exact absurd (kindName_eq h) (by simp [kindName])

/-- **Different values have different compact forms.** -/
theorem compact_inj {v w : Value} (h : v.compact = w.compact) : v = w :=
  (compact_append_inj v w Number.ends_nil Number.ends_nil (by rw [h])).1

end Value

end Json

end Scenario
