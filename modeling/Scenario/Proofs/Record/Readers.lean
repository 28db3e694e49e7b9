import Scenario.Proofs.Binary64.Rounding
import Scenario.Proofs.Json.Arrangement
import Scenario.Proofs.Traversal

/-!
# Readers and their writers

A reader accepts more than its writer writes: an integer stands for a floating-point number, an
object may repeat a key, and its members may stand in any order. But what a reader returns can be
written, and what is written of it is read as the same.

* `Record.Rereads` — this for one value, whatever order the members of objects are put in.
* `Record.Faithful` — this for every value that a reader returns.
* `Data.readJson_ofJson` — a JSON value is read as itself in key order.
* `Faithful.option`, `Faithful.list`, `Faithful.keyed` — the readers that are made of others.
-/

namespace Scenario

namespace Record

open Json (Arrangement)

variable {α : Type} {a : Arrangement} {read : Data → Except Flaw α} {write : α → Json.Value}

/-- **What is written of `x` is read as `x`,** whatever order its members are put in. -/
def Rereads (a : Arrangement) (read : Data → Except Flaw α) (write : α → Json.Value) (x : α) :
    Prop :=
  read (.ofJson (a.arrange (write x))) = .ok x

/-- **A reader keeps to a writer** if all that it reads can be written and read again. -/
def Faithful (a : Arrangement) (read : Data → Except Flaw α) (write : α → Json.Value) : Prop :=
  ∀ ⦃v : Json.Value⦄ ⦃x : α⦄, v.Sized → read (.ofJson v) = .ok x → Rereads a read write x

/-! ### Scalars -/

@[simp] theorem rereads_text (s : String) : Rereads a Data.readText .string s := rfl

@[simp] theorem faithful_text : Faithful a Data.readText .string :=
  fun _ s _ _ => rereads_text s

@[simp] theorem rereads_bool (b : Bool) : Rereads a Data.readBool .bool b := rfl

@[simp] theorem faithful_bool : Faithful a Data.readBool .bool :=
  fun _ b _ _ => rereads_bool b

/-- What is read as an integer of a range is in the range. -/
theorem Data.of_readRange {low high n : Int} {name : String} {d : Data}
    (h : d.readRange low high name = .ok n) : low ≤ n ∧ n ≤ high := by
  unfold readRange at h
  split at h
  · split at h
    · next hrange =>
      cases h
      simpa using hrange
    · cases h
  · cases h

theorem Data.readRange_ofJson {low high n : Int} {name : String} (hlow : low ≤ n)
    (hhigh : n ≤ high) : (Data.ofJson (.ofInt n)).readRange low high name = .ok n := by
  simp [Data.ofJson, Json.Value.ofInt, readRange, hlow, hhigh]

@[simp] theorem faithful_int : Faithful a Data.readInt .ofInt := by
  intro v n _ h
  obtain ⟨hlow, hhigh⟩ := Data.of_readRange h
  exact Data.readRange_ofJson hlow hhigh

@[simp] theorem rereads_nat {bits n : Nat} {name : String} (h : n < 2 ^ bits) :
    Rereads a (Data.readNat bits name) .ofNat n := by
  have hhigh : (n : Int) ≤ 2 ^ bits - 1 := by
    have hcast : (n : Int) < 2 ^ bits := by exact_mod_cast h
    omega
  have hread : (Data.ofJson (.ofInt n)).readRange 0 (2 ^ bits - 1) name = .ok (n : Int) :=
    Data.readRange_ofJson (Int.natCast_nonneg n) hhigh
  exact congrArg (Except.map Int.toNat) hread

@[simp] theorem faithful_nat {bits : Nat} {name : String} :
    Faithful a (Data.readNat bits name) .ofNat := by
  intro v n _ h
  obtain ⟨m, hread, rfl⟩ := exists_of_map_eq_ok h
  obtain ⟨hlow, hhigh⟩ := Data.of_readRange hread
  apply rereads_nat
  have hcast : ((m.toNat : Nat) : Int) < 2 ^ bits := by omega
  exact_mod_cast hcast

@[simp] theorem rereads_finite (x : Binary64.Finite) :
    Rereads a Data.readNumber .ofBinary64 (.finite x) :=
  rfl

@[simp] theorem rereads_zero (negative : Bool) :
    Rereads a Data.readNumber .ofBinary64 (.zero negative) :=
  rereads_finite _

/-- An integer of 64 bits is never too large to be a finite number. -/
@[simp] theorem rereads_ofInt {n : Int} (h : n.natAbs < 2 ^ 64) :
    Rereads a Data.readNumber .ofBinary64 (.ofInt n) := by
  rw [Binary64.ofInt_eq_finite h]
  exact rereads_finite _

/-- Only finite numbers are read. -/
@[simp] theorem faithful_number : Faithful a Data.readNumber .ofBinary64 := by
  intro v x hsized h
  cases v with
  | number n =>
    cases n with
    | integer n =>
      have hrange : n.natAbs < 2 ^ 64 := by
        -- a longer integer would have been refused before the record is read
        simp only [Json.Value.Sized, Data.ofJson, Data.longInteger?, ite_eq_right_iff,
          reduceCtorEq, imp_false, Bool.or_eq_true, decide_eq_true_eq] at hsized
        omega
      have hx : x = .ofInt n := by
        cases h
        rfl
      rw [hx]
      exact rereads_ofInt hrange
    | float y =>
      cases h
      exact rereads_finite y
  | null | bool | string | array | object => cases h

/-! ### Values of any kind -/

mutual

theorem Data.toJson_ofJson : ∀ v : Json.Value, (Data.ofJson v).toJson = v.sorted
  | .null | .bool _ | .number (.integer _) | .number (.float _) | .string _ => rfl
  | .array items => congrArg Json.Value.array (toItems_ofItems items)
  | .object members => congrArg Json.Value.ofMembers (toMembers_ofMembers members)

theorem Data.toItems_ofItems : ∀ items : List Json.Value,
    Data.toItems (Data.ofItems items) = Json.Value.sortedItems items
  | [] => rfl
  | v :: rest => by
    rw [Data.ofItems, Data.toItems, Json.Value.sortedItems, toJson_ofJson v, toItems_ofItems rest]

theorem Data.toMembers_ofMembers : ∀ members : List (String × Json.Value),
    Data.toMembers (Data.ofMembers members) = Json.Value.sortedMembers members
  | [] => rfl
  | (k, v) :: rest => by
    rw [Data.ofMembers, Data.toMembers, Json.Value.sortedMembers, toJson_ofJson v,
      toMembers_ofMembers rest]

end

mutual

/-- A JSON value has no spellings. -/
theorem Data.unspelled_ofJson : ∀ v : Json.Value, (Data.ofJson v).unspelled = Data.ofJson v
  | .null | .bool _ | .number (.integer _) | .number (.float _) | .string _ => rfl
  | .array items => congrArg Data.list (unspelledItems_ofItems items)
  | .object members => congrArg Data.map (unspelledEntries_ofMembers members)

theorem Data.unspelledItems_ofItems : ∀ items : List Json.Value,
    Data.unspelledItems (Data.ofItems items) = Data.ofItems items
  | [] => rfl
  | v :: rest => by
    rw [Data.ofItems, Data.unspelledItems, unspelled_ofJson v, unspelledItems_ofItems rest]

theorem Data.unspelledEntries_ofMembers : ∀ members : List (String × Json.Value),
    Data.unspelledEntries (Data.ofMembers members) = Data.ofMembers members
  | [] => rfl
  | (k, v) :: rest => by
    rw [Data.ofMembers, Data.unspelledEntries, unspelled_ofJson v, unspelledEntries_ofMembers rest]

end

/-- **A JSON value is read** as itself in key order. -/
theorem Data.readJson_ofJson {v : Json.Value} (h : v.Sized) :
    (Data.ofJson v).readJson = .ok v.sorted := by
  rw [Data.readJson, h, Data.toJson_ofJson]

theorem rereads_json {v : Json.Value} (hordered : v.Ordered) (hsized : v.Sized) :
    Rereads a Data.readJson (fun v => v) v := by
  unfold Rereads
  rw [Data.readJson_ofJson (hsized.arrange hordered), hordered.sorted_arrange]

@[simp] theorem rereads_null : Rereads a Data.readJson (fun v => v) .null := rfl

theorem eq_sorted_of_readJson {v x : Json.Value} (hsized : v.Sized)
    (h : (Data.ofJson v).readJson = .ok x) : x = v.sorted := by
  rw [Data.readJson_ofJson hsized] at h
  exact (Except.ok.inj h).symm

@[simp] theorem faithful_json : Faithful a Data.readJson (fun v => v) := by
  intro v x hsized h
  rw [eq_sorted_of_readJson hsized h]
  exact rereads_json v.sorted_ordered hsized.sorted

/-! ### Optional values -/

theorem Data.readOption_ofJson {v : Json.Value} (h : v ≠ .null) :
    (Data.ofJson v).readOption read = (read (.ofJson v)).map some := by
  cases v with
  | null => exact absurd rfl h
  | number n => cases n <;> rfl
  | bool | string | array | object => rfl

@[simp] theorem rereads_none : Rereads a (Data.readOption read) (.ofOption write) none := rfl

/-- A value that is not written as `null` can be told from a missing one. -/
theorem Rereads.some {x : α} (h : Rereads a read write x) (hnull : write x ≠ .null) :
    Rereads a (Data.readOption read) (.ofOption write) (some x) := by
  have harranged : a.arrange (write x) ≠ .null := fun h => hnull (Arrangement.arrange_eq_null h)
  calc (Data.ofJson (a.arrange (write x))).readOption read
      = (read (.ofJson (a.arrange (write x)))).map Option.some := Data.readOption_ofJson harranged
    _ = .ok (Option.some x) := by rw [show read _ = .ok x from h]; rfl

/-- **An optional value** keeps to its writer if no value there is written as `null`. -/
theorem Faithful.option (h : Faithful a read write)
    (hnull : ∀ ⦃v x⦄, v ≠ .null → v.Sized → read (.ofJson v) = .ok x → write x ≠ .null) :
    Faithful a (Data.readOption read) (.ofOption write) := by
  intro v x hsized hread
  by_cases hv : v = .null
  · subst hv
    cases hread
    exact rereads_none
  · rw [Data.readOption_ofJson hv] at hread
    obtain ⟨y, hy, rfl⟩ := exists_of_map_eq_ok hread
    exact (h hsized hy).some (hnull hv hsized hy)

/-- A reader that refuses `null` never has to write it. -/
theorem Faithful.option_of_refuses (h : Faithful a read write)
    (hrefuses : ∀ x, read (.ofJson .null) ≠ .ok x) :
    Faithful a (Data.readOption read) (.ofOption write) := by
  apply h.option
  intro v x _ hsized hread hnull
  have hagain : Rereads a read write x := h hsized hread
  unfold Rereads at hagain
  rw [hnull] at hagain
  exact hrefuses x hagain

@[simp] theorem faithful_optional_text :
    Faithful a (Data.readOption Data.readText) (.ofOption .string) :=
  faithful_text.option_of_refuses nofun

@[simp] theorem faithful_optional_int :
    Faithful a (Data.readOption Data.readInt) (.ofOption .ofInt) :=
  faithful_int.option_of_refuses nofun

@[simp] theorem faithful_optional_nat {bits : Nat} {name : String} :
    Faithful a (Data.readOption (Data.readNat bits name)) (.ofOption .ofNat) := by
  apply faithful_nat.option_of_refuses
  intro n h
  obtain ⟨m, hread, -⟩ := exists_of_map_eq_ok h
  cases hread

@[simp] theorem faithful_optional_number :
    Faithful a (Data.readOption Data.readNumber) (.ofOption .ofBinary64) := by
  apply faithful_number.option_of_refuses
  intro x h
  cases h

/-- Nothing but `null` is read as `null`. -/
@[simp] theorem faithful_optional_json :
    Faithful a (Data.readOption Data.readJson) (.ofOption fun v => v) := by
  apply faithful_json.option
  intro v x hv hsized hread hnull
  rw [eq_sorted_of_readJson hsized hread] at hnull
  cases v with
  | null => exact hv rfl
  | bool | number | string | array | object => cases hnull

/-! ### Lists and maps -/

theorem Data.ofItems_eq_map (items : List Json.Value) :
    Data.ofItems items = items.map Data.ofJson := by
  induction items with
  | nil => rfl
  | cons v rest ih => exact congrArg (Data.ofJson v :: ·) ih

theorem Data.ofMembers_eq_mapValues (members : List (String × Json.Value)) :
    Data.ofMembers members = Keyed.mapValues Data.ofJson members := by
  induction members with
  | nil => rfl
  | cons member rest ih => exact congrArg ((member.1, Data.ofJson member.2) :: ·) ih

theorem rereads_list {xs : List α} (h : ∀ x ∈ xs, Rereads a read write x) :
    Rereads a (Data.readList read) (fun xs => .array (xs.map write)) xs := by
  unfold Rereads
  rw [Arrangement.arrange_array, List.map_map, Data.ofJson, Data.ofItems_eq_map, List.map_map]
  exact mapM_map_eq_ok h

@[simp] theorem rereads_no_items :
    Rereads a (Data.readList read) (fun xs => .array (xs.map write)) [] :=
  rereads_list nofun

/-- **A list** keeps to its writer if its items do. -/
theorem Faithful.list (h : Faithful a read write) :
    Faithful a (Data.readList read) (fun xs => .array (xs.map write)) := by
  intro v xs hsized hread
  cases v with
  | array items =>
    rw [Data.ofJson, Data.ofItems_eq_map, Data.readList] at hread
    apply rereads_list
    intro x hx
    obtain ⟨d, hd, hdx⟩ := exists_of_mem_mapM hread x hx
    obtain ⟨item, hitem, rfl⟩ := List.mem_map.mp hd
    exact h (Json.Value.sized_array.mp hsized item hitem) hdx
  | number n => cases n <;> cases hread
  | null | bool | string | object => cases hread

theorem rereads_keyed {entries : Keyed α} (hascending : Keyed.Ascending entries)
    (h : ∀ entry ∈ entries, Rereads a read write entry.2) :
    Rereads a (Data.readKeyed read) (fun xs => .object (Keyed.mapValues write xs)) entries := by
  have hkeys : ((Keyed.mapValues write entries).map Prod.fst).Nodup := by
    rw [Keyed.keys_mapValues]
    exact hascending.keys_nodup
  obtain ⟨arranged, harranged, hperm, -⟩ := Arrangement.arrange_object (a := a) hkeys
  -- the values are read as they were, in the order they have been put in
  have hread : (Keyed.mapValues (Data.ofJson ∘ a.arrange ∘ write) entries).mapM
      (fun entry => (read entry.2).map fun x => (entry.1, x)) = .ok entries := by
    apply mapM_map_eq_ok
    intro entry hentry
    exact congrArg (Except.map fun x => (entry.1, x)) (h entry hentry)
  have hmoved : (Keyed.mapValues (Data.ofJson ∘ a.arrange ∘ write) entries).Perm
      (Keyed.mapValues Data.ofJson arranged) := by
    rw [← Keyed.mapValues_mapValues, ← Keyed.mapValues_mapValues]
    exact (hperm.map _).symm
  obtain ⟨read', hread', hsame⟩ := exists_mapM_of_perm hmoved hread
  unfold Rereads
  rw [harranged, Data.ofJson, Data.ofMembers_eq_mapValues, Data.readKeyed, hread']
  exact congrArg Except.ok (Keyed.ofList_of_perm hascending hsame)

@[simp] theorem rereads_no_entries :
    Rereads a (Data.readKeyed read) (fun xs => .object (Keyed.mapValues write xs)) [] :=
  rereads_keyed .nil nofun

/-- **A map** keeps to its writer if its values do. -/
theorem Faithful.keyed (h : Faithful a read write) :
    Faithful a (Data.readKeyed read) (fun xs => .object (Keyed.mapValues write xs)) := by
  intro v entries hsized hread
  cases v with
  | object members =>
    rw [Data.ofJson, Data.ofMembers_eq_mapValues, Data.readKeyed] at hread
    obtain ⟨pairs, hpairs, rfl⟩ := exists_of_map_eq_ok hread
    apply rereads_keyed (Keyed.ofList_ascending pairs)
    intro entry hentry
    -- where a key is repeated, the entry that is kept is still one that was read
    have hmem : entry ∈ pairs := (Keyed.mem_of_mem_extend hentry).resolve_left List.not_mem_nil
    obtain ⟨source, hsource, hread⟩ := exists_of_mem_mapM hpairs entry hmem
    obtain ⟨member, hmember, rfl⟩ := List.mem_map.mp hsource
    obtain ⟨x, hx, rfl⟩ := exists_of_map_eq_ok hread
    exact h (Json.Value.sized_object.mp hsized member hmember) hx
  | number n => cases n <;> cases hread
  | null | bool | string | array => cases hread

/-- The members of an object are a map of values of any kind. -/
theorem Data.readMembers_eq : Data.readMembers = Data.readKeyed Data.readJson := by
  funext d
  cases d with
  | scalar value spelling => rfl
  | list items => rfl
  | map entries =>
    rw [Data.readMembers, Data.readKeyed]
    cases entries.mapM fun entry => (Data.readJson entry.2).map fun v => (entry.1, v) <;> rfl

theorem object_eq_mapValues : (Json.Value.object : Json.Members → Json.Value) =
    fun members => .object (Keyed.mapValues (fun v => v) members) := by
  funext members
  exact congrArg Json.Value.object (List.map_id members).symm

@[simp] theorem rereads_no_members : Rereads a Data.readMembers .object [] := by
  rw [Data.readMembers_eq, object_eq_mapValues]
  exact rereads_no_entries

@[simp] theorem faithful_members : Faithful a Data.readMembers .object := by
  rw [Data.readMembers_eq, object_eq_mapValues]
  exact faithful_json.keyed

@[simp] theorem faithful_optional_members :
    Faithful a (Data.readOption Data.readMembers) (.ofOption .object) :=
  faithful_members.option_of_refuses nofun

end Record

end Scenario
