import Mathlib.Data.Option.Basic
import Scenario.Proofs.KeyOrder
import Scenario.Record.Data

/-!
# The order of members

JSON does not say in which order the members of an object stand. A record is written in the order of
its declaration or in the order of its keys, and whoever stores the text in between may move its
members about. So what is said of written records is said for every `Json.Arrangement`: a way to put
members in order, applied to all objects of a value.

* `Keyed.ofList_perm`, `Keyed.ofList_of_perm` — a collection of pairs with distinct keys has these
  pairs, and it does not depend on their order.
* `Json.Arrangement.arrange` — a value in another order; `declared` leaves every value alone and
  `byKey` is `Json.Value.sorted`.
* `Json.Arrangement.sorted_arrange` — sorting undoes every arrangement of a value in key order.
* `Json.Value.Sized` — the values that readers produce: their integers have 64 bits.
-/

namespace Scenario

/-! ### Collections of pairs in any order -/

namespace Keyed

variable {α : Type} {key : String} {value : α} {entries others pairs : Keyed α}

theorem insert_perm (h : key ∉ entries.map Prod.fst) :
    (insert key value entries).Perm ((key, value) :: entries) := by
  induction entries with
  | nil => exact .refl _
  | cons entry rest ih =>
    obtain ⟨k, v⟩ := entry
    obtain ⟨hne, hrest⟩ := not_or.mp fun hmem => h (List.mem_cons.mpr hmem)
    unfold insert
    split
    · exact .refl _
    · exact ((ih hrest).cons (k, v)).trans (.swap _ _ _)

theorem extend_perm {base extra : Keyed α} (h : ((base ++ extra).map Prod.fst).Nodup) :
    (extend base extra).Perm (base ++ extra) := by
  induction extra generalizing base with
  | nil => rw [List.append_nil]; exact .refl _
  | cons entry rest ih =>
    obtain ⟨k, v⟩ := entry
    have hmiddle : ((k, v) :: (base ++ rest)).Perm (base ++ (k, v) :: rest) :=
      List.perm_middle.symm
    have hkeys : (((k, v) :: (base ++ rest)).map Prod.fst).Nodup :=
      (hmiddle.map Prod.fst).nodup_iff.mpr h
    have hfresh : k ∉ base.map Prod.fst := fun hmem =>
      (List.nodup_cons.mp hkeys).1 (List.map_append ▸ List.mem_append_left _ hmem)
    have hinsert : (insert k v base ++ rest).Perm ((k, v) :: (base ++ rest)) :=
      (insert_perm hfresh).append_right rest
    exact ((ih ((hinsert.map Prod.fst).nodup_iff.mpr hkeys)).trans hinsert).trans hmiddle

/-- **A collection of pairs** with distinct keys has these pairs and no others. -/
theorem ofList_perm (h : (pairs.map Prod.fst).Nodup) : (ofList pairs).Perm pairs :=
  extend_perm h

theorem Ascending.eq_of_perm (h : Ascending entries) (hothers : Ascending others)
    (hperm : entries.Perm others) : entries = others :=
  hperm.eq_of_pairwise (fun _ _ _ _ hlt hgt => absurd (String.lt_trans hlt hgt)
    (String.lt_irrefl _)) h hothers

/-- The entries of a collection, in whatever order, make it up again. -/
theorem ofList_of_perm (h : Ascending entries) (hperm : pairs.Perm entries) :
    ofList pairs = entries :=
  (ofList_ascending pairs).eq_of_perm h
    ((ofList_perm ((hperm.map Prod.fst).nodup_iff.mpr h.keys_nodup)).trans hperm)

@[simp] theorem keys_mapValues {β : Type} (f : α → β) (entries : Keyed α) :
    (mapValues f entries).map Prod.fst = entries.map Prod.fst := by
  rw [mapValues, List.map_map]
  rfl

theorem mapValues_append {β : Type} (f : α → β) (entries others : Keyed α) :
    mapValues f (entries ++ others) = mapValues f entries ++ mapValues f others :=
  List.map_append

theorem mem_keys_of_mem_mapValues {β : Type} {f : α → β} {entry : String × β}
    (h : entry ∈ mapValues f entries) : entry.1 ∈ entries.map Prod.fst := by
  rw [← keys_mapValues f]
  exact List.mem_map_of_mem h

theorem mapValues_mapValues {β γ : Type} (f : α → β) (g : β → γ) (entries : Keyed α) :
    mapValues g (mapValues f entries) = mapValues (g ∘ f) entries :=
  List.map_map

end Keyed

namespace Json

/-! ### Arrangements -/

/-- **A way to put the members of an object in order.** Nothing is lost of members with distinct
keys. -/
structure Arrangement where
  order : List (String × Value) → List (String × Value)
  perm {members : List (String × Value)} : (members.map Prod.fst).Nodup →
    (order members).Perm members

namespace Arrangement

mutual

/-- The value with the members of every object arranged. -/
def arrange (a : Arrangement) : Value → Value
  | .array items => .array (arrangeItems a items)
  | .object members => .object (a.order (arrangeMembers a members))
  | v => v

def arrangeItems (a : Arrangement) : List Value → List Value
  | [] => []
  | v :: rest => arrange a v :: arrangeItems a rest

def arrangeMembers (a : Arrangement) : List (String × Value) → List (String × Value)
  | [] => []
  | (k, v) :: rest => (k, arrange a v) :: arrangeMembers a rest

end

/-- Members as they are written. -/
def declared : Arrangement := ⟨id, fun _ => .refl _⟩

/-- Members in the order of their keys. -/
def byKey : Arrangement := ⟨Keyed.ofList, Keyed.ofList_perm⟩

variable {a : Arrangement}

theorem arrangeItems_eq_map (items : List Value) :
    a.arrangeItems items = items.map a.arrange := by
  induction items with
  | nil => rfl
  | cons v rest ih => exact congrArg (a.arrange v :: ·) ih

theorem arrangeMembers_eq_mapValues (members : List (String × Value)) :
    a.arrangeMembers members = Keyed.mapValues a.arrange members := by
  induction members with
  | nil => rfl
  | cons member rest ih => exact congrArg ((member.1, a.arrange member.2) :: ·) ih

theorem arrange_array (items : List Value) :
    a.arrange (.array items) = .array (items.map a.arrange) := by
  rw [arrange, arrangeItems_eq_map]

/-- An arranged object has the arranged members, under keys that are still distinct. -/
theorem arrange_object {members : List (String × Value)} (h : (members.map Prod.fst).Nodup) :
    ∃ arranged, a.arrange (.object members) = .object arranged ∧
      arranged.Perm (Keyed.mapValues a.arrange members) ∧ (arranged.map Prod.fst).Nodup := by
  have hkeys : ((Keyed.mapValues a.arrange members).map Prod.fst).Nodup := by
    rwa [Keyed.keys_mapValues]
  have hperm := a.perm hkeys
  refine ⟨_, by rw [arrange, arrangeMembers_eq_mapValues], hperm, ?_⟩
  exact (hperm.map Prod.fst).nodup_iff.mpr hkeys

theorem arrange_eq_null {v : Value} (h : a.arrange v = .null) : v = .null := by
  cases v <;> simp_all [arrange]

mutual

/-- Members as they are written: nothing moves. -/
theorem arrange_declared : ∀ v : Value, declared.arrange v = v
  | .null | .bool _ | .number _ | .string _ => rfl
  | .array items => congrArg Value.array (arrangeItems_declared items)
  | .object members => congrArg Value.object (arrangeMembers_declared members)

theorem arrangeItems_declared : ∀ items : List Value, declared.arrangeItems items = items
  | [] => rfl
  | v :: rest => by rw [arrangeItems, arrange_declared v, arrangeItems_declared rest]

theorem arrangeMembers_declared : ∀ members : List (String × Value),
    declared.arrangeMembers members = members
  | [] => rfl
  | (k, v) :: rest => by rw [arrangeMembers, arrange_declared v, arrangeMembers_declared rest]

end

mutual

/-- Members in the order of their keys: the value is sorted. -/
theorem arrange_byKey : ∀ v : Value, byKey.arrange v = v.sorted
  | .null | .bool _ | .number _ | .string _ => rfl
  | .array items => congrArg Value.array (arrangeItems_byKey items)
  | .object members =>
    congrArg (fun others => Value.object (Keyed.ofList others)) (arrangeMembers_byKey members)

theorem arrangeItems_byKey : ∀ items : List Value,
    byKey.arrangeItems items = Value.sortedItems items
  | [] => rfl
  | v :: rest => by rw [arrangeItems, arrange_byKey v, arrangeItems_byKey rest, Value.sortedItems]

theorem arrangeMembers_byKey : ∀ members : List (String × Value),
    byKey.arrangeMembers members = Value.sortedMembers members
  | [] => rfl
  | (k, v) :: rest => by
    rw [arrangeMembers, arrange_byKey v, arrangeMembers_byKey rest, Value.sortedMembers]

end

end Arrangement

namespace Value

variable {a : Arrangement} {v : Value} {items : List Value} {members : List (String × Value)}

theorem sorted_array (items : List Value) : sorted (.array items) = .array (items.map sorted) := by
  rw [← Arrangement.arrange_byKey, Arrangement.arrange_array, funext Arrangement.arrange_byKey]

theorem sorted_object (members : List (String × Value)) :
    sorted (.object members) = .object (Keyed.ofList (Keyed.mapValues sorted members)) := by
  rw [sorted, ← Arrangement.arrangeMembers_byKey, Arrangement.arrangeMembers_eq_mapValues,
    funext Arrangement.arrange_byKey]

/-- **Sorting undoes an arrangement** of a value in key order. -/
theorem Ordered.sorted_arrange (h : v.Ordered) : (a.arrange v).sorted = v := by
  induction h with
  | null | bool | number | string => rfl
  | array _ ih =>
    rw [Arrangement.arrange_array, sorted_array, List.map_map]
    exact congrArg Value.array ((List.map_congr_left ih).trans (List.map_id _))
  | @object members hkeys _ ih =>
    obtain ⟨arranged, harranged, hperm, -⟩ := Arrangement.arrange_object (a := a) hkeys.keys_nodup
    rw [harranged, sorted_object]
    -- under each key stands what the arrangement of its value is sorted to
    have hsame : Keyed.mapValues sorted (Keyed.mapValues a.arrange members) = members := by
      rw [Keyed.mapValues_mapValues]
      refine (List.map_congr_left (g := id) fun member hmember => ?_).trans (List.map_id _)
      exact Prod.ext rfl (ih member hmember)
    exact congrArg Value.object (Keyed.ofList_of_perm hkeys (hsame ▸ hperm.map _))

/-! ### Integers of 64 bits -/

/-- **A value of a reader:** all its integers have 64 bits. -/
def Sized (v : Value) : Prop :=
  (Record.Data.ofJson v).longInteger? = none

instance (v : Value) : Decidable v.Sized :=
  inferInstanceAs (Decidable (_ = none))

theorem longIntegerOfItems?_ofItems :
    Record.Data.longIntegerOfItems? (Record.Data.ofItems items) = none ↔ ∀ v ∈ items, v.Sized := by
  induction items with
  | nil => exact iff_of_true rfl nofun
  | cons v rest ih =>
    rw [List.forall_mem_cons, ← ih, Record.Data.ofItems, Record.Data.longIntegerOfItems?]
    exact Option.orElse_eq_none _ _

theorem longIntegerOfEntries?_ofMembers :
    Record.Data.longIntegerOfEntries? (Record.Data.ofMembers members) = none ↔
      ∀ member ∈ members, member.2.Sized := by
  induction members with
  | nil => exact iff_of_true rfl nofun
  | cons member rest ih =>
    obtain ⟨k, v⟩ := member
    rw [List.forall_mem_cons, ← ih, Record.Data.ofMembers, Record.Data.longIntegerOfEntries?]
    exact Option.orElse_eq_none _ _

theorem sized_array : Sized (.array items) ↔ ∀ v ∈ items, v.Sized :=
  longIntegerOfItems?_ofItems

theorem sized_object : Sized (.object members) ↔ ∀ member ∈ members, member.2.Sized :=
  longIntegerOfEntries?_ofMembers

mutual

theorem Sized.sorted : ∀ {v : Value}, v.Sized → v.sorted.Sized
  | .null, h | .bool _, h | .number _, h | .string _, h => h
  | .array _, h => sized_array.mpr (Sized.sortedItems (sized_array.mp h))
  | .object _, h => sized_object.mpr fun member hmember =>
    Sized.sortedMembers (sized_object.mp h) member
      ((Keyed.mem_of_mem_extend hmember).resolve_left List.not_mem_nil)

theorem Sized.sortedItems : ∀ {items : List Value}, (∀ v ∈ items, v.Sized) →
    ∀ v ∈ sortedItems items, v.Sized
  | [], _, _, hv => absurd hv List.not_mem_nil
  | _ :: _, h, v, hv => by
    obtain ⟨hfirst, hrest⟩ := List.forall_mem_cons.mp h
    obtain rfl | hv := List.mem_cons.mp hv
    · exact Sized.sorted hfirst
    · exact Sized.sortedItems hrest v hv

theorem Sized.sortedMembers : ∀ {members : List (String × Value)},
    (∀ member ∈ members, member.2.Sized) → ∀ member ∈ sortedMembers members, member.2.Sized
  | [], _, _, hmember => absurd hmember List.not_mem_nil
  | (_, _) :: _, h, member, hmember => by
    obtain ⟨hfirst, hrest⟩ := List.forall_mem_cons.mp h
    obtain rfl | hmember := List.mem_cons.mp hmember
    · exact Sized.sorted hfirst
    · exact Sized.sortedMembers hrest member hmember

end

/-- An arrangement leaves the integers alone. -/
theorem Sized.arrange (h : v.Sized) (hordered : v.Ordered) : (a.arrange v).Sized := by
  induction hordered with
  | null | bool | number | string => exact h
  | array _ ih =>
    rw [Arrangement.arrange_array, sized_array]
    exact List.forall_mem_map.mpr fun v hv => ih v hv (sized_array.mp h v hv)
  | object hkeys _ ih =>
    obtain ⟨arranged, harranged, hperm, -⟩ := Arrangement.arrange_object (a := a) hkeys.keys_nodup
    rw [harranged, sized_object]
    intro member hmember
    obtain ⟨old, hold, rfl⟩ := List.mem_map.mp (hperm.mem_iff.mp hmember)
    exact ih old hold (sized_object.mp h old hold)

end Value

end Json

end Scenario
