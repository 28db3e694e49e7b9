import Scenario.Json.Reader
import Scenario.Placeholder

/-!
# The order of keys

The entries of a mapping stand in the order of their keys, at any depth of a value. Reading a text
puts them in this order, whatever the text says; resolving the placeholders of a value leaves its
keys alone, and puts values into it that are in order themselves.

* `Keyed.Ascending` — the order; `Keyed.Ascending.insert` — one write keeps it.
* `Json.Value.Ordered` — all mappings of a value are in order.
* `Json.Value.ofText?_ordered`, `Placeholder.resolveValue_ordered` — where values come from.
-/

namespace Scenario

/-- The entries stand in the order of their keys, and no key stands twice. -/
def Keyed.Ascending {α : Type} (entries : Keyed α) : Prop :=
  entries.Pairwise fun a b => a.1 < b.1

namespace Keyed

variable {α : Type} {key : String} {value : α} {entries : Keyed α}

/-- **One write** keeps the order. -/
theorem Ascending.insert (h : Ascending entries) : Ascending (insert key value entries) := by
  induction entries with
  | nil => exact List.pairwise_singleton _ _
  | cons entry rest ih =>
    obtain ⟨k, v⟩ := entry
    obtain ⟨hfirst, hrest⟩ := List.pairwise_cons.mp h
    unfold Keyed.insert
    split
    · next hbefore =>
      refine List.pairwise_cons.mpr ⟨fun other hother => ?_, h⟩
      obtain rfl | hother := List.mem_cons.mp hother
      · exact hbefore
      · exact String.lt_trans hbefore (hfirst other hother)
    · next hbefore =>
      split
      · next hsame => exact List.pairwise_cons.mpr ⟨hsame ▸ hfirst, hrest⟩
      · next hother =>
        -- the key comes after the first one, and so does all that it is written into
        have hafter : k < key := Std.lt_of_le_of_ne (String.not_lt.mp hbefore) (Ne.symm hother)
        refine List.pairwise_cons.mpr ⟨fun entry hentry => ?_, ih hrest⟩
        obtain rfl | hentry := mem_of_mem_insert hentry
        · exact hafter
        · exact hfirst entry hentry

theorem Ascending.extend {base : Keyed α} (h : Ascending base) (extra : Keyed α) :
    Ascending (extend base extra) := by
  induction extra generalizing base with
  | nil => exact h
  | cons entry rest ih => exact ih h.insert

theorem ofList_ascending (pairs : List (String × α)) : Ascending (ofList pairs) :=
  Ascending.extend List.Pairwise.nil pairs

/-- The order is one of the keys alone. -/
theorem Ascending.of_keys {β : Type} {others : Keyed β} (h : Ascending entries)
    (hkeys : others.map Prod.fst = entries.map Prod.fst) : Ascending others := by
  have hpairs : (entries.map Prod.fst).Pairwise (· < ·) := List.pairwise_map.mpr h
  exact List.pairwise_map.mp (hkeys ▸ hpairs)

/-- In an ascending collection each entry is what is found under its key. -/
theorem Ascending.mem_iff (h : Ascending entries) {v : α} :
    (key, v) ∈ entries ↔ find? key entries = some v := by
  refine ⟨fun hmem => ?_, mem_of_find?_eq_some⟩
  induction entries with
  | nil => exact absurd hmem List.not_mem_nil
  | cons entry rest ih =>
    obtain ⟨k, value⟩ := entry
    obtain ⟨hfirst, hrest⟩ := List.pairwise_cons.mp h
    rw [find?_cons]
    rcases List.mem_cons.mp hmem with heq | hmem
    · obtain ⟨rfl, rfl⟩ := Prod.mk.inj heq
      exact if_pos rfl
    · rw [if_neg fun hkey : k = key => absurd (hkey ▸ hfirst _ hmem) (String.lt_irrefl _)]
      exact ih hrest hmem

theorem Ascending.keys_nodup (h : Ascending entries) : (entries.map Prod.fst).Nodup :=
  (List.pairwise_map.mpr h).imp fun {_ _} hlt => Std.ne_of_lt hlt

end Keyed

/-- **A value in order:** all mappings in it stand in the order of their keys. -/
inductive Json.Value.Ordered : Json.Value → Prop
  | null : Ordered .null
  | bool {b : Bool} : Ordered (.bool b)
  | number {n : Json.Number} : Ordered (.number n)
  | string {s : String} : Ordered (.string s)
  | array {items : List Json.Value} : (∀ v ∈ items, Ordered v) → Ordered (.array items)
  | object {members : List (String × Json.Value)} : Keyed.Ascending members →
    (∀ member ∈ members, Ordered member.2) → Ordered (.object members)

namespace Json.Value

mutual

/-- What is put in order is in order. -/
theorem sorted_ordered : ∀ v : Value, v.sorted.Ordered
  | .null => .null
  | .bool _ => .bool
  | .number _ => .number
  | .string _ => .string
  | .array items => .array (sortedItems_ordered items)
  | .object members => .object (Keyed.ofList_ascending _) fun member hmember =>
    sortedMembers_ordered members member
      ((Keyed.mem_of_mem_extend hmember).resolve_left List.not_mem_nil)

theorem sortedItems_ordered : ∀ items : List Value, ∀ v ∈ sortedItems items, v.Ordered
  | [], _, hv => absurd hv List.not_mem_nil
  | item :: rest, v, hv => by
    obtain rfl | hv := List.mem_cons.mp hv
    · exact sorted_ordered item
    · exact sortedItems_ordered rest v hv

theorem sortedMembers_ordered : ∀ members : List (String × Value),
    ∀ member ∈ sortedMembers members, member.2.Ordered
  | [], _, hmember => absurd hmember List.not_mem_nil
  | (k, v) :: rest, member, hmember => by
    obtain rfl | hmember := List.mem_cons.mp hmember
    · exact sorted_ordered v
    · exact sortedMembers_ordered rest member hmember

end

/-- **The value of a text** is in order, whatever the order of the text. -/
theorem ofText?_ordered {text : String} {v : Value} (h : ofText? text = some v) : v.Ordered := by
  unfold ofText? ofText at h
  cases hread : read text with
  | error failure =>
    rw [hread] at h
    cases h
  | ok unsorted =>
    rw [hread] at h
    cases h
    exact sorted_ordered unsorted

end Json.Value

namespace Placeholder

variable {lookup : Lookup}

theorem resolveString_ordered (hlookup : ∀ name v, lookup name = some v → v.Ordered)
    (text : String) : (resolveString lookup text).out.Ordered := by
  unfold resolveString
  split
  · next v hfound =>
    obtain ⟨body, -, hbody⟩ := Option.bind_eq_some_iff.mp hfound
    exact hlookup _ v hbody
  · exact .string

theorem resolveMembers_keys (members : List (String × Json.Value)) :
    (resolveMembers lookup members).out.map Prod.fst = members.map Prod.fst := by
  induction members with
  | nil => rfl
  | cons member rest ih => exact congrArg (member.1 :: ·) ih

mutual

/-- **A resolved value** is in order if it was and the variables are. -/
theorem resolveValue_ordered (hlookup : ∀ name v, lookup name = some v → v.Ordered) :
    ∀ v : Json.Value, v.Ordered → (resolveValue lookup v).out.Ordered
  | .null, h => h
  | .bool _, h => h
  | .number _, h => h
  | .string s, _ => resolveString_ordered hlookup s
  | .array items, .array h => .array (resolveItems_ordered hlookup items h)
  | .object members, .object hkeys h =>
    .object (hkeys.of_keys (resolveMembers_keys members)) (resolveMembers_ordered hlookup members h)

theorem resolveItems_ordered (hlookup : ∀ name v, lookup name = some v → v.Ordered) :
    ∀ items : List Json.Value, (∀ v ∈ items, v.Ordered) →
      ∀ v ∈ (resolveItems lookup items).out, v.Ordered
  | [], _, _, hv => absurd hv List.not_mem_nil
  | item :: rest, h, v, hv => by
    obtain ⟨hitem, hrest⟩ := List.forall_mem_cons.mp h
    obtain rfl | hv := List.mem_cons.mp hv
    · exact resolveValue_ordered hlookup item hitem
    · exact resolveItems_ordered hlookup rest hrest v hv

theorem resolveMembers_ordered (hlookup : ∀ name v, lookup name = some v → v.Ordered) :
    ∀ members : List (String × Json.Value), (∀ member ∈ members, member.2.Ordered) →
      ∀ member ∈ (resolveMembers lookup members).out, member.2.Ordered
  | [], _, _, hmember => absurd hmember List.not_mem_nil
  | (k, v) :: rest, h, member, hmember => by
    obtain ⟨hfirst, hrest⟩ := List.forall_mem_cons.mp h
    obtain rfl | hmember := List.mem_cons.mp hmember
    · exact resolveValue_ordered hlookup v hfirst
    · exact resolveMembers_ordered hlookup rest hrest member hmember

end

end Placeholder

end Scenario
