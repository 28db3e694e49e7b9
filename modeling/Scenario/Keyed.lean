/-!
# Keyed collections

A `Keyed α` holds one value per text key. Its entries stand in ascending key order (by code point,
which is also the order of the keys' bytes), so that the order in which a collection is walked or
written depends on its keys alone and never on the order of insertion.

* `insert` replaces the value of a present key and puts a new key at its place;
* `extend` inserts the entries of a second collection one after the other, so the second wins.
-/

namespace Scenario

universe u v

/-- Values under text keys, in ascending key order. -/
abbrev Keyed (α : Type u) := List (String × α)

namespace Keyed

variable {α : Type u} {β : Type v}

/-- **One write.** The value stands under `key` afterwards, every other key keeps its value. -/
def insert (key : String) (value : α) : Keyed α → Keyed α
  | [] => [(key, value)]
  | (k, v) :: rest =>
    if key < k then (key, value) :: (k, v) :: rest
    else if key = k then (key, value) :: rest
    else (k, v) :: insert key value rest

/-- The value under `key`. -/
def find? (key : String) : Keyed α → Option α
  | [] => none
  | (k, v) :: rest => if k = key then some v else find? key rest

/-- Whether `key` has a value. -/
def has (key : String) (entries : Keyed α) : Bool :=
  (find? key entries).isSome

/-- The keys, ascending. -/
def keys (entries : Keyed α) : List String :=
  entries.map Prod.fst

/-- **Merging.** Every entry of `extra` is written over `base`. -/
def extend (base extra : Keyed α) : Keyed α :=
  extra.foldl (fun acc entry => insert entry.1 entry.2 acc) base

/-- The collection of the given pairs; the last pair of a repeated key counts. -/
def ofList (pairs : List (String × α)) : Keyed α :=
  extend [] pairs

/-- The collection without `key`. -/
def erase (key : String) (entries : Keyed α) : Keyed α :=
  entries.filter (fun entry => !(entry.1 = key))

/-- The same keys over changed values. -/
def mapValues (f : α → β) (entries : Keyed α) : Keyed β :=
  entries.map fun entry => (entry.1, f entry.2)

@[simp] theorem find?_nil (key : String) : find? key ([] : Keyed α) = none := rfl

@[simp] theorem find?_cons (key k : String) (v : α) (rest : Keyed α) :
    find? key ((k, v) :: rest) = if k = key then some v else find? key rest := rfl

@[simp] theorem extend_nil (base : Keyed α) : extend base [] = base := rfl

@[simp] theorem extend_cons (base : Keyed α) (k : String) (v : α) (rest : Keyed α) :
    extend base ((k, v) :: rest) = extend (insert k v base) rest := rfl

/-- A written key reads back, and no other key is touched. -/
theorem find?_insert (key k : String) (value : α) (entries : Keyed α) :
    find? k (insert key value entries) = if key = k then some value else find? k entries := by
  induction entries with
  | nil => rfl
  | cons entry rest ih =>
    obtain ⟨l, v⟩ := entry
    unfold insert
    -- the key comes before the first one, is the first one, or comes after it
    split
    · rfl
    · split
      · next h => subst h; by_cases h : key = k <;> simp [h]
      · next h =>
        rw [find?_cons, find?_cons, ih]
        by_cases hk : key = k
        · subst hk; simp [Ne.symm h]
        · simp [hk]

/-- Of two writes of a key the last one counts. -/
theorem insert_insert (key : String) (v w : α) (entries : Keyed α) :
    insert key v (insert key w entries) = insert key v entries := by
  induction entries with
  | nil => simp [insert]
  | cons entry rest ih =>
    obtain ⟨k, value⟩ := entry
    by_cases hlt : key < k
    · simp [insert, hlt]
    · by_cases hk : key = k
      · simp [insert, hk]
      · simp [insert, hlt, hk, ih]

/-- Changing the values of a collection changes what is found in it. -/
theorem find?_mapValues (f : α → β) (key : String) (entries : Keyed α) :
    find? key (mapValues f entries) = (find? key entries).map f := by
  induction entries with
  | nil => rfl
  | cons entry rest ih =>
    obtain ⟨k, value⟩ := entry
    rw [mapValues, List.map_cons, find?_cons, find?_cons]
    split
    · rfl
    · exact ih

/-- Changing the values of a collection changes what is written into it. -/
theorem mapValues_insert (f : α → β) (key : String) (v : α) (entries : Keyed α) :
    mapValues f (insert key v entries) = insert key (f v) (mapValues f entries) := by
  induction entries with
  | nil => rfl
  | cons entry rest ih =>
    obtain ⟨k, value⟩ := entry
    by_cases hlt : key < k
    · simp [insert, mapValues, hlt]
    · by_cases hk : key = k
      · simp [insert, mapValues, hk]
      · simpa [insert, mapValues, hlt, hk] using ih

/-- **A merged collection** is asked for a key in what was written over it first. -/
theorem find?_extend (key : String) (base extra : Keyed α) :
    find? key (extend base extra) = (find? key (ofList extra) <|> find? key base) := by
  induction extra generalizing base with
  | nil => rfl
  | cons entry rest ih =>
    obtain ⟨k, v⟩ := entry
    have hrest : find? key (ofList ((k, v) :: rest)) =
        (find? key (ofList rest) <|> find? key (insert k v [])) := ih _
    rw [extend_cons, ih, hrest, find?_insert, find?_insert]
    cases find? key (ofList rest) <;> by_cases h : k = key <;> simp [h]

/-- What is found under a key is one of the entries. -/
theorem mem_of_find?_eq_some {key : String} {v : α} {entries : Keyed α}
    (h : find? key entries = some v) : (key, v) ∈ entries := by
  induction entries with
  | nil => cases h
  | cons entry rest ih =>
    obtain ⟨k, value⟩ := entry
    rw [find?_cons] at h
    split at h
    · next hk =>
      cases h
      exact hk ▸ List.mem_cons_self
    · exact List.mem_cons_of_mem _ (ih h)

theorem mem_of_mem_insert {key : String} {value : α} {entry : String × α} {entries : Keyed α}
    (h : entry ∈ insert key value entries) : entry = (key, value) ∨ entry ∈ entries := by
  induction entries with
  | nil => exact .inl (List.mem_singleton.mp h)
  | cons first rest ih =>
    unfold insert at h
    -- the entry stands before the first one, takes its place, or goes further down
    split at h
    · exact List.mem_cons.mp h
    · split at h
      · rcases List.mem_cons.mp h with rfl | h
        · exact .inl rfl
        · exact .inr (List.mem_cons_of_mem _ h)
      · rcases List.mem_cons.mp h with rfl | h
        · exact .inr List.mem_cons_self
        · exact (ih h).imp_right (List.mem_cons_of_mem _)

/-- The entries of a merged collection come from one of the two. -/
theorem mem_of_mem_extend {entry : String × α} {base extra : Keyed α}
    (h : entry ∈ extend base extra) : entry ∈ base ∨ entry ∈ extra := by
  induction extra generalizing base with
  | nil => exact .inl h
  | cons first rest ih =>
    rcases ih h with h | h
    · rcases mem_of_mem_insert h with rfl | h
      · exact .inr List.mem_cons_self
      · exact .inl h
    · exact .inr (List.mem_cons_of_mem _ h)

/-- What is not written keeps its value. -/
theorem find?_extend_of_notMem {key : String} {base extra : Keyed α} (h : ∀ v, (key, v) ∉ extra) :
    find? key (extend base extra) = find? key base := by
  rw [find?_extend]
  cases hfound : find? key (ofList extra) with
  | none => rfl
  | some v =>
    have hmem := (mem_of_mem_extend (mem_of_find?_eq_some hfound)).resolve_left List.not_mem_nil
    exact absurd hmem (h v)

/-- **A collection of pairs** holds one of them for every key that one of them has. -/
theorem exists_find?_ofList {pair : String × α} {pairs : List (String × α)} (h : pair ∈ pairs) :
    ∃ v, find? pair.1 (ofList pairs) = some v ∧ (pair.1, v) ∈ pairs := by
  have hfound : (find? pair.1 (ofList pairs)).isSome := by
    induction pairs with
    | nil => exact absurd h List.not_mem_nil
    | cons first rest ih =>
      rw [ofList, extend_cons, find?_extend]
      -- a later pair is found in what is written last, and the first one is written first
      rcases List.mem_cons.mp h with rfl | h
      · cases find? pair.1 (ofList rest) <;> simp [find?_insert]
      · obtain ⟨v, hv⟩ := Option.isSome_iff_exists.mp (ih h)
        simp [hv]
  obtain ⟨v, hv⟩ := Option.isSome_iff_exists.mp hfound
  exact ⟨v, hv, (mem_of_mem_extend (mem_of_find?_eq_some hv)).resolve_left List.not_mem_nil⟩

end Keyed

end Scenario
