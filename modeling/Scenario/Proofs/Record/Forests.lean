import Scenario.Proofs.Record.Slots
import Scenario.Record.Tree

/-!
# Trees of records that are read again

A tree is written node by node, and each node with the list of its children behind its fields. That
list is one more member, which may stand anywhere between the others when the tree is read again.

* `TreeCodec.Slotted` — a tree whose nodes have slots, with the way it is written.
* `TreeCodec.Slotted.node_rereads` — a node is read again if its fields and its children are.
* `TreeCodec.Slotted.ofData_rereads` — **every tree that is read** is read again, by recursion on
  the value that it is read from.
-/

namespace Scenario

namespace Record

open Json (Arrangement)

namespace TreeCodec

variable {ρ τ : Type} {a : Arrangement}

/-- **A tree with slots.** No field of a node goes by the name of the children, the slots make up
the fields, and the children are written behind them. -/
structure Slotted (a : Arrangement) (tree : TreeCodec ρ τ) (write : τ → Json.Value)
    (slots : List (Slot ρ)) : Prop where
  fields : tree.codec.Slotted a slots
  childless : tree.codec.Unknown childrenName
  ext : ∀ r r', (∀ s ∈ slots, s.get r' = s.get r) → r' = r
  write : ∀ r children, write (tree.make r children) =
    .object (tree.codec.members r ++ [(childrenName, .array (children.map write))])

/-- A draft of which all can be written and read again. -/
structure Draft.Sound (a : Arrangement) (tree : TreeCodec ρ τ) (write : τ → Json.Value)
    (slots : List (Slot ρ)) (draft : Draft ρ τ) : Prop where
  fields : Settled a slots draft.fields.record
  children : ∀ child ∈ draft.children, Rereads a tree.ofData write child

namespace Slotted

variable {tree : TreeCodec ρ τ} {write : τ → Json.Value} {slots : List (Slot ρ)} {r : ρ}
  {children : List τ}

/-! ### Writing and reading again -/

/-- A forest is read again tree by tree. -/
theorem childrenOfData_written (h : ∀ child ∈ children, Rereads a tree.ofData write child) :
    tree.childrenOfData (.ofJson (a.arrange (.array (children.map write)))) = .ok children := by
  rw [Arrangement.arrange_array, List.map_map, Data.ofJson, childrenOfData]
  induction children with
  | nil => rfl
  | cons child rest ih =>
    obtain ⟨hfirst, hrest⟩ := List.forall_mem_cons.mp h
    have hread : tree.ofData (.ofJson ((a.arrange ∘ write) child)) = .ok child := hfirst
    rw [List.map_cons, Data.ofItems, forestOfItems, hread, ih hrest]
    rfl

/-- **A node on its way back:** its members are read in any order, and its children where they come
between them. -/
theorem ofEntries_underway (h : tree.Slotted a write slots) (hsettled : Settled a slots r)
    {left : List (String × Json.Value)} {draft : Draft ρ τ}
    (hu : tree.codec.Underway a slots r left draft.fields)
    (hforest : ∀ member ∈ left, member.1 = childrenName →
      tree.childrenOfData (.ofJson member.2) = .ok children)
    (hchildren : draft.children = children ∨ childrenName ∈ left.map Prod.fst) :
    ∃ draft', tree.ofEntries (Data.ofMembers left) draft = .ok draft' ∧
      tree.codec.Underway a slots r [] draft'.fields ∧ draft'.children = children := by
  induction left generalizing draft with
  | nil =>
    exact ⟨draft, by rw [Data.ofMembers, ofEntries], hu, hchildren.resolve_right List.not_mem_nil⟩
  | cons member rest ih =>
    obtain ⟨key, v⟩ := member
    obtain ⟨hfirst, hrest⟩ := List.forall_mem_cons.mp hforest
    rw [Data.ofMembers, ofEntries]
    by_cases hkey : key = childrenName
    · subst hkey
      obtain ⟨hlast, -⟩ := List.nodup_cons.mp hu.distinct
      have hmeet := Codec.Draft.meet_eq_ok_iff.mpr ⟨hu.fresh _ List.mem_cons_self, rfl⟩
      -- the fields pass over the children, whose key counts as seen from here on
      have hskipped := (hu.skip h.fields h.childless).noted hlast
      obtain ⟨draft', hread, hdone⟩ := @ih ⟨_, children⟩ hskipped hrest (.inl rfl)
      refine ⟨draft', ?_, hdone⟩
      rw [if_pos rfl, hmeet, hfirst rfl]
      exact hread
    · obtain ⟨fields, hentry, hnext⟩ := hu.step h.fields hsettled
      have hlater : draft.children = children ∨ childrenName ∈ rest.map Prod.fst :=
        hchildren.imp_right fun hmem => (List.mem_cons.mp hmem).resolve_left (Ne.symm hkey)
      obtain ⟨draft', hread, hdone⟩ := @ih { draft with fields } hnext hrest hlater
      refine ⟨draft', ?_, hdone⟩
      rw [if_neg hkey, hentry]
      exact hread

/-- **A node is read again** if its fields and its children are. -/
theorem node_rereads (h : tree.Slotted a write slots) (hsettled : Settled a slots r)
    (hchildren : ∀ child ∈ children, Rereads a tree.ofData write child) :
    Rereads a tree.ofData write (tree.make r children) := by
  have hlast : childrenName ∉ (tree.codec.members r).map Prod.fst := fun hmem =>
    h.fields.not_unknown_of_mem_members hmem h.childless
  let forest : String × Json.Value := (childrenName, .array (children.map write))
  have hkeys : ((tree.codec.members r ++ [forest]).map Prod.fst).Nodup := by
    rw [List.map_append, List.map_singleton, List.nodup_append]
    refine ⟨h.fields.members_keys_nodup r, List.pairwise_singleton _ _, ?_⟩
    rintro key hkey other hother rfl
    rw [List.mem_singleton.mp hother] at hkey
    exact hlast hkey
  obtain ⟨arranged, harranged, hperm, hdistinct⟩ := Arrangement.arrange_object (a := a) hkeys
  rw [Keyed.mapValues_append] at hperm
  -- under the name of the children stands the forest and nothing else
  have hforest : ∀ member ∈ arranged, member.1 = childrenName →
      tree.childrenOfData (.ofJson member.2) = .ok children := by
    intro member hmember hname
    obtain hmem | hmem := List.mem_append.mp (hperm.mem_iff.mp hmember)
    · exact absurd (hname ▸ Keyed.mem_keys_of_mem_mapValues hmem) hlast
    · rw [List.mem_singleton.mp hmem]
      exact childrenOfData_written hchildren
  have hu : tree.codec.Underway a slots r arranged tree.start.fields := by
    apply h.fields.underway hperm hdistinct
    intro member hmember
    rw [List.mem_singleton.mp hmember]
    exact h.childless
  have hcome : childrenName ∈ arranged.map Prod.fst :=
    List.mem_map_of_mem (hperm.mem_iff.mpr (List.mem_append_right _ List.mem_cons_self))
  obtain ⟨draft, hread, hdone, hsame⟩ :=
    h.ofEntries_underway hsettled hu hforest (.inr hcome)
  obtain ⟨hfinish, hslots⟩ := hdone.finish
  unfold Rereads
  rw [h.write, harranged, Data.ofJson, ofData, hread]
  change (do return tree.make (← tree.codec.finish draft.fields) draft.children) = _
  rw [hfinish, hsame, h.ext r _ hslots]
  rfl

/-! ### Reading -/

theorem start_sound (h : tree.Slotted a write slots) : tree.start.Sound a tree write slots :=
  ⟨h.fields.start, fun _ hchild => absurd hchild List.not_mem_nil⟩

-- The recursion is that of the reader: a draft stays sound with each entry, and its children are
-- read from parts of the value.
mutual

/-- **Every tree that is read** can be written and read again. -/
theorem ofData_rereads (h : tree.Slotted a write slots) : ∀ (v : Json.Value) {t : τ}, v.Sized →
    tree.ofData (.ofJson v) = .ok t → Rereads a tree.ofData write t
  | .object members, t, hsized, hread => by
    rw [Data.ofJson, ofData] at hread
    obtain ⟨draft, hentries, hread⟩ := exists_of_bind_eq_ok hread
    obtain ⟨r, hfinish, hread⟩ := exists_of_bind_eq_ok hread
    cases hread
    have hsound := ofEntries_sound h members (Json.Value.sized_object.mp hsized)
      h.start_sound hentries
    rw [Codec.eq_of_finish hfinish]
    exact h.node_rereads hsound.fields hsound.children
  | .array items, t, hsized, hread => by
    rw [Data.ofJson, ofData] at hread
    obtain ⟨draft, hitems, hread⟩ := exists_of_bind_eq_ok hread
    have hsound := ofItems_sound h items (Json.Value.sized_array.mp hsized)
      h.start_sound hitems
    split at hread
    · cases hread
    · cases hread
      exact h.node_rereads hsound.fields hsound.children
  | .number n, _, _, hread => by cases n <;> simp [Data.ofJson, ofData, Data.mismatch] at hread
  | .null, _, _, hread | .bool _, _, _, hread | .string _, _, _, hread => by
    simp [Data.ofJson, ofData, Data.mismatch] at hread

theorem ofEntries_sound (h : tree.Slotted a write slots) :
    ∀ (members : List (String × Json.Value)) {draft draft' : Draft ρ τ},
      (∀ member ∈ members, member.2.Sized) → draft.Sound a tree write slots →
      tree.ofEntries (Data.ofMembers members) draft = .ok draft' → draft'.Sound a tree write slots
  | [], _, _, _, hsound, hread => by
    rw [Data.ofMembers, ofEntries] at hread
    cases hread
    exact hsound
  | (key, v) :: rest, draft, _, hsized, hsound, hread => by
    obtain ⟨hv, hrest⟩ := List.forall_mem_cons.mp hsized
    rw [Data.ofMembers, ofEntries] at hread
    split at hread
    · obtain ⟨fields, hmeet, hread⟩ := exists_of_bind_eq_ok hread
      obtain ⟨children, hchildren, hread⟩ := exists_of_bind_eq_ok hread
      obtain ⟨-, rfl⟩ := Codec.Draft.meet_eq_ok_iff.mp hmeet
      refine ofEntries_sound h rest hrest ?_ hread
      exact ⟨hsound.fields, childrenOfData_rereads h v hv hchildren⟩
    · obtain ⟨fields, hentry, hread⟩ := exists_of_bind_eq_ok hread
      have hnext : Draft.Sound a tree write slots ⟨fields, draft.children⟩ :=
        ⟨h.fields.readEntry_settled hv hsound.fields hentry, hsound.children⟩
      exact ofEntries_sound h rest hrest hnext hread

theorem ofItems_sound (h : tree.Slotted a write slots) :
    ∀ (items : List Json.Value) {names : List String} {draft draft' : Draft ρ τ},
      (∀ v ∈ items, v.Sized) → draft.Sound a tree write slots →
      tree.ofItems names (Data.ofItems items) draft = .ok draft' → draft'.Sound a tree write slots
  | [], _, _, _, _, hsound, hread => by
    rw [Data.ofItems, ofItems] at hread
    cases hread
    exact hsound
  | v :: rest, [], _, _, _, hsound, hread => by
    rw [Data.ofItems, ofItems] at hread
    cases hread
    exact hsound
  | v :: rest, name :: names, draft, _, hsized, hsound, hread => by
    obtain ⟨hv, hrest⟩ := List.forall_mem_cons.mp hsized
    rw [Data.ofItems, ofItems] at hread
    -- the item is that of the children, or that of a field
    split at hread
    · obtain ⟨children, hchildren, hread⟩ := exists_of_bind_eq_ok hread
      have hnext : Draft.Sound a tree write slots ⟨draft.fields, children⟩ :=
        ⟨hsound.fields, childrenOfData_rereads h v hv hchildren⟩
      exact ofItems_sound h rest hrest hnext hread
    · obtain ⟨fields, hentry, hread⟩ := exists_of_bind_eq_ok hread
      have hnext : Draft.Sound a tree write slots ⟨fields, draft.children⟩ :=
        ⟨h.fields.readEntry_settled hv hsound.fields hentry, hsound.children⟩
      exact ofItems_sound h rest hrest hnext hread

theorem childrenOfData_rereads (h : tree.Slotted a write slots) :
    ∀ (v : Json.Value) {children : List τ}, v.Sized →
      tree.childrenOfData (.ofJson v) = .ok children →
      ∀ child ∈ children, Rereads a tree.ofData write child
  | .array items, _, hsized, hread => by
    rw [Data.ofJson, childrenOfData] at hread
    exact forestOfItems_rereads h items (Json.Value.sized_array.mp hsized) hread
  | .number n, _, _, hread => by
    cases n <;> simp [Data.ofJson, childrenOfData, Data.mismatch] at hread
  | .object _, _, _, hread | .null, _, _, hread | .bool _, _, _, hread
  | .string _, _, _, hread => by
    simp [Data.ofJson, childrenOfData, Data.mismatch] at hread

theorem forestOfItems_rereads (h : tree.Slotted a write slots) :
    ∀ (items : List Json.Value) {children : List τ}, (∀ v ∈ items, v.Sized) →
      tree.forestOfItems (Data.ofItems items) = .ok children →
      ∀ child ∈ children, Rereads a tree.ofData write child
  | [], _, _, hread => by
    rw [Data.ofItems, forestOfItems] at hread
    cases hread
    exact nofun
  | v :: rest, _, hsized, hread => by
    obtain ⟨hv, hrest⟩ := List.forall_mem_cons.mp hsized
    rw [Data.ofItems, forestOfItems] at hread
    obtain ⟨first, hfirst, hread⟩ := exists_of_bind_eq_ok hread
    obtain ⟨others, hothers, hread⟩ := exists_of_bind_eq_ok hread
    cases hread
    exact List.forall_mem_cons.mpr
      ⟨ofData_rereads h v hv hfirst, forestOfItems_rereads h rest hrest hothers⟩

end

/-- **The reader of trees** keeps to their writer. -/
theorem faithful_tree (h : tree.Slotted a write slots) : Faithful a tree.ofData write :=
  fun v _ hsized hread => h.ofData_rereads v hsized hread

end Slotted

end TreeCodec

end Record

end Scenario
