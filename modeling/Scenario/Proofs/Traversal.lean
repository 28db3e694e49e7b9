/-!
# Steps that may fail

What is known of two steps, and of one step for each item of a list, from the result of them all.

* `exists_of_bind_eq_ok` — what succeeds in two steps succeeds in each.
* `mapM_eq_ok` — if every step succeeds, so do all; `exists_of_mem_mapM` says that nothing else is
  among their results, and `exists_mapM_of_perm` that their order does not matter.
* `exists_mapM_eq_error` — if some step fails, one of those that fail decides.
-/

namespace Scenario

section Traversal

variable {α β ε : Type} {f : α → Except ε β} {g : α → β} {items : List α} {results : List β} {a : α}
  {e : ε}

/-- What succeeds in two steps succeeds in each. -/
theorem exists_of_bind_eq_ok {x : Except ε α} {b : β} (h : x >>= f = .ok b) :
    ∃ a, x = .ok a ∧ f a = .ok b := by
  cases x with
  | error e => cases h
  | ok a => exact ⟨a, rfl, h⟩

/-- What succeeds and is changed has succeeded before. -/
theorem exists_of_map_eq_ok {x : Except ε α} {b : β} (h : x.map g = .ok b) :
    ∃ a, x = .ok a ∧ g a = b := by
  cases x with
  | error e => cases h
  | ok a => exact ⟨a, rfl, Except.ok.inj h⟩

theorem exists_of_isOk {x : Except ε α} (h : x.isOk = true) : ∃ a, x = .ok a := by
  cases x with
  | error e => cases h
  | ok a => exact ⟨a, rfl⟩

theorem mapM_eq_ok (h : ∀ a ∈ items, f a = .ok (g a)) : items.mapM f = .ok (items.map g) := by
  induction items with
  | nil => rfl
  | cons a rest ih =>
    rw [List.mapM_cons, h a List.mem_cons_self, ih fun b hb => h b (List.mem_cons_of_mem _ hb)]
    rfl

/-- What every step undoes comes out again. -/
theorem mapM_map_eq_ok {undo : β → Except ε α} (h : ∀ a ∈ items, undo (g a) = .ok a) :
    (items.map g).mapM undo = .ok items := by
  induction items with
  | nil => rfl
  | cons a rest ih =>
    rw [List.map_cons, List.mapM_cons, h a List.mem_cons_self,
      ih fun b hb => h b (List.mem_cons_of_mem _ hb)]
    rfl

/-- If every step succeeds, so do the same steps in another order. -/
theorem exists_mapM_of_perm {others : List α} (hperm : items.Perm others)
    (h : items.mapM f = .ok results) :
    ∃ results', others.mapM f = .ok results' ∧ results'.Perm results := by
  induction hperm generalizing results with
  | nil => exact ⟨results, h, .refl _⟩
  | cons a _ ih =>
    rw [List.mapM_cons] at h
    obtain ⟨value, hfirst, h⟩ := exists_of_bind_eq_ok h
    obtain ⟨values, hrest, h⟩ := exists_of_bind_eq_ok h
    cases h
    obtain ⟨values', hrest', hvalues⟩ := ih hrest
    exact ⟨value :: values', by rw [List.mapM_cons, hfirst, hrest']; rfl, hvalues.cons value⟩
  | swap a b rest =>
    rw [List.mapM_cons, List.mapM_cons] at h
    obtain ⟨second, hsecond, h⟩ := exists_of_bind_eq_ok h
    obtain ⟨values, hvalues, h⟩ := exists_of_bind_eq_ok h
    cases h
    obtain ⟨first, hfirst, h⟩ := exists_of_bind_eq_ok hvalues
    obtain ⟨values, hrest, h⟩ := exists_of_bind_eq_ok h
    cases h
    refine ⟨first :: second :: values, ?_, .swap _ _ _⟩
    rw [List.mapM_cons, List.mapM_cons, hfirst, hsecond, hrest]
    rfl
  | trans _ _ ih₁ ih₂ =>
    obtain ⟨between, hbetween, hperm₁⟩ := ih₁ h
    obtain ⟨results', hresults', hperm₂⟩ := ih₂ hbetween
    exact ⟨results', hresults', hperm₂.trans hperm₁⟩

/-- If some item fails, the first that does decides. -/
theorem exists_mapM_eq_error (ha : a ∈ items) (h : f a = .error e) :
    ∃ b ∈ items, ∃ e, f b = .error e ∧ items.mapM f = .error e := by
  induction items with
  | nil => cases ha
  | cons first rest ih =>
    rw [List.mapM_cons]
    cases hfirst : f first with
    | error e => exact ⟨first, List.mem_cons_self, e, hfirst, rfl⟩
    | ok value =>
      obtain rfl | ha := List.mem_cons.mp ha
      · rw [h] at hfirst
        cases hfirst
      · obtain ⟨b, hb, e, hfails, hrest⟩ := ih ha
        refine ⟨b, List.mem_cons_of_mem _ hb, e, hfails, ?_⟩
        rw [hrest]
        rfl

/-- What succeeds for every item gives only results of items. -/
theorem exists_of_mem_mapM (h : items.mapM f = .ok results) :
    ∀ b ∈ results, ∃ a ∈ items, f a = .ok b := by
  induction items generalizing results with
  | nil =>
    cases h
    exact nofun
  | cons first rest ih =>
    rw [List.mapM_cons] at h
    obtain ⟨value, hfirst, h⟩ := exists_of_bind_eq_ok h
    obtain ⟨values, hrest, h⟩ := exists_of_bind_eq_ok h
    cases h
    intro b hb
    obtain rfl | hb := List.mem_cons.mp hb
    · exact ⟨first, List.mem_cons_self, hfirst⟩
    · obtain ⟨a, ha, hvalue⟩ := ih hrest b hb
      exact ⟨a, List.mem_cons_of_mem _ ha, hvalue⟩

end Traversal

end Scenario
