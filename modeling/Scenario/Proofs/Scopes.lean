import Scenario.Proofs.History.Kept

/-!
# Scopes

Variables are scoped by steps. What a step declares is in force in its work and in everything that
is run as a part of it, over what the steps around it declare, and it is gone when the step is left.

* `Context.Restored` — the scopes, the key and the stack of cases are what they were.
* `History.Scoped` — what is in force in a step, from its opening to its closing.
* `History.Nest.find?_defined` — a name is looked up in the steps that are running, innermost first.
  The induction is on the steps that are running.
* `Step.run_scoped` — all of this of every run of a step.
-/

namespace Scenario

/-- **Four things are what they were:** the variables in force, the extracted ones, the key and the
stack of cases. -/
structure Context.Restored (before after : Context) : Prop where
  defined : after.defined = before.defined
  extract : after.extract = before.extract
  key : after.key = before.key
  including : after.including = before.including

namespace History

/-- The value under which a step declares a name, resolved in the context around the step. -/
def declares? (k : History) (name : String) : Option Json.Value :=
  Keyed.find? name (Keyed.ofList (k.step.declared k.before))

/-- **What is in force in a step.** -/
structure Scoped (k : History) : Prop where
  /-- When its work starts: what was in force around it, overridden by what it declares itself. -/
  opening : k.opening.defined = Keyed.extend k.before.defined (k.step.declared k.before)
  /-- Nothing has been extracted yet. -/
  extract : k.opening.extract = []
  /-- Every step that its work runs finds the same in force, -/
  children : ∀ g ∈ k.children, g.before.defined = k.opening.defined
  /-- and so does the end of the work. -/
  closing : ∀ r, k.result = some r → k.closing.defined = k.opening.defined
  /-- When the step is left, it is as if it had never been there. -/
  restored : ∀ r, k.result = some r → k.before.Restored k.after

variable {ρ : Type} {o : Outside ρ} {h k : History}

theorem Sound.restored (hs : h.Everywhere (Sound o)) {r : StepResult} (hr : h.result = some r) :
    h.before.Restored h.after := by
  obtain ⟨events, ending, -, -, -, hconcluded⟩ := hs.here.course
  have hend := hconcluded r hr
  exact {
    defined := hs.here.defined_after hr
    extract := hend.extract
    key := (congrArg Context.key hend.after :)
    including := hs.including hr }

/-- **Every sound history is scoped.** -/
theorem Everywhere.scoped (hs : h.Everywhere (Sound o)) : h.Everywhere Scoped := by
  induction hs with
  | @intro h hsound hall ih =>
    have hs : h.Everywhere (Sound o) := .intro hsound hall
    exact .intro {
      opening := (congrArg Context.defined hsound.opening :)
      extract := hsound.extract
      children := fun g hg => Sound.defined_child hs hg
      closing := fun r hr => Sound.defined_closing hs hr
      restored := fun r hr => Sound.restored hs hr } ih

/-- **The nearest step decides:** a name that is in force is looked up in the steps that are
running, from the innermost one outwards, and only then in what was in force around all of them. -/
theorem Nest.find?_defined (hs : h.Everywhere (Sound o)) {ks : List History}
    (hn : h.Nest (k :: ks)) (name : String) :
    Keyed.find? name k.opening.defined =
      (((k :: ks).findSome? fun g => g.declares? name) <|> Keyed.find? name h.before.defined) := by
  -- the step itself comes first, then what was in force when it started
  have own : ∀ {k : History}, k.Everywhere (Sound o) → Keyed.find? name k.opening.defined =
      (k.declares? name <|> Keyed.find? name k.before.defined) := by
    intro k hk
    rw [hk.scoped.here.opening, Keyed.find?_extend]
    rfl
  -- by induction on the nest: a step starts with what is in force in the one around it
  generalize hks : k :: ks = nest at hn
  induction hn generalizing k ks with
  | root =>
    cases hks
    rw [own hs, List.findSome?_cons]
    cases h.declares? name <;> rfl
  | @deeper parent k ks hn hg ih =>
    cases hks
    have hparent := hn.innermost hs
    rw [own (hparent.children _ hg), Sound.defined_child hparent hg, ih rfl,
      List.findSome?_cons (a := k)]
    cases k.declares? name <;> simp

end History

variable {ρ σ : Type} (w : World ρ σ)

/-- **Scopes.** A step that is left has put back the variables in force, the extracted ones, the key
and the stack of cases. In every step that was run as a part of it, what the step declares is in
force over what the step around it had in force, for all of its work, so a name is looked up at the
nearest step that declares it. -/
theorem Step.run_scoped (step : Step) (s : RunState ρ σ) :
    (∀ r s', step.run w s = .ok r s' →
        s.context.Restored s'.context ∧ (step.history w s).Yields r) ∧
      (step.history w s).Everywhere History.Scoped ∧
      ∀ k ks name, (step.history w s).Nest (k :: ks) → k.opening.lookup name =
        ((((k :: ks).findSome? fun g => g.declares? name) <|>
          Keyed.find? name s.context.defined) <|>
          Keyed.find? name k.opening.session) := by
  have hs := step.history_sound w s
  refine ⟨fun r s' hrun => ?_, hs.scoped, fun k ks name hn => ?_⟩
  · obtain ⟨hresult, hafter⟩ := Step.history_ok w hrun
    have hrestored := History.Sound.restored hs hresult
    rw [Step.history_before, hafter] at hrestored
    exact ⟨hrestored, Step.history_yields hrun⟩
  -- nothing has been extracted when the work starts, so the session is all that is left to look at
  · have hextract : k.opening.extract = [] := (hn.innermost hs).here.extract
    unfold Context.lookup
    rw [hn.find?_defined hs, Step.history_before, hextract, Keyed.find?_nil]
    simp

end Scenario
