import Scenario.Proofs.Structure
import Scenario.Proofs.Termination

/-!
# Runs behind the gate

A case whose forest is well-formed runs, and what it runs is its forest: a step that is run while no
other case is included stands in the forest, and so declares a kind that is known. Only the steps of
included cases, which no gate has seen, can fail for their kind.

* `History.Everywhere.own` — steps of the forest run steps of the forest, until a case is included.
* `gate_exact` — the gate is exact, and no step of a forest that passes fails for its kind.
-/

namespace Scenario

variable {ρ σ : Type}

namespace History

variable {o : Outside ρ} {forest : List Step} {start : List Int} {h : History}

/-- Whether a step stands in the forest, if it is run while the cases on the stack are those of the
start. Cases are only ever put on top of them. -/
def Own (forest : List Step) (start : List Int) (h : History) : Prop :=
  start.length ≤ h.before.including.length ∧
    (h.before.including = start → ∃ around, Step.Within forest around h.step)

/-- **Steps of the forest run steps of the forest,** until a case is included. -/
theorem Everywhere.own (hs : h.Everywhere (Sound o)) (hown : h.Own forest start) :
    h.Everywhere (Own forest start) := by
  induction hs with
  | @intro h hsound hall ih =>
    refine .intro hown fun g hg => ih g hg ?_
    obtain ⟨hlength, hwithin⟩ := hown
    generalize hcallee : (g.step, g.before.including) = callee
    have hbelow := Sound.below (.intro hsound hall) hg
    rw [hcallee] at hbelow
    cases hbelow with
    | child hchild =>
      obtain ⟨rfl, hsame⟩ := Prod.mk.inj hcallee
      rw [Own, hsame]
      refine ⟨hlength, fun hstart => ?_⟩
      obtain ⟨around, hparent⟩ := hwithin hstart
      exact ⟨_, hparent.child hchild⟩
    | included =>
      -- the stack has become longer than that of the start
      obtain ⟨-, hstack⟩ := Prod.mk.inj hcallee
      rw [Own, hstack, List.length_append]
      refine ⟨by omega, fun hstart => ?_⟩
      have hgrown := congrArg List.length hstart
      rw [List.length_append, List.length_singleton] at hgrown
      omega

end History

/-- Every root of a run is a root of the forest. -/
theorem runHistories_roots (w : World ρ σ) {case : CaseHeader} {steps : List Step}
    {options : RunOptions} {client : Option Http.Client} {outside : ρ} {records : σ} :
    ∀ h ∈ runHistories w case steps options client outside records, h.step ∈ steps := by
  intro h hh
  unfold runHistories at hh
  cases hstate : rootsState w case steps options client outside records with
  | none =>
    rw [hstate] at hh
    exact absurd hh List.not_mem_nil
  | some s =>
    rw [hstate] at hh
    obtain ⟨outcome, after, hran⟩ := caseHistories_ran w case.code steps s
    exact Step.mem_ordered.mp (hran.passage.begun.subset (List.mem_map_of_mem hh))

/-- **The gate is exact:** it finds nothing in a forest if and only if every step, at every depth, is
in its place. Then each of them has a known kind, and so has every step that a run of the case runs
outside of included cases: such a step stands in the forest. -/
theorem gate_exact (steps : List Step) :
    (structuralErrors steps = [] ↔ Step.WellFormed steps) ∧
      (structuralErrors steps = [] →
        (∀ around step, Step.Within steps around step → ∃ kind, step.declaredKind = .ok kind) ∧
        ∀ {ρ σ : Type} (w : World ρ σ) (case : CaseHeader) (options : RunOptions)
          (client : Option Http.Client) (outside : ρ) (records : σ),
          ∀ h ∈ runHistories w case steps options client outside records,
            h.Everywhere fun k => k.before.including = case.id.toList →
              ∃ kind, k.step.declaredKind = .ok kind) := by
  refine ⟨structuralErrors_eq_nil_iff, fun hnone => ?_⟩
  have hkinds : ∀ around step, Step.Within steps around step →
      ∃ kind, step.declaredKind = .ok kind :=
    fun _ _ hwithin => (structuralErrors_eq_nil_iff.mp hnone).declaredKind hwithin
  refine ⟨hkinds, fun w case options client outside records h hh => ?_⟩
  obtain ⟨hsound, hstart⟩ := runHistories_sound w h hh
  -- a root stands in the forest, and what runs below it outside of included cases does, too
  have hroot : h.Own steps case.id.toList :=
    ⟨by rw [hstart], fun _ => ⟨[], .root (runHistories_roots w h hh)⟩⟩
  refine (hsound.own hroot).each fun k hk houtside => ?_
  obtain ⟨around, hwithin⟩ := hk.here.2 houtside
  exact hkinds around k.step hwithin

/-- A forest where a step has the key of the step around it, but no code, where two siblings have no
number, and where blanks stand around a kind. -/
theorem gate_exact_nested :
    let inner : Step := { number := some 1, kind := some "wait", children := [] }
    let bare : Step := { kind := some "HTTP请求", children := [] }
    let outer : Step := { number := some 1, kind := some " loop\n", children := [inner, bare, bare] }
    structuralErrors [outer] = [] ∧ inner.key = outer.key ∧ Step.WellFormed [outer] ∧
      ∃ kind, inner.declaredKind = .ok kind := by
  intro inner bare outer
  have hnone : structuralErrors [outer] = [] := by decide +kernel
  obtain ⟨hexact, hruns⟩ := gate_exact [outer]
  have hinner : Step.Within [outer] [outer] inner :=
    .child (.root List.mem_cons_self) List.mem_cons_self
  exact ⟨hnone, by decide +kernel, hexact.mp hnone, (hruns hnone).1 _ _ hinner⟩

end Scenario
