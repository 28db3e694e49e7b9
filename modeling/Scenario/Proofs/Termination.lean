import Scenario.Proofs.History.Case
import Scenario.Proofs.History.Iterations

/-!
# Termination

A run ends, whatever cases include each other. Every step that is run has been called: by the step
around it, or by an include step for the case that it includes, which is then on the stack of cases
and was not there before. Calls cannot go on forever, since either a case is taken from those that
are left, or the step gets smaller; and each step calls finitely many.

* `Calls` — a step calls another one, each with the stack of cases that it finds. The relation is
  well-founded, by the lexicographic order of the cases left and the size of the step.
* `History.Sound.below` — every step in a history is below the one that ran it, and so was called
  by it.
* `Context.invariant_nodup` — no case is on the stack twice.
* `History.Nest.visits_le` — so the include steps inside of each other are no more than the cases
  that are left at the start. The induction is on the steps that are running.
* `runCase_bounded` — all of this of every run of a case, with the bounds of the loops.
-/

namespace Scenario

/-! ### Calls -/

/-- **A step calls another one,** each with the stack of cases that it finds. -/
inductive Calls (library : Library) : Step × List Int → Step × List Int → Prop
  | child {step child : Step} {including : List Int} : child ∈ step.children →
    Calls library (child, including) (step, including)
  | inclusion {step child : Step} {including : List Int} {id : Int} {record : CaseRecord} :
    step.includedCase = some id → library.find? id = some record → id ∉ including →
    child ∈ record.steps → Calls library (child, including ++ [id]) (step, including)

/-- **Calls end:** no step calls forever. -/
theorem Calls.wellFounded (library : Library) : WellFounded (Calls library) := by
  -- a call takes a case from those that are left, or keeps them and goes to a smaller step
  let measure : Step × List Int → Nat × Nat :=
    fun call => ((library.left call.2).length, sizeOf call.1)
  refine Subrelation.wf (r := InvImage (Prod.Lex (· < ·) (· < ·)) measure) ?_
    (InvImage.wf measure (Prod.lex Nat.lt_wfRel Nat.lt_wfRel).wf)
  intro callee caller hcall
  cases hcall with
  | child h => exact .right _ (Step.sizeOf_child h)
  | @inclusion step child including id record _ hrecord hid _ =>
    have hleft := Library.length_left_concat (Library.mem_loadable_of_find? hrecord) hid
    exact .left _ _ (show (library.left (including ++ [id])).length <
      (library.left including).length by omega)

/-- **A step is below another one,** each with the stack of cases that it finds: it is one of its
children, or a step of the case that the other one, an include step, gets to. -/
inductive Below (library : Library) : Step × List Int → Step × List Int → Prop
  | child {step child : Step} {including : List Int} : child ∈ step.children →
    Below library (child, including) (step, including)
  | included {step child : Step} {including : List Int} {id : Int} {record : CaseRecord} :
    step.declaredKind = .ok .inclusion → step.includedCase = some id →
    library.find? id = some record → record.visibility = .shared → id ∉ including →
    child ∈ record.steps → Below library (child, including ++ [id]) (step, including)

/-- A step is called by the one that it is below. -/
theorem Below.calls {library : Library} {callee caller : Step × List Int}
    (h : Below library callee caller) : Calls library callee caller := by
  cases h with
  | child hchild => exact .child hchild
  | included _ hid hrecord _ hnew hchild => exact .inclusion hid hrecord hnew hchild

variable {ρ : Type} {o : Outside ρ}

namespace History

variable {h g k : History}

/-- **Every step that was run** is below the one that ran it. -/
theorem Sound.below (hs : h.Everywhere (Sound o)) (hg : g ∈ h.children) :
    Below o.library (g.step, g.before.including) (h.step, h.before.including) := by
  have hstack := Sound.including_child hs hg
  obtain ⟨events, ending, hcourse, -, hhistories, -⟩ := hs.here.course
  rw [← hhistories] at hg
  -- the stack says which of the two kinds of call it is, and the course which step was called;
  -- a step of a passage is one of its steps
  have passed : ∀ {halt steps hs outcome}, Passage halt (Step.ordered steps) hs outcome → g ∈ hs →
      g.step ∈ steps := by
    intro halt steps hs outcome hpass hmem
    exact Step.mem_ordered.mp (hpass.begun.subset (List.mem_map_of_mem hmem))
  cases hcourse with
  | idle => exact absurd hg List.not_mem_nil
  | pass hkind hplain _ hpass =>
    rw [Event.histories_ran] at hg
    rcases hstack with ⟨-, hsame⟩ | ⟨id, record, hinclusion, -⟩
    · exact hsame ▸ .child (passed hpass hg)
    · obtain rfl := Except.ok.inj (hkind.symm.trans hinclusion)
      simp [StepKind.IsPlain] at hplain
  | rounds hkind _ _ _ _ hrounds =>
    rw [Round.histories_flatMap] at hg
    obtain ⟨round, hround, hg⟩ := List.mem_flatMap.mp hg
    rcases hstack with ⟨-, hsame⟩ | ⟨id, record, hinclusion, -⟩
    · exact hsame ▸ .child (passed (hrounds.passage round hround) hg)
    · cases hkind.symm.trans hinclusion
  | visit hkind hid hrecord hshared _ hpass =>
    rw [Event.histories_visit] at hg
    rcases hstack with ⟨hno, -⟩ | ⟨id', record', -, hid', hrecord', hnew, hsame⟩
    · exact absurd hkind hno
    · obtain rfl := Option.some.inj (hid.symm.trans hid')
      obtain rfl := Option.some.inj (hrecord.symm.trans hrecord')
      exact hsame ▸ .included hkind hid hrecord hshared hnew (passed hpass hg)

end History

/-! ### The stack of cases -/

/-- **No case is on the stack twice.** -/
theorem Context.invariant_nodup : Context.Invariant fun c => c.including.Nodup := by
  -- a case that is entered was not on the stack, and one that is left was the last on it
  refine ⟨fun hd hc => ?_, fun event c d hnone hlead hc => ?_⟩
  · exact (congrArg Context.including hd :) ▸ hc
  · cases event with
    | injected data => exact (congrArg Context.including hlead :) ▸ hc
    | numbered i => exact (congrArg Context.including hlead :) ▸ hc
    | entered id =>
      have hd : d.including = c.including ++ [id] := (congrArg Context.including hlead.2 :)
      rw [hd]
      exact List.nodup_append.mpr ⟨hc, List.nodup_singleton id, by
        rintro x hx y hy rfl
        exact hlead.1 (List.mem_singleton.mp hy ▸ hx)⟩
    | left id =>
      rw [hlead.1] at hc
      exact (List.nodup_append.mp hc).1
    | ran g => exact absurd hnone (Option.some_ne_none g)

namespace History

variable {h k : History}

/-- Whether a step is an include step that runs the steps of its case. -/
def visits (k : History) : Bool :=
  match k.step.declaredKind with
  | .ok .inclusion => !k.children.isEmpty
  | _ => false

/-- A case is left for an include step that runs the steps of its case. -/
theorem Sound.left_of_visits (hs : k.Everywhere (Sound o)) (hk : k.visits = true) :
    0 < (o.library.left k.before.including).length := by
  unfold visits at hk
  split at hk
  · next hkind =>
    obtain ⟨g, hg⟩ := List.exists_mem_of_ne_nil k.children (by simpa using hk)
    rcases Sound.including_child hs hg with ⟨hno, -⟩ | ⟨id, record, -, -, hrecord, hnew, -⟩
    · exact absurd hkind hno
    · have hleft := Library.length_left_concat (Library.mem_loadable_of_find? hrecord) hnew
      omega
  · cases hk

/-- A step finds one case less than the step that ran it, if that one is an include step. -/
theorem Sound.left_child (hs : k.Everywhere (Sound o)) {g : History} (hg : g ∈ k.children) :
    (o.library.left g.before.including).length + (if k.visits then 1 else 0) =
      (o.library.left k.before.including).length := by
  unfold visits
  rcases Sound.including_child hs hg with
    ⟨hno, hsame⟩ | ⟨id, record, hkind, -, hrecord, hnew, hsame⟩
  · rw [hsame]
    split
    · next hkind => exact absurd hkind hno
    · rfl
  · have hne : k.children.isEmpty = false := by
      simpa using List.ne_nil_of_mem hg
    have hleft := Library.length_left_concat (Library.mem_loadable_of_find? hrecord) hnew
    rw [hsame, hkind]
    simpa [hne] using hleft

/-- **Include steps inside of each other** take a case each from those that are left. -/
theorem Nest.visits_le (hs : h.Everywhere (Sound o)) {ks : List History} (hn : h.Nest ks) :
    ks.countP visits ≤ (o.library.left h.before.including).length := by
  -- the innermost step finds those that the steps around it have left
  have found : ∀ {k ks}, h.Nest (k :: ks) →
      (o.library.left k.before.including).length + ks.countP visits =
        (o.library.left h.before.including).length := by
    intro k ks hn
    generalize hks : k :: ks = nest at hn
    induction hn generalizing k ks with
    | root =>
      cases hks
      rfl
    | @deeper parent k ks hn hg ih =>
      cases hks
      have hchild := Sound.left_child (hn.innermost hs) hg
      have hparent := ih rfl
      rw [List.countP_cons]
      omega
  cases ks with
  | nil => exact Nat.zero_le _
  | cons k ks =>
    -- the innermost step counts too, if it has entered a case; then one was left for it
    have hfound := found hn
    rw [List.countP_cons]
    split
    · next hk =>
      have hleft := Sound.left_of_visits (hn.innermost hs) hk
      omega
    · omega

/-! ### Runs of cases -/

/-- **A step that was run within bounds.** -/
structure Bounded (library : Library) (k : History) : Prop where
  /-- No case is twice on the stack that it finds or leaves, nor on that of its work. -/
  stack : ∀ c ∈ k.edges, c.including.Nodup
  /-- It has called every step that it ran. -/
  calls : ∀ g ∈ k.children,
    Calls library (g.step, g.before.including) (k.step, k.before.including)
  /-- If it is a loop, it ran no more iterations than loops of its mode may. -/
  loops : k.step.declaredKind = .ok .loop → ∃ iterations, k.Iterations iterations ∧
    (Exec.loopMode k.step.toStepFields = .ok .count → iterations.length ≤ 100) ∧
    (Exec.loopMode k.step.toStepFields = .ok .condition → iterations.length ≤ 1000)

/-- **A sound history is within bounds,** if the stack that it starts with is. -/
theorem Everywhere.bounded (hs : h.Everywhere (Sound o)) (hb : h.before.including.Nodup) :
    h.Everywhere (Bounded o.library) := by
  -- the stack is an invariant; calls and iterations are what each sound history says by itself
  have hstack := hs.edges Context.invariant_nodup hb
  induction hs with
  | @intro h hsound hall ih =>
    have hcalls : ∀ g ∈ h.children,
        Calls o.library (g.step, g.before.including) (h.step, h.before.including) :=
      fun g hg => (Sound.below (.intro hsound hall) hg).calls
    refine .intro ⟨hstack.here, hcalls, fun hkind => ?_⟩ fun g hg =>
      ih g hg ?_ (hstack.children g hg)
    · obtain ⟨rounds, ending, hiterations, -, -, hallows, -⟩ := hsound.rounds hkind
      refine ⟨_, hiterations, fun hmode => ?_, fun hmode => ?_⟩ <;>
      · rw [List.length_map]
        exact (hallows _ hmode).1.1
    · exact (hstack.children g hg).here g.before (by simp [History.edges])

end History

/-- **Termination.** Calls of steps end. No run depends on a bound on the depth of inclusions, nor
on what would happen below it, and there is only one way to run the steps of included cases that
needs no such bound. In every run of a case, steps are run within bounds, and the include steps that
are running at the same time are no more than the cases that can be loaded. -/
theorem runCase_bounded {ρ σ : Type} (w : World ρ σ) (case : CaseHeader) (steps : List Step)
    (options : RunOptions) (client : Option Http.Client) (outside : ρ) (records : σ) :
    WellFounded (Calls w.library) ∧
      (∀ ready, Unwinds (Step.readyAll w) ready → ∀ step s depth,
        (w.library.left s.context.including).length ≤ depth →
        (Step.ready w (ready depth) step).run s = step.run w s) ∧
      (∀ included, (∀ steps, included steps = Step.readyAll w included steps) ↔
        included = runnable w) ∧
      (∀ finished run, runCase w case steps options client outside records = .ok finished →
        finished.outcome = .ok run → List.Forall₂ History.Yields
          (runHistories w case steps options client outside records) run.results) ∧
      ∀ h ∈ runHistories w case steps options client outside records,
        h.Everywhere (History.Bounded w.library) ∧
        ∀ ks, h.Nest ks → ks.countP History.visits ≤ w.library.loadable.length := by
  refine ⟨Calls.wellFounded _, fun ready hready step s depth hd => ?_, Step.run_unique w,
    fun finished run hfinished hrun => runHistories_yield w hfinished hrun, ?_⟩
  · exact Step.run_unwound w hready step s hd
  · intro h hh
    -- at the start, the stack holds no case twice, as it holds the case itself at most
    obtain ⟨hs, hstart⟩ := runHistories_sound w h hh
    refine ⟨hs.bounded ?_, fun ks hn => ?_⟩
    · rw [hstart]
      cases case.id <;> simp
    · calc ks.countP History.visits
          ≤ (w.library.left h.before.including).length := hn.visits_le hs
        _ ≤ w.library.loadable.length := List.length_filter_le _ _

end Scenario
