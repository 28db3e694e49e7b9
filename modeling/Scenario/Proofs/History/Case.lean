import Scenario.Proofs.History.Kept

/-!
# The histories of a case

A case is run in the state after its report was opened, if its structure is good and the report
could be opened. Its roots are run like the steps below a group.

* `RootsRan` — what is known of the histories of roots: they make a `Passage`, which stops at the
  first root that aborts, and they are sound.
* `caseHistories_ran` — this holds of every run of a case, also of one that breaks down.
* `runHistories` — the histories of the roots in a run of `runCase`. They yield the results of the
  run, if it gave some: `runHistories_yield`.
-/

namespace Scenario

variable {ρ σ : Type} {w : World ρ σ} {including : List Int}

/-! ### Roots -/

/-- What is known of the histories of roots that were run from a state: they make a passage, which
nothing but its steps changes the context in. -/
structure RootsRan (o : Outside ρ) (steps : List Step) (hs : List History)
    (outcome : Option ChildrenOutcome) (before after : Context) : Prop where
  passage : Passage false steps hs outcome
  follows : Follows before (hs.map .ran) after
  numbers : Renumbers [] before.iteration (hs.map .ran) after.iteration
  sound : ∀ h ∈ hs, h.Everywhere (History.Sound o)

/-- A root that ended, and did not abort, comes before the rest. If it failed, this weighs on the
outcome alone, and not on that of a crash. -/
theorem RootsRan.cons {o : Outside ρ} {steps : List Step} {x : History} {r : StepResult}
    {hs : List History} {outcome : Option ChildrenOutcome} {before inside after : Context}
    (h : RootsRan o steps hs outcome inside after) (hr : x.result = some r)
    (ha : r.aborted = false) (hlead : (Event.ran x).Leads before inside)
    (hnumbers : Renumbers [] before.iteration [.ran x] inside.iteration)
    (hsound : x.Everywhere (History.Sound o)) :
    ∃ outcome', (outcome' = none ↔ outcome = none) ∧
      RootsRan o (x.step :: steps) (x :: hs) outcome' before after := by
  have hfollows : Follows before ((x :: hs).map .ran) after := ⟨_, hlead, h.follows⟩
  have hnumbers := hnumbers.append h.numbers
  have hall := List.forall_mem_cons.mpr ⟨hsound, h.sound⟩
  by_cases hsuccess : r.success = true
  · exact ⟨outcome, Iff.rfl, .passed hr ha hsuccess h.passage, hfollows, hnumbers, hall⟩
  · refine ⟨_, ?_, .failed hr ha (by simpa using hsuccess) rfl h.passage, hfollows, hnumbers, hall⟩
    split <;> simp_all

/-- What the watch says of a run of roots. -/
def RootsTold (o : Outside ρ) (steps : List Step) (s : RunState ρ (Watch σ)) :
    EStateM.Result Crash (RunState ρ (Watch σ)) (List StepResult) → Prop
  | .ok results s' => ∃ hs outcome, RootsRan o steps hs (some outcome) s.context s'.context ∧
    results = hs.filterMap History.result ∧ s'.records.children = s.records.children ++ hs
  | .error _ s' => ∃ hs, RootsRan o steps hs none s.context s'.context ∧
    s'.records.children = s.records.children ++ hs

/-- **Roots** that are run make a passage. -/
theorem runRoots_told {o : Outside ρ} {steps : List Step} {roots : List (Ready ρ (Watch σ))}
    (h : List.Forall₂ (Watchful o including) steps roots) (code : String) (total position : Nat)
    {s : RunState ρ (Watch σ)} (hs : s.context.including = including) :
    RootsTold o steps s (runRoots w.watched code total roots position s) := by
  -- by induction on the roots, like the steps below a group: the first root that aborts is the last
  induction h generalizing position s with
  | nil => exact ⟨[], .passed, ⟨.done, rfl, .done, by simp⟩, rfl, (List.append_nil _).symm⟩
  | @cons step root steps roots hroot _ ih =>
    obtain ⟨x, rfl, hbefore, hsound, htold⟩ :=
      hroot.run (s.note w.watched (.rootReached position total root.fields.key)) hs
    -- the notice before the root changes no context
    have hlead : ∀ {s' : RunState ρ (Watch σ)}, x.after = s'.context →
        (Event.ran x).Leads s.context s'.context := by
      intro s' hafter
      exact ⟨by rw [hbefore]; rfl, by rw [hafter]⟩
    have hnumbers : ∀ {s' : RunState ρ (Watch σ)}, x.after = s'.context →
        Renumbers [] s.context.iteration [.ran x] s'.context.iteration := by
      intro s' hafter
      exact .ran (congrArg Context.iteration hbefore) (congrArg Context.iteration hafter)
    have hall : ∀ g ∈ [x], g.Everywhere (History.Sound o) := List.forall_mem_singleton.mpr hsound
    rw [runRoots_cons]
    cases hrun : root.run (s.note w.watched (.rootReached position total root.fields.key)) with
    | error crash s' =>
      rw [hrun] at htold
      obtain ⟨hr, hafter, hchildren, -⟩ := htold
      exact ⟨[x], ⟨.crashed hr, ⟨_, hlead hafter, rfl⟩, hnumbers hafter, hall⟩, hchildren⟩
    | ok r s' =>
      rw [hrun] at htold
      obtain ⟨hr, hafter, hchildren, -⟩ := htold
      -- a root that ended has left the stack to the next one as it was
      have hs' : s'.context.including = including := by
        rw [← hafter, hsound.including hr, hbefore]
        exact hs
      dsimp only
      by_cases ha : r.aborted = true
      · rw [if_pos ha]
        exact ⟨[x], .aborted, ⟨.aborted hr ha, ⟨_, hlead hafter, rfl⟩, hnumbers hafter, hall⟩,
          by simp [hr], hchildren⟩
      · rw [if_neg ha]
        obtain ha : r.aborted = false := by simpa using ha
        have hrest := ih (position + 1) hs'
        cases hrun' : runRoots w.watched code total roots (position + 1) s' with
        | ok results s'' =>
          rw [hrun'] at hrest
          obtain ⟨hs, outcome, hran, rfl, hchildren'⟩ := hrest
          obtain ⟨outcome', houtcome, hran'⟩ :=
            hran.cons hr ha (hlead hafter) (hnumbers hafter) hsound
          obtain ⟨outcome', rfl⟩ := Option.ne_none_iff_exists'.mp
            (fun h => absurd (houtcome.mp h) (by simp))
          refine ⟨x :: hs, outcome', hran', by simp [hr], ?_⟩
          rw [hchildren', hchildren, List.append_assoc]
          rfl
        | error crash s'' =>
          rw [hrun'] at hrest
          obtain ⟨hs, hran, hchildren'⟩ := hrest
          obtain ⟨outcome', houtcome, hran'⟩ :=
            hran.cons hr ha (hlead hafter) (hnumbers hafter) hsound
          obtain rfl := houtcome.mpr rfl
          refine ⟨x :: hs, hran', ?_⟩
          rw [hchildren', hchildren, List.append_assoc]
          rfl

/-- The watched run of the roots of a case. -/
theorem caseHistories_told (code : String) (steps : List Step) (s : RunState ρ σ) :
    let roots := Ready.ordered (Step.watchedAll w (watchedSteps w w.library.length) steps)
    RootsTold w.toOutside (Step.ordered steps) s.watching
      (runRoots w.watched code roots.length roots 1 s.watching) :=
  runRoots_told (Watchful.ordered (Watchful.steps
    (watchedSteps_watchful w s.context.including (w.library.length_left_le _)) steps)) code _ 1 rfl

variable (w)

/-- **The histories of the roots of a case** make a passage through the roots in order, however the
run ends. -/
theorem caseHistories_ran (code : String) (steps : List Step) (s : RunState ρ σ) :
    ∃ outcome after, RootsRan w.toOutside (Step.ordered steps) (caseHistories w code steps s)
      outcome s.context after := by
  have htold := caseHistories_told (w := w) code steps s
  unfold caseHistories
  dsimp only at htold ⊢
  -- the watch was empty before the first root, so all that it has seen are the roots
  generalize runRoots w.watched code _ _ 1 s.watching = x at htold ⊢
  cases x with
  | ok results t =>
    obtain ⟨hs, outcome, hran, -, hchildren⟩ := htold
    have hseen : t.records.children = hs := hchildren
    exact ⟨some outcome, _, hseen ▸ hran⟩
  | error crash t =>
    obtain ⟨hs, hran, hchildren⟩ := htold
    have hseen : t.records.children = hs := hchildren
    exact ⟨none, _, hseen ▸ hran⟩

/-- If the roots are run to the end, so is every one that was started, and the results are those of
the histories. -/
theorem caseHistories_ok {code : String} {steps : List Step} {s s' : RunState ρ σ}
    {results : List StepResult}
    (h : let roots := Ready.ordered (Step.readyAll w (includedSteps w w.library.length) steps)
      runRoots w code roots.length roots 1 s = .ok results s') :
    ∃ outcome, RootsRan w.toOutside (Step.ordered steps) (caseHistories w code steps s)
        (some outcome) s.context s'.context ∧
      results = (caseHistories w code steps s).filterMap History.result := by
  have hpaired := Coupling.ordered
    (watchedAll_paired (watchedSteps_paired w s.context.including) steps)
  have hstart : (erasure w).inside s.context.place s.watching s :=
    ⟨coupled_iff_unwatched.mpr rfl, rfl⟩
  have halike := Coupling.roots code
    (Ready.ordered (Step.watchedAll w (watchedSteps w w.library.length) steps)).length hpaired 1
    hstart
  have htold := caseHistories_told (w := w) code steps s
  have hlength := hpaired.length_eq
  -- the watched run and the run itself are the same but for the watch, so both end in these results
  unfold caseHistories
  dsimp only at h halike htold ⊢
  rw [hlength] at halike htold ⊢
  rw [h] at halike
  generalize runRoots w.watched code _ _ 1 s.watching = x at halike htold ⊢
  cases halike with
  | @ok _ t _ hst =>
    obtain ⟨hs, outcome, hran, hresults, hchildren⟩ := htold
    obtain rfl := coupled_iff_unwatched.mp hst.1
    have hseen : t.records.children = hs := hchildren
    dsimp only
    rw [hseen]
    exact ⟨outcome, hran, hresults⟩

/-! ### The run of a case -/

section

variable (case : CaseHeader) (steps : List Step) (options : RunOptions)
  (client : Option Http.Client) (outside : ρ) (records : σ)

/-- The state in which the roots of a case start, if the case gets so far. -/
def rootsState : Option (RunState ρ σ) :=
  match validate steps with
  | .error _ => none
  | .ok () =>
    match openReport w case options (w.now outside)
        (w.note (.entered (.caseRun case.code)) records) with
    | (.error _, _) => none
    | (.ok report, records) =>
      let roots := Ready.ordered (Step.readyAll w (includedSteps w w.library.length) steps)
      some ((startState case options client report outside records).note w
        (.caseStarted case.code roots.length))

/-- **The histories of the roots** in a run of a case. -/
def runHistories : List History :=
  match rootsState w case steps options client outside records with
  | none => []
  | some s => caseHistories w case.code steps s

variable {case steps options client outside records}

/-- At the start, the case itself is the only one that is being run. -/
theorem rootsState_including {s : RunState ρ σ}
    (h : rootsState w case steps options client outside records = some s) :
    s.context.including = case.id.toList := by
  unfold rootsState at h
  split at h
  · cases h
  · split at h
    · cases h
    · cases h
      rfl

/-- At the start, no step has been given a number. -/
theorem rootsState_iteration {s : RunState ρ σ}
    (h : rootsState w case steps options client outside records = some s) :
    s.context.iteration = fun _ => 1 := by
  unfold rootsState at h
  split at h
  · cases h
  · split at h
    · cases h
    · cases h
      rfl

/-- **The roots of a run** start with the numbers that their elder siblings have left, and the first
one without any. -/
theorem runHistories_numbers : ∃ numbers, Renumbers [] (fun _ => 1)
    ((runHistories w case steps options client outside records).map .ran) numbers := by
  unfold runHistories
  cases hstate : rootsState w case steps options client outside records with
  | none => exact ⟨_, .done⟩
  | some s =>
    obtain ⟨outcome, after, hran⟩ := caseHistories_ran w case.code steps s
    rw [← rootsState_iteration w hstate]
    exact ⟨_, hran.numbers⟩

/-- **Every root of a run** leaves a sound history behind, and starts while the case itself is the
only one that is being run. -/
theorem runHistories_sound : ∀ h ∈ runHistories w case steps options client outside records,
    h.Everywhere (History.Sound w.toOutside) ∧ h.before.including = case.id.toList := by
  intro h hh
  unfold runHistories at hh
  cases hstate : rootsState w case steps options client outside records with
  | none =>
    rw [hstate] at hh
    exact absurd hh List.not_mem_nil
  | some s =>
    rw [hstate] at hh
    obtain ⟨outcome, after, hran⟩ := caseHistories_ran w case.code steps s
    refine ⟨hran.sound h hh, ?_⟩
    -- the elder roots have ended, so they have put the stack back
    have hstart := hran.follows.kept_before (π := Context.including) (g := h)
      (fun h => (congrArg Context.including h :)) (by simp [Event.history?]) ?_ (by simpa using hh)
    · rw [hstart, rootsState_including w hstate]
    · rw [Event.histories_ran]
      intro g hg
      obtain ⟨r, hr⟩ := hran.passage.earlier g hg
      exact (hran.sound g (List.dropLast_subset _ hg)).including hr

/-- **A run that gives results** has run its roots to the end, and sums up what there is then. -/
theorem runCase_rootsState {finished : Finished ρ σ} {run : CaseExecution}
    (h : runCase w case steps options client outside records = .ok finished)
    (hrun : finished.outcome = .ok run) :
    ∃ s s' elapsed, rootsState w case steps options client outside records = some s ∧
      run = executionOf case (s'.close w).context.reportCode run.results (s'.close w).context
        elapsed ∧
      let roots := Ready.ordered (Step.readyAll w (includedSteps w w.library.length) steps)
      runRoots w case.code roots.length roots 1 s = .ok run.results s' := by
  -- what comes after the roots does not change the results
  have ended : ∀ {x : Except (BrokenRun σ) (Finished ρ σ)} {k : Finished ρ σ → Finished ρ σ},
      (∀ f, (k f).outcome = f.outcome) → x.map k = .ok finished →
      ∃ f, x = .ok f ∧ f.outcome = .ok run := by
    intro x k hk hx
    cases x with
    | error broken => cases hx
    | ok f =>
      cases hx
      exact ⟨f, rfl, (hk f).symm.trans hrun⟩
  obtain ⟨f, hf, houtcome⟩ :=
    ended (k := fun f => { f with records := w.note .left f.records }) (fun _ => rfl) h
  unfold rootsState
  -- neither a case whose structure is bad nor one whose report is refused gives any results
  cases hvalid : validate steps with
  | error e =>
    rw [hvalid] at hf
    cases hf
    cases houtcome
  | ok _ =>
    rw [hvalid] at hf
    dsimp only at hf ⊢
    rcases hopen : openReport w case options (w.now outside)
      (w.note (.entered (.caseRun case.code)) records) with ⟨e | report, records'⟩
    · rw [hopen] at hf
      cases hf
      cases houtcome
    · rw [hopen] at hf
      dsimp only [runForest] at hf ⊢
      split at hf
      · cases hf
      · next results s' hroots =>
        cases hf
        cases houtcome
        exact ⟨_, s', _, rfl, rfl, hroots⟩

/-- A run that shows something of its outcome has not broken down, and gave results. -/
theorem Finished.exists_of_shown {α : Type} {x : Except (BrokenRun σ) (Finished ρ σ)}
    {look : CaseExecution → α} {shown : α}
    (h : (x.toOption.bind fun finished => finished.outcome.toOption.map look) = some shown) :
    ∃ finished run, x = .ok finished ∧ finished.outcome = .ok run ∧ look run = shown := by
  rcases x with broken | ⟨error | run, client, outside, records⟩
  · cases h
  · cases h
  · exact ⟨_, run, rfl, rfl, Option.some.inj h⟩

/-- The verdict of a run and its counts are taken from its results. -/
theorem runCase_summed {finished : Finished ρ σ} {run : CaseExecution}
    (h : runCase w case steps options client outside records = .ok finished)
    (hrun : finished.outcome = .ok run) :
    run.success = (run.results.all fun r => r.success) ∧
      run.statistics = Statistics.of run.results := by
  obtain ⟨s, s', elapsed, -, hsummed, -⟩ := runCase_rootsState w h hrun
  exact ⟨congrArg CaseExecution.success hsummed, congrArg CaseExecution.statistics hsummed⟩

/-- **The results of a run** are those of the histories of its roots, which make a passage. -/
theorem runCase_ran {finished : Finished ρ σ} {run : CaseExecution}
    (h : runCase w case steps options client outside records = .ok finished)
    (hrun : finished.outcome = .ok run) :
    (∃ outcome, Passage false (Step.ordered steps)
      (runHistories w case steps options client outside records) (some outcome)) ∧
    run.results = (runHistories w case steps options client outside records).filterMap
      History.result := by
  obtain ⟨s, s', -, hstate, -, hroots⟩ := runCase_rootsState w h hrun
  obtain ⟨outcome, hran, hresults⟩ := caseHistories_ok w hroots
  unfold runHistories
  rw [hstate]
  exact ⟨⟨outcome, hran.passage⟩, hresults⟩

/-- **The histories of a run yield its results.** -/
theorem runHistories_yield {finished : Finished ρ σ} {run : CaseExecution}
    (h : runCase w case steps options client outside records = .ok finished)
    (hrun : finished.outcome = .ok run) :
    List.Forall₂ History.Yields (runHistories w case steps options client outside records)
      run.results := by
  obtain ⟨⟨outcome, hpass⟩, hresults⟩ := runCase_ran w h hrun
  rw [hresults]
  refine History.Yields.filterMap fun g hg => ?_
  obtain ⟨r, hr⟩ := hpass.results (Option.some_ne_none _) g hg
  exact ⟨r, hr, (runHistories_sound w g hg).1.yields hr⟩

end

end Scenario
