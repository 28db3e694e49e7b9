import Scenario.Proofs.Shows

/-!
# Histories

The result of a run shows how its steps ended, but not in which context each of them began, nor what
had been started when a run broke down. A `History` does: it is the tree of all steps that were run,
each with the contexts at its four edges.

* A history comes from running in a *watched* world. Its recorder also keeps the histories of the
  steps below the running one. Every step starts with an empty list of them, and when it ends,
  however it ends, its own history is put behind those of its elder siblings.
* `erasure` — the watched world and the world itself are coupled, so watching changes nothing:
  `Step.history_ok` and `Step.history_error` say that the history of a step tells of the run itself.
-/

namespace Scenario

/-- **A step that was run.** -/
structure History where
  step : Step
  /-- When it started. -/
  before : Context
  /-- When its work started. -/
  opening : Context
  /-- When its work ended. -/
  closing : Context
  /-- When it ended. -/
  after : Context
  /-- Its result, unless the run broke down in it. -/
  result : Option StepResult
  /-- The steps that were run as a part of it, in the order in which they started. -/
  children : List History

/-- The records of a watched run. -/
structure Watch (σ : Type) where
  records : σ
  /-- What was run as a part of the running step. -/
  children : List History := []
  /-- The context when the work of the running step started. -/
  opening : Context := {}
  /-- The context when that work ended. -/
  closing : Context := {}

variable {ρ σ : Type}

/-- A recorder that is watched is told the same. -/
def Recorder.watched (r : Recorder σ) : Recorder (Watch σ) where
  createReport opening watch :=
    let (answer, records) := r.createReport opening watch.records
    (answer, { watch with records })
  updateReport closing watch :=
    let (answer, records) := r.updateReport closing watch.records
    (answer, { watch with records })
  createDetail detail watch :=
    let (answer, records) := r.createDetail detail watch.records
    (answer, { watch with records })
  updateCaseState id success watch :=
    let (answer, records) := r.updateCaseState id success watch.records
    (answer, { watch with records })
  note notice watch := { watch with records := r.note notice watch.records }

/-- A watched world. -/
abbrev World.watched (w : World ρ σ) : World ρ (Watch σ) := w.recordedBy w.toRecorder.watched

namespace RunState

/-- The state of a run that is about to be watched. -/
def watching (s : RunState ρ σ) : RunState ρ (Watch σ) :=
  ⟨s.context, s.outside, { records := s.records }⟩

/-- The state without what the watch has seen. -/
def unwatched (s : RunState ρ (Watch σ)) : RunState ρ σ := ⟨s.context, s.outside, s.records.records⟩

/-- The state as a step finds it, below which nothing has been run. -/
def fresh (s : RunState ρ (Watch σ)) : RunState ρ (Watch σ) :=
  { s with records := { s.records with children := [] } }

/-- The state after a step with the given history, which `s` was the state before. -/
def resume (s : RunState ρ (Watch σ)) (h : History) (s' : RunState ρ (Watch σ)) :
    RunState ρ (Watch σ) :=
  { s' with records := { s.records with
      records := s'.records.records, children := s.records.children ++ [h] } }

/-- The work of a step starts. -/
def opened (s : RunState ρ (Watch σ)) : RunState ρ (Watch σ) :=
  { s with records := { s.records with opening := s.context } }

/-- The work of a step has ended. -/
def closed (s : RunState ρ (Watch σ)) : RunState ρ (Watch σ) :=
  { s with records := { s.records with closing := s.context } }

end RunState

/-- The history of a step whose run has ended. -/
def History.ended (step : Step) (before : Context) :
    EStateM.Result Crash (RunState ρ (Watch σ)) StepResult → History
  | .ok r s =>
    ⟨step, before, s.records.opening, s.records.closing, s.context, some r, s.records.children⟩
  | .error _ s =>
    ⟨step, before, s.records.opening, s.records.closing, s.context, none, s.records.children⟩

/-- Watches the run of a step. -/
def watchRun (step : Step) (run : EStateM Crash (RunState ρ (Watch σ)) StepResult) :
    EStateM Crash (RunState ρ (Watch σ)) StepResult := fun s =>
  let ended := run s.fresh
  let h := History.ended step s.context ended
  match ended with
  | .ok r s' => .ok r (s.resume h s')
  | .error crash s' => .error crash (s.resume h s')

/-- Watches the work of a step. -/
def Exec.watched (work : Exec ρ (Watch σ) Unit) : Exec ρ (Watch σ) Unit := fun frame =>
  match work (frame.mapState RunState.opened) with
  | .ok () frame => .ok () (frame.mapState RunState.closed)
  | .error stop frame => .error stop (frame.mapState RunState.closed)

section

variable (w : World ρ σ)

mutual

/-- A step made ready to be watched. -/
def Step.watched (included : List Step → List (Ready ρ (Watch σ))) : Step → Ready ρ (Watch σ)
  | ⟨fields, children⟩ =>
    ⟨fields, watchRun ⟨fields, children⟩ (runStep w.watched fields
      (workOf w.watched included fields (Step.watchedAll included children)).watched)⟩

/-- The steps of a list made ready to be watched. -/
def Step.watchedAll (included : List Step → List (Ready ρ (Watch σ))) :
    List Step → List (Ready ρ (Watch σ))
  | [] => []
  | step :: rest => Step.watched included step :: Step.watchedAll included rest

end

/-- The steps of an included case made ready to be watched. -/
def watchedSteps : Nat → List Step → List (Ready ρ (Watch σ))
  | 0, _ => []
  | depth + 1, steps => Step.watchedAll w (watchedSteps depth) steps

/-- The life of a step in which everything below it is watched. -/
def Step.watchedLife (included : List Step → List (Ready ρ (Watch σ))) (step : Step) :
    EStateM Crash (RunState ρ (Watch σ)) StepResult :=
  runStep w.watched step.toStepFields
    (workOf w.watched included step.toStepFields (Step.watchedAll w included step.children)).watched

/-- **The history of a step** that is run from a state. -/
def Step.history (step : Step) (s : RunState ρ σ) : History :=
  .ended step s.context (step.watchedLife w (watchedSteps w w.library.length) s.watching)

/-- **The histories of the roots of a case** that were run from a state. -/
def caseHistories (code : String) (steps : List Step) (s : RunState ρ σ) : List History :=
  let roots := Ready.ordered (Step.watchedAll w (watchedSteps w w.library.length) steps)
  match runRoots w.watched code roots.length roots 1 s.watching with
  | .ok _ s | .error _ s => s.records.children

/-! ### Watching changes nothing -/

theorem watchedSteps_unwinds : Unwinds (Step.watchedAll w) (watchedSteps w) :=
  fun _ _ => rfl

theorem watched_shows : w.toRecorder.Shows w.toRecorder.watched Watch.records :=
  ⟨fun _ _ => rfl, fun _ _ => rfl, fun _ _ => rfl, fun _ _ _ => rfl, fun _ _ => rfl⟩

/-- The state that is coupled with a watched one. -/
theorem coupled_iff_unwatched {s : RunState ρ (Watch σ)} {t : RunState ρ σ} :
    Coupled Eq Eq (fun watch records => watch.records = records) s t ↔ s.unwatched = t :=
  Recorder.Shows.coupled_iff

/-- **Erasure:** the watched world is coupled with the world itself. -/
def erasure : Coupling w.watched w.toRecorder where
  traces := Eq
  codes := Eq
  records watch records := watch.records = records
  note h n := (watched_shows w).coupling.note h n
  line := Context.logged_congr
  detail h := (watched_shows w).coupling.detail h

variable {w} {including : List Int} {place : Place} {s : RunState ρ (Watch σ)} {t : RunState ρ σ}

/-- A state that differs in the watch alone is coupled with the same. -/
theorem erasure_states (h : (erasure w).states s t) {s' : RunState ρ (Watch σ)}
    (hs : s'.unwatched = s.unwatched) : (erasure w).states s' t :=
  coupled_iff_unwatched.mpr (hs.trans (coupled_iff_unwatched.mp h))

theorem erasure_inside (h : (erasure w).inside place s t) {s' : RunState ρ (Watch σ)}
    (hs : s'.unwatched = s.unwatched) : (erasure w).inside place s' t :=
  ⟨erasure_states h.1 hs, (congrArg (fun s : RunState ρ σ => s.context.place) hs).trans h.2⟩

/-- Watching the work of a step does not show. -/
theorem watched_tandem {work : Exec ρ (Watch σ) Unit} {work' : Exec ρ σ Unit}
    (h : (erasure w).Tandem place work work') :
    (erasure w).Tandem place work.watched work' := by
  intro f g hfg
  -- opening and closing change the watch, which the coupling does not see
  have hend := h (f.mapState RunState.opened) g ⟨erasure_inside hfg.1 rfl, hfg.2⟩
  unfold Exec.watched
  generalize work _ = x, work' g = y at hend
  cases hend with
  | ok h' => exact .ok ⟨erasure_inside h'.1 rfl, h'.2⟩
  | fault hf h' => exact .fault hf ⟨erasure_inside h'.1 rfl, h'.2⟩
  | crash h' => exact .crash (erasure_states h' rfl)

/-- Watching the run of a step does not show. -/
theorem watchRun_paired (step : Step) {run : EStateM Crash (RunState ρ (Watch σ)) StepResult}
    {child : Ready ρ σ} (h : (erasure w).Paired including ⟨step.toStepFields, run⟩ child) :
    (erasure w).Paired including ⟨step.toStepFields, watchRun step run⟩ child where
  fields := h.fields
  run key s t hst := by
    -- the run starts with an empty list of histories and its own comes behind the elder ones; the
    -- coupling sees neither
    have hend := h.run key s.fresh t (erasure_inside hst rfl)
    unfold watchRun
    dsimp only at hend ⊢
    generalize run s.fresh = x, child.run t = y at hend
    cases hend with
    | ok h' => exact .ok (erasure_inside h' rfl)
    | crash h' => exact .crash (erasure_states h' rfl)

mutual

/-- A watched step and the step itself stay coupled. -/
theorem watched_paired {ready : List Step → List (Ready ρ (Watch σ))}
    {ready' : List Step → List (Ready ρ σ)} (h : (erasure w).PairedCases including ready ready') :
    ∀ step : Step, (erasure w).Paired including (step.watched w ready) (step.ready w ready')
  | ⟨fields, children⟩ => watchRun_paired ⟨fields, children⟩ (Coupling.life fields fun _ =>
      watched_tandem (Coupling.work h fields (watchedAll_paired h children)))

theorem watchedAll_paired {ready : List Step → List (Ready ρ (Watch σ))}
    {ready' : List Step → List (Ready ρ σ)} (h : (erasure w).PairedCases including ready ready') :
    ∀ steps : List Step, List.Forall₂ ((erasure w).Paired including)
      (Step.watchedAll w ready steps) (Step.readyAll w ready' steps)
  | [] => .nil
  | step :: rest => .cons (watched_paired h step) (watchedAll_paired h rest)

end

variable (w)

theorem watchedSteps_paired (including : List Int) :
    (erasure w).PairedCases including (watchedSteps w w.library.length)
      (includedSteps w w.library.length) :=
  Unwinds.pairedCases watchedAll_paired (watchedSteps_unwinds w) (includedSteps_unwinds w) including
    (w.library.length_left_le _) (w.library.length_left_le _)

/-- The life of a step whose history is taken stays coupled with its run. -/
theorem Step.watchedLife_alike (step : Step) (s : RunState ρ σ) :
    AlikeRun ((erasure w).inside s.context.place) (erasure w).states
      (step.watchedLife w (watchedSteps w w.library.length) s.watching) (step.run w s) := by
  -- the step itself is not watched here, only its work and the steps that are run in it
  have cases := watchedSteps_paired w s.context.including
  obtain ⟨fields, children⟩ := step
  have hpaired := Coupling.life fields fun _ =>
    watched_tandem (Coupling.work cases fields (watchedAll_paired cases children))
  exact hpaired.run s.context.key s.watching s ⟨coupled_iff_unwatched.mpr rfl, rfl⟩

/-- **The history of a step tells of its run:** how it ended, and in which context. -/
theorem Step.history_ok {step : Step} {s s' : RunState ρ σ} {r : StepResult}
    (h : step.run w s = .ok r s') :
    (step.history w s).result = some r ∧ (step.history w s).after = s'.context := by
  -- the watched life ends like the run, so what the history shows of one is true of the other
  have hend := step.watchedLife_alike w s
  unfold Step.history
  rw [h] at hend
  generalize step.watchedLife w _ _ = x at hend
  cases hend with
  | ok hst => exact ⟨rfl, congrArg RunState.context (coupled_iff_unwatched.mp hst.1)⟩

theorem Step.history_error {step : Step} {s s' : RunState ρ σ} {crash : Crash}
    (h : step.run w s = .error crash s') :
    (step.history w s).result = none ∧ (step.history w s).after = s'.context := by
  have hend := step.watchedLife_alike w s
  unfold Step.history
  rw [h] at hend
  generalize step.watchedLife w _ _ = x at hend
  cases hend with
  | crash hst => exact ⟨rfl, congrArg RunState.context (coupled_iff_unwatched.mp hst)⟩

end

end Scenario
