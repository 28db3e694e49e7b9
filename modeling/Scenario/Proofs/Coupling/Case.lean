import Scenario.Proofs.Inclusion
import Scenario.Run.Case

/-!
# Cases in coupled runs

The roots of a case run in coupled worlds from coupled states, so the forest is summed up in coupled
states, or the run breaks down in such.

* `openReport_fst` — what comes of opening a report depends on the answer of the host alone.
* `finish` — what is left to do after the roots.
* `runCase_invalid`, `runCase_refused`, `runCase_forest` — a run, by what comes of its opening.
* `Coupling.forest` — a forest that is run from coupled states.
-/

namespace Scenario

variable {ρ σ τ : Type}

/-- **What is left to do after the roots:** the client is released, the run is summed up, and its
report is closed. -/
def finish (w : World ρ σ) (case : CaseHeader) (started : Instant) (results : List StepResult)
    (s : RunState ρ σ) : Finished ρ σ :=
  let closed := s.close w
  let ended := w.now closed.outside
  let run := executionOf case closed.context.reportCode results closed.context
    (secondsBetween started ended)
  ⟨.ok run, s.context.client, closed.outside,
    w.note (.caseFinished case.code run.elapsed run.statistics.passed run.statistics.total)
      (closeReport w run ended closed.records)⟩

/-- The roots of a case, made ready. -/
def rootsOf (w : World ρ σ) (steps : List Step) : List (Ready ρ σ) :=
  Ready.ordered (Step.readyAll w (includedSteps w w.library.length) steps)

/-- A forest is its roots and what is left to do after them. -/
theorem runForest_eq (w : World ρ σ) (case : CaseHeader) (steps : List Step) (started : Instant)
    (s : RunState ρ σ) :
    runForest w case steps started s =
      match runRoots w case.code (rootsOf w steps).length (rootsOf w steps) 1
        (s.note w (.caseStarted case.code (rootsOf w steps).length)) with
      | .error crash s => .error ⟨crash, s.records⟩
      | .ok results s => .ok (finish w case started results s) := rfl

/-- What comes of opening a report depends on the answer of the host alone. -/
theorem openReport_fst (w : World ρ σ) (case : CaseHeader) (options : RunOptions)
    (started : Instant) (records : σ) :
    (openReport w case options started records).1 =
      if options.saveReport then
        match (w.createReport (openingOf case options.kind started) records).1 with
        | .ok code => .ok (some code)
        | .error reason => .error (.reportNotCreated case.code reason)
      else .ok none := by
  unfold openReport
  split
  · rcases w.createReport (openingOf case options.kind started) records with ⟨_ | _, _⟩ <;> rfl
  · rfl

/-- A report that the host gives a code to is opened under this code. -/
theorem openReport_answered {w : World ρ σ} {case : CaseHeader} {options : RunOptions}
    {started : Instant} {records : σ} {code : String} (hsave : options.saveReport = true)
    (h : (w.createReport (openingOf case options.kind started) records).1 = .ok code) :
    (openReport w case options started records).1 = .ok (some code) := by
  rw [openReport_fst, if_pos hsave, h]

/-- A report that the host refuses is not opened. -/
theorem openReport_refused {w : World ρ σ} {case : CaseHeader} {options : RunOptions}
    {started : Instant} {records : σ} {reason : String} (hsave : options.saveReport = true)
    (h : (w.createReport (openingOf case options.kind started) records).1 = .error reason) :
    (openReport w case options started records).1 =
      .error (.reportNotCreated case.code reason) := by
  rw [openReport_fst, if_pos hsave, h]

/-- The records after the opening of a report. -/
theorem openReport_snd (w : World ρ σ) (case : CaseHeader) (options : RunOptions)
    (started : Instant) (records : σ) :
    (openReport w case options started records).2 =
      if options.saveReport then (w.createReport (openingOf case options.kind started) records).2
      else records := by
  unfold openReport
  split
  · rcases w.createReport (openingOf case options.kind started) records with ⟨_ | _, _⟩ <;> rfl
  · rfl

/-- A report is opened alike if hosts answer alike. -/
theorem openReport_congr {w : World ρ σ} {r : Recorder τ} {case : CaseHeader}
    {options : RunOptions} {started : Instant} {records : σ} {records' : τ} (h : options.saveReport = true →
      (w.createReport (openingOf case options.kind started) records).1 =
        (r.createReport (openingOf case options.kind started) records').1) :
    (openReport w case options started records).1 =
      (openReport (w.recordedBy r) case options started records').1 := by
  rw [openReport_fst, openReport_fst]
  split
  · next hsaves => rw [h hsaves]
  · rfl

/-! ### Runs, by what comes of their openings -/

section

variable {w : World ρ σ} {case : CaseHeader} {steps : List Step} {options : RunOptions}
variable {client : Option Http.Client} {outside : ρ} {records : σ}

/-- A run with a bad structure. -/
theorem runCase_invalid {e : EngineError} (hvalid : validate steps = .error e) :
    runCase w case steps options client outside records =
      .ok ⟨.error e, client, outside,
        w.note .left (w.note (.entered (.caseRun case.code)) records)⟩ := by
  unfold runCase
  rw [hvalid]
  rfl

/-- A run without the report that is wanted. -/
theorem runCase_refused (hvalid : validate steps = .ok ()) {e : EngineError} {opened : σ}
    (hopen : openReport w case options (w.now outside)
      (w.note (.entered (.caseRun case.code)) records) = (.error e, opened)) :
    runCase w case steps options client outside records =
      .ok ⟨.error e, client, outside, w.note .left opened⟩ := by
  unfold runCase
  rw [hvalid]
  dsimp only
  rw [hopen]
  rfl

/-- A run of the forest. -/
theorem runCase_forest (hvalid : validate steps = .ok ()) {report : Option String} {opened : σ}
    (hopen : openReport w case options (w.now outside)
      (w.note (.entered (.caseRun case.code)) records) = (.ok report, opened)) :
    runCase w case steps options client outside records =
      (runForest w case steps (w.now outside)
        (startState case options client report outside opened)).map
          fun f => { f with records := w.note .left f.records } := by
  unfold runCase
  rw [hvalid]
  dsimp only
  rw [hopen]

end

namespace Coupling

variable {w : World ρ σ} {r : Recorder τ} {K : Coupling w r}

/-- The roots of a case are run alike. -/
theorem rootsOf_paired (K : Coupling w r) (including : List Int) (steps : List Step) :
    List.Forall₂ (K.Paired including) (rootsOf w steps) (rootsOf (w.recordedBy r) steps) :=
  ordered (steps_paired (K.includedSteps_paired including) steps)

/-- Runs of a forest that end alike: they are summed up, or they break down, in coupled states. -/
inductive ForestEnds (K : Coupling w r) (case : CaseHeader) (started : Instant) :
    Except (BrokenRun σ) (Finished ρ σ) → Except (BrokenRun τ) (Finished ρ τ) → Prop
  | finished {s : RunState ρ σ} {t : RunState ρ τ} (results : List StepResult)
    (h : K.states s t) : ForestEnds K case started (.ok (finish w case started results s))
      (.ok (finish (w.recordedBy r) case started results t))
  | broke {s : RunState ρ σ} {t : RunState ρ τ} (crash : Crash) (h : K.states s t) :
    ForestEnds K case started (.error ⟨crash, s.records⟩) (.error ⟨crash, t.records⟩)

/-- **A forest** that is run from coupled states ends alike. -/
theorem forest (case : CaseHeader) (steps : List Step) (started : Instant) {s : RunState ρ σ}
    {t : RunState ρ τ} (h : K.states s t) :
    K.ForestEnds case started (runForest w case steps started s)
      (runForest (w.recordedBy r) case steps started t) := by
  have hpaired := K.rootsOf_paired s.context.including steps
  have halike := roots case.code (rootsOf w steps).length hpaired 1
    ⟨states_note h (.caseStarted case.code (rootsOf w steps).length), rfl⟩
  rw [runForest_eq, runForest_eq, ← hpaired.length_eq]
  generalize runRoots w case.code _ _ 1 _ = x, runRoots (w.recordedBy r) case.code _ _ 1 _ = y
    at halike
  cases halike with
  | crash hst => exact .broke _ hst
  | ok hst => exact .finished _ hst.1

end Coupling

end Scenario
