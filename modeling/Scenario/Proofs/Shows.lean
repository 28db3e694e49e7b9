import Scenario.Proofs.Coupling.Case

/-!
# Recorders that keep more

A recorder may keep more than another one and yet answer like it: then what the other one would have
kept is a view of what it keeps. Nothing that a run does tells the two apart.

* `Recorder.Shows` — a recorder that, seen through a view, is another one.
* `Recorder.Shows.coupling` — the worlds of two such recorders are coupled.
* `Recorder.Shows.runCase_eq` — **erasure:** a run of a case under one of them, seen through the
  view, is the run under the other one.
-/

namespace Scenario

variable {ρ σ τ : Type}

/-- **A recorder that shows another one:** it answers like the other one, and the other one keeps a
view of what it keeps. -/
structure Recorder.Shows (r : Recorder σ) (r' : Recorder τ) (view : τ → σ) : Prop where
  createReport : ∀ opening y,
    r.createReport opening (view y) = Prod.map id view (r'.createReport opening y)
  updateReport : ∀ closing y,
    r.updateReport closing (view y) = Prod.map id view (r'.updateReport closing y)
  createDetail : ∀ detail y,
    r.createDetail detail (view y) = Prod.map id view (r'.createDetail detail y)
  updateCaseState : ∀ case success y,
    r.updateCaseState case success (view y) = Prod.map id view (r'.updateCaseState case success y)
  note : ∀ notice y, r.note notice (view y) = view (r'.note notice y)

/-- The state of a run with a view of its records. -/
def RunState.seen (view : τ → σ) (s : RunState ρ τ) : RunState ρ σ :=
  ⟨s.context, s.outside, view s.records⟩

/-- A finished run with a view of its records. -/
def Finished.seen (view : τ → σ) (f : Finished ρ τ) : Finished ρ σ :=
  ⟨f.outcome, f.client, f.outside, view f.records⟩

/-- A run that broke down with a view of its records. -/
def BrokenRun.seen (view : τ → σ) (b : BrokenRun τ) : BrokenRun σ := ⟨b.crash, view b.records⟩

/-- **A run of a case with a view of its records.** -/
def seenRun (view : τ → σ) (x : Except (BrokenRun τ) (Finished ρ τ)) :
    Except (BrokenRun σ) (Finished ρ σ) :=
  (x.mapError (BrokenRun.seen view)).map (Finished.seen view)

namespace Recorder.Shows

variable {w : World ρ σ} {r' : Recorder τ} {view : τ → σ}

/-- States are coupled if one is the view of the other. -/
theorem coupled_iff {s : RunState ρ τ} {t : RunState ρ σ} :
    Coupled Eq Eq (fun y x => view y = x) s t ↔ s.seen view = t := by
  constructor
  · intro h
    exact coupled_eq_iff.mp ⟨h.agrees, h.outside, h.traces, h.codes, h.records⟩
  · rintro rfl
    exact ⟨.rfl, rfl, rfl, rfl, rfl⟩

variable (h : w.toRecorder.Shows r' view)

include h

/-- A detail record does not depend on what else is kept. -/
theorem recordDetail (s : RunState ρ τ) (step : StepFields) (result : StepResult)
    (started : Instant) :
    (s.recordDetail (w.recordedBy r') step result started).seen view =
      (s.seen view).recordDetail w step result started := by
  unfold RunState.recordDetail
  cases hc : s.context.reportCode with
  | none => simp only [RunState.seen, hc]
  | some report =>
    have hu : (s.seen view).context.reportCode = some report := hc
    have hkept : w.createDetail ((s.seen view).detailOf w step result started report)
        (s.seen view).records = Prod.map id view (r'.createDetail
          (s.detailOf (w.recordedBy r') step result started report) s.records) :=
      h.createDetail _ s.records
    simp only [hu]
    rw [hkept]
    -- one recorder answers like the other, so a line about a lost record is written by both or none
    rcases r'.createDetail (s.detailOf (w.recordedBy r') step result started report) s.records with
      ⟨_ | _, y⟩
    · simp only [Prod.map, id]
      simp only [RunState.seen, RunState.logTo, RunState.note, h.note]
    · rfl

/-- **Erasure:** the worlds of two such recorders are coupled. -/
def coupling : Coupling (w.recordedBy r') w.toRecorder where
  traces := Eq
  codes := Eq
  records y x := view y = x
  note hx n := (h.note n _).symm.trans (congrArg (w.note n) hx)
  line := Context.logged_congr
  detail hst step _ text result started := by
    obtain rfl := coupled_iff.mp hst
    refine coupled_iff.mpr ((h.recordDetail _ step result started).trans ?_)
    simp only [RunState.log, RunState.logTo, RunState.note, RunState.seen, h.note]

/-! ### Runs of cases -/

theorem openReport_eq (case : CaseHeader) (options : RunOptions) (started : Instant) (y : τ) :
    openReport w case options started (view y) =
      Prod.map id view (openReport (w.recordedBy r') case options started y) := by
  unfold openReport
  split
  · rw [h.createReport]
    rcases r'.createReport (openingOf case options.kind started) y with ⟨_ | _, _⟩ <;> rfl
  · rfl

theorem keepState_eq (case : CaseHeader) (success : Bool) (y : τ) :
    keepState w case success (view y) = view (keepState (w.recordedBy r') case success y) := by
  unfold keepState
  split
  · rfl
  · rw [h.updateCaseState]
    rcases r'.updateCaseState _ success y with ⟨_ | _, y'⟩
    · exact h.note _ y'
    · rfl

theorem closeReport_eq (run : CaseExecution) (ended : Instant) (y : τ) :
    closeReport w run ended (view y) = view (closeReport (w.recordedBy r') run ended y) := by
  unfold closeReport
  split
  · rfl
  · dsimp only
    rw [h.updateReport]
    rcases r'.updateReport _ y with ⟨_ | _, y'⟩
    · dsimp only [Prod.map, id]
      rw [h.note]
      exact h.keepState_eq _ _ _
    · exact h.keepState_eq _ _ _

/-- What is done after the roots shows what the other recorder would have been told. -/
theorem finish_seen (case : CaseHeader) (started : Instant) (results : List StepResult)
    (s : RunState ρ τ) :
    (finish (w.recordedBy r') case started results s).seen view =
      finish w case started results (s.seen view) := by
  have hclosed : (s.close (w.recordedBy r')).seen view = (s.seen view).close w :=
    coupled_iff.mp (Coupling.states_close (K := h.coupling) (coupled_iff.mpr rfl))
  unfold finish Finished.seen
  rw [← hclosed]
  dsimp only [RunState.seen]
  rw [h.closeReport_eq, h.note]

/-- **Erasure:** a run under the one recorder, seen through the view, is the run under the other
one. -/
theorem runCase_eq (case : CaseHeader) (steps : List Step) (options : RunOptions)
    (client : Option Http.Client) (outside : ρ) (y : τ) :
    runCase w case steps options client outside (view y) =
      seenRun view (runCase (w.recordedBy r') case steps options client outside y) := by
  have hopen := h.openReport_eq case options (w.now outside)
    (r'.note (.entered (.caseRun case.code)) y)
  unfold runCase
  cases validate steps with
  | error e =>
    change Except.ok _ = Except.ok _
    simp only [Finished.seen, h.note]
  | ok _ =>
    dsimp only
    rw [h.note, hopen]
    rcases openReport (w.recordedBy r') case options (w.now outside)
      (r'.note (.entered (.caseRun case.code)) y) with ⟨e | report, y'⟩
    · change Except.ok _ = Except.ok _
      simp only [Finished.seen, h.note]
    · have hend := Coupling.forest (K := h.coupling) case steps (w.now outside)
        (s := startState case options client report outside y') (coupled_iff.mpr rfl)
      change Except.map _ (runForest w case steps (w.now outside)
        ((startState case options client report outside y').seen view)) = seenRun view
          (Except.map _ (runForest (w.recordedBy r') case steps (w.now outside)
            (startState case options client report outside y')))
      change h.coupling.ForestEnds case _ (runForest (w.recordedBy r') case steps _ _)
        (runForest w case steps _ _) at hend
      generalize runForest (w.recordedBy r') case steps _ _ = x, runForest w case steps _ _ = z
        at hend
      cases hend with
      | broke crash hst =>
        obtain rfl := coupled_iff.mp hst
        rfl
      | finished results hst =>
        obtain rfl := coupled_iff.mp hst
        change Except.ok _ = Except.ok _
        rw [← h.finish_seen]
        simp only [Finished.seen, h.note]

end Recorder.Shows

end Scenario
