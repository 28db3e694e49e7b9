import Scenario.Proofs.Coupling.Case
import Scenario.Proofs.Kin.Calm

/-!
# What comes of a run of a case

Two runs of cases are compared by what comes of them: a crash, an error of the engine or an
execution, whatever client, outside and records they leave behind.

* `Start` — what a run of a case starts with; `Start.run` — what comes of it.
* `Start.TimesOut` — a run in which the time of a condition loop is up.
* `Start.run_roots` — a run with its report is what comes of the roots.
* `runRoots_append` — roots that are run after other ones.
-/

namespace Scenario

variable {ρ σ τ : Type}

/-- **What comes of a run of a case.** -/
abbrev CaseOutcome := Except Crash (Except EngineError CaseExecution)

def outcomeOf : Except (BrokenRun σ) (Finished ρ σ) → CaseOutcome
  | .ok finished => .ok finished.outcome
  | .error broken => .error broken.crash

/-- It does not depend on what else is kept. -/
theorem outcomeOf_seenRun (view : τ → σ) (x : Except (BrokenRun τ) (Finished ρ τ)) :
    outcomeOf (seenRun view x) = outcomeOf x := by
  cases x <;> rfl

/-- **What a run of a case starts with.** -/
structure Start (ρ σ : Type) where
  client : Option Http.Client
  outside : ρ
  records : σ

namespace Start

variable (x : Start ρ σ) (w : World ρ σ) (case : CaseHeader) (steps : List Step)
variable (options : RunOptions)

/-- **What comes of a run** with a start. -/
def run : CaseOutcome :=
  outcomeOf (runCase w case steps options x.client x.outside x.records)

/-- The start of a transcribed run. -/
def transcribing : Start ρ (Transcript σ) := ⟨x.client, x.outside, { records := x.records }⟩

/-- A transcript changes nothing. -/
theorem run_transcribed :
    x.transcribing.run w.transcribed case steps options = x.run w case steps options := by
  have hseen := w.toRecorder.transcribed_shows.runCase_eq case steps options x.client x.outside
    x.transcribing.records
  unfold run
  rw [show x.records = x.transcribing.records.records from rfl, hseen, outcomeOf_seenRun]
  rfl

/-- **A run in which the time of a condition loop is up.** -/
def TimesOut : Prop :=
  (recordsOf (runCase w.transcribed case steps options x.client x.outside
    x.transcribing.records)).TimedOut

/-- What comes of opening a report on a run. -/
def opened : Except EngineError (Option String) × σ :=
  openReport w case options (w.now x.outside) (w.note (.entered (.caseRun case.code)) x.records)

/-- A run that opens its report, if one is wanted. -/
def Opens : Prop := ∃ report, (x.opened w case options).1 = .ok report

/-- Nor does a transcript change what comes of opening a report. -/
theorem opened_transcribed {report : Option String}
    (h : (x.opened w case options).1 = .ok report) :
    ∃ kept, x.transcribing.opened w.transcribed case options = (.ok report, kept) := by
  have hview := w.toRecorder.transcribed_shows.openReport_eq case options (w.now x.outside)
    (w.transcribed.note (.entered (.caseRun case.code)) x.transcribing.records)
  have hsame : (x.transcribing.opened w.transcribed case options).1 = .ok report :=
    (congrArg Prod.fst hview).symm.trans h
  exact ⟨_, Prod.ext hsame rfl⟩

end Start

/-! ### Roots -/

section

variable (w : World ρ σ)

/-- The roots of a case are its steps, in running order. -/
theorem rootsOf_eq (steps : List Step) : rootsOf w steps = runnable w (Step.ordered steps) := by
  have hready : Step.readyAll w (includedSteps w w.library.length) steps = runnable w steps := by
    rw [Step.readyAll_eq_map, runnable]
    refine List.map_congr_left fun step _ => ?_
    change _ = (⟨step.toStepFields, (step.ready w (includedSteps w w.library.length)).run⟩ :
      Ready ρ σ)
    rw [← Step.ready_fields w (includedSteps w w.library.length) step]
  unfold rootsOf
  rw [hready]
  exact orderedBy_map fun _ _ => rfl

/-- **Roots after other ones** are run if none of these aborts. -/
theorem runRoots_append (code : String) (total : Nat) (cs ds : List (Ready ρ σ)) (position : Nat)
    (s : RunState ρ σ) :
    runRoots w code total (cs ++ ds) position s =
      match runRoots w code total cs position s with
      | .error crash s => .error crash s
      | .ok results s =>
        if results.any fun r => r.aborted then .ok results s
        else
          match runRoots w code total ds (position + cs.length) s with
          | .error crash s => .error crash s
          | .ok more s => .ok (results ++ more) s := by
  induction cs generalizing position s with
  | nil =>
    change runRoots w code total ds position s =
      match runRoots w code total ds position s with
        | .error crash s => .error crash s
        | .ok more s => .ok ([] ++ more) s
    cases runRoots w code total ds position s <;> rfl
  | cons c cs ih =>
    rw [List.cons_append, runRoots_cons, runRoots_cons]
    cases c.run (s.note w (.rootReached position total c.fields.key)) with
    | error crash s => rfl
    | ok r s =>
      dsimp only
      cases hr : r.aborted with
      -- an abort among the first roots ends all
      | true => simp [hr]
      | false =>
        simp only [Bool.false_eq_true, if_false]
        rw [ih, List.length_cons, Nat.add_right_comm position, Nat.add_assoc position]
        cases runRoots w code total cs (position + 1) s with
        | error crash s => rfl
        | ok results s =>
          cases hresults : results.any fun r => r.aborted with
          | true => simp [hr, hresults]
          | false =>
            simp only [List.any_cons, hr, hresults, Bool.or_false, Bool.false_eq_true, if_false]
            cases runRoots w code total ds (position + (cs.length + 1)) s <;> rfl

end

/-- **Roots in kindred runs** end alike, in cases that may go by different codes and have other roots
before them or behind them. -/
theorem Kinship.Lawful.roots {K : Kinship ρ σ τ} {w : World ρ σ} {r : Recorder τ}
    (h : K.Lawful w r) {fit : List Int → List Int → Step → Prop}
    (hfit : Fits w.library K.shared fit) (code code' : String) (total total' : Nat)
    {steps : List Step} {p : Place} (hsteps : ∀ step ∈ steps, fit p.left p.right step)
    (position position' : Nat) {s : RunState ρ σ} {t : RunState ρ τ}
    (hst : K.correspondence.inside p s t) :
    K.correspondence.RunEnds p (StepResult.MatchAll K.strict)
      (runRoots w code total (runnable w steps) position s)
      (runRoots (w.recordedBy r) code' total' (runnable (w.recordedBy r) steps) position' t) := by
  have hnoted : ∀ {s : RunState ρ σ} {t : RunState ρ τ}, K.correspondence.inside p s t →
      ∀ n n', K.correspondence.inside p (s.note w n) (t.note (w.recordedBy r) n') :=
    fun hst n n' => ⟨h.noted hst.1 n n', hst.2⟩
  exact h.lawful.roots code code' total total' (h.runnable_paired hfit hsteps p.key) position
    position' (fun hst _ _ => hnoted hst _ _) (fun hst _ => hnoted hst _ _) hst

/-! ### Runs and their roots -/

section

variable {w : World ρ σ} {q : σ → Prop}

/-- Telling the state of a case leaves what was told before. -/
theorem kept_keepState (hn : ∀ {a}, q a → ∀ n, q (w.note n a))
    (hc : ∀ {a}, q a → ∀ id success, q (w.updateCaseState id success a).2) (case : CaseHeader)
    (success : Bool) {a : σ} (ha : q a) : q (keepState w case success a) := by
  unfold keepState
  split
  · exact ha
  · next id _ =>
    have hkept := hc ha id success
    split
    · next h => rwa [h] at hkept
    · next h =>
      rw [h] at hkept
      exact hn hkept _

/-- So does closing a report, behind which the state of the case is told. -/
theorem kept_closeReport (hn : ∀ {a}, q a → ∀ n, q (w.note n a))
    (hu : ∀ {a}, q a → ∀ closing, q (w.updateReport closing a).2)
    (hc : ∀ {a}, q a → ∀ id success, q (w.updateCaseState id success a).2)
    (run : CaseExecution) (ended : Instant) {a : σ} (ha : q a) : q (closeReport w run ended a) := by
  unfold closeReport
  split
  · exact ha
  · refine kept_keepState hn hc _ _ ?_
    generalize ReportClosing.mk _ _ _ _ _ = closing
    have hclosed := hu ha closing
    split
    · next h => rwa [h] at hclosed
    · next h =>
      rw [h] at hclosed
      exact hn hclosed _

/-- **What is done after the roots** leaves what was told before. -/
theorem kept_finish (hn : ∀ {a}, q a → ∀ n, q (w.note n a))
    (hu : ∀ {a}, q a → ∀ closing, q (w.updateReport closing a).2)
    (hc : ∀ {a}, q a → ∀ id success, q (w.updateCaseState id success a).2)
    (case : CaseHeader) (started : Instant) (results : List StepResult) {s : RunState ρ σ}
    (hs : q s.records) : q (finish w case started results s).records := by
  have hreleased : q (s.close w).records := by
    unfold RunState.close
    split
    · exact hs
    · exact hn hs _
  exact hn (kept_closeReport hn hu hc _ _ hreleased) _

end

namespace Start

variable {x : Start ρ σ} {w : World ρ σ} {case : CaseHeader} {steps : List Step}
variable {options : RunOptions} {report : Option String} {opened : σ}

/-- The context in which a run with its report starts. -/
def context (x : Start ρ σ) (case : CaseHeader) (options : RunOptions) (report : Option String) :
    Context :=
  (startState case options x.client report x.outside x.records).context

/-- What stays in the runs of a case is the same in all of them, if all have a client or none. -/
theorem context_stays {y : Start ρ τ} (hclient : x.client.isSome = y.client.isSome)
    (report report' : Option String) (session : Json.Members) :
    (x.context case options report).Stays (y.context case { options with session } report') where
  environment := rfl
  settings := rfl
  connects := by
    change (y.client.isSome = true ∨ _) ↔ (x.client.isSome = true ∨ _)
    rw [hclient]
    rfl

/-- The state in which the roots of a run with its report start. -/
def rootsState (x : Start ρ σ) (w : World ρ σ) (case : CaseHeader) (steps : List Step)
    (options : RunOptions) (report : Option String) (opened : σ) : RunState ρ σ :=
  (startState case options x.client report x.outside opened).note w
    (.caseStarted case.code (rootsOf w steps).length)

/-- **Where the roots start,** two runs of a case are kindred. -/
theorem rootsState_kindred {K : Kinship ρ σ τ} {y : Start ρ τ} (w : World ρ σ) (w' : World ρ τ)
    (case : CaseHeader) (steps steps' : List Step) (options : RunOptions)
    (hclient : x.client.isSome = y.client.isSome)
    (hnear : K.near (x.client, x.outside) (y.client, y.outside))
    (hhome : K.home = x.context case options K.code)
    (hcounts : ∀ key, ¬ K.shared key → K.counts key = 1 ∧ K.counts' key = 1)
    (htraces : K.traces [] []) (opened : σ) (opened' : τ)
    (hrecords : K.records (x.rootsState w case steps options K.code opened).records
      (y.rootsState w' case steps' options K.code' opened').records) :
    K.correspondence.inside ⟨case.id.toList, case.id.toList, none⟩
      (x.rootsState w case steps options K.code opened)
      (y.rootsState w' case steps' options K.code' opened') := by
  refine ⟨?_, ⟨rfl, rfl⟩, rfl, rfl⟩
  exact {
    sees := ⟨rfl, rfl, rfl, rfl, rfl⟩
    near := hnear
    stays := hhome ▸ ⟨rfl, rfl, Iff.rfl⟩
    stays' := hhome ▸ context_stays hclient K.code K.code' options.session
    iterations := fun _ _ => rfl
    counts := fun key hkey => ⟨(hcounts key hkey).1.symm, (hcounts key hkey).2.symm⟩
    traces := htraces
    code := rfl
    code' := rfl
    records := hrecords }

/-- The roots of a run with its report. -/
def roots (x : Start ρ σ) (w : World ρ σ) (case : CaseHeader) (steps : List Step)
    (options : RunOptions) (report : Option String) (opened : σ) :
    EStateM.Result Crash (RunState ρ σ) (List StepResult) :=
  runRoots w case.code (rootsOf w steps).length (rootsOf w steps) 1
    (x.rootsState w case steps options report opened)

theorem roots_eq : x.roots w case steps options report opened =
    runRoots w case.code (rootsOf w steps).length (runnable w (Step.ordered steps)) 1
      (x.rootsState w case steps options report opened) := by
  rw [← rootsOf_eq]
  rfl

/-- A run with its report is its roots, and what is done after them. -/
theorem runCase_roots (hvalid : validate steps = .ok ())
    (hopen : x.opened w case options = (.ok report, opened)) :
    runCase w case steps options x.client x.outside x.records =
      (match x.roots w case steps options report opened with
        | .error crash s => .error ⟨crash, s.records⟩
        | .ok results s => .ok (finish w case (w.now x.outside) results s) :
        Except (BrokenRun σ) (Finished ρ σ)).map
          fun f => { f with records := w.note .left f.records } := by
  rw [runCase_forest hvalid hopen, runForest_eq]
  rfl

/-- **A run with its report** is what comes of the roots. -/
theorem run_roots (hvalid : validate steps = .ok ())
    (hopen : x.opened w case options = (.ok report, opened)) :
    x.run w case steps options =
      match x.roots w case steps options report opened with
      | .error crash _ => .error crash
      | .ok results s => .ok (.ok (executionOf case s.context.reportCode results s.context
          (secondsBetween (w.now x.outside) (w.now s.outside)))) := by
  unfold run
  rw [runCase_roots hvalid hopen]
  cases x.roots w case steps options report opened with
  | error crash s => rfl
  | ok results s =>
    change Except.ok (finish w case (w.now x.outside) results s).outcome = _
    unfold finish RunState.close
    cases s.context.client <;> rfl

/-- If time was up in the roots of a run, it was so in the run. -/
theorem timesOut_roots (hvalid : validate steps = .ok ()) {opened : Transcript σ}
    (hopen : x.transcribing.opened w.transcribed case options = (.ok report, opened))
    (h : (endState (x.transcribing.roots w.transcribed case steps options report
      opened)).records.TimedOut) : x.TimesOut w case steps options := by
  have hrun := runCase_roots (x := x.transcribing) hvalid hopen
  change Transcript.TimedOut (recordsOf (runCase w.transcribed case steps options
    x.transcribing.client x.transcribing.outside x.transcribing.records))
  rw [hrun]
  generalize x.transcribing.roots w.transcribed case steps options report opened = y at h
  cases y with
  | error crash s => exact h
  | ok results s =>
    refine (Kinship.timedOut_told w ?_).1 .left
    exact kept_finish (q := Transcript.TimedOut) (fun ha => (Kinship.timedOut_told w ha).1)
      (fun ha _ => ha) (fun ha _ _ => ha) case _ results h

/-- A run that opens its report does so, too, if it is transcribed. -/
theorem Opens.transcribed (h : x.Opens w case options) :
    ∃ report kept, x.transcribing.opened w.transcribed case options = (.ok report, kept) := by
  obtain ⟨report, h⟩ := h
  exact ⟨report, x.opened_transcribed w case options h⟩

/-- **A run with its report** is what comes of its roots, also if they are transcribed; and the
transcript tells if time was up. -/
theorem run_transcribed_roots (hvalid : validate steps = .ok ()) {kept : Transcript σ}
    (hopen : x.transcribing.opened w.transcribed case options = (.ok report, kept)) :
    (x.run w case steps options =
      match x.transcribing.roots w.transcribed case steps options report kept with
      | .error crash _ => .error crash
      | .ok results s => .ok (.ok (executionOf case s.context.reportCode results s.context
          (secondsBetween (w.now x.outside) (w.now s.outside))))) ∧
    ((endState (x.transcribing.roots w.transcribed case steps options report
      kept)).records.TimedOut → x.TimesOut w case steps options) := by
  refine ⟨?_, timesOut_roots hvalid hopen⟩
  rw [← run_transcribed, run_roots hvalid hopen]
  cases x.transcribing.roots w.transcribed case steps options report kept <;> rfl

/-- **A run breaks down** only if it has no client, and none can be opened with its settings. -/
theorem run_broken {crash : Crash} (h : x.run w case steps options = .error crash) :
    x.client = none ∧ ∀ client, openClient options.settings ≠ .ok client := by
  cases hvalid : validate steps with
  | error e =>
    unfold run at h
    rw [runCase_invalid hvalid] at h
    cases h
  | ok _ =>
    rcases hopen : x.opened w case options with ⟨e | report, opened⟩
    · unfold run at h
      rw [runCase_refused hvalid hopen] at h
      cases h
    · obtain ⟨kept, hopen'⟩ := x.opened_transcribed w case options (congrArg Prod.fst hopen)
      rw [(run_transcribed_roots hvalid hopen').1] at h
      -- the roots are run alike in this run and in itself
      let K : Kinship ρ (Transcript σ) (Transcript σ) := Kinship.loose σ σ True Eq (fun _ => True)
        (fun _ => 1) (fun _ => 1) report report (x.context case options report)
      have hK : K.Lawful w.transcribed w.toRecorder.transcribed :=
        Kinship.loose_lawful (Outside.Concord.rfl w.toOutside) _ _ _ _ _ _
      have hend : K.correspondence.RunEnds ⟨case.id.toList, case.id.toList, none⟩
          (StepResult.MatchAll True)
          (x.transcribing.roots w.transcribed case steps options report kept)
          (x.transcribing.roots w.transcribed case steps options report kept) := by
        rw [roots_eq]
        exact hK.roots w.library.fits_all _ _ _ _ (fun _ _ => rfl) 1 1
          (rootsState_kindred w.transcribed w.transcribed case steps steps options rfl rfl rfl
            (fun _ _ => ⟨rfl, rfl⟩) trivial kept kept trivial)
      generalize x.transcribing.roots w.transcribed case steps options report kept = y at h hend
      cases hend with
      | ok _ _ => cases h
      | lost hlost => exact absurd trivial hlost.1
      | lost' hlost => exact absurd trivial hlost.1
      | crash hwreck =>
        refine ⟨?_, fun client hclient => hwreck (.inr ⟨client, hclient⟩)⟩
        cases hclient : x.client with
        | none => rfl
        | some client =>
          have hconnects : (x.context case options report).Connects :=
            .inl (congrArg Option.isSome hclient :)
          exact absurd hconnects hwreck

end Start

end Scenario
