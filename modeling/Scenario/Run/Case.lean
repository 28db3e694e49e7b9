import Scenario.Run.Step
import Scenario.Structure
import Scenario.Summary

/-!
# Running a case

`runCase` checks the structure of a forest, opens a report if one is wanted, runs the roots one after
the other until one stops the case, sums up what happened and closes the report. Only the opening of
the report can keep a well-formed case from running; what fails at its closing is told to the watcher
and changes nothing.
-/

namespace Scenario

/-- How a case is run. -/
structure RunOptions where
  /-- The session at the start. -/
  session : Json.Members := []
  environment : Option String := none
  /-- Whether a report is written. -/
  saveReport : Bool := true
  kind : ReportKind := .sync
  settings : Settings := {}

/-- What is there after a run. -/
structure Finished (ρ σ : Type) where
  outcome : Except EngineError CaseExecution
  /-- The client with the cookies of the run, if one was open at the end. -/
  client : Option Http.Client
  outside : ρ
  records : σ

/-- A run that broke down: why, and what had been told until then. -/
structure BrokenRun (σ : Type) where
  crash : Crash
  records : σ

section

variable {ρ σ : Type} (w : World ρ σ)

/-- Runs the roots of a case from a position on, until one stops the case. -/
def runRoots (code : String) (total : Nat) :
    List (Ready ρ σ) → Nat → EStateM Crash (RunState ρ σ) (List StepResult)
  | [], _ => pure []
  | root :: rest, position => do
    modify (RunState.note w (.rootReached position total root.fields.key))
    let r ← root.run
    if r.aborted then
      modify (RunState.note w (.caseAborted code root.fields.key))
      pure [r]
    else return r :: (← runRoots code total rest (position + 1))

/-- The opening of the report on a case. -/
def openingOf (case : CaseHeader) (kind : ReportKind) (started : Instant) : ReportOpening where
  caseId := case.id
  caseCode := case.code
  caseName := case.name
  startedAt := started.stamp
  kind := kind

/-- Opens a report, if one is wanted. -/
def openReport (case : CaseHeader) (options : RunOptions) (started : Instant) (records : σ) :
    Except EngineError (Option String) × σ :=
  if options.saveReport then
    match w.createReport (openingOf case options.kind started) records with
    | (.ok code, records) => (.ok (some code), records)
    | (.error reason, records) => (.error (.reportNotCreated case.code reason), records)
  else (.ok none, records)

/-- The state at the start of a run. -/
def startState (case : CaseHeader) (options : RunOptions) (client : Option Http.Client)
    (report : Option String) (outside : ρ) (records : σ) : RunState ρ σ where
  context := { Context.start case options.settings with
    session := options.session, environment := options.environment, client
    reportCode := report }
  outside := outside
  records := records

/-- Keeps the outcome of a case that has an id. -/
def keepState (case : CaseHeader) (success : Bool) (records : σ) : σ :=
  match case.id with
  | none => records
  | some id =>
    match w.updateCaseState id success records with
    | (.ok (), records) => records
    | (.error reason, records) => w.note (.stateNotKept id reason) records

/-- Closes the report of a run, if it has one. -/
def closeReport (run : CaseExecution) (ended : Instant) (records : σ) : σ :=
  match run.reportCode with
  | none => records
  | some code =>
    let closing : ReportClosing := {
      reportCode := code
      endedAt := ended.stamp
      elapsed := Binary64.fixedStyle 3 run.elapsed
      state := run.success
      statistics := run.statistics }
    -- a report that cannot be closed is noted, and the run goes on to keep the state of its case
    let records := match w.updateReport closing records with
      | (.ok (), records) => records
      | (.error reason, records) => w.note (.reportNotClosed code reason) records
    keepState w run.case run.success records

/-- What a run gives back. -/
def executionOf (case : CaseHeader) (report : Option String) (results : List StepResult)
    (ctx : Context) (elapsed : Binary64) : CaseExecution where
  case := case
  success := results.all fun r => r.success
  results := results
  logs := foldLogs results ctx.logs
  reportCode := report
  statistics := Statistics.of results
  session := ctx.session
  elapsed := elapsed

/-- Runs a forest that may run. -/
def runForest (case : CaseHeader) (steps : List Step) (started : Instant)
    (s : RunState ρ σ) : Except (BrokenRun σ) (Finished ρ σ) :=
  let roots := Ready.ordered (Step.readyAll w (includedSteps w w.library.length) steps)
  let s := s.note w (.caseStarted case.code roots.length)
  match runRoots w case.code roots.length roots 1 s with
  | .error crash s => .error ⟨crash, s.records⟩
  | .ok results s =>
    let client := s.context.client
    let s := s.close w
    -- the time is taken before the report is closed, and the notice of the end comes after that
    let ended := w.now s.outside
    let run := executionOf case s.context.reportCode results s.context
      (secondsBetween started ended)
    let records := closeReport w run ended s.records
    let records := w.note
      (.caseFinished case.code run.elapsed run.statistics.passed run.statistics.total) records
    .ok ⟨.ok run, client, s.outside, records⟩

/-- **Running a case.** `client` is used instead of a new one, if it is given. -/
def runCase (case : CaseHeader) (steps : List Step) (options : RunOptions)
    (client : Option Http.Client) (outside : ρ) (records : σ) :
    Except (BrokenRun σ) (Finished ρ σ) :=
  let started := w.now outside
  let records := w.note (.entered (.caseRun case.code)) records
  let finished : Except (BrokenRun σ) (Finished ρ σ) :=
    match validate steps with
    | .error e => .ok ⟨.error e, client, outside, records⟩
    | .ok () =>
      -- a tree that may not run leaves no report behind
      match openReport w case options started records with
      | (.error e, records) => .ok ⟨.error e, client, outside, records⟩
      | (.ok report, records) =>
        runForest w case steps started (startState case options client report outside records)
  finished.map fun f => { f with records := w.note .left f.records }

end

end Scenario
