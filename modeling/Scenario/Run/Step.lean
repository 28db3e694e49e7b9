import Scenario.Run.Group
import Scenario.Run.Inclusion
import Scenario.Run.Loop
import Scenario.Run.Request
import Scenario.Run.Script
import Scenario.Run.Wait

/-!
# Running a step

`runStep` is the life of a step of any kind. It opens the step's own scope of defined variables and
an empty scope of extracted ones, does what the step is there for, records a fault in the result,
merges what was extracted into the session, leaves a detail record, and puts everything but the
session back as it was.

`Step.ready` makes a step ready by recursion over the step. Included cases are not below their step;
they are made ready by `includedSteps`, by recursion on a number of nested inclusions. A case that is
running cannot be included again, so as many inclusions as the library has cases are always enough.
-/

namespace Scenario

/-! ### The life of a step -/

namespace RunState

variable {ρ σ : Type} (w : World ρ σ)

/-- How a step is called in the trace: by its name, or else by its key. -/
def labelOf (step : StepFields) : String :=
  if step.title = "" then step.key else step.title

/-- The variables in force in a step: those around it, overridden by its own. The state is that
after the names that its own variables ask for in vain have been logged. -/
def definedIn (step : StepFields) (s : RunState ρ σ) : Json.Members × RunState ρ σ :=
  match step.definedVariables with
  | none => (s.context.defined, s)
  | some own =>
    let (own, s') := s.resolved w (Placeholder.resolveMembers s.context.lookup own)
    (Keyed.extend s.context.defined own, s')

/-- **Entering a step.** -/
def enterStep (step : StepFields) (s : RunState ρ σ) : RunState ρ σ :=
  let iteration := s.context.iteration step.key
  let s := { s with context := { s.context with key := some step.key } }
  let (defined, s) := s.definedIn w step
  let s := { s with context := { s.context with defined, extract := [] } }
  s.log w ("start step '" ++ labelOf step ++ "' (" ++ step.kind.getD "?" ++ "), iteration " ++
    toString iteration)

/-- The detail record of a step that ran. -/
def detailOf (step : StepFields) (result : StepResult) (started : Instant) (report : String)
    (s : RunState ρ σ) : Detail :=
  let ctx := s.context
  let response := result.response.bind fun v => (Response.codec.ofData (Record.Data.ofJson v)).toOption
  let lines := ctx.linesOf step.key
  { case := ctx.case
    reportCode := report
    id := result.id
    number := result.number
    key := step.key
    name := result.name
    kind := result.kind
    state := result.success
    startedAt := started.stamp
    endedAt := (w.now s.outside).stamp
    elapsed := Binary64.fixedStyle 3 result.elapsed
    log := if lines.isEmpty then none else some lines
    error := result.error
    iteration := result.iteration
    responseHeaders := (response.map Response.headers).getD []
    responseBody := (response.bind Response.json?).getD .null
    responseText := response.map Response.text
    -- a response without cookies has no text of them either
    responseCookies := (response.filter fun r => !r.cookies.isEmpty).map fun r =>
      (textsToJson r.cookies).compact
    session := ctx.session
    defined := ctx.defined
    extracted := result.extracted
    ledger := result.ledger }

/-- Records a step, if the run writes a report. A record that is not kept leaves a line. -/
def recordDetail (step : StepFields) (result : StepResult) (started : Instant)
    (s : RunState ρ σ) : RunState ρ σ :=
  match s.context.reportCode with
  | none => s
  | some report =>
    match w.createDetail (s.detailOf w step result started report) s.records with
    | (.ok (), records) => { s with records }
    | (.error reason, records) =>
      let s := { s with records }
      let s := s.note w (.detailLost step.key reason)
      s.logTo w step.key ("failed to save step detail: " ++ reason)

/-- Puts back what a step had changed for itself; `before` is the context at its start. -/
def leaveStep (before : Context) (s : RunState ρ σ) : RunState ρ σ :=
  { s with context := { s.context with
      key := before.key, defined := before.defined, extract := before.extract } }

end RunState

/-- The result of a step that failed. -/
def StepResult.failed (result : StepResult) (fault : Fault) : StepResult :=
  { result with
    aborted := result.aborted || fault.isAbort
    success := false
    error := some fault.message }

section

variable {ρ σ : Type} (w : World ρ σ)

/-- What is left to do when the work of a step is done. -/
def concludeStep (step : StepFields) (before : Context) (started : Instant) (frame : Frame ρ σ) :
    StepResult × RunState ρ σ :=
  let s := frame.state.extend w frame.result.extracted .session
  let result := { frame.result with elapsed := secondsBetween started (w.now s.outside) }
  let s := s.log w ("finish step '" ++ RunState.labelOf step ++ "': " ++
    (if result.success then "passed" else "failed") ++ " in " ++
    Binary64.fixedStyle 3 result.elapsed ++ " s")
  let s := s.recordDetail w step result started
  (result, s.leaveStep before)

/-- A fault is recorded in the result and in the trace. -/
def recordFault (fault : Fault) (frame : Frame ρ σ) : Frame ρ σ :=
  ⟨frame.state.log w ("step failed: " ++ fault.message), frame.result.failed fault⟩

/-- **The life of a step** whose work is `work`. -/
def runStep (step : StepFields) (work : Exec ρ σ Unit) : EStateM Crash (RunState ρ σ) StepResult :=
  fun s =>
    let started := w.now s.outside
    let result := StepResult.of step
    let result := { result with iteration := s.context.iteration step.key }
    let conclude (frame : Frame ρ σ) :=
      let (result, s') := concludeStep w step s.context started frame
      EStateM.Result.ok result s'
    match work ⟨s.enterStep w step, result⟩ with
    | .ok () frame => conclude frame
    | .error (.fault fault) frame => conclude (recordFault w fault frame)
    | .error (.crash crash) frame => .error crash frame.state

/-- **The work of a step** of the kind that it declares. `ready` makes included steps ready. -/
def workOf (ready : List Step → List (Ready ρ σ)) (step : StepFields)
    (children : List (Ready ρ σ)) : Exec ρ σ Unit := do
  match ← Exec.ofExcept step.declaredKind with
  | .http => Exec.within w (.requestStep step.key) (Exec.requestStep w step)
  | .script => Exec.scriptStep w step
  | .wait => Exec.wait w step
  | .condition => Exec.branch w step children
  | .loop => Exec.loop w step children
  | .inclusion => Exec.inclusion w ready step
  | kind => Exec.group w kind children

mutual

/-- **A step made ready.** -/
def Step.ready (included : List Step → List (Ready ρ σ)) : Step → Ready ρ σ
  | ⟨fields, children⟩ =>
    ⟨fields, runStep w fields (workOf w included fields (Step.readyAll included children))⟩

/-- The steps of a list made ready. -/
def Step.readyAll (included : List Step → List (Ready ρ σ)) : List Step → List (Ready ρ σ)
  | [] => []
  | step :: rest => Step.ready included step :: Step.readyAll included rest

end

/-- The steps of an included case made ready, with up to `depth` inclusions inside each other. -/
def includedSteps : Nat → List Step → List (Ready ρ σ)
  | 0, _ => []
  | depth + 1, steps => Step.readyAll w (includedSteps depth) steps

/-- **Running a step.** -/
def Step.run (step : Step) : EStateM Crash (RunState ρ σ) StepResult :=
  (step.ready w (includedSteps w w.library.length)).run

end

end Scenario
