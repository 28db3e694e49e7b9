import Scenario.Result
import Scenario.Run.State

/-!
# Inside of a step

While a step runs, there is a state of the run and a result in the making: a `Frame`. What a step
does is an `Exec`: it changes the frame, and it may stop early, at a fault of the step or at a crash
of the run. Whatever stops it, the frame stays as it was changed until then.

Steps below the running one are `Ready`: they know how to run. `runChildren` runs a list of them and
tells what came of it.
-/

namespace Scenario

/-- A running step. -/
structure Frame (ρ σ : Type) where
  state : RunState ρ σ
  result : StepResult

/-- Why a step stops early. -/
inductive Stop where
  | fault (f : Fault)
  | crash (c : Crash)

/-- What a step does. -/
abbrev Exec (ρ σ : Type) := EStateM Stop (Frame ρ σ)

namespace Exec

variable {ρ σ α : Type}

/-- Stops at a fault. -/
def fail (f : Fault) : Exec ρ σ α := throw (.fault f)

/-- Stops at a misconfiguration. -/
def misfit (cause : Misconfiguration) : Exec ρ σ α := fail (.configuration cause)

/-- A value, or the fault that stands in its place. -/
def ofExcept : Except Fault α → Exec ρ σ α
  | .ok a => pure a
  | .error f => fail f

/-- Changes the state of the run. -/
def act (f : RunState ρ σ → RunState ρ σ) : Exec ρ σ Unit :=
  modify fun frame => { frame with state := f frame.state }

/-- Changes the state of the run for a value. -/
def lift (f : RunState ρ σ → α × RunState ρ σ) : Exec ρ σ α :=
  modifyGet fun frame => ((f frame.state).1, { frame with state := (f frame.state).2 })

/-- Changes the result. -/
def amend (f : StepResult → StepResult) : Exec ρ σ Unit :=
  modify fun frame => { frame with result := f frame.result }

/-- The context of the run. -/
def context : Exec ρ σ Context := do
  return (← get).state.context

/-- Sets the message of the result. -/
def say (message : String) : Exec ρ σ Unit :=
  amend fun r => { r with message := some message }

variable (w : World ρ σ)

/-- A line in the trace. -/
def log (text : String) : Exec ρ σ Unit := act (RunState.log w text)

/-- A word to the watcher. -/
def note (notice : Notice) : Exec ρ σ Unit := act (RunState.note w notice)

/-- Writes variables. -/
def extend (data : Json.Members) (scope : Scope) : Exec ρ σ Unit :=
  act (RunState.extend w data scope)

/-- Resolves a value. -/
def resolveValue (v : Json.Value) : Exec ρ σ Json.Value := lift (RunState.resolveValue w v)

/-- Resolves a text. -/
def resolveText (text : String) : Exec ρ σ String := lift (RunState.resolveText w text)

/-- Waits. -/
def sleep (seconds : Binary64) : Exec ρ σ Unit := do
  ofExcept (← lift (RunState.sleep w seconds))

/-- The present instant. -/
def now : Exec ρ σ Instant := do
  return w.now (← get).state.outside

/-- The client of the run; the run crashes if it cannot be opened. -/
def client : Exec ρ σ Http.Client := do
  match ← lift (RunState.client w) with
  | .ok client => pure client
  | .error crash => throw (.crash crash)

end Exec

/-! ### Children -/

/-- A step that knows how to run. -/
structure Ready (ρ σ : Type) where
  fields : StepFields
  run : EStateM Crash (RunState ρ σ) StepResult

/-- Steps in running order. -/
def Ready.ordered {ρ σ : Type} (steps : List (Ready ρ σ)) : List (Ready ρ σ) :=
  orderedBy (fun step => step.fields.rank) steps

/-- What came of a list of steps. -/
inductive ChildrenOutcome where
  | passed
  | failed
  /-- A step stopped the whole case. -/
  | aborted
deriving DecidableEq, Repr

namespace Exec

variable {ρ σ : Type}

/-- Runs a step below the running one, whose result it becomes a part of. -/
def runChild (child : Ready ρ σ) : Exec ρ σ StepResult := fun frame =>
  match child.run frame.state with
  | .ok r state =>
    .ok r ⟨state, { frame.result with children := frame.result.children ++ [r] }⟩
  | .error crash state => .error (.crash crash) { frame with state }

/-- **Runs steps one after the other.** An aborted step is the last one; with `halt` also a failed
one is. -/
def runChildren (w : World ρ σ) (halt : Bool) : List (Ready ρ σ) → Exec ρ σ ChildrenOutcome
  | [] => pure .passed
  | child :: rest => do
    let r ← runChild child
    if r.aborted then
      note w (.childAborted child.fields.key)
      pure .aborted
    else if r.success then runChildren w halt rest
    else if halt then pure .failed
    else
      match ← runChildren w halt rest with
      | .passed => pure .failed
      | outcome => pure outcome

/-- The running step takes over what came of the steps below it. -/
def settle (container : String) : ChildrenOutcome → Exec ρ σ Unit
  | .passed => pure ()
  | .failed => fail (.execution (.childFailed container))
  | .aborted => fail (.aborted (.inside container))

end Exec

end Scenario
