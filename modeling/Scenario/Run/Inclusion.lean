import Scenario.Run.Exec

/-!
# Include steps

An include step runs the steps of another case in place of children. The case must be public, and it
must not be running already.
-/

namespace Scenario

namespace Exec

variable {ρ σ : Type} (w : World ρ σ)

/-- The case with an id. -/
def loadCase (id : Int) : Exec ρ σ CaseRecord := do
  let trouble ← lift fun s =>
    let (trouble, outside) := w.loadTrouble id s.outside
    (trouble, { s with outside })
  match trouble with
  | some reason => fail (.execution (.caseNotLoaded id reason))
  | none =>
    match w.library.find? id with
    | some record => pure record
    | none => misfit (.includedCaseUnknown id)

/-- The case that a step includes, which must be public. -/
def includedCase (step : StepFields) : Exec ρ σ (Int × CaseRecord) := do
  match step.includedCase with
  | none => misfit .includedCaseMissing
  | some id =>
    let record ← loadCase w id
    match record.visibility with
    | .shared => pure (id, record)
    | .restricted => misfit (.includedCasePrivate id record.header.code)

/-- Enters a case. -/
def enter (id : Int) : Exec ρ σ Unit := do
  let inside ← ofExcept ((← context).enter id)
  act fun s => { s with context := inside }

/-- Leaves a case. -/
def leave (id : Int) : Exec ρ σ Unit :=
  act fun s => { s with context := s.context.leave id }

/-- **An include step.** `ready` makes the steps of a case ready to run. -/
def inclusion (ready : List Step → List (Ready ρ σ)) (step : StepFields) : Exec ρ σ Unit := do
  let (id, record) ← includedCase w step
  if record.steps.isEmpty then
    log w ("included case " ++ toString id ++ " has no steps, nothing to do")
    say "included case is empty"
  else
    enter id
    note w (.included id record.steps.length)
    log w ("including case " ++ toString id ++ " (" ++ record.header.code ++ ") with " ++
      toString record.steps.length ++ " root step(s)")
    let outcome ← runChildren w false (Ready.ordered (ready record.steps))
    leave id
    settle "included case" outcome

end Exec

end Scenario
