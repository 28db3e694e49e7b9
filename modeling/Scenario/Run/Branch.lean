import Scenario.Condition
import Scenario.Run.Exec

/-!
# Condition steps

A condition step runs its children if its predicate holds. The predicate is evaluated on the
variables of the run; an unknown variable is a fault and not a predicate that does not hold.
-/

namespace Scenario

namespace Exec

variable {ρ σ : Type} (w : World ρ σ)

/-- The value that a predicate looks at. What is still a single placeholder after resolution has to
be the name of a variable. -/
def actualValue (declared : Json.Value) : Exec ρ σ Json.Value := do
  let found ← resolveValue w declared
  match found with
  | .string s =>
    match Placeholder.bareReference? s.toList with
    | some body => ofExcept ((← context).valueOf (Placeholder.nameOf body))
    | none => pure found
  | _ => pure found

/-- **Evaluating a predicate.** -/
def evaluate (condition : Condition) : Exec ρ σ Bool := do
  let actual ← actualValue w condition.value
  let expected ← resolveValue w condition.expected
  let holds ← ofExcept (Comparison.compareText actual condition.operation expected)
  log w ("condition " ++ actual.compact ++ " " ++ condition.operation ++ " " ++
    expected.compact ++ " -> " ++ (if holds then "true" else "false"))
  pure holds

/-- Logs a text and makes it the message of the step. -/
def announce (text : String) : Exec ρ σ Unit := do
  log w text
  say text

/-- **A condition step.** -/
def branch (step : StepFields) (children : List (Ready ρ σ)) : Exec ρ σ Unit := do
  let condition ← ofExcept (Condition.ofField step.conditions)
  if ← evaluate w condition then
    announce w ("condition met: " ++ condition.description)
    settle "condition" (← runChildren w false (Ready.ordered children))
  else
    announce w ("condition not met: " ++ condition.description)

end Exec

end Scenario
