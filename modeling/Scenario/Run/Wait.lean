import Scenario.Run.Exec

/-!
# Wait steps

A wait step lets a number of seconds pass.
-/

namespace Scenario

namespace Exec

variable {ρ σ : Type}

/-- The seconds that a value stands for: a number, or a text that reads as one. -/
def secondsOf : Json.Value → Except Fault Binary64
  | .number n => .ok (.finite n.toFinite)
  | .string s =>
    match Binary64.ofText? (Text.trim s) with
    | some x => .ok x
    | none => misconfigured (.waitNotNumber (.string s))
  | v => misconfigured (.waitNotNumber v)

/-- **Waiting as a step.** -/
def wait (w : World ρ σ) (step : StepFields) : Exec ρ σ Unit := do
  match step.wait with
  | none => misfit .waitMissing
  | some .null => misfit .waitMissing
  | some declared =>
    let seconds ← ofExcept (secondsOf (← resolveValue w declared))
    sleep w seconds
    say ("waited " ++ Binary64.plainStyle seconds ++ " s")

end Exec

end Scenario
