import Scenario.Run.Exec

/-!
# Steps that only hold other steps

Groups, and the kinds of steps that are known but do nothing of their own, run their children.
-/

namespace Scenario

namespace Exec

variable {ρ σ : Type} (w : World ρ σ)

/-- **A step that runs its children.** -/
def group (kind : StepKind) (children : List (Ready ρ σ)) : Exec ρ σ Unit := do
  if kind ≠ .group then
    log w (kind.name ++ " steps have no behaviour of their own; running children only")
  settle kind.name (← runChildren w false (Ready.ordered children))

end Exec

end Scenario
