import Scenario.Report

/-!
# Summaries of a run

* `Statistics.of` counts steps by key: the last result of a key decides whether it counts as passed.
* `foldLogs` gives the key of every root the lines of the results below it, after its own.
-/

namespace Scenario

/-- For every key the success of its last result. -/
def lastOutcomes (results : List StepResult) : Keyed Bool :=
  Keyed.ofList ((StepResult.flattenAll results).map fun r => (r.key, r.success))

/-- `passed` per cent of `total`, rounded to two places, a half up. -/
def percentage (passed total : Nat) : Binary64 :=
  if total = 0 then .zero false
  else
    let share := (Binary64.ofInt passed).div (Binary64.ofInt total)
    match share.mul (Binary64.ofInt 10000) with
    | .finite x => (Binary64.ofInt x.roundAway).div (Binary64.ofInt 100)
    | other => other

/-- **Counts over a run.** -/
def Statistics.of (results : List StepResult) : Statistics :=
  let outcomes := lastOutcomes results
  let total := outcomes.length
  let passed := (outcomes.filter fun (_, ok) => ok).length
  ⟨total, passed, total - passed, percentage passed total⟩

/-- The distinct keys below a root other than its own, ascending. -/
def keysBelow (root : StepResult) : List String :=
  let below := (StepResult.flattenAll root.children).map (·.key)
  Keyed.keys (Keyed.ofList ((below.filter (· ≠ root.key)).map fun key => (key, ())))

/-- The lines under a key. -/
def linesOf {α : Type} (logs : Keyed (List α)) (key : String) : List α :=
  (Keyed.find? key logs).getD []

/-- The lines of one root with those of the results below it. -/
def foldRoot {α : Type} (logs : Keyed (List α)) (root : StepResult) : Keyed (List α) :=
  Keyed.insert root.key (linesOf logs root.key ++ (keysBelow root).flatMap (linesOf logs)) logs

/-- **Folding a trace,** root by root. -/
def foldLogs {α : Type} (results : List StepResult) (logs : Keyed (List α)) : Keyed (List α) :=
  results.foldl foldRoot logs

end Scenario
