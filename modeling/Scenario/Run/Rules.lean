import Scenario.Check
import Scenario.Run.Exec

/-!
# The rules of a running step

The extraction and assertion rules of a step are resolved before the step does its work, and checked
against what the work brought.
-/

namespace Scenario

/-- The rules of a step. -/
structure Rules where
  extracts : List ExtractRule
  asserts : List AssertRule

namespace Exec

variable {ρ σ : Type} (w : World ρ σ)

/-- The expression of a rule with its placeholders resolved. -/
def resolveExpression : Option String → Exec ρ σ (Option String)
  | none => pure none
  | some expression => do return some (← resolveText w expression)

/-- The extraction rules with their placeholders resolved. -/
def resolveExtracts : List ExtractRule → Exec ρ σ (List ExtractRule)
  | [] => pure []
  | rule :: rest => do
    let expression ← resolveExpression w rule.expression
    return { rule with expression } :: (← resolveExtracts rest)

/-- The assertion rules with their placeholders resolved. -/
def resolveAsserts : List AssertRule → Exec ρ σ (List AssertRule)
  | [] => pure []
  | rule :: rest => do
    let expression ← resolveExpression w rule.expression
    let expected ← resolveValue w rule.expected
    return { rule with expression, expected } :: (← resolveAsserts rest)

/-- **The rules of a step.** -/
def rules (step : StepFields) : Exec ρ σ Rules := do
  let extracts ← resolveExtracts w (← ofExcept step.extractRules)
  let asserts ← resolveAsserts w (← ofExcept step.assertRules)
  return ⟨extracts, asserts⟩

/-- Tells the watcher of extracted values. -/
def noteExtracted : List (String × Json.Value) → Exec ρ σ Unit
  | [] => pure ()
  | (name, _) :: rest => do
    note w (.extracted name)
    noteExtracted rest

/-- **Checking the rules** against a response, whose body is `json`. What they extract and the ledger
of the assertions go into the result; the fault of rules that failed comes back. -/
def check (rules : Rules) (response : Response) (json : Option Json.Value) :
    Exec ρ σ (Option Fault) := do
  let output : Output := {
    json
    text := response.text
    headers := response.headers
    cookies := response.cookies
    pool := (← context).snapshot }
  let checked := runChecks rules.extracts rules.asserts output (← get).result.extracted
  -- whatever fails, the rest of what was found goes into the result
  noteExtracted w checked.values
  amend fun r => { r with
    extracted := Keyed.extend r.extracted checked.values
    ledger := r.ledger ++ checked.ledger }
  return checked.fault?

/-- Stops at a fault, if there is one. -/
def raise : Option Fault → Exec ρ σ Unit
  | none => pure ()
  | some f => fail f

end Exec

end Scenario
