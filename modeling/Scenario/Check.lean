import Scenario.Comparison
import Scenario.Extraction

/-!
# Checks

The rules of a step run against its output, all of them whatever happens.

* Extraction rules come first, each on the output as it was. A value that is found is stored under
  its name.
* Assertions come second and see the stored values among the variables. Each adds one entry to the
  ledger.

`runChecks` fails if any rule failed, and lists every one that did.
-/

namespace Scenario

namespace Check

/-- One extraction. -/
def extractOne (output : Output) (rule : ExtractRule) : Except Fault Json.Value := do
  output.extract (← Source.ofDeclared rule.source) rule.expression rule.range rule.index

/-- How a failed extraction is listed. -/
def extractionFailure (rule : ExtractRule) (fault : Fault) : String :=
  "extract '" ++ rule.name ++ "': " ++ fault.message

/-- All extractions: the values to store and what failed. -/
def extractAll (output : Output) : List ExtractRule → List (String × Json.Value) × List String
  | [] => ([], [])
  | rule :: rest =>
    let (values, failures) := extractAll output rest
    match extractOne output rule with
    | .ok v => ((rule.name, v) :: values, failures)
    | .error fault => (values, extractionFailure rule fault :: failures)

/-- The name of an assertion: its own, else its expression, else its position. -/
def assertionName (position : Nat) (rule : AssertRule) : String :=
  match rule.name.filter (· ≠ "") with
  | some name => name
  | none => rule.expression.getD ("assertion #" ++ toString (position + 1))

/-- The actual value of an assertion, and the comparison with its operator. -/
def evaluate (output : Output) (rule : AssertRule) :
    Except Fault (Json.Value × Operator × Bool) := do
  let source ← Source.ofDeclared rule.source
  let actual ← output.extract source rule.expression rule.range rule.index
  let op ← Operator.ofText rule.operation
  return (actual, op, ← Comparison.compare actual op rule.expected)

/-- What is said of an assertion that does not hold. -/
def mismatch (op : Operator) (expected actual : Json.Value) : String :=
  "expected " ++ op.name ++ " " ++ expected.compact ++ ", got " ++ actual.compact

/-- One assertion, at a position from zero. -/
def assertOne (output : Output) (position : Nat) (rule : AssertRule) : Assertion :=
  let outcome : Assertion := {
    name := assertionName position rule
    source := rule.source.getD "Response Json"
    expression := rule.expression
    operation := rule.operation
    expected := rule.expected }
  match evaluate output rule with
  | .ok (actual, op, holds) =>
    { outcome with
      actual := actual
      success := holds
      message := if holds then none else some (mismatch op rule.expected actual) }
  | .error fault => { outcome with message := some fault.message }

/-- How a failed assertion is listed. -/
def assertionFailure? (outcome : Assertion) : Option String :=
  if outcome.success then none
  else some ("assert '" ++ outcome.name ++ "': " ++ outcome.message.getD "failed")

/-- All assertions, from a position on. -/
def assertAll (output : Output) (position : Nat) : List AssertRule → List Assertion
  | [] => []
  | rule :: rest => assertOne output position rule :: assertAll output (position + 1) rest

end Check

/-- What the rules of a step brought about. -/
structure Checked where
  /-- The values to store, in the order of their rules. -/
  values : List (String × Json.Value)
  /-- One entry for each assertion. -/
  ledger : List Assertion
  /-- One line for each rule that failed. -/
  failures : List String

/-- **All rules of a step.** `earlier` are the values that the step has stored already. -/
def runChecks (extracts : List ExtractRule) (asserts : List AssertRule) (output : Output)
    (earlier : Json.Members) : Checked :=
  let (values, failures) := Check.extractAll output extracts
  let stored := Keyed.extend earlier values
  let pool := Keyed.extend output.pool stored
  let ledger := Check.assertAll { output with pool } 0 asserts
  ⟨values, ledger, failures ++ ledger.filterMap Check.assertionFailure?⟩

/-- The fault of rules that failed, if any did. -/
def Checked.fault? (checked : Checked) : Option Fault :=
  if checked.failures.isEmpty then none else some (.checks checked.failures)

end Scenario
