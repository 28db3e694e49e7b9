import Scenario.Fault
import Scenario.Run.World
import Scenario.Script.Evaluation
import Scenario.Script.Reader

/-!
# Execution of scripts

`ScriptJob.run` runs a script on copies of the variables and picks what it gives back.

* A script without functions gives back its variable `result`, or the value of its last statement if
  it has no such variable.
* A script with one function gives back what the function makes of no arguments. The statements
  beside the function run first, but their variables are gone when it is called.
* A script with several functions is a misconfiguration.

Only a map or nothing may be given back.
-/

namespace Scenario

namespace Script

section

variable {ρ : Type}

/-- The rules for a program. -/
def Program.rules (program : Program) (around : Surroundings ρ) (limit : Nat) : Rules ρ :=
  ⟨around, limit, program.functions⟩

/-- How deep the evaluation of a script may go. -/
def depthFor (limit : Nat) (code : String) : Nat :=
  (if limit = 0 then 2 ^ 60 else limit) + 1024 * (code.length + 16)

/-- Runs the statements of a program. -/
def Program.statementsValue (program : Program) (rules : Rules ρ) (fuel : Nat) : Action ρ Value :=
  fun m =>
    match evalBody rules fuel 0 program.statements m with
    | .error (.returned v) m => .ok v m
    | r => r

/-- Runs the statements of a program and looks for its result. -/
def Program.resultValue (program : Program) (rules : Rules ρ) (fuel : Nat) : Action ρ Value := do
  let last ← program.statementsValue rules fuel
  match ← Action.find? "result" with
  | some b => return b.value
  | none => return last

/-- Runs the function of a program. -/
def Program.entryValue (program : Program) (rules : Rules ρ) (fuel : Nat) (entry : Function) :
    Action ρ Value := do
  let _ ← Action.enclosed (program.statementsValue rules fuel)
  Action.count rules.limit none
  calling entry.name none (Action.enclosed (evalBody rules fuel 0 entry.body))

/-- What a program does as a whole. -/
def Program.action (program : Program) (rules : Rules ρ) (fuel : Nat) :
    Except Misconfiguration (Action ρ Value) :=
  match program.functions with
  | [] => .ok (program.resultValue rules fuel)
  | [entry] =>
    if entry.parameters.isEmpty then .ok (program.entryValue rules fuel entry)
    else .error (.scriptEntryTakesArguments entry.name entry.parameters.length)
  | several =>
    .error (.scriptEntriesMany ((several.map Function.name).mergeSort fun a b => !(b < a)))

/-- The variables that a value stands for. -/
def variablesOf : Value → Except Fault (Option Json.Members)
  | .unit => .ok none
  | .map entries => .ok (some (Value.toMembers entries))
  | v => misconfigured (.scriptResultNotMap v.typeName)

/-- The outcome of a script that ended with a value. -/
def outcomeOf (v : Value) (m : Machine ρ) : Except Fault ScriptOutcome :=
  (variablesOf v).map fun values => ⟨values, m.printed.reverse⟩

/-- The variables that a script sees at its start. -/
def startBindings (job : ScriptJob) : List Binding := [
  { name := "extract_variables", value := .map (Value.ofMembers job.extract) },
  { name := "session_variables", value := .map (Value.ofMembers job.session) },
  { name := "defined_variables", value := .map (Value.ofMembers job.defined) }]

/-- **Running a script.** -/
def runJob (around : Surroundings ρ) (client : Http.Client) (job : ScriptJob) (outside : ρ) :
    Except Fault ScriptOutcome × Http.Client × ρ :=
  match Program.ofText job.code with
  | .error e => (.error (.script ("syntax error: " ++ e.message)), client, outside)
  | .ok program =>
    let fuel := depthFor job.operations job.code
    match program.action (program.rules around job.operations) fuel with
    | .error flaw => (misconfigured flaw, client, outside)
    | .ok action =>
      match action { bindings := startBindings job, client, outside } with
      | .ok v m => (outcomeOf v m, m.client, m.outside)
      | .error (.failed e) m => (.error (.script e.message), m.client, m.outside)
      -- a script may end early with a value, wherever it stands
      | .error (.returned v) m => (outcomeOf v m, m.client, m.outside)
      | .error (.left _ v) m => (outcomeOf v m, m.client, m.outside)
      | .error (.exited v) m => (outcomeOf v m, m.client, m.outside)

end

end Script

end Scenario
