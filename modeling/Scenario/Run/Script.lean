import Scenario.Run.Rules

/-!
# Script steps

A script step runs a script on copies of the variables. The map that the script returns is what the
step extracts, and its rules are checked against that map.
-/

namespace Scenario

namespace Exec

variable {ρ σ : Type} (w : World ρ σ)

/-- The text of a script, which must say something. -/
def scriptText (step : StepFields) : Exec ρ σ String := do
  match step.script.filter fun code => !Text.isAllBlank code with
  | some code => lift (RunState.resolveScript w code)
  | none => misfit .scriptMissing

/-- Runs a script on the variables as they are. -/
def runScript (code : String) : Exec ρ σ (Except Fault ScriptOutcome) := do
  let client ← client w
  lift fun s =>
    let ctx := s.context
    let job : ScriptJob :=
      ⟨code, ctx.defined, ctx.session, ctx.extract, ctx.settings.scriptOperations⟩
    let (outcome, client, outside) := w.runScript client job s.outside
    (outcome, { s with outside, context := { ctx with client := some client } })

/-- Logs what a script printed. -/
def logPrinted : List String → Exec ρ σ Unit
  | [] => pure ()
  | line :: rest => do
    log w ("print: " ++ line)
    logPrinted rest

/-- The response that the values of a script stand for. -/
def responseOfValues (values : Json.Members) : Response where
  status := 200
  reason := some "OK"
  text := (Json.Value.object values).compact

/-- **A script step.** -/
def scriptStep (step : StepFields) : Exec ρ σ Unit := do
  let code ← scriptText w step
  let rules ← rules w step
  match ← runScript w code with
  | .error fault =>
    log w ("script failed: " ++ fault.message)
    fail fault
  | .ok outcome =>
    logPrinted w outcome.printed
    match outcome.values with
    | none => say "script returned nothing"
    | some values =>
      note w (.scriptReturned step.key values.length)
      -- the values are in place before the rules look at them
      extend w values .extract
      let response := responseOfValues values
      amend fun r => { r with
        extracted := Keyed.extend r.extracted values
        response := some (Response.codec.write response) }
      say ("script returned " ++ toString (← get).result.extracted.length ++ " value(s)")
      raise (← check w rules response (some (.object values)))

end Exec

end Scenario
