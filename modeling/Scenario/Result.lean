import Scenario.Case

/-!
# Results

What a step leaves behind: whether it passed, what it extracted, the ledger of its assertions, the
response it got and the results of the steps below it.

* `StepResult.flatten` lists a result and all results below it, parents first.
* `StepResult.codec` reads results, `StepResult.write` writes them.
-/

namespace Scenario

/-- A response to a request, or what a script returned in the form of one. -/
structure Response where
  status : Nat := 0
  reason : Option String := none
  headers : Keyed String := []
  cookies : Keyed String := []
  text : String := ""
  /-- Seconds. -/
  elapsed : Binary64 := .zero false

/-- The body of a response as JSON. -/
def Response.json? (response : Response) : Option Json.Value :=
  Json.Value.ofText? response.text

/-- The outcome of an assertion. -/
structure Assertion where
  name : String := ""
  source : String := ""
  expression : Option String := none
  operation : String := ""
  expected : Json.Value := .null
  actual : Json.Value := .null
  success : Bool := false
  message : Option String := none

/-- What a step leaves behind, but for the results below it. -/
structure ResultFields where
  id : Option Int := none
  number : Option Int := none
  code : Option String := none
  name : String := ""
  kind : Option String := none
  success : Bool := true
  /-- Whether the whole case has to end. -/
  aborted : Bool := false
  message : Option String := none
  error : Option String := none
  /-- Seconds. -/
  elapsed : Binary64 := .zero false
  /-- The iteration of the loop in which the step ran. -/
  iteration : Nat := 1
  response : Option Json.Value := none
  extracted : Json.Members := []
  ledger : List Assertion := []
deriving Inhabited

/-- A result with the results below it. -/
structure StepResult extends ResultFields where
  children : List StepResult
deriving Inhabited

/-- The key of a result: that of its step. -/
def ResultFields.key (result : ResultFields) : String :=
  stepKey result.code result.id result.number

/-- The result of a step before it runs. -/
def StepResult.of (step : StepFields) : StepResult :=
  ⟨{ id := step.id, number := step.number, code := step.code, name := step.title,
     kind := step.kind }, []⟩

namespace StepResult

mutual

/-- **A result and all results below it,** parents first. -/
def flatten : StepResult → List StepResult
  | ⟨fields, children⟩ => ⟨fields, children⟩ :: flattenAll children

/-- The results of a forest, parents first. -/
def flattenAll : List StepResult → List StepResult
  | [] => []
  | result :: rest => flatten result ++ flattenAll rest

end

end StepResult

/-! ### Records -/

open Record

/-- A field with a text that may be missing. -/
def defaultedText {ρ : Type} (name : String) (get : ρ → String) (set : String → ρ → ρ) : FieldCodec ρ :=
  .holding name .defaulted Data.readText Json.Value.string get set

/-- A field with a text that must be there. -/
def requiredText {ρ : Type} (name : String) (get : ρ → String) (set : String → ρ → ρ) : FieldCodec ρ :=
  .holding name .required Data.readText Json.Value.string get set

/-- A field with a truth value that must be there. -/
def requiredBool {ρ : Type} (name : String) (get : ρ → Bool) (set : Bool → ρ → ρ) : FieldCodec ρ :=
  .holding name .required Data.readBool Json.Value.bool get set

/-- A map of texts as a value. -/
def textsToJson (texts : Keyed String) : Json.Value :=
  .object (Keyed.mapValues Json.Value.string texts)

/-- Responses as records. -/
def Response.codec : Codec Response where
  title := "HttpResponse"
  start := {}
  fields := [
    .holding "status_code" .required (Data.readNat 16 "u16") Json.Value.ofNat (·.status)
      fun v r => { r with status := v },
    optionalText "reason" (·.reason) fun v r => { r with reason := v },
    .holding "headers" .defaulted (Data.readKeyed Data.readText) textsToJson (·.headers)
      fun v r => { r with headers := v },
    .holding "cookies" .defaulted (Data.readKeyed Data.readText) textsToJson (·.cookies)
      fun v r => { r with cookies := v },
    defaultedText "text" (·.text) fun v r => { r with text := v },
    .holding "elapsed" .defaulted Data.readNumber Json.Value.ofBinary64 (·.elapsed)
      fun v r => { r with elapsed := v }]

/-- Outcomes of assertions as records. -/
def Assertion.codec : Codec Assertion where
  title := "AssertionOutcome"
  start := {}
  fields := [
    requiredText "name" (·.name) fun v a => { a with name := v },
    requiredText "source" (·.source) fun v a => { a with source := v },
    { optionalText "expr" (·.expression) fun v (a : Assertion) => { a with expression := v } with
      presence := .optional },
    requiredText "operation" (·.operation) fun v a => { a with operation := v },
    .holding "except_value" .required Data.readJson (fun v => v) (·.expected) fun v a =>
      { a with expected := v },
    .holding "actual_value" .required Data.readJson (fun v => v) (·.actual) fun v a =>
      { a with actual := v },
    requiredBool "success" (·.success) fun v a => { a with success := v },
    (optionalText "message" (·.message) fun v (a : Assertion) => { a with message := v }).unless
      fun a => a.message.isNone]

/-- The fields of a result but the results below it. -/
def ResultFields.codec : Codec ResultFields where
  title := "StepExecutionResult"
  start := {}
  fields := [
    { optionalInteger "step_id" (·.id) fun v (r : ResultFields) => { r with id := v } with
      presence := .optional },
    { optionalInteger "step_no" (·.number) fun v (r : ResultFields) => { r with number := v } with
      presence := .optional },
    { optionalText "step_code" (·.code) fun v (r : ResultFields) => { r with code := v } with
      presence := .optional },
    requiredText "step_name" (·.name) fun v r => { r with name := v },
    { optionalText "step_type" (·.kind) fun v (r : ResultFields) => { r with kind := v } with
      presence := .optional },
    requiredBool "success" (·.success) fun v r => { r with success := v },
    (FieldCodec.holding "aborted" .defaulted Data.readBool Json.Value.bool (·.aborted)
      fun v (r : ResultFields) => { r with aborted := v }).unless fun r => !r.aborted,
    optionalText "message" (·.message) fun v r => { r with message := v },
    optionalText "error" (·.error) fun v r => { r with error := v },
    .holding "elapsed" .defaulted Data.readNumber Json.Value.ofBinary64 (·.elapsed)
      fun v r => { r with elapsed := v },
    .holding "iteration" .defaulted (Data.readNat 32 "u32") Json.Value.ofNat (·.iteration)
      fun v r => { r with iteration := v },
    .holding "response" .defaulted (Data.readOption Data.readJson)
      (Json.Value.ofOption fun v => v) (·.response) fun v r => { r with response := v },
    .holding "extract_variables" .defaulted Data.readMembers Json.Value.object (·.extracted)
      fun v r => { r with extracted := v },
    .holding "assert_validators" .defaulted (Data.readList Assertion.codec.ofData)
      (fun ledger => .array (ledger.map Assertion.codec.write)) (·.ledger)
      fun v r => { r with ledger := v }]

namespace StepResult

/-- Results as records with children. -/
def codec : TreeCodec ResultFields StepResult :=
  ⟨ResultFields.codec, fun fields children => ⟨fields, children⟩⟩

/-- **Reading a result.** -/
def ofData (d : Data) : Except Flaw StepResult :=
  codec.ofData d

mutual

/-- **Writing a result.** -/
def write : StepResult → Json.Value
  | ⟨fields, children⟩ =>
    .object (ResultFields.codec.members fields ++ [("children", .array (writeAll children))])

def writeAll : List StepResult → List Json.Value
  | [] => []
  | result :: rest => write result :: writeAll rest

end

end StepResult

end Scenario
