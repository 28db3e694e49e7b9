import Scenario.Http.Status
import Scenario.Run.Rules

/-!
# Request steps

A request step sends one request and checks its rules against the response.

* `address` is where the request goes: an address of the web as it is, anything else behind the base
  address of the step's project in the environment of the run.
* `exchange` sends a request and logs what came of it. A response with an error status is a response
  like any other; only trouble on the way is a fault.
-/

namespace Scenario

/-! ### Texts and pairs -/

/-- Whether an address begins with the scheme of the web, in any letter case. -/
def isWebAddress (address : String) : Bool :=
  ["http://", "https://"].any fun scheme =>
    Text.sameIgnoringCase (address.take scheme.length).toString scheme

/-- A path behind a base address, with exactly one slash between them. -/
def joinAddress (base path : String) : String :=
  Text.trimEnd (· = '/') (Text.trim base) ++ "/" ++ Text.trimStart (· = '/') path

/-- The pair that an entry of a list stands for. -/
def pairOf (field : String) (entry : Json.Value) : Except Fault (String × String) :=
  match (entry.member? "key").bind Json.Value.asString? with
  | some key =>
    if key = "" then misconfigured (.invalidPair field entry)
    else .ok (key, ((entry.member? "value").map Placeholder.display).getD "")
  | none => misconfigured (.invalidPair field entry)

/-- **The pairs of a field:** the members of an object, or entries with a key and a value. -/
def pairsOf (field : String) : Json.Value → Except Fault (List (String × String))
  | .null => .ok []
  | .object members => .ok (members.map fun (k, v) => (k, Placeholder.display v))
  | .array entries => entries.mapM (pairOf field)
  | other => misconfigured (.pairsNotList field other)

/-- A text without blanks around it, if it says anything. -/
def trimmed? (declared : Option String) : Option String :=
  (declared.map Text.trim).filter (· ≠ "")

/-- The method of a request step. -/
def methodOf (step : StepFields) : Except Fault String :=
  let method := Text.asciiUpper ((trimmed? step.method).getD "GET")
  if Http.isMethod method then .ok method else misconfigured (.invalidMethod method)

/-- Pairs as they are shown in the trace. -/
def showPairs (pairs : List (String × String)) : String :=
  Text.Quoted.list (pairs.map fun (k, v) =>
    "(" ++ Text.Quoted.encode k ++ ", " ++ Text.Quoted.encode v ++ ")")

namespace Exec

variable {ρ σ : Type} (w : World ρ σ)

/-! ### Putting the request together -/

/-- The base address of the step's project in the environment of the run. -/
def baseAddress (step : StepFields) (path : String) : Exec ρ σ String := do
  match step.project with
  | none => misfit (.projectNeeded path)
  | some project =>
    -- what the step lacks comes before what the run lacks
    match (← context).environment with
    | none => misfit (.environmentNeeded path)
    | some environment =>
      let found ← lift fun s =>
        let (found, outside) := w.environmentHost project environment s.outside
        (found, { s with outside })
      match found with
      | .error reason => fail (.execution (.environmentNotFound reason))
      | .ok none => misfit (.hostMissing project environment)
      | .ok (some base) =>
        -- a blank address is no address
        if Text.isAllBlank base then misfit (.hostMissing project environment) else pure base

/-- **Where a request goes.** -/
def address (step : StepFields) : Exec ρ σ String := do
  match trimmed? step.address with
  | none => misfit .addressMissing
  | some declared =>
    let path ← resolveText w declared
    let full ← if isWebAddress path then pure path else do
      pure (joinAddress (← baseAddress w step path) path)
    match Http.Url.ofText full with
    | .error flaw => misfit (.invalidAddress full flaw)
    | .ok url =>
      if url.scheme = "http" || url.scheme = "https" then pure full
      else misfit (.schemeNotHttp full)

/-- A field with its placeholders resolved, if it is there. -/
def resolveField : Option Json.Value → Exec ρ σ (Option Json.Value)
  | none => pure none
  | some .null => pure none
  | some declared => do return some (← resolveValue w declared)

/-- The pairs of a field that may be missing. -/
def resolvePairs (field : String) (declared : Option Json.Value) :
    Exec ρ σ (List (String × String)) := do
  match ← resolveField w declared with
  | none => pure []
  | some v => ofExcept (pairsOf field v)

/-- What a request carries: JSON, else a text, else form fields as parts, else form fields. -/
def payload (step : StepFields) : Exec ρ σ Http.Payload := do
  match ← resolveField w step.body with
  | some v => pure (.json v)
  | none =>
    match step.text.filter (· ≠ "") with
    | some text => return .text (← resolveText w text)
    | none =>
      match ← resolveField w step.formData with
      | some v => return .parts (← ofExcept (pairsOf "request_form_data" v))
      | none =>
        match ← resolveField w step.formUrlencoded with
        | some v => return .form (← ofExcept (pairsOf "request_form_urlencoded" v))
        | none => pure .empty

/-- **The request of a step.** -/
def request (step : StepFields) : Exec ρ σ Http.Request := do
  if let some port := step.port then misfit (.portSet port)
  let method ← ofExcept (methodOf step)
  let address ← address w step
  let headers ← resolvePairs w "request_header" step.header
  let params ← resolvePairs w "request_params" step.params
  let payload ← payload w step
  return { method, address, headers, params := if params.isEmpty then none else some params, payload }

/-! ### Sending it -/

/-- The response of an answer that took some seconds. -/
def responseOf (answer : Http.Answer) (elapsed : Binary64) : Response where
  status := answer.status
  reason := Http.reasonPhrase? answer.status
  headers := Keyed.ofList answer.headers
  cookies := Keyed.ofList ((Http.headerValues "set-cookie" answer.headers).filterMap fun header =>
    (Http.SetCookie.ofText? header).map fun cookie => (cookie.name, cookie.value))
  text := answer.text
  elapsed := elapsed

/-- The line for a response. -/
def responseLine (response : Response) : String :=
  "response: " ++ toString response.status ++ " " ++ response.reason.getD "" ++ " in " ++
    Binary64.fixedStyle 3 response.elapsed ++ " s"

/-- Hands a request to the client. -/
def send (request : Http.Request) : Exec ρ σ (Except Http.Trouble Http.Answer) := do
  let client ← client w
  lift fun s =>
    let (answer, client, outside) := w.send client request s.outside
    (answer, { s with outside, context := { s.context with client := some client } })

/-- **One exchange:** a request and its response. -/
def exchange (request : Http.Request) : Exec ρ σ Response := do
  note w (.entered (.exchange request.method request.address))
  -- the client is opened before the time is taken, so that opening it is no part of the exchange
  let _ ← client w
  log w ("request: " ++ request.method ++ " " ++ request.address ++ " headers=" ++
    showPairs request.headers ++ " params=" ++ showPairs (request.params.getD []))
  let started ← now w
  match ← send w request with
  | .error trouble =>
    let fault := Fault.http request.method request.address trouble
    note w (.requestFailed fault.message)
    log w fault.message
    note w .left
    fail fault
  | .ok answer =>
    let response := responseOf answer (secondsBetween started (← now w))
    log w (responseLine response)
    note w .left
    return response

/-- Logs values that were extracted. -/
def logExtracted : List (String × Json.Value) → Exec ρ σ Unit
  | [] => pure ()
  | (name, v) :: rest => do
    log w ("extracted " ++ name ++ " = " ++ Placeholder.display v)
    logExtracted rest

/-- **A request step.** -/
def requestStep (step : StepFields) : Exec ρ σ Unit := do
  let request ← request w step
  let rules ← rules w step
  let response ← exchange w request
  log w (responseLine response)
  note w (.responded response.status)
  say ("HTTP " ++ toString response.status)
  amend fun r => { r with response := some (Response.codec.write response) }
  let fault ← check w rules response response.json?
  logExtracted w (← get).result.extracted
  raise fault

/-- Does something inside a span. -/
def within (span : Span) (action : Exec ρ σ Unit) : Exec ρ σ Unit := do
  note w (.entered span)
  try action
  catch stop =>
    note w .left
    throw stop
  note w .left

end Exec

end Scenario
