import Scenario.Http.Trouble
import Scenario.Http.Url
import Scenario.Json.Printer
import Scenario.Json.Reader
import Scenario.Pattern.Flaw
import Scenario.Record.Data
import Scenario.Xml.Document

/-!
# Faults

Why a step fails. A fault is a cause; its wording is `Fault.message`.

* A `Misconfiguration` is a step or case that says something that makes no sense. It is never
  mended by a default.
* Every other fault happens while a well-formed step runs.
-/

namespace Scenario

/-- Something a step or case says that makes no sense. -/
inductive Misconfiguration where
  -- comparison
  | unsupportedOperator (operator : String)
  | lengthNotNatural (expected : Json.Value)
  -- extraction
  | jsonPathWithoutRoot (path : String)
  | emptyXmlPath (path : String)
  | invalidXmlIndex (index path : String)
  | xmlIndexZero (path : String)
  | invalidPattern (pattern : String) (flaw : Pattern.Flaw)
  | unsupportedSource (source : String)
  | expressionNeeded
  -- rules and conditions
  | invalidRule (field : String) (entry : Json.Value) (flaw : Record.Flaw)
  | rulesNotList (field : String) (found : Json.Value)
  | conditionMissing
  | conditionListEmpty
  | conditionNotJson (place : Json.Place) (failure : Json.Failure)
  | conditionNotObject (found : Json.Value)
  | conditionIncomplete (value : Json.Value) (operation : Option String)
  | invalidCondition (condition : Json.Value) (flaw : Record.Flaw)
  -- variables and inclusion
  | invalidScope (scope : String)
  | emptyVariableName
  | circularInclusion (chain : List Int)
  -- waiting
  | waitMissing
  | waitNotNumber (found : Json.Value)
  | waitNegative (seconds : Binary64)
  | waitTooLong (limit seconds : Binary64)
  -- kinds of steps
  | kindMissing (key : String)
  | unsupportedKind (key kind : String)
  -- requests
  | portSet (port : Nat)
  | invalidMethod (method : String)
  | addressMissing
  | projectNeeded (address : String)
  | environmentNeeded (address : String)
  | hostMissing (project environment : String)
  | invalidAddress (address : String) (flaw : Http.Url.Flaw)
  | schemeNotHttp (address : String)
  | invalidPair (field : String) (entry : Json.Value)
  | pairsNotList (field : String) (found : Json.Value)
  -- loops
  | loopModeMissing
  | unsupportedLoopMode (mode : String)
  | loopStrategyMissing
  | unsupportedLoopStrategy (strategy : String)
  | loopInterval (limit interval : Binary64)
  | loopCountMissing
  | loopCountNotPositive (found : Json.Value)
  | loopSourceMissing
  | loopSourceString
  | loopSourceNotList (found : Json.Value)
  | loopSourceNotMapping (found : Json.Value)
  | loopTimeout (seconds : Binary64)
  -- inclusion
  | includedCaseMissing
  | includedCaseUnknown (id : Int)
  | includedCasePrivate (id : Int) (code : String)
  -- scripts
  | scriptMissing
  | scriptEntryTakesArguments (name : String) (count : Nat)
  | scriptEntriesMany (names : List String)
  | scriptResultNotMap (type : String)

namespace Misconfiguration

/-- The wording of a misconfiguration. -/
def message : Misconfiguration → String
  | unsupportedOperator op => "unsupported comparison operator '" ++ op ++ "'"
  | lengthNotNatural v => "len_eq expects a non-negative integer, got " ++ v.compact
  | jsonPathWithoutRoot path => "JSON path '" ++ path ++ "' must start with '$'"
  | emptyXmlPath path => "empty XML path '" ++ path ++ "'"
  | invalidXmlIndex index path => "invalid index '" ++ index ++ "' in XML path '" ++ path ++ "'"
  | xmlIndexZero path => "XML path indices start at 1 (in '" ++ path ++ "')"
  | invalidPattern pattern flaw => "invalid pattern '" ++ pattern ++ "': " ++ flaw.message pattern
  | unsupportedSource source =>
    "unsupported extraction source '" ++ source ++
      "' (expected one of: Response Json, Response XML, Response Text, Response Headers, " ++
      "Response Cookies, Variables Pool)"
  | expressionNeeded => "extraction needs an 'expr' unless range is ALL"
  | invalidRule field entry flaw =>
    "invalid " ++ field ++ " entry " ++ entry.compact ++ ": " ++ flaw.message
  | rulesNotList field found => field ++ " must be a list or an object, got " ++ found.compact
  | conditionMissing => "missing condition configuration"
  | conditionListEmpty => "condition list is empty"
  | conditionNotJson place failure =>
    "condition is not valid JSON (line " ++ toString place.line ++ ", column " ++
      toString place.column ++ "): " ++ failure.messageAt place
  | conditionNotObject found => "condition must be an object, got " ++ found.compact
  | conditionIncomplete value operation =>
    "incomplete condition: value=" ++ value.compact ++ ", operation=" ++ operation.getD "null"
  | invalidCondition condition flaw =>
    "invalid condition " ++ condition.compact ++ ": " ++ flaw.message
  | invalidScope scope =>
    "invalid variable scope '" ++ scope ++
      "' (expected defined_variables, session_variables or extract_variables)"
  | emptyVariableName => "variable name must not be empty"
  | circularInclusion chain =>
    "circular case inclusion: " ++ " -> ".intercalate (chain.map toString)
  | waitMissing => "wait step has no 'wait' value"
  | waitNotNumber found => "wait time must be a number of seconds, got " ++ found.compact
  | waitNegative seconds =>
    "wait time must be a non-negative number of seconds, got " ++ Binary64.plainStyle seconds
  | waitTooLong limit seconds =>
    "wait time must not exceed " ++ Binary64.plainStyle limit ++ " seconds, got " ++
      Binary64.plainStyle seconds
  | kindMissing key => "step '" ++ key ++ "' has no step_type"
  | unsupportedKind key kind => "step '" ++ key ++ "' has unsupported step_type '" ++ kind ++ "'"
  | portSet port =>
    "request_port " ++ toString port ++ " is set but raw TCP requests are not supported"
  | invalidMethod method => "invalid HTTP method '" ++ method ++ "'"
  | addressMissing => "HTTP step has no request_url"
  | projectNeeded address =>
    "relative URL '" ++ address ++ "' needs a request_project to find its host"
  | environmentNeeded address =>
    "relative URL '" ++ address ++ "' needs an environment to find its host"
  | hostMissing project environment =>
    "no host configured for project " ++ project ++ " in environment '" ++ environment ++ "'"
  | invalidAddress address flaw => "invalid request URL '" ++ address ++ "': " ++ flaw.message
  | schemeNotHttp address => "request URL '" ++ address ++ "' must use http or https"
  | invalidPair field entry =>
    field ++ " entries must be objects with a 'key', got " ++ entry.compact
  | pairsNotList field found =>
    field ++ " must be an object or a list of key/value entries, got " ++ found.compact
  | loopModeMissing => "loop step has no loop_mode"
  | unsupportedLoopMode mode =>
    "unsupported loop_mode '" ++ mode ++ "' (expected count, iterable, dict or condition)"
  | loopStrategyMissing => "loop step has no loop_on_error strategy"
  | unsupportedLoopStrategy strategy =>
    "unsupported loop_on_error '" ++ strategy ++ "' (expected continue, break or stop)"
  | loopInterval limit interval =>
    "loop_interval must be between 0 and " ++ Binary64.plainStyle limit ++ " seconds, got " ++
      Binary64.plainStyle interval
  | loopCountMissing => "count loop has no loop_maximums"
  | loopCountNotPositive found =>
    "loop_maximums must be a positive integer, got " ++ found.compact
  | loopSourceMissing => "loop step has no loop_iterable"
  | loopSourceString => "loop_iterable must be a list, not a string"
  | loopSourceNotList found => "loop_iterable must be a list, got " ++ found.compact
  | loopSourceNotMapping found =>
    "loop_iterable must be a mapping in dict mode, got " ++ found.compact
  | loopTimeout seconds =>
    "loop_timeout must be a non-negative number of seconds, got " ++ Binary64.plainStyle seconds
  | includedCaseMissing => "include step has no quote_case_id"
  | includedCaseUnknown id => "included case " ++ toString id ++ " does not exist"
  | includedCasePrivate id code =>
    "case " ++ toString id ++ " (" ++ code ++ ") is private and cannot be included"
  | scriptMissing => "script step has no code"
  | scriptEntryTakesArguments name count =>
    "script entry point '" ++ name ++ "' must take no arguments, it takes " ++ toString count
  | scriptEntriesMany names =>
    "script defines " ++ toString names.length ++ " functions (" ++ ", ".intercalate names ++
      "), expected a single entry point"
  | scriptResultNotMap type => "script must return a map or nothing, got " ++ type

end Misconfiguration

/-- What stops the whole case. -/
inductive Abort where
  /-- A step inside a container stopped the case. -/
  | inside (container : String)
  /-- A step inside an iteration of a loop stopped the case. -/
  | insideIteration (iteration : Nat)
  /-- An iteration failed in a loop that stops at failures. -/
  | failedIteration (iteration : Nat)
deriving DecidableEq, Repr

/-- The wording of an abort. -/
def Abort.message : Abort → String
  | inside container => "a step inside this " ++ container ++ " stopped the case"
  | insideIteration i => "a step inside iteration " ++ toString i ++ " stopped the case"
  | failedIteration i => "iteration " ++ toString i ++ " failed and loop_on_error is stop"

/-- What else goes wrong while a step runs. -/
inductive Breakdown where
  | malformedXml (flaw : Xml.Flaw)
  | noMatch (pattern : String)
  | bodyNotJson (expression : String)
  | childFailed (container : String)
  | loopBroken (iteration : Nat)
  | iterationsFailed (iterations : List Nat)
  | predicateFailed (iteration : Nat) (reason : String)
  | caseNotLoaded (id : Int) (reason : String)
  | environmentNotFound (reason : String)

/-- The wording of a breakdown. -/
def Breakdown.message : Breakdown → String
  | malformedXml flaw => "response is not well-formed XML: " ++ flaw.message
  | noMatch pattern => "pattern '" ++ pattern ++ "' did not match the response text"
  | bodyNotJson expression =>
    "cannot evaluate '" ++ expression ++ "': response body is not JSON"
  | childFailed container =>
    "one or more child steps of this " ++ container ++ " failed"
  | loopBroken i => "loop broken at iteration " ++ toString i ++ ": a child step failed"
  | iterationsFailed is =>
    "child steps failed in iteration(s) " ++ ", ".intercalate (is.map toString)
  | predicateFailed i reason =>
    "loop condition could not be evaluated after iteration " ++ toString i ++ ": " ++ reason
  | caseNotLoaded id reason => "failed to load case " ++ toString id ++ ": " ++ reason
  | environmentNotFound reason => "failed to look up environment host: " ++ reason

/-- Why a step fails. -/
inductive Fault where
  | configuration (cause : Misconfiguration)
  | unknownVariable (name : String)
  | pathNotFound (path segment : String) (available : List String)
  | pathType (path segment found : String)
  | indexOutOfRange (context : String) (index : Int) (length : Nat)
  | http (method url : String) (trouble : Http.Trouble)
  | script (reason : String)
  /-- Extractions and assertions that failed, one line each. -/
  | checks (failures : List String)
  | safetyLimit (limit executed : Nat)
  | aborted (cause : Abort)
  | execution (cause : Breakdown)

namespace Fault

/-- The wording of a fault. -/
def message : Fault → String
  | configuration cause => "configuration error: " ++ cause.message
  | unknownVariable name =>
    "unknown variable '" ++ name ++
      "': not defined by this step and not produced by any earlier step"
  | pathNotFound path segment available =>
    "path '" ++ path ++ "' not found: key '" ++ segment ++ "' does not exist (available keys: [" ++
      ", ".intercalate available ++ "])"
  | pathType path segment found =>
    "path '" ++ path ++ "': segment '" ++ segment ++ "' cannot be applied to a " ++ found ++
      " value"
  | indexOutOfRange context index length =>
    context ++ ": index " ++ toString index ++ " is out of range for a list of length " ++
      toString length
  | http method url trouble => method ++ " " ++ url ++ " failed: " ++ trouble.reason
  | script reason => "script error: " ++ reason
  | checks failures =>
    toString failures.length ++ " check(s) failed: " ++ "; ".intercalate failures
  | safetyLimit limit executed =>
    "exceeded safety bound: loop stopped after " ++ toString executed ++
      " iterations (ceiling " ++ toString limit ++ ")"
  | aborted cause => "case aborted: " ++ cause.message
  | execution cause => cause.message

/-- Whether the fault ends the whole case. -/
def isAbort : Fault → Bool
  | aborted _ => true
  | _ => false

/-- Whether the fault is a misconfiguration. -/
def isConfiguration : Fault → Bool
  | configuration _ => true
  | _ => false

end Fault

/-- The outcome of something that may be misconfigured. -/
def misconfigured {α : Type} (cause : Misconfiguration) : Except Fault α :=
  .error (.configuration cause)

end Scenario
