import Scenario.Clock
import Scenario.Result

/-!
# Reports

What a run tells its host: a report is opened at the start and closed at the end, and every step
leaves one detail record. `CaseExecution` is what the run gives back to its caller.
-/

namespace Scenario

/-- How a report came about. -/
inductive ReportKind where
  | debug
  | sync
  | async
  | scheduled
deriving DecidableEq, Repr

namespace ReportKind

/-- The spellings, names first. -/
def spellings : List (ReportKind × List String) := [
  (debug, ["debug", "调试执行"]),
  (sync, ["sync", "同步执行"]),
  (async, ["async", "异步执行"]),
  (scheduled, ["scheduled", "定时执行"])]

def name : ReportKind → String
  | debug => "debug"
  | sync => "sync"
  | async => "async"
  | scheduled => "scheduled"

end ReportKind

/-- A line of a trace with the instant when it was written. -/
structure LogLine where
  instant : Instant
  text : String
deriving DecidableEq, Repr

/-- How a line is written. -/
def LogLine.write (line : LogLine) : String :=
  "[" ++ line.instant.fineStamp ++ "] " ++ line.text

/-- The lines of the steps, by key. -/
abbrev Trace := Keyed (List LogLine)

/-- Counts over the steps of a run. -/
structure Statistics where
  total : Nat := 0
  passed : Nat := 0
  failed : Nat := 0
  /-- Per cent, rounded to two places. -/
  passRatio : Binary64 := .zero false

/-- What a case run gives back. -/
structure CaseExecution where
  case : CaseHeader
  success : Bool
  results : List StepResult
  logs : Trace
  reportCode : Option String
  statistics : Statistics
  /-- The session at the end of the run. -/
  session : Json.Members
  /-- Seconds. -/
  elapsed : Binary64

/-- The opening of a report. -/
structure ReportOpening where
  caseId : Option Int := none
  caseCode : String := ""
  caseName : String := ""
  startedAt : String := ""
  state : Bool := false
  statistics : Statistics := {}
  kind : ReportKind := .sync

/-- The closing of a report. -/
structure ReportClosing where
  reportCode : String := ""
  endedAt : String := ""
  elapsed : String := ""
  state : Bool := false
  statistics : Statistics := {}

/-- The record of one step that ran. -/
structure Detail where
  case : CaseHeader
  reportCode : String
  id : Option Int
  number : Option Int
  key : String
  name : String
  kind : Option String
  state : Bool
  startedAt : String
  endedAt : String
  elapsed : String
  log : Option (List LogLine)
  error : Option String
  iteration : Nat
  responseHeaders : Keyed String
  responseBody : Json.Value
  responseText : Option String
  responseCookies : Option String
  session : Json.Members
  defined : Json.Members
  extracted : Json.Members
  ledger : List Assertion

/-! ### Records -/

open Record

/-- A field with a count. -/
def countField {ρ : Type} (name : String) (get : ρ → Nat) (set : Nat → ρ → ρ) : FieldCodec ρ :=
  .holding name .required (Data.readNat 64 "usize") Json.Value.ofNat get set

/-- Statistics as records. -/
def Statistics.codec : Codec Statistics where
  title := "Statistics"
  start := {}
  fields := [
    countField "total_steps" (·.total) fun v s => { s with total := v },
    countField "success_steps" (·.passed) fun v s => { s with passed := v },
    countField "failed_steps" (·.failed) fun v s => { s with failed := v },
    .holding "pass_ratio" .required Data.readNumber Json.Value.ofBinary64 (·.passRatio)
      fun v s => { s with passRatio := v }]

/-- The counts as fields of a report. -/
def reportCounts {ρ : Type} (get : ρ → Statistics) (set : Statistics → ρ → ρ) : List (FieldCodec ρ) := [
  countField "step_total" (fun r => (get r).total) fun v r =>
    set { get r with total := v } r,
  countField "step_fail_count" (fun r => (get r).failed) fun v r =>
    set { get r with failed := v } r,
  countField "step_pass_count" (fun r => (get r).passed) fun v r =>
    set { get r with passed := v } r,
  .holding "step_pass_ratio" .required Data.readNumber Json.Value.ofBinary64
    (fun r => (get r).passRatio) fun v r => set { get r with passRatio := v } r]

/-- Openings of reports as records. -/
def ReportOpening.codec : Codec ReportOpening where
  title := "ReportCreate"
  start := {}
  fields := [
    { optionalInteger "case_id" (·.caseId) fun v (r : ReportOpening) => { r with caseId := v } with
      presence := .optional },
    requiredText "case_code" (·.caseCode) fun v r => { r with caseCode := v },
    requiredText "case_name" (·.caseName) fun v r => { r with caseName := v },
    requiredText "case_st_time" (·.startedAt) fun v r => { r with startedAt := v },
    requiredBool "case_state" (·.state) fun v r => { r with state := v }] ++
    reportCounts (·.statistics) (fun v r => { r with statistics := v }) ++ [
    .holding "report_type" .required (Data.readNamed ReportKind.spellings)
      (fun k => .string k.name) (·.kind) fun v r => { r with kind := v }]

/-- Closings of reports as records. -/
def ReportClosing.codec : Codec ReportClosing where
  title := "ReportUpdate"
  start := {}
  fields := [
    requiredText "report_code" (·.reportCode) fun v r => { r with reportCode := v },
    requiredText "case_ed_time" (·.endedAt) fun v r => { r with endedAt := v },
    requiredText "case_elapsed" (·.elapsed) fun v r => { r with elapsed := v },
    requiredBool "case_state" (·.state) fun v r => { r with state := v }] ++
    reportCounts (·.statistics) (fun v r => { r with statistics := v })

/-- The text of some lines, one under the other. -/
def LogLine.join (write : LogLine → String) (lines : List LogLine) : String :=
  "\n".intercalate (lines.map write)

/-- A detail record as a value; `line` writes a line of its log. -/
def Detail.write (line : LogLine → String) (d : Detail) : Json.Value :=
  let optional := Json.Value.ofOption Json.Value.string
  .object [
    ("case_id", .ofOption .ofInt d.case.id),
    ("case_code", .string d.case.code),
    ("report_code", .string d.reportCode),
    ("step_id", .ofOption .ofInt d.id),
    ("step_no", .ofOption .ofInt d.number),
    ("step_code", .string d.key),
    ("step_name", .string d.name),
    ("step_type", optional d.kind),
    ("step_state", .bool d.state),
    ("step_st_time", .string d.startedAt),
    ("step_ed_time", .string d.endedAt),
    ("step_elapsed", .string d.elapsed),
    ("step_exec_logger", optional (d.log.map (LogLine.join line))),
    ("step_exec_except", optional d.error),
    ("num_cycles", .ofNat d.iteration),
    ("response_header", textsToJson d.responseHeaders),
    ("response_body", d.responseBody),
    ("response_text", optional d.responseText),
    ("response_cookie", optional d.responseCookies),
    ("session_variables", .object d.session),
    ("defined_variables", .object d.defined),
    ("extract_variables", .object d.extracted),
    ("assert_validators", .array (d.ledger.map Assertion.codec.write))]

/-- A trace as a value; `line` writes a line. -/
def Trace.write (line : LogLine → String) (trace : Trace) : Json.Value :=
  .object (Keyed.mapValues (fun lines => .array (lines.map fun l => .string (line l))) trace)

/-- What a run gives back, as a value; `line` writes a line of its logs. -/
def CaseExecution.write (line : LogLine → String) (run : CaseExecution) : Json.Value :=
  .object [
    ("case", CaseHeader.codec.write run.case),
    ("success", .bool run.success),
    ("results", .array (StepResult.writeAll run.results)),
    ("logs", Trace.write line run.logs),
    ("report_code", .ofOption .string run.reportCode),
    ("statistics", Statistics.codec.write run.statistics),
    ("session_variables", .object run.session),
    ("elapsed", .ofBinary64 run.elapsed)]

end Scenario
