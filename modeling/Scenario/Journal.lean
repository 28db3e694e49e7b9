import Scenario.Run.Notice

/-!
# The journal

What is written down while cases are loaded and run. An entry has a level that tells how much it
matters, and a topic that tells which part of the program it comes from; a reader chooses by both.
Entries that are written inside a span show it in front of their text.

`Entry.ofNotices` turns what a run has told into entries.
-/

namespace Scenario

namespace Journal

/-- How much an entry matters, most important first. -/
inductive Level where
  | error
  | warning
  | info
  | debug
  | trace
deriving DecidableEq, Repr

namespace Level

/-- The name in front of an entry. -/
def name : Level → String
  | error => "ERROR"
  | warning => "WARN"
  | info => "INFO"
  | debug => "DEBUG"
  | trace => "TRACE"

/-- The place in the order of importance, from 1. -/
def rank : Level → Nat
  | error => 1
  | warning => 2
  | info => 3
  | debug => 4
  | trace => 5

end Level

/-- The part of the program an entry comes from. -/
inductive Topic where
  | commandLine
  | loading
  | cases
  | context
  | steps
  | requests
  | loops
  | scripts
  | inclusions
  | extraction
deriving DecidableEq, Repr

/-- The name by which a topic is chosen. -/
def Topic.name : Topic → String
  | commandLine => "stepcase"
  | loading => "stepcase::config"
  | cases => "stepcase::runner"
  | context => "stepcase::context"
  | steps => "stepcase::executor"
  | requests => "stepcase::executor::http"
  | loops => "stepcase::executor::loop_step"
  | scripts => "stepcase::executor::script"
  | inclusions => "stepcase::executor::quote"
  | extraction => "stepcase::extract"

/-- Something that was written down. -/
structure Entry where
  level : Level
  topic : Topic
  text : String
  /-- Values behind the text, each with its name. -/
  values : List (String × String) := []
  /-- The spans around the entry, outermost first. -/
  spans : List Span := []

/-- The topic of a span. Spans matter as much as an `info` entry. -/
def topicOf : Span → Topic
  | .caseRun _ => .cases
  | .requestStep _ => .requests
  | .exchange .. => .context

/-- Values with their names. -/
def pairs (values : List (String × String)) : String :=
  " ".intercalate (values.map fun (name, value) => name ++ "=" ++ value)

/-- A span in front of an entry. -/
def spanText : Span → String
  | .caseRun code => "execute\x7b" ++ pairs [("case_code", code)] ++ "\x7d:"
  | .requestStep key => "do_execute\x7b" ++ pairs [("step", key)] ++ "\x7d:"
  | .exchange method url =>
    "send_http\x7b" ++ pairs [("method", method), ("url", url)] ++ "\x7d:"

namespace Entry

/-- An entry behind its level: the spans around it, its text and its values. -/
def body (entry : Entry) : String :=
  let spans := String.join (entry.spans.map spanText)
  (if spans.isEmpty then "" else spans ++ " ") ++ entry.text ++
    (if entry.values.isEmpty then "" else " " ++ pairs entry.values)

/-- **An entry as it is written,** without the time. -/
def write (entry : Entry) : String :=
  entry.level.name ++ " " ++ entry.body

/-- The entry for a notice; the begin and the end of a span are none. -/
def ofNotice? (spans : List Span) : Notice → Option Entry
  | .entered _ => none
  | .left => none
  | .caseStarted code roots => some {
      level := .info, topic := .cases, spans
      text := "Starting case " ++ code ++ " with " ++ toString roots ++ " root step(s)" }
  | .rootReached position total key => some {
      level := .info, topic := .cases, spans
      text := "Running step " ++ toString position ++ "/" ++ toString total ++ ": " ++ key }
  | .caseAborted code key => some {
      level := .warning, topic := .cases, spans
      text := "Case " ++ code ++ " aborted at step " ++ key }
  | .caseFinished code seconds passed total => some {
      level := .info, topic := .cases, spans
      text := "Case " ++ code ++ " finished in " ++ Binary64.fixedStyle 3 seconds ++ " s - " ++
        toString passed ++ "/" ++ toString total ++ " step(s) passed" }
  | .reportNotClosed report reason => some {
      level := .warning, topic := .cases, spans
      text := "failed to close report: " ++ reason, values := [("report", report)] }
  | .stateNotKept id reason => some {
      level := .warning, topic := .cases, spans
      text := "failed to update case state: " ++ reason, values := [("case_id", toString id)] }
  | .logged key text => some {
      level := .debug, topic := .context, spans, text, values := [("step", key)] }
  | .detailLost key reason => some {
      level := .warning, topic := .steps, spans
      text := "failed to save step detail: " ++ reason, values := [("step", key)] }
  | .childAborted key => some {
      level := .debug, topic := .steps, spans
      text := "child aborted the run", values := [("step", key)] }
  | .loopStarted key mode strategy => some {
      level := .debug, topic := .loops, spans, text := "starting loop"
      values := [("step", key), ("mode", mode.label), ("strategy", strategy.label)] }
  | .included id steps => some {
      level := .debug, topic := .inclusions, spans, text := "including case"
      values := [("case_id", toString id), ("steps", toString steps)] }
  | .responded status => some {
      level := .debug, topic := .requests, spans, text := "received response"
      values := [("status", toString status)] }
  | .scriptReturned key count => some {
      level := .debug, topic := .scripts, spans, text := "script returned"
      values := [("step", key), ("keys", toString count)] }
  | .extracted name => some {
      level := .debug, topic := .extraction, spans, text := "extracted variable"
      values := [("name", name)] }
  | .clientOpened case => some {
      level := .debug, topic := .context, spans, text := "opening HTTP client"
      values := [("case", case)] }
  | .clientReleased case => some {
      level := .debug, topic := .context, spans, text := "HTTP client released"
      values := [("case", case)] }
  | .requestFailed text => some { level := .warning, topic := .context, spans, text }

/-- The spans around what comes after a notice; `spans` are those around the notice, innermost
first. -/
def spansAfter (spans : List Span) : Notice → List Span
  | .entered span => span :: spans
  | .left => spans.drop 1
  | _ => spans

/-- The entries for notices in the order of time, inside of spans, innermost first. -/
def ofNoticesIn (spans : List Span) : List Notice → List Entry
  | [] => []
  | notice :: rest =>
    (ofNotice? spans.reverse notice).toList ++ ofNoticesIn (spansAfter spans notice) rest

/-- **The entries for the notices of a run.** -/
def ofNotices (notices : List Notice) : List Entry :=
  ofNoticesIn [] notices

end Entry

end Journal

end Scenario
