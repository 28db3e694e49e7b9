import Scenario.CommandLine.Arguments
import Scenario.Folder
import Scenario.Journal
import Scenario.Summary
import Scenario.Yaml.Printer

/-!
# Reports of the command line

What the command line tells about a case that has run: lines in the journal, one for the case and
one for every step below it, and a report file.

* `caseEntries` are the lines. Only the talkative form has messages, assertions and responses.
* `ReportFormat.content` is the text of the report file.
-/

namespace Scenario

namespace CommandLine

/-! ### Lines -/

/-- A line of the command line. -/
def entryOf (level : Journal.Level) (text : String) : Journal.Entry :=
  { level, topic := .commandLine, text }

/-- Two blanks for a root and two more for every level below it. -/
def indentation (depth : Nat) : String :=
  String.ofList (List.replicate (2 * (depth + 1)) ' ')

/-- Seconds with three places. -/
def secondsText (seconds : Binary64) : String :=
  Binary64.fixedStyle 3 seconds ++ " s"

/-- A text of at most `limit` characters, with a mark where it was cut off. -/
def shortened (limit : Nat) (text : String) : String :=
  if limit < text.length then (text.take limit).toString ++ "...(truncated)" else text

/-- The line for an assertion. -/
def assertionText (a : Assertion) : String :=
  "assert " ++ a.name ++ ": " ++ a.actual.compact ++ " " ++ a.operation ++ " " ++
    a.expected.compact ++ " -> " ++ (if a.success then "ok" else "failed")

/-- The text of the response of a step. -/
def responseText? (fields : ResultFields) : Option String :=
  (fields.response.bind (Json.Value.member? "text")).bind Json.Value.asString?

/-- The line for a step. -/
def stepText (fields : ResultFields) (position : Nat) : String :=
  toString position ++ ". " ++ (if fields.success then "✓" else "✗") ++ " " ++ fields.key ++
    " [" ++ fields.kind.getD "?" ++ "]" ++
    (if 1 < fields.iteration then " #" ++ toString fields.iteration else "") ++
    " (" ++ secondsText fields.elapsed ++ ")"

/-- The lines that only the talkative form has. -/
def detailEntries (indent : String) (fields : ResultFields) : List Journal.Entry :=
  let entry (text : String) := entryOf .debug (indent ++ "   " ++ text)
  (fields.message.map entry).toList ++ fields.ledger.map (fun a => entry (assertionText a)) ++
    ((responseText? fields).map fun text =>
      entry ("Response body: " ++ shortened 500 text)).toList

mutual

/-- The lines for a step and the steps below it. -/
def stepEntries (talkative : Bool) (depth position : Nat) : StepResult → List Journal.Entry
  | ⟨fields, children⟩ =>
    let indent := indentation depth
    entryOf .info (indent ++ stepText fields position) ::
      ((fields.error.map fun text => entryOf .error (indent ++ "   Error: " ++ text)).toList ++
        (if talkative then detailEntries indent fields else []) ++
        forestEntries talkative (depth + 1) 1 children)

/-- The lines for the steps of a forest. -/
def forestEntries (talkative : Bool) (depth position : Nat) :
    List StepResult → List Journal.Entry
  | [] => []
  | result :: rest =>
    stepEntries talkative depth position result ++
      forestEntries talkative depth (position + 1) rest

end

/-- Whether a case has passed, in a word. -/
def verdict (success : Bool) : String := if success then "PASS" else "FAIL"

/-- **The lines for a case that has run.** -/
def caseEntries (talkative : Bool) (run : CaseExecution) : List Journal.Entry :=
  entryOf .info (verdict run.success ++ " case: " ++ run.case.code ++ " (" ++
    secondsText run.elapsed ++ ") - " ++ toString run.statistics.passed ++ "/" ++
    toString run.statistics.total ++ " step(s) passed (" ++
    Binary64.plainStyle run.statistics.passRatio ++ "%)") ::
    forestEntries talkative 0 1 run.results

/-! ### Files -/

mutual

/-- The lines of a text report for a step and the steps below it. -/
def stepReport (depth : Nat) : StepResult → List String
  | ⟨fields, children⟩ =>
    let indent := indentation depth
    (indent ++ "- " ++ fields.key ++ " (" ++ verdict fields.success ++ ") iteration " ++
      toString fields.iteration ++ " " ++ secondsText fields.elapsed) ::
      ((fields.error.map fun text => indent ++ "  Error: " ++ text).toList ++
        forestReport (depth + 1) children)

/-- The lines of a text report for the steps of a forest. -/
def forestReport (depth : Nat) : List StepResult → List String
  | [] => []
  | result :: rest => stepReport depth result ++ forestReport depth rest

end

/-- The lines of a text report. -/
def reportLines (run : CaseExecution) : List String := [
  "Case: " ++ run.case.code ++ " (" ++ run.case.name ++ ")",
  "Status: " ++ verdict run.success,
  "Steps: " ++ toString run.statistics.total ++ " total, " ++ toString run.statistics.passed ++
    " passed, " ++ toString run.statistics.failed ++ " failed (" ++
    Binary64.plainStyle run.statistics.passRatio ++ "%)",
  "Duration: " ++ secondsText run.elapsed,
  "",
  "Steps:"] ++ forestReport 0 run.results

namespace ReportFormat

/-- How the names of report files end. -/
def fileEnding : ReportFormat → String
  | json => ".json"
  | yaml => ".yaml"
  | text => ".txt"

/-- The name of the report file of a case at an instant. -/
def fileName (format : ReportFormat) (code : String) (now : Instant) : String :=
  let plain := code.map fun c => if c = ' ' || c = '/' then '_' else c
  plain ++ "-" ++ toString (now / 1000) ++ format.fileEnding

/-- **The text of a report file.** -/
def content (format : ReportFormat) (run : CaseExecution) : String :=
  let value := CaseExecution.write LogLine.write run
  match format with
  | json => value.pretty
  | yaml => Yaml.render (Record.Data.ofJson value)
  | text => String.join ((reportLines run).map (· ++ "\n"))

end ReportFormat

/-- Why a file cannot be written into a folder, if it cannot. -/
def savingTrouble? (folder : Folder) (path fileName : String) : Option String :=
  if (Folder.around path).any folder.isFile then some "Not a directory (os error 20)"
  else if Char.ofNat 0 ∈ fileName.toList then
    some "file name contained an unexpected NUL byte"
  else if 255 < fileName.utf8ByteSize then some "File name too long (os error 36)"
  else none

end CommandLine

end Scenario
