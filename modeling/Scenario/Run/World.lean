import Scenario.Http.Client
import Scenario.Report
import Scenario.Run.Notice

/-!
# The world around a run

A run asks the world for some things and tells it others, and the two never mix.

* `Outside` answers: the clock, the hosts of environments, the cases that may be included, replies to
  requests and results of scripts. Its state `ρ` is changed by asking only.
* `Recorder` is told: reports, details of steps, the last outcome of a case, notices. Its state `σ`
  is changed by telling only. A recorder may refuse, and then gives a reason.

A `World` is both.
-/

namespace Scenario

/-- The cases that may be included. -/
abbrev Library := List CaseRecord

/-- The case with an id; of several the last one. -/
def Library.find? (library : Library) (id : Int) : Option CaseRecord :=
  (library.filter fun record => record.header.id = some id).getLast?

/-- A script to run: its text, the variables it sees and the number of operations it may take. -/
structure ScriptJob where
  code : String
  defined : Json.Members
  session : Json.Members
  extract : Json.Members
  operations : Nat

/-- What a script that ran to its end leaves behind. -/
structure ScriptOutcome where
  /-- The variables it returned, if it returned any. -/
  values : Option Json.Members
  printed : List String

/-- What a run asks. -/
structure Outside (ρ : Type) where
  now : ρ → Instant
  /-- Lets a number of seconds pass. -/
  sleep : Binary64 → ρ → ρ
  /-- The base address of a project in an environment. -/
  environmentHost : String → String → ρ → Except String (Option String) × ρ
  library : Library
  /-- Why the case with an id cannot be loaded, if it cannot. -/
  loadTrouble : Int → ρ → Option String × ρ
  /-- Sends a request. -/
  send : Http.Client → Http.Request → ρ → Except Http.Trouble Http.Answer × Http.Client × ρ
  /-- Runs a script, which may send requests. -/
  runScript : Http.Client → ScriptJob → ρ → Except Fault ScriptOutcome × Http.Client × ρ

/-- What a run tells. -/
structure Recorder (σ : Type) where
  /-- Opens a report and gives it a code. -/
  createReport : ReportOpening → σ → Except String String × σ
  updateReport : ReportClosing → σ → Except String Unit × σ
  createDetail : Detail → σ → Except String Unit × σ
  /-- Keeps the outcome of the last run of a case. -/
  updateCaseState : Int → Bool → σ → Except String Unit × σ
  note : Notice → σ → σ

/-- The world around a run. -/
structure World (ρ σ : Type) extends Outside ρ, Recorder σ

end Scenario
