import Scenario.Record.Codec

/-!
# Engine settings

The limits under which a case runs. Iterations of loops and the longest wait have ceilings that no
setting can raise.
-/

namespace Scenario

/-- The most iterations of a count loop. -/
def countLoopCeiling : Nat := 100

/-- The most iterations of a condition loop. -/
def conditionLoopCeiling : Nat := 1000

/-- The longest single wait in seconds. -/
def longestWait : Binary64 := .ofInt 300

/-- What can be set. -/
structure Settings where
  /-- Seconds for a whole exchange. -/
  requestTimeout : Binary64 := .ofInt 30
  /-- Seconds for opening a connection. -/
  connectTimeout : Binary64 := .ofInt 10
  /-- The longest wait in seconds. -/
  maxWait : Binary64 := longestWait
  /-- The number of operations a script may take. -/
  scriptOperations : Nat := 1000000

namespace Settings

open Record

/-- Settings as records; a missing field keeps its default. -/
def codec : Codec Settings where
  title := "EngineSettings"
  start := {}
  fields := [
    .holding "request_timeout_secs" .defaulted Data.readNumber Json.Value.ofBinary64
      (·.requestTimeout) fun v s => { s with requestTimeout := v },
    .holding "connect_timeout_secs" .defaulted Data.readNumber Json.Value.ofBinary64
      (·.connectTimeout) fun v s => { s with connectTimeout := v },
    .holding "max_wait_secs" .defaulted Data.readNumber Json.Value.ofBinary64
      (·.maxWait) fun v s => { s with maxWait := v },
    .holding "script_max_operations" .defaulted (Data.readNat 64 "u64") Json.Value.ofNat
      (·.scriptOperations) fun v s => { s with scriptOperations := v }]

/-- Settings as data, in which a number may be infinite. -/
def toData (settings : Settings) : Data :=
  let number (x : Binary64) : Data := .scalar (.float x) none
  .map [
    ("request_timeout_secs", number settings.requestTimeout),
    ("connect_timeout_secs", number settings.connectTimeout),
    ("max_wait_secs", number settings.maxWait),
    ("script_max_operations", .scalar (.integer settings.scriptOperations) none)]

/-- **The longest wait allowed:** the setting, but never more than the ceiling. -/
def waitLimit (settings : Settings) : Binary64 :=
  Binary64.minimum settings.maxWait longestWait

end Settings

end Scenario
