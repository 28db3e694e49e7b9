import Scenario.Http.Canned
import Scenario.Script.Execution

/-!
# A host in memory

The world of a run as plain data. A `Site` answers: it has a clock, the base addresses of
environments and a server with prepared replies. A `Store` keeps what it is told. Both can be made
to refuse single calls by name.
-/

namespace Scenario

/-- What answers a run. -/
structure Site where
  clock : Instant := 0
  /-- Whether waiting moves the clock. -/
  timePasses : Bool := true
  /-- Base addresses by project and environment; of several the last one counts. -/
  environments : List ((String × String) × String) := []
  /-- Calls that fail, with the reason. -/
  refusals : Keyed String := []
  server : Http.CannedServer := {}
  /-- The state of the source of random numbers. -/
  seed : Nat := 1

namespace Site

/-- The milliseconds of a number of seconds. -/
def milliseconds (seconds : Binary64) : Nat :=
  match seconds.mul (Binary64.ofInt 1000) with
  | .finite x => x.truncate.toNat
  | _ => 0

/-- Lets time pass. -/
def sleep (seconds : Binary64) (site : Site) : Site :=
  if site.timePasses then { site with clock := site.clock + milliseconds seconds } else site

/-- The base address of a project in an environment. -/
def base? (site : Site) (project environment : String) : Option String :=
  ((site.environments.filter fun entry => entry.1 = (project, environment)).getLast?).map Prod.snd

/-- The base address, unless the call is refused. -/
def environmentHost (project environment : String) (site : Site) :
    Except String (Option String) × Site :=
  match Keyed.find? "environment_host" site.refusals with
  | some reason => (.error reason, site)
  | none => (.ok (site.base? project environment), site)

/-- Sends a message to the server. -/
def transmit (message : Http.Outgoing) (site : Site) : Http.Incoming × Site :=
  let (incoming, server) := site.server.answer message
  (incoming, { site with server })

/-- A random number below `2^32`, by a linear congruence. -/
def draw (site : Site) : Nat × Site :=
  let next := (site.seed * 6364136223846793005 + 1442695040888963407) % 2 ^ 64
  (next / 2 ^ 32, { site with seed := next })

end Site

/-- What a host keeps. -/
structure Store where
  /-- Reports with their codes. -/
  reports : List (String × ReportOpening) := []
  updates : List ReportClosing := []
  details : List Detail := []
  /-- The outcome of the last run of each case. -/
  outcomes : List (Int × Bool) := []
  /-- Calls that fail, with the reason. -/
  refusals : Keyed String := []
  /-- What the watcher has been told, last first. -/
  notices : List Notice := []

namespace Store

/-- Keeps something, unless the call is refused. -/
def keep {α : Type} (call : String) (answer : α) (kept : Store → Store) (store : Store) :
    Except String α × Store :=
  match Keyed.find? call store.refusals with
  | some reason => (.error reason, store)
  | none => (.ok answer, kept store)

/-- The code of the next report on a case. -/
def nextCode (store : Store) (caseCode : String) : String :=
  "RPT-" ++ caseCode ++ "-" ++ Instant.padded 4 (store.reports.length + 1)

/-- Opens a report. -/
def createReport (opening : ReportOpening) (store : Store) : Except String String × Store :=
  let code := store.nextCode opening.caseCode
  store.keep "create_report" code fun s => { s with reports := s.reports ++ [(code, opening)] }

/-- Closes a report. -/
def updateReport (closing : ReportClosing) (store : Store) : Except String Unit × Store :=
  store.keep "update_report" () fun s => { s with updates := s.updates ++ [closing] }

/-- Keeps the record of a step. -/
def createDetail (detail : Detail) (store : Store) : Except String Unit × Store :=
  store.keep "create_detail" () fun s => { s with details := s.details ++ [detail] }

/-- Keeps the outcome of a case. -/
def updateCaseState (id : Int) (passed : Bool) (store : Store) : Except String Unit × Store :=
  store.keep "update_case_state" () fun s =>
    { s with outcomes := (s.outcomes.filter fun entry => entry.1 ≠ id) ++ [(id, passed)] }

/-- The outcome of the last run of a case. -/
def outcome? (store : Store) (id : Int) : Option Bool :=
  (store.outcomes.find? fun entry => entry.1 = id).map Prod.snd

end Store

/-- A recorder that keeps what it is told. -/
def Store.recorder : Recorder Store where
  createReport := Store.createReport
  updateReport := Store.updateReport
  createDetail := Store.createDetail
  updateCaseState := Store.updateCaseState
  note := fun notice store => { store with notices := notice :: store.notices }

/-- Sends a request to the server of a site. -/
def Site.send (client : Http.Client) (request : Http.Request) (site : Site) :
    Except Http.Trouble Http.Answer × Http.Client × Site :=
  client.send Site.transmit site.clock request site

/-- What scripts ask of a site. -/
def Site.surroundings : Script.Surroundings Site where
  now := Site.clock
  draw := Site.draw
  send := Site.send

/-- A site that serves a library. -/
def Site.outside (library : Library) : Outside Site where
  now := Site.clock
  sleep := Site.sleep
  environmentHost := Site.environmentHost
  library := library
  loadTrouble := fun _ site => (Keyed.find? "load_case" site.refusals, site)
  send := Site.send
  runScript := Script.runJob Site.surroundings

/-- The world of a site and a store. -/
def Site.world (library : Library) : World Site Store :=
  { Site.outside library, Store.recorder with }

end Scenario
