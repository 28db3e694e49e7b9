import Scenario.Context
import Scenario.Run.World
import Scenario.Script.Substitution

/-!
# The state of a run

`RunState` is the context of a run together with the states of the world around it. The operations
here are those that a run can carry out whichever step is running: they write a line into the trace,
write variables, resolve placeholders, wait, and open or release the client.
-/

namespace Scenario

/-- What breaks the run itself: a number of seconds that is no duration. -/
inductive Crash where
  | negativeDuration
  | unusableDuration
deriving DecidableEq, Repr

/-- The wording of a crash. -/
def Crash.message : Crash → String
  | negativeDuration => "cannot convert float seconds to Duration: value is negative"
  | unusableDuration =>
    "cannot convert float seconds to Duration: value is either too big or NaN"

/-- What is wrong with a number of seconds as a duration. Durations are not negative and shorter than
`2^64` seconds. -/
def durationCrash? (seconds : Binary64) : Option Crash :=
  if seconds.lt (.zero false) then some .negativeDuration
  else if seconds.lt (.ofInt (2 ^ 64)) then none
  else some .unusableDuration

/-- Opens a client with the limits of the settings. -/
def openClient (settings : Settings) : Except Crash Http.Client :=
  match durationCrash? settings.requestTimeout <|> durationCrash? settings.connectTimeout with
  | some crash => .error crash
  | none => .ok { patience := settings.requestTimeout }

/-- The state of a run. -/
structure RunState (ρ σ : Type) where
  context : Context
  outside : ρ
  records : σ

/-- The seconds between two instants. -/
def secondsBetween (start stop : Instant) : Binary64 :=
  (Binary64.ofInt (stop - start : Nat)).div (Binary64.ofInt 1000)

namespace RunState

variable {ρ σ : Type} (w : World ρ σ)

/-- Tells the watcher. -/
def note (notice : Notice) (s : RunState ρ σ) : RunState ρ σ :=
  { s with records := w.note notice s.records }

/-- **A line in the trace** under a key. -/
def logTo (key text : String) (s : RunState ρ σ) : RunState ρ σ :=
  let s := s.note w (.logged key text)
  { s with context := s.context.logged key ⟨w.now s.outside, text⟩ }

/-- A line under the key of the running step. -/
def log (text : String) (s : RunState ρ σ) : RunState ρ σ :=
  s.logTo w (s.context.key.getD "") text

/-- **Writing variables.** Writing none leaves no trace. -/
def extend (data : Json.Members) (scope : Scope) (s : RunState ρ σ) : RunState ρ σ :=
  if data.isEmpty then s
  else
    { s with context := s.context.extend data scope }.log w
      ("updated " ++ scope.label ++ " variables: " ++
        Text.Quoted.list ((Keyed.keys data).map Text.Quoted.encode))

/-! ### Placeholders -/

/-- Logs the names that nothing is known of. -/
def logMissing (names : List String) (s : RunState ρ σ) : RunState ρ σ :=
  names.foldl
    (fun s name => s.log w ("placeholder $\x7b" ++ name ++ "\x7d is not defined, kept as is")) s

/-- Something resolved, with its unknown names logged. -/
def resolved {α : Type} (r : Resolved α) (s : RunState ρ σ) : α × RunState ρ σ :=
  (r.out, s.logMissing w r.missing)

/-- Resolves the placeholders in a value. -/
def resolveValue (v : Json.Value) (s : RunState ρ σ) : Json.Value × RunState ρ σ :=
  s.resolved w (Placeholder.resolveValue s.context.lookup v)

/-- Resolves the placeholders in a text. -/
def resolveText (text : String) (s : RunState ρ σ) : String × RunState ρ σ :=
  s.resolved w (Placeholder.resolveText s.context.lookup text)

/-- Resolves the placeholders in a script. -/
def resolveScript (code : String) (s : RunState ρ σ) : String × RunState ρ σ :=
  s.resolved w (Script.substitute s.context.lookup code)

/-! ### Waiting -/

/-- What is wrong with a wait, if something is. -/
def waitFlaw? (limit seconds : Binary64) : Option Misconfiguration :=
  if !seconds.isFinite || seconds.lt (.zero false) then some (.waitNegative seconds)
  else if limit.lt seconds then some (.waitTooLong limit seconds)
  else none

/-- **Waiting.** Only a number of seconds within the limit is waited for. -/
def sleep (seconds : Binary64) (s : RunState ρ σ) : Except Fault Unit × RunState ρ σ :=
  match waitFlaw? s.context.settings.waitLimit seconds with
  | some flaw => (misconfigured flaw, s)
  | none =>
    let s := s.log w ("waiting " ++ Binary64.plainStyle seconds ++ " s")
    (.ok (), { s with outside := w.sleep seconds s.outside })

/-! ### The client -/

/-- **The client of the run,** opened when it is needed first. -/
def client (s : RunState ρ σ) : Except Crash Http.Client × RunState ρ σ :=
  match s.context.client with
  | some client => (.ok client, s)
  | none =>
    let s := s.note w (.clientOpened s.context.case.code)
    match openClient s.context.settings with
    | .ok client => (.ok client, { s with context := { s.context with client := some client } })
    | .error crash => (.error crash, s)

/-- Releases the client. -/
def close (s : RunState ρ σ) : RunState ρ σ :=
  match s.context.client with
  | none => s
  | some _ =>
    { s with context := { s.context with client := none } }.note w
      (.clientReleased s.context.case.code)

end RunState

end Scenario
