import Scenario.Http.Client
import Scenario.Clock.Format
import Scenario.Json.Reader
import Scenario.Script.Operation
import Scenario.Script.Syntax

/-!
# The machine that runs scripts

A script runs on a `Machine`, which holds its variables, what it has printed, and the world that its
helpers ask: the time, random numbers, and replies to requests. Whatever interrupts a script leaves
the machine as it was changed until then.

Every operation is counted, and a script that takes more of them than it may is stopped.
-/

namespace Scenario

namespace Script

/-- What scripts ask of the world, whose state is `ρ`. -/
structure Surroundings (ρ : Type) where
  now : ρ → Instant
  /-- A random number below `2^32`. -/
  draw : ρ → Nat × ρ
  send : Http.Client → Http.Request → ρ → Except Http.Trouble Http.Answer × Http.Client × ρ

/-- A variable. -/
structure Binding where
  name : String
  value : Value
  isConstant : Bool := false

/-- The machine. -/
structure Machine (ρ : Type) where
  /-- The number of operations so far. -/
  operations : Nat := 0
  /-- The variables in sight, innermost first. -/
  bindings : List Binding := []
  /-- The printed lines, last first. -/
  printed : List String := []
  client : Http.Client
  outside : ρ

/-- What interrupts the statements of a script. -/
inductive Interruption where
  | failed (e : RunError)
  | returned (v : Value)
  /-- A loop is left with a value, or its next round is begun. -/
  | left (again : Bool) (v : Value)
  /-- The whole script ends with a value. -/
  | exited (v : Value)

/-- What a part of a script does. -/
abbrev Action (ρ : Type) := EStateM Interruption (Machine ρ)

namespace Action

variable {ρ α : Type}

/-- Fails at a place. -/
def fail (flaw : RunFlaw) (place : Option Place) : Action ρ α := throw (.failed { flaw, place })

/-- A value, or the flaw that stands in its place. -/
def ofExcept (place : Place) : Except RunFlaw α → Action ρ α
  | .ok a => pure a
  | .error flaw => fail flaw (some place)

/-- **Counts an operation.** A limit of zero is none. -/
def count (limit : Nat) (place : Option Place) : Action ρ Unit := do
  modify fun m => { m with operations := m.operations + 1 }
  if limit ≠ 0 && limit < (← get).operations then fail .tooManyOperations place

/-! ### Variables -/

/-- The variable with a name. -/
def find? (name : String) : Action ρ (Option Binding) := do
  return (← get).bindings.find? fun b => b.name = name

/-- A new variable. -/
def declare (name : String) (value : Value) (isConstant : Bool) : Action ρ Unit :=
  modify fun m => { m with bindings := ⟨name, value, isConstant⟩ :: m.bindings }

/-- Variables with a new value for the innermost of a name. -/
def rebind (name : String) (value : Value) : List Binding → List Binding
  | [] => []
  | b :: rest => if b.name = name then { b with value } :: rest else b :: rebind name value rest

/-- Sets a variable. -/
def assign (name : String) (value : Value) : Action ρ Unit :=
  modify fun m => { m with bindings := rebind name value m.bindings }

/-- Lets the variables go that came after the first `size`. -/
def forget (size : Nat) : Action ρ Unit :=
  modify fun m => { m with bindings := m.bindings.drop (m.bindings.length - size) }

/-- Does something whose variables are gone afterwards, whatever interrupts it. -/
def enclosed (action : Action ρ α) : Action ρ α := fun m =>
  let size := m.bindings.length
  let close (m : Machine ρ) : Machine ρ :=
    { m with bindings := m.bindings.drop (m.bindings.length - size) }
  match action m with
  | .ok a m => .ok a (close m)
  | .error i m => .error i (close m)

/-- Does something with other variables in sight, and brings the old ones back. -/
def apart (bindings : List Binding) (action : Action ρ α) : Action ρ α := fun m =>
  let back (inner : Machine ρ) : Machine ρ := { inner with bindings := m.bindings }
  match action { m with bindings } with
  | .ok a m => .ok a (back m)
  | .error i m => .error i (back m)

end Action

/-! ### Helpers -/

section Helpers

variable {ρ : Type} (around : Surroundings ρ)

/-- A random number below `bound`. -/
def drawBelow (bound : Nat) : Action ρ Nat := fun m =>
  let (high, outside) := around.draw m.outside
  let (low, outside) := around.draw outside
  .ok ((high * 2 ^ 32 + low) % max bound 1) { m with outside }

/-- Letters and digits. -/
def alphanumerics : List Char :=
  "ABCDEFGHIJKLMNOPQRSTUVWXYZabcdefghijklmnopqrstuvwxyz0123456789".toList

/-- Random letters and digits. -/
def drawText : Nat → Action ρ (List Char)
  | 0 => pure []
  | n + 1 => do
    let i ← drawBelow around alphanumerics.length
    return (alphanumerics[i]?).getD '0' :: (← drawText n)

/-- The entries of a map that is given as an option. -/
def mapOption? (options : List (String × Value)) (name : String) : Option (List (String × Value)) :=
  match Keyed.find? name options with
  | some (.map entries) => some entries
  | _ => none

/-- The texts of some values. -/
def textPairs (entries : List (String × Value)) : List (String × String) :=
  entries.map fun (name, v) => (name, v.display)

/-- The body that options describe. -/
def payloadOf (options : List (String × Value)) : Http.Payload :=
  match Keyed.find? "json" options, Keyed.find? "body" options with
  | some v, _ => .json v.toJson
  | none, some v => .text v.display
  | none, none => .empty

/-- The request that options describe. -/
def requestOf (method address : String) (options : List (String × Value)) : Http.Request where
  method := Text.asciiUpper method
  address := address
  headers := textPairs ((mapOption? options "headers").getD [])
  params := (mapOption? options "params").map textPairs
  payload := payloadOf options

/-- An answer as a script sees it. -/
def answerValue (answer : Http.Answer) : Value :=
  .map (Keyed.ofList [
    ("status_code", .int answer.status),
    ("headers", .map (Keyed.mapValues .text (Keyed.ofList answer.headers))),
    ("json", match Json.Value.ofText? answer.text with
      | some v => .ofJson v
      | none => .unit),
    ("text", .text answer.text)])

/-- Sends a request. -/
def exchange (place : Place) (method address : String) (options : List (String × Value)) :
    Action ρ Value := fun m =>
  if !Http.isMethod method then
    Action.fail (.thrown ("invalid HTTP method '" ++ method ++ "'")) (some place) m
  else
    let (result, client, outside) :=
      around.send m.client (requestOf method address options) m.outside
    let m := { m with client, outside }
    match result with
    | .ok answer => .ok (answerValue answer) m
    | .error trouble =>
      Action.fail
        (.thrown ("http request to " ++ address ++ " failed: " ++ trouble.detail)) (some place) m

/-- A random integer between two bounds. -/
def drawBetween (place : Place) (low high : Int) : Action ρ Value :=
  if high < low then
    Action.fail (.thrown ("rand_int: low " ++ toString low ++ " is greater than high " ++
      toString high)) (some place)
  else do return .int (low + (← drawBelow around (high - low + 1).toNat))

/-- The time of the world. -/
def clock : Action ρ Instant := do
  return around.now (← get).outside

/-- **The helpers of scripts.** There is no result for what is none of them. -/
def helper? (place : Place) (function : String) (arguments : List Value) :
    Option (Action ρ Value) :=
  match function, arguments with
  | "print", [v] => some do
    modify fun m => { m with printed := v.display :: m.printed }
    return .unit
  | "print", [] => some do
    modify fun m => { m with printed := "" :: m.printed }
    return .unit
  | "exit", [] => some (throw (.exited .unit))
  | "exit", [v] => some (throw (.exited v))
  | "rand_int", [.int low, .int high] => some (drawBetween around place low high)
  | "rand_float", [] => some do
    -- as many bits as a binary64 number holds exactly
    return .float ((Binary64.ofInt (← drawBelow around (2 ^ 53))).div (.ofInt (2 ^ 53)))
  | "rand_string", [.int n] => some do
    return .text (String.ofList (← drawText around n.toNat))
  | "rand_choice", [.array items] => some do
    return (items[← drawBelow around items.length]?).getD .unit
  | "timestamp", [] => some do
    return .int ((← clock around : Nat) / 1000 : Nat)
  | "timestamp_ms", [] => some do
    return .int (← clock around : Nat)
  | "now", [] => some do
    return .text (← clock around).stamp
  | "now", [.text format] => some do
    match (← clock around).format? format with
    | some s => return .text s
    | none => Action.fail (.thrown ("now: invalid time format '" ++ format ++ "'")) (some place)
  | "today", [] => some do
    return .text (← clock around).day
  | "http_get", [.text address] => some (exchange around place "GET" address [])
  | "http_post", [.text address, body] =>
    some (exchange around place "POST" address [("json", body)])
  | "http_request", [.text method, .text address, .map options] =>
    some (exchange around place method address options)
  | _, _ => none

/-- **A call of a function** that the script does not define itself. -/
def callBuiltin (limit : Nat) (place : Place) (function : String) (arguments : List Value) :
    Action ρ Applied := do
  Action.count limit (some place)
  match helper? around place function arguments with
  | some action => return ⟨← action, none⟩
  | none =>
    match builtin? function arguments with
    | some applied => Action.ofExcept place applied
    | none => Action.ofExcept place (unknownCall function arguments)

end Helpers

end Script

end Scenario
