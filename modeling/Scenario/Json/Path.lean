import Scenario.Fault
import Scenario.Text.Integer

/-!
# JSON paths

A path `$.a.0.b`, also written `$.a[0].b`, leads from a value to one of its parts. `segments` reads
the steps, `step` follows one of them, and `follow` all of them; the first step that cannot be
followed decides the fault, which names the path up to that step.
-/

namespace Scenario

namespace Json

namespace Path

/-- Brackets as dots: an opening bracket is one, a closing bracket is nothing. -/
def plain (text : List Char) : List Char :=
  (text.map fun c => if c = '[' then '.' else c).filter fun c => !(c = ']')

/-- The steps of a path after its root; empty steps do not count. -/
def segments (text : List Char) : List String :=
  ((Text.splitOnChar '.' (plain text)).filter fun s => !s.isEmpty).map String.ofList

/-- The path of the given steps. -/
def spell (segments : List String) : String :=
  "$." ++ ".".intercalate segments

/-- The first keys of an object, as many as a fault shows. -/
def shownKeys (keys : List String) : List String :=
  keys.take 10

/-- **One step,** the last of the steps in `walked`. -/
def step (walked : List String) (segment : String) : Value → Except Fault Value
  | .object members =>
    match Keyed.find? segment members with
    | some v => .ok v
    | none => .error (.pathNotFound (spell walked) segment (shownKeys (Keyed.keys members)))
  | .array items =>
    match Text.natural? segment.toList with
    | none => .error (.pathType (spell walked) segment "list")
    | some i =>
      match items[i]? with
      | some v => .ok v
      | none =>
        -- the message shows an index as a signed number of 64 bits
        .error (.indexOutOfRange ("path '" ++ spell walked ++ "'") (Text.signed64 i) items.length)
  | v => .error (.pathType (spell walked) segment v.kindName)

/-- The steps after those in `walked`. -/
def follow (walked : List String) : List String → Value → Except Fault Value
  | [], v => .ok v
  | segment :: rest, v => do
    let walked := walked ++ [segment]
    follow walked rest (← step walked segment v)

/-- **The part of a value** at a path. -/
def find (root : Value) (path : String) : Except Fault Value :=
  let trimmed := Text.trim path
  match trimmed.toList with
  | '$' :: rest => follow [] (segments rest) root
  | _ => misconfigured (.jsonPathWithoutRoot trimmed)

end Path

end Json

end Scenario
