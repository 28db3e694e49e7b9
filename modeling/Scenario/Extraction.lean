import Scenario.Json.Path
import Scenario.Pattern.Search
import Scenario.Result
import Scenario.Xml.Path

/-!
# Extraction

`Output.extract` reads one value out of what a step produced: the whole source, or what an expression
selects in it. Afterwards an index may pick one item of a list.
-/

namespace Scenario

/-- What a rule may read from. -/
structure Output where
  /-- The body, if it is JSON. -/
  json : Option Json.Value
  text : String
  headers : Keyed String
  cookies : Keyed String
  /-- The merged view of all variables. -/
  pool : Json.Members

namespace Pattern

/-- One match as a text, several as a list of texts. -/
def extract (text pattern : String) : Except Fault Json.Value :=
  match read pattern with
  | .error flaw => misconfigured (.invalidPattern pattern flaw)
  | .ok node =>
    match search node text with
    | [] => .error (.execution (.noMatch pattern))
    | [found] => .ok (.string found)
    | many => .ok (.array (many.map .string))

end Pattern

namespace Output

/-- The fault of a name that a map does not have. -/
def notThere {α : Type} (what key : String) (texts : Keyed String) : Except Fault α :=
  .error (.pathNotFound (what ++ "." ++ key) key ((Keyed.keys texts).take 10))

/-- The header with a name, in any letter case; the first in key order. -/
def header (output : Output) (name : String) : Except Fault Json.Value :=
  match List.find? (fun entry => Text.sameIgnoringCase entry.1 name) output.headers with
  | some entry => .ok (.string entry.2)
  | none => notThere "headers" name output.headers

/-- The cookie with a name. -/
def cookie (output : Output) (name : String) : Except Fault Json.Value :=
  match Keyed.find? name output.cookies with
  | some v => .ok (.string v)
  | none => notThere "cookies" name output.cookies

/-- The whole of a source. -/
def whole (output : Output) : Source → Json.Value
  | .json => output.json.getD .null
  | .xml => .string output.text
  | .text => .string output.text
  | .headers => textsToJson output.headers
  | .cookies => textsToJson output.cookies
  | .pool => .object output.pool

/-- What an expression selects in a source. -/
def select (output : Output) (expression : String) : Source → Except Fault Json.Value
  | .json =>
    match output.json with
    | some body => Json.Path.find body expression
    | none => .error (.execution (.bodyNotJson expression))
  | .xml => Xml.Path.find output.text expression
  | .text => Pattern.extract output.text expression
  | .headers => output.header expression
  | .cookies => output.cookie expression
  | .pool =>
    match Keyed.find? expression output.pool with
    | some v => .ok v
    | none => .error (.unknownVariable expression)

/-- The item of a list at an index; any other value stays as it is. -/
def pick (shown : String) (v : Json.Value) (index : Option Int) : Except Fault Json.Value :=
  match v, index with
  | .array items, some i =>
    match if i < 0 then none else items[i.toNat]? with
    | some item => .ok item
    | none => .error (.indexOutOfRange ("'" ++ shown ++ "'") i items.length)
  | v, _ => .ok v

/-- An expression that says something. -/
def stated (expression : Option String) : Except Fault String :=
  match expression.map Text.trim with
  | some e => if e = "" then misconfigured .expressionNeeded else .ok e
  | none => misconfigured .expressionNeeded

/-- **Reading one value.** -/
def extract (output : Output) (source : Source) (expression range : Option String)
    (index : Option Int) : Except Fault Json.Value := do
  let found ←
    if rangeIsAll range then pure (output.whole source)
    else do output.select (← stated expression) source
  pick (expression.getD "ALL") found index

end Output

end Scenario
