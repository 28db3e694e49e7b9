import Scenario.Fault
import Scenario.Text.Integer
import Scenario.Xml.Reader

/-!
# XML paths

A path `/cat/book[2]/title` leads from the document down to elements; `text()` or `@attr` at its end
asks for texts or attribute values. Indices count from 1, within each parent. A path may select
several nodes; the value is then a list.
-/

namespace Scenario

namespace Xml

namespace Path

/-- The steps of a path; empty steps do not count. -/
def segments (path : String) : List String :=
  (Text.split '/' (Text.trim path)).filter fun s => !(s = "")

/-- An element step: a name and the text of an index. -/
def splitIndex (segment : String) : String × Option String :=
  match Text.splitOnce? '[' segment with
  | some (name, index) => (name, some (Text.trimEnd (· = ']') index))
  | none => (segment, none)

/-- A step as an element name with an index. -/
def elementStep (path segment : String) : Except Fault (String × Option Nat) :=
  match splitIndex segment with
  | (name, none) => .ok (name, none)
  | (name, some index) =>
    match Text.natural? index.toList with
    | some n => .ok (name, some n)
    | none => misconfigured (.invalidXmlIndex index path)

/-- The names of the element children, in order. -/
def childNames (node : Node) : List String :=
  node.children.filterMap Node.name?

/-- The element children with a name, in order. -/
def childrenNamed (name : String) (node : Node) : List Node :=
  node.children.filter fun child => child.name? = some name

/-- What an element step selects below one node. -/
def selectBelow (path walked name : String) (index : Option Nat) (node : Node) :
    Except Fault (List Node) :=
  let matching := childrenNamed name node
  match index with
  | none => .ok matching
  | some 0 => misconfigured (.xmlIndexZero path)
  | some (n + 1) =>
    match matching[n]? with
    | some hit => .ok [hit]
    | none =>
      -- too high an index is an error only where there are such children
      if matching.isEmpty then .ok []
      else
        .error (.indexOutOfRange ("XML path '" ++ walked ++ "'") (Text.signed64 (n + 1))
          matching.length)

/-- A list without direct repetitions. -/
def dedup : List String → List String
  | [] => []
  | [a] => [a]
  | a :: b :: rest => if a = b then dedup (b :: rest) else a :: dedup (b :: rest)

/-- What an element step selects. -/
def selectAll (path walked segment : String) (nodes : List Node) : Except Fault (List Node) := do
  let (name, index) ← elementStep path segment
  let selected ← nodes.mapM (selectBelow path walked name index)
  match selected.flatten with
  | [] =>
    .error (.pathNotFound walked name ((dedup (nodes.flatMap childNames)).take 10))
  | found => .ok found

/-- A single value, or the list of several. -/
def collapse (walked segment : String) : List String → Except Fault Json.Value
  | [] => .error (.pathNotFound walked segment [])
  | [s] => .ok (.string s)
  | many => .ok (.array (many.map .string))

/-- The texts of nodes. -/
def texts (nodes : List Node) : List String :=
  nodes.map Node.trimmedText

/-- The steps of a path after those in `walked`; `last` is the step before. -/
def follow (path walked last : String) : List String → List Node → Except Fault Json.Value
  | [], nodes => collapse walked last (texts nodes)
  | segment :: rest, nodes =>
    let walked := walked ++ "/" ++ segment
    match segment.toList with
    | '@' :: name =>
      let name := String.ofList name
      collapse walked name (nodes.filterMap (Node.attribute? name))
    | _ =>
      if segment = "text()" then collapse walked segment (texts nodes)
      else do follow path walked segment rest (← selectAll path walked segment nodes)

/-- **The value at a path** of a document. -/
def find (text path : String) : Except Fault Json.Value :=
  match read text with
  | .error flaw => .error (.execution (.malformedXml flaw))
  | .ok document =>
    match segments path with
    | [] => misconfigured (.emptyXmlPath path)
    | steps => follow path "" "" steps [document]

end Path

end Xml

end Scenario
