import Scenario.Record.Data
import Scenario.Yaml.Token

/-!
# Documents as data

A document is a node: a scalar, a list or a map. `Yaml.dataOfText?` reads the text of one document
into data.

* An unquoted scalar keeps its spelling; a tag decides what a scalar is, whatever its spelling.
* An anchor names the node behind it, and an alias stands for the node that was named last.
* Where a node may be left out there is a blank.
* The keys of a map are scalars, and stand for their text.
* Collections may be nested in one another, but not beyond `deepest`.
-/

namespace Scenario

namespace Yaml

open Record

/-- How deep collections may be nested. -/
def deepest : Nat := 128

/-- What is left of the tokens, and the nodes that have names. -/
structure Shelf where
  tokens : List Token
  named : List (String × Data) := []

/-- What reads a node; there is no result where the tokens make up none. -/
abbrev Parsing := StateT Shelf Option

/-- The data of a blank. -/
def blank : Data := .ofSpelling ""

/-- The tag of a kind of scalar, in its short and in its long form. -/
def isCoreTag (kind tag : String) : Bool :=
  tag = "!!" ++ kind || tag = "!<tag:yaml.org,2002:" ++ kind ++ ">"

/-- A scalar with a tag. -/
def taggedScalar? (tag text : String) : Option Scalar :=
  if isCoreTag "bool" tag then (Scalar.boolOfSpelling? text).map .bool
  else if isCoreTag "int" tag then (Scalar.integerOfSpelling? text).map .integer
  else if isCoreTag "float" tag then (Scalar.floatOfSpelling? text).map .float
  else if isCoreTag "null" tag then (if Scalar.spellsNull text then some .null else none)
  else some (.text text)

/-- The data of a scalar. -/
def scalarData? (tag : Option String) (text : String) (plain : Bool) : Option Data :=
  match tag.filter (· ≠ "!") with
  | none => some (if plain then .ofSpelling text else .ofText text)
  | some tag => (taggedScalar? tag text).map fun value => .scalar value (some text)

namespace Parsing

/-- The next token. -/
def next? : Parsing (Option Token) := do
  return (← get).tokens.head?

/-- Leaves out a token. -/
def drop : Parsing Unit :=
  modify fun s => { s with tokens := s.tokens.drop 1 }

/-- Leaves out a token if it comes next. -/
def takes (token : Token) : Parsing Bool := do
  let found := (← next?) = some token
  if found then drop
  return found

/-- Whether the next token is one of some. -/
def sees (tokens : List Token) : Parsing Bool := do
  return (← next?).any (· ∈ tokens)

/-- Gives a node its name. -/
def name (anchor : Option String) (d : Data) : Parsing Data := do
  match anchor with
  | some name => do
    modify fun s => { s with named := (name, d) :: s.named }
    return d
  | none => return d

/-- The anchor and the tag before a node, in any order. -/
def properties : Parsing (Option String × Option String) := do
  match ← next? with
  | some (.anchor a) => do
    drop
    match ← next? with
    | some (.tag t) => do
      drop
      return (some a, some t)
    | _ => return (some a, none)
  | some (.tag t) => do
    drop
    match ← next? with
    | some (.anchor a) => do
      drop
      return (some a, some t)
    | _ => return (none, some t)
  | _ => return (none, none)

/-- The text of a scalar that is a key. -/
def keyText : Data → Parsing String
  | .scalar _ (some text) => return text
  | .scalar (.text text) none => return text
  | _ => failure

/-- The node of a name. -/
def ofName (name : String) : Parsing Data := do
  match (← get).named.find? (·.1 = name) with
  | some (_, d) => return d
  | none => failure

/-- Where a node may stand: in a block, in a block as the value of a key, or in a flow collection.
The items of a sequence that is the value of a key need not be indented. -/
inductive Place where
  | block
  | blockValue
  | flow
deriving DecidableEq

/-- One collection more. -/
def deeper (depth : Nat) : Parsing Nat :=
  if depth < deepest then return depth + 1 else failure

/-- A node that is left out, which takes an anchor or a tag. -/
def missing (anchor tag : Option String) : Parsing Data :=
  if anchor.isNone && tag.isNone then failure
  else
    match scalarData? tag "" true with
    | some d => name anchor d
    | none => failure

mutual

/-- A node, inside of `depth` collections. -/
def node (fuel : Nat) (depth : Nat) (place : Place) : Parsing Data := do
  match fuel with
  | 0 => failure
  | fuel + 1 =>
    match ← next? with
    | some (.alias name) => do
      drop
      ofName name
    | _ => do
      let (anchor, tag) ← properties
      match ← next? with
      | some (.scalar text plain) => do
        drop
        match scalarData? tag text plain with
        | some d => name anchor d
        | none => failure
      | some .flowSequence => do
        drop
        name anchor (.list (← flowItems fuel (← deeper depth) true))
      | some .flowMapping => do
        drop
        name anchor (.map (← flowEntries fuel (← deeper depth) true))
      | some .blockSequence =>
        if place = .flow then missing anchor tag
        else do
          drop
          name anchor (.list (← blockItems fuel (← deeper depth)))
      | some .blockMapping =>
        if place = .flow then missing anchor tag
        else do
          drop
          name anchor (.map (← blockEntries fuel (← deeper depth)))
      -- the items of a sequence may be as deep as the key that they belong to
      | some .blockEntry =>
        if place = .blockValue then do
          name anchor (.list (← looseItems fuel (← deeper depth)))
        else missing anchor tag
      | _ => missing anchor tag

/-- A node that is left out before one of some tokens. -/
def nodeUnless (fuel : Nat) (depth : Nat) (place : Place) (ends : List Token) : Parsing Data := do
  match fuel with
  | 0 => failure
  | fuel + 1 => if ← sees ends then return blank else node fuel depth place

/-- The items of an indented sequence. -/
def blockItems (fuel : Nat) (depth : Nat) : Parsing (List Data) := do
  match fuel with
  | 0 => failure
  | fuel + 1 =>
    if ← takes .blockEntry then
      let d ← nodeUnless fuel depth .block [.blockEntry, .blockEnd]
      return d :: (← blockItems fuel depth)
    else if ← takes .blockEnd then return []
    else failure

/-- The items of a sequence that is not indented. -/
def looseItems (fuel : Nat) (depth : Nat) : Parsing (List Data) := do
  match fuel with
  | 0 => failure
  | fuel + 1 =>
    if ← takes .blockEntry then
      let d ← nodeUnless fuel depth .block [.blockEntry, .key, .value, .blockEnd]
      return d :: (← looseItems fuel depth)
    else return []

/-- The entries of a mapping in a block. -/
def blockEntries (fuel : Nat) (depth : Nat) : Parsing (List (String × Data)) := do
  match fuel with
  | 0 => failure
  | fuel + 1 =>
    if ← takes .key then
      let ends : List Token := [.key, .value, .blockEnd]
      let key ← keyText (← nodeUnless fuel depth .blockValue ends)
      let d ← if ← takes .value then nodeUnless fuel depth .blockValue ends else pure blank
      return (key, d) :: (← blockEntries fuel depth)
    else if ← takes .blockEnd then return []
    else failure

/-- The items of a sequence in brackets. -/
def flowItems (fuel : Nat) (depth : Nat) (first : Bool) : Parsing (List Data) := do
  match fuel with
  | 0 => failure
  | fuel + 1 =>
    if ← takes .flowSequenceEnd then return []
    else
      if !first then
        if !(← takes .flowEntry) then failure
      if ← takes .key then
        -- a pair among items is a mapping of its own
        let ends : List Token := [.value, .flowEntry, .flowSequenceEnd]
        let inner ← deeper depth
        let bare ← sees ends
        let key ← keyText (← nodeUnless fuel inner .flow ends)
        if bare then drop
        let d ← if ← takes .value then
            nodeUnless fuel inner .flow [.flowEntry, .flowSequenceEnd]
          else pure blank
        return .map [(key, d)] :: (← flowItems fuel depth false)
      -- a comma may stand before the closing bracket
      else if ← takes .flowSequenceEnd then return []
      else
        let d ← node fuel depth .flow
        return d :: (← flowItems fuel depth false)

/-- The entries of a mapping in braces. -/
def flowEntries (fuel : Nat) (depth : Nat) (first : Bool) : Parsing (List (String × Data)) := do
  match fuel with
  | 0 => failure
  | fuel + 1 =>
    if ← takes .flowMappingEnd then return []
    else
      if !first then
        if !(← takes .flowEntry) then failure
      if ← takes .key then
        -- a key alone has no value
        let key ← keyText (← nodeUnless fuel depth .flow [.value, .flowEntry, .flowMappingEnd])
        let d ← if ← takes .value then nodeUnless fuel depth .flow [.flowEntry, .flowMappingEnd]
          else pure blank
        return (key, d) :: (← flowEntries fuel depth false)
      else if ← takes .flowMappingEnd then return []
      else
        let key ← keyText (← node fuel depth .flow)
        return (key, blank) :: (← flowEntries fuel depth false)

end

/-- Leaves out the directives before a document; the result says whether there are any. -/
def directives : (fuel : Nat) → Bool → Parsing Bool
  | 0, found => return found
  | fuel + 1, found => do
    if ← takes .directive then directives fuel true else return found

/-- Leaves out marks at which documents end. -/
def endMarks : (fuel : Nat) → Parsing Unit
  | 0 => return ()
  | fuel + 1 => do
    if ← takes .documentEnd then endMarks fuel

/-- The node of a text with one document; a text without any document is a blank. -/
def document (fuel : Nat) : Parsing Data := do
  if ← takes .streamEnd then return blank
  let directed ← directives fuel false
  let marked ← takes .documentStart
  if directed && !marked then failure
  let d ← if marked then
      nodeUnless fuel 0 .block [.directive, .documentStart, .documentEnd, .streamEnd]
    else node fuel 0 .block
  endMarks fuel
  if ← takes .streamEnd then return d else failure

end Parsing

/-- **The data of a document.** -/
def dataOfText? (text : String) : Option Data :=
  (tokens? text).bind fun tokens =>
    ((Parsing.document (4 * tokens.length + 8)).run { tokens }).map Prod.fst

end Yaml

end Scenario
