import Scenario.Fault
import Scenario.Record.Codec
import Scenario.Step

/-!
# Extraction and assertion rules

A step may list values to extract from its output and assertions to check against it. Both kinds of
rule name a source, an expression that leads into it, and an index into a list that is found.
-/

namespace Scenario

/-- Where a rule reads from. -/
inductive Source where
  | json
  | xml
  | text
  | headers
  | cookies
  | pool
deriving DecidableEq, Repr

namespace Source

/-- The sources with their spellings in lower case. -/
def spellings : List (Source × List String) := [
  (json, ["response json", "json", "body"]),
  (xml, ["response xml", "xml"]),
  (text, ["response text", "text"]),
  (headers, ["response headers", "response header", "headers", "header"]),
  (cookies, ["response cookies", "response cookie", "cookies", "cookie"]),
  (pool, ["variables pool", "variables", "variable"])]

/-- The source that a text names, in any letter case. -/
def ofText? (text : String) : Option Source :=
  spelledAs? spellings (Text.asciiLower text)

/-- The name of a source. -/
def name : Source → String
  | json => "Response Json"
  | xml => "Response XML"
  | text => "Response Text"
  | headers => "Response Headers"
  | cookies => "Response Cookies"
  | pool => "Variables Pool"

/-- The declared source; without one, the JSON body. -/
def ofDeclared : Option String → Except Fault Source
  | none => .ok .json
  | some declared =>
    if Text.isAllBlank declared then .ok .json
    else
      match ofText? declared with
      | some source => .ok source
      | none => misconfigured (.unsupportedSource declared)

end Source

/-- Whether a range asks for the whole source. -/
def rangeIsAll : Option String → Bool
  | none => false
  | some range => Text.sameIgnoringCase (Text.trim range) "all"

/-- A variable to extract. -/
structure ExtractRule where
  name : String := ""
  source : Option String := none
  expression : Option String := none
  range : Option String := none
  index : Option Int := none

/-- An assertion to check. -/
structure AssertRule where
  name : Option String := none
  source : Option String := none
  expression : Option String := none
  operation : String := ""
  expected : Json.Value := .null
  range : Option String := none
  index : Option Int := none

section Codecs

open Record

/-- A field with an optional text. -/
def optionalText {ρ : Type} (name : String) (get : ρ → Option String)
    (set : Option String → ρ → ρ) : FieldCodec ρ :=
  .holding name .defaulted (Data.readOption Data.readText) (Json.Value.ofOption Json.Value.string)
    get set

/-- A field with an optional integer. -/
def optionalInteger {ρ : Type} (name : String) (get : ρ → Option Int)
    (set : Option Int → ρ → ρ) : FieldCodec ρ :=
  .holding name .defaulted (Data.readOption Data.readInt) (Json.Value.ofOption Json.Value.ofInt)
    get set

/-- Extraction rules as records. -/
def ExtractRule.codec : Codec ExtractRule where
  title := "ExtractRule"
  start := {}
  fields := [
    .holding "name" .required Data.readText Json.Value.string (·.name) fun v r =>
      { r with name := v },
    optionalText "source" (·.source) fun v r => { r with source := v },
    optionalText "expr" (·.expression) fun v r => { r with expression := v },
    optionalText "range" (·.range) fun v r => { r with range := v },
    optionalInteger "index" (·.index) fun v r => { r with index := v }]

/-- Assertion rules as records. -/
def AssertRule.codec : Codec AssertRule where
  title := "AssertRule"
  start := {}
  fields := [
    optionalText "name" (·.name) fun v r => { r with name := v },
    optionalText "source" (·.source) fun v r => { r with source := v },
    optionalText "expr" (·.expression) fun v r => { r with expression := v },
    .holding "operation" .required Data.readText Json.Value.string (·.operation) fun v r =>
      { r with operation := v },
    .holding "except_value" .defaulted Data.readJson (fun v => v) (·.expected) fun v r =>
      { r with expected := v },
    optionalText "range" (·.range) fun v r => { r with range := v },
    optionalInteger "index" (·.index) fun v r => { r with index := v }]

/-- One rule. -/
def readRule {ρ : Type} (codec : Codec ρ) (field : String) (entry : Json.Value) :
    Except Fault ρ :=
  match codec.ofData (Data.ofJson entry) with
  | .ok rule => .ok rule
  | .error flaw => misconfigured (.invalidRule field entry flaw)

/-- The rules of a field: a list of them, a single one, or none. -/
def readRules {ρ : Type} (codec : Codec ρ) (field : String) :
    Option Json.Value → Except Fault (List ρ)
  | none => .ok []
  | some .null => .ok []
  | some (.array entries) => entries.mapM (readRule codec field)
  | some (.object members) => do return [← readRule codec field (.object members)]
  | some other => misconfigured (.rulesNotList field other)

end Codecs

namespace StepFields

/-- The kind of a step; a step without a known kind is misconfigured. -/
def declaredKind (step : StepFields) : Except Fault StepKind :=
  match step.kind with
  | none => misconfigured (.kindMissing step.key)
  | some declared =>
    if Text.isAllBlank declared then misconfigured (.kindMissing step.key)
    else
      match StepKind.ofText? declared with
      | some kind => .ok kind
      | none => misconfigured (.unsupportedKind step.key declared)

/-- The extraction rules of a step. -/
def extractRules (step : StepFields) : Except Fault (List ExtractRule) :=
  readRules ExtractRule.codec "extract_variables" step.extractVariables

/-- The assertion rules of a step. -/
def assertRules (step : StepFields) : Except Fault (List AssertRule) :=
  readRules AssertRule.codec "assert_validators" step.assertValidators

end StepFields

end Scenario
