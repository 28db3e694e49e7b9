import Scenario.Comparison
import Scenario.Pattern.Class
import Scenario.Record.Codec

/-!
# Conditions

The predicate of condition steps and condition loops: a value, an operation and what is expected.
`Condition.ofField` reads it from what a step declares, an object or its JSON text. In the text the
words `None`, `True` and `False` stand for `null`, `true` and `false`.
-/

namespace Scenario

/-- A predicate. -/
structure Condition where
  value : Json.Value := .null
  operation : String := ""
  expected : Json.Value := .null
  description : String := ""

namespace Condition

open Record

/-- Conditions as records. -/
def codec : Codec Condition where
  title := "ConditionSpec"
  start := {}
  fields := [
    .holding "value" .required Data.readJson (fun v => v) (·.value) fun v c =>
      { c with value := v },
    .holding "operation" .required Data.readText Json.Value.string (·.operation) fun v c =>
      { c with operation := v },
    .holding "except_value" .defaulted Data.readJson (fun v => v) (·.expected) fun v c =>
      { c with expected := v },
    .holding "desc" .defaulted Data.readText Json.Value.string (·.description) fun v c =>
      { c with description := v }]

/-! ### The text form -/

/-- The words of the text form and what they stand for. -/
def words : List (List Char × List Char) := [
  (['N', 'o', 'n', 'e'], ['n', 'u', 'l', 'l']),
  (['T', 'r', 'u', 'e'], ['t', 'r', 'u', 'e']),
  (['F', 'a', 'l', 's', 'e'], ['f', 'a', 'l', 's', 'e'])]

/-- The word at the beginning of a text, if it ends there, and what it stands for. -/
def wordAt? (text : List Char) : Option (List Char × List Char) :=
  words.find? fun (word, _) =>
    match Text.after? word text with
    | some rest => !(rest.head?.any Pattern.isWordChar)
    | none => false

/-- The text with its words replaced. `inWord` tells whether a word character came before, and
`skip` counts the characters that still belong to a replaced word. -/
def replaceWords (inWord : Bool) (skip : Nat) : List Char → List Char
  | [] => []
  | c :: rest =>
    match skip with
    | n + 1 => replaceWords true n rest
    | 0 =>
      match if inWord then none else wordAt? (c :: rest) with
      | some (word, replacement) => replacement ++ replaceWords true (word.length - 1) rest
      | none => c :: replaceWords (Pattern.isWordChar c) 0 rest

/-- The value of the text form. -/
def readText (text : String) : Except Fault Json.Value :=
  let plain := String.ofList (replaceWords false 0 text.toList)
  match Json.Value.ofText plain with
  | .ok v => .ok v
  | .error failure => misconfigured (.conditionNotJson (failure.place plain) failure)

/-! ### Reading a field -/

/-- The value in which the parts of a condition are looked for. -/
def declared : Option Json.Value → Except Fault Json.Value
  | none => misconfigured .conditionMissing
  | some .null => misconfigured .conditionMissing
  | some (.string s) => if Text.isAllBlank s then misconfigured .conditionMissing else readText s
  | some (.array []) => misconfigured .conditionListEmpty
  | some (.array (first :: _)) => .ok first
  | some other => .ok other

/-- **The condition of a step.** Of a list, the first item counts. -/
def ofField (field : Option Json.Value) : Except Fault Condition := do
  let found ← declared field
  match found with
  | .object members =>
    let value := (Keyed.find? "value" members).getD .null
    let operation := (Keyed.find? "operation" members).bind Json.Value.asString?
    if value.isNull || operation.isNone then misconfigured (.conditionIncomplete value operation)
    else
      match codec.ofData (Data.ofJson found) with
      | .ok condition => .ok condition
      | .error flaw => misconfigured (.invalidCondition found flaw)
  | other => misconfigured (.conditionNotObject other)

end Condition

end Scenario
