import Scenario.Record.Tree
import Scenario.Json.Printer
import Scenario.Text.Blank

/-!
# Steps

A case is a forest of steps. What a step says is kept as it was declared: kind, loop mode and
strategy stay texts, so that one that is not known is a fault of the step that has it and not of the
whole case.

* `StepKind`, `LoopMode` and `LoopStrategy` are the closed sets behind those texts.
* `Step.key` names a step in logs and results.
* `Step.ordered` is the order in which the steps of a list run: by number, steps without a number as
  if they had the number zero, and steps with equal numbers as they stand.
-/

namespace Scenario

/-! ### Closed sets -/

/-- The value that has `text`, up to blanks, among its spellings. -/
def spelledAs? {α : Type} (spellings : List (α × List String)) (text : String) : Option α :=
  let trimmed := Text.trim text
  (spellings.find? fun (_, names) => trimmed ∈ names).map Prod.fst

/-- What a step does. -/
inductive StepKind where
  | http
  | script
  | wait
  | condition
  | loop
  | inclusion
  | tcp
  | database
  | group
deriving DecidableEq, Repr

namespace StepKind

/-- The kinds with their spellings. -/
def spellings : List (StepKind × List String) := [
  (http, ["http", "HTTP", "HTTP请求", "HTTP/HTTPS协议网络请求"]),
  (script, ["script", "执行代码请求", "执行代码请求(Python)"]),
  (wait, ["wait", "等待控制"]),
  (condition, ["condition", "if", "条件分支"]),
  (loop, ["loop", "循环结构"]),
  (inclusion, ["quote", "include", "引用公共用例"]),
  (tcp, ["tcp", "TCP", "TCP请求"]),
  (database, ["database", "数据库请求"]),
  (group, ["group", "default", "默认"])]

/-- The kind that a text declares. -/
def ofText? (text : String) : Option StepKind :=
  spelledAs? spellings text

/-- The name of a kind. -/
def name : StepKind → String
  | http => "http"
  | script => "script"
  | wait => "wait"
  | condition => "condition"
  | loop => "loop"
  | inclusion => "quote"
  | tcp => "tcp"
  | database => "database"
  | group => "group"

/-- Whether a step of the kind may have children. -/
def allowsChildren : StepKind → Bool
  | condition | loop | group => true
  | _ => false

end StepKind

/-- How a loop goes on. -/
inductive LoopMode where
  | count
  | iterable
  | dict
  | condition
deriving DecidableEq, Repr

namespace LoopMode

def spellings : List (LoopMode × List String) := [
  (count, ["count", "次数循环"]),
  (iterable, ["iterable", "对象循环"]),
  (dict, ["dict", "字典循环"]),
  (condition, ["condition", "条件循环"])]

/-- The mode that a text declares. -/
def ofText? (text : String) : Option LoopMode :=
  spelledAs? spellings text

/-- The name of a mode. -/
def name : LoopMode → String
  | count => "count"
  | iterable => "iterable"
  | dict => "dict"
  | condition => "condition"

/-- The name of a mode as a label. -/
def label : LoopMode → String
  | count => "Count"
  | iterable => "Iterable"
  | dict => "Dict"
  | condition => "Condition"

end LoopMode

/-- What a loop does when a child fails. -/
inductive LoopStrategy where
  /-- Goes on with the next iteration. -/
  | continue
  /-- Ends the loop. -/
  | break
  /-- Ends the whole case. -/
  | stop
deriving DecidableEq, Repr

namespace LoopStrategy

def spellings : List (LoopStrategy × List String) := [
  (.continue, ["continue", "继续下一次循环"]),
  (.break, ["break", "中断循环"]),
  (stop, ["stop", "停止整个用例执行"])]

/-- The strategy that a text declares. -/
def ofText? (text : String) : Option LoopStrategy :=
  spelledAs? spellings text

/-- The name of a strategy. -/
def name : LoopStrategy → String
  | .continue => "continue"
  | .break => "break"
  | stop => "stop"

/-- The name of a strategy as a label. -/
def label : LoopStrategy → String
  | .continue => "Continue"
  | .break => "Break"
  | stop => "Stop"

end LoopStrategy

/-! ### Steps -/

/-- What a step says of itself. -/
structure StepFields where
  id : Option Int := none
  /-- The place among its siblings. -/
  number : Option Int := none
  code : Option String := none
  name : Option String := none
  kind : Option String := none
  parentId : Option Int := none
  /-- The case whose steps run in place of this step's children. -/
  includedCase : Option Int := none
  project : Option String := none
  address : Option String := none
  method : Option String := none
  port : Option Nat := none
  header : Option Json.Value := none
  params : Option Json.Value := none
  body : Option Json.Value := none
  text : Option String := none
  formData : Option Json.Value := none
  formUrlencoded : Option Json.Value := none
  script : Option String := none
  wait : Option Json.Value := none
  conditions : Option Json.Value := none
  loopMode : Option String := none
  loopOnError : Option String := none
  loopMaximums : Option Json.Value := none
  loopInterval : Option Binary64 := none
  loopTimeout : Option Binary64 := none
  loopIterable : Option Json.Value := none
  loopIndexName : Option Json.Value := none
  loopKeyName : Option String := none
  loopValueName : Option String := none
  definedVariables : Option Json.Members := none
  extractVariables : Option Json.Value := none
  assertValidators : Option Json.Value := none
deriving Inhabited

/-- A step: what it says of itself, and its children. -/
structure Step extends StepFields where
  children : List Step
deriving Inhabited

/-- A step is bigger than those below it. -/
theorem Step.sizeOf_child {step child : Step} (h : child ∈ step.children) :
    sizeOf child < sizeOf step := by
  obtain ⟨fields, children⟩ := step
  have hchild : sizeOf child < sizeOf children := List.sizeOf_lt_of_mem h
  rw [Step.mk.sizeOf_spec]
  omega

/-- The key of a step: its code if it has one, otherwise its id and number. -/
def stepKey (code : Option String) (id number : Option Int) : String :=
  let shown (n : Option Int) : String := (n.map toString).getD ""
  let numbered := shown id ++ "-" ++ shown number
  match code with
  | some code => if code = "" then numbered else code
  | none => numbered

namespace StepFields

/-- **The key** of a step in logs, results and iteration counts. -/
def key (step : StepFields) : String :=
  stepKey step.code step.id step.number

/-- The name of a step, empty if it has none. -/
def title (step : StepFields) : String :=
  step.name.getD ""

/-- The kind of a step, if the declared one is known. -/
def kind? (step : StepFields) : Option StepKind :=
  step.kind.bind StepKind.ofText?

/-- The number by which siblings are ordered. -/
def rank (step : StepFields) : Int :=
  step.number.getD 0

end StepFields

/-- **Running order:** a list sorted by `rank`; equal ranks keep their order. -/
def orderedBy {α : Type} (rank : α → Int) (items : List α) : List α :=
  items.mergeSort fun a b => rank a ≤ rank b

/-- The steps of a list in running order. -/
def Step.ordered (steps : List Step) : List Step :=
  orderedBy (fun step => step.rank) steps

/-! ### The record -/

namespace StepFields

open Record

/-- A field with an optional integer. -/
def integerField (name : String) (get : StepFields → Option Int)
    (set : Option Int → StepFields → StepFields) : FieldCodec StepFields :=
  .holding name .defaulted (Data.readOption Data.readInt) (Json.Value.ofOption Json.Value.ofInt)
    get set

/-- A field with an optional text. -/
def textField (name : String) (get : StepFields → Option String)
    (set : Option String → StepFields → StepFields) : FieldCodec StepFields :=
  .holding name .defaulted (Data.readOption Data.readText) (Json.Value.ofOption Json.Value.string)
    get set

/-- A field with an optional value of any kind. -/
def valueField (name : String) (get : StepFields → Option Json.Value)
    (set : Option Json.Value → StepFields → StepFields) : FieldCodec StepFields :=
  .holding name .defaulted (Data.readOption Data.readJson) (Json.Value.ofOption fun v => v) get set

/-- A field with an optional number of seconds. -/
def secondsField (name : String) (get : StepFields → Option Binary64)
    (set : Option Binary64 → StepFields → StepFields) : FieldCodec StepFields :=
  .holding name .defaulted (Data.readOption Data.readNumber)
    (Json.Value.ofOption Json.Value.ofBinary64) get set

/-- A text, or any other value as JSON text. -/
def readTextOrValue (d : Data) : Except Flaw (Option String) :=
  match d.toJson with
  | .null => .ok none
  | .string s => .ok (some s)
  | v => .ok (some v.compact)

/-- The fields of a step but its children. -/
def codec : Codec StepFields where
  title := "StepRecord"
  start := {}
  fields := [
    (integerField "step_id" (·.id) fun v s => { s with id := v }).orAs ["id"],
    integerField "step_no" (·.number) fun v s => { s with number := v },
    textField "step_code" (·.code) fun v s => { s with code := v },
    textField "step_name" (·.name) fun v s => { s with name := v },
    (textField "step_type" (·.kind) fun v s => { s with kind := v }).orAs ["kind"],
    integerField "parent_step_id" (·.parentId) fun v s => { s with parentId := v },
    integerField "quote_case_id" (·.includedCase) fun v s => { s with includedCase := v },
    .holding "request_project" .defaulted readTextOrValue (Json.Value.ofOption Json.Value.string)
      (·.project) fun v s => { s with project := v },
    textField "request_url" (·.address) fun v s => { s with address := v },
    textField "request_method" (·.method) fun v s => { s with method := v },
    .holding "request_port" .defaulted (Data.readOption (Data.readNat 32 "u32"))
      (Json.Value.ofOption Json.Value.ofNat) (·.port) fun v s => { s with port := v },
    valueField "request_header" (·.header) fun v s => { s with header := v },
    valueField "request_params" (·.params) fun v s => { s with params := v },
    valueField "request_body" (·.body) fun v s => { s with body := v },
    textField "request_text" (·.text) fun v s => { s with text := v },
    valueField "request_form_data" (·.formData) fun v s => { s with formData := v },
    valueField "request_form_urlencoded" (·.formUrlencoded) fun v s =>
      { s with formUrlencoded := v },
    textField "code" (·.script) fun v s => { s with script := v },
    valueField "wait" (·.wait) fun v s => { s with wait := v },
    valueField "conditions" (·.conditions) fun v s => { s with conditions := v },
    textField "loop_mode" (·.loopMode) fun v s => { s with loopMode := v },
    textField "loop_on_error" (·.loopOnError) fun v s => { s with loopOnError := v },
    valueField "loop_maximums" (·.loopMaximums) fun v s => { s with loopMaximums := v },
    secondsField "loop_interval" (·.loopInterval) fun v s => { s with loopInterval := v },
    secondsField "loop_timeout" (·.loopTimeout) fun v s => { s with loopTimeout := v },
    valueField "loop_iterable" (·.loopIterable) fun v s => { s with loopIterable := v },
    valueField "loop_iter_idx" (·.loopIndexName) fun v s => { s with loopIndexName := v },
    textField "loop_iter_key" (·.loopKeyName) fun v s => { s with loopKeyName := v },
    textField "loop_iter_val" (·.loopValueName) fun v s => { s with loopValueName := v },
    .holding "defined_variables" .defaulted (Data.readOption Data.readMembers)
      (Json.Value.ofOption Json.Value.object) (·.definedVariables) fun v s =>
        { s with definedVariables := v },
    valueField "extract_variables" (·.extractVariables) fun v s =>
      { s with extractVariables := v },
    (valueField "assert_validators" (·.assertValidators) fun v s =>
      { s with assertValidators := v }).orAs ["validators"]]

end StepFields

namespace Step

/-- Steps as records with children. -/
def codec : Record.TreeCodec StepFields Step :=
  ⟨StepFields.codec, fun fields children => ⟨fields, children⟩⟩

/-- **Reading a step.** -/
def ofData (d : Record.Data) : Except Record.Flaw Step :=
  codec.ofData d

mutual

/-- **Writing a step.** -/
def write : Step → Json.Value
  | ⟨fields, children⟩ =>
    .object (StepFields.codec.members fields ++ [("children", .array (writeAll children))])

def writeAll : List Step → List Json.Value
  | [] => []
  | step :: rest => write step :: writeAll rest

end

end Step

end Scenario
