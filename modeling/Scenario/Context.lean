import Scenario.Case
import Scenario.Fault
import Scenario.Http.Client
import Scenario.Placeholder
import Scenario.Report
import Scenario.Settings
import Scenario.Text.Quoted

/-!
# The context of a run

What a run carries from step to step. Variables live in three scopes:

* `defined` holds what the steps around the running one declare;
* `session` holds what the run has gathered so far;
* `extract` holds what the running step has produced.

`Context.lookup` asks them in this order, and `Context.snapshot` merges them so that the same one
wins.
-/

namespace Scenario

/-- A place where variables live. -/
inductive Scope where
  | defined
  | session
  | extract
deriving DecidableEq, Repr

namespace Scope

/-- The name of a scope as a label. -/
def label : Scope → String
  | defined => "Defined"
  | session => "Session"
  | extract => "Extract"

/-- The scope with a name, up to blanks. -/
def ofText (text : String) : Except Fault Scope :=
  match Text.trim text with
  | "defined" | "defined_variables" => .ok defined
  | "session" | "session_variables" => .ok session
  | "extract" | "extract_variables" => .ok extract
  | other => misconfigured (.invalidScope other)

end Scope

/-- The context of a run. -/
structure Context where
  case : CaseHeader := {}
  environment : Option String := none
  /-- The report that the run writes to, if it writes one. -/
  reportCode : Option String := none
  settings : Settings := {}
  defined : Json.Members := []
  session : Json.Members := []
  extract : Json.Members := []
  logs : Trace := []
  /-- The key of the running step, under which lines are logged. -/
  key : Option String := none
  /-- The iteration in which a step runs, by its key. -/
  iterations : Keyed Nat := []
  /-- The cases that are being run, outermost first. -/
  including : List Int := []
  /-- The client, once it has been opened. -/
  client : Option Http.Client := none

namespace Context

/-- The context at the start of the run of a case. -/
def start (case : CaseHeader) (settings : Settings) : Context :=
  { case, settings, including := case.id.toList }

/-! ### Variables -/

/-- The variables of a scope. -/
def scope (ctx : Context) : Scope → Json.Members
  | .defined => ctx.defined
  | .session => ctx.session
  | .extract => ctx.extract

/-- Writes variables into a scope. -/
def extend (ctx : Context) (data : Json.Members) : Scope → Context
  | .defined => { ctx with defined := Keyed.extend ctx.defined data }
  | .session => { ctx with session := Keyed.extend ctx.session data }
  | .extract => { ctx with extract := Keyed.extend ctx.extract data }

/-- **Lookup:** the defined variables first, then the session, then what the step extracted. -/
def lookup (ctx : Context) (name : String) : Option Json.Value :=
  (Keyed.find? name ctx.defined <|> Keyed.find? name ctx.session) <|> Keyed.find? name ctx.extract

/-- The value of a name, which must be known; a null is a value. -/
def valueOf (ctx : Context) (name : String) : Except Fault Json.Value :=
  if Text.isAllBlank name then misconfigured .emptyVariableName
  else
    match ctx.lookup name with
    | some v => .ok v
    | none => .error (.unknownVariable name)

/-- All variables in one view, with the precedence of `lookup`. -/
def snapshot (ctx : Context) : Json.Members :=
  Keyed.extend (Keyed.extend ctx.extract ctx.session) ctx.defined

/-! ### Logs and iterations -/

/-- The context with a line more under a key. -/
def logged (ctx : Context) (key : String) (line : LogLine) : Context :=
  { ctx with logs := Keyed.insert key ((Keyed.find? key ctx.logs).getD [] ++ [line]) ctx.logs }

/-- The lines of a step. -/
def linesOf (ctx : Context) (key : String) : List LogLine :=
  (Keyed.find? key ctx.logs).getD []

/-- The iteration in which a step runs. -/
def iteration (ctx : Context) (key : String) : Nat :=
  (Keyed.find? key ctx.iterations).getD 1

/-- Sets the iteration in which a step runs. -/
def setIteration (ctx : Context) (key : String) (n : Nat) : Context :=
  { ctx with iterations := Keyed.insert key n ctx.iterations }

section

variable (ctx : Context) {key k : String}

@[simp] theorem iteration_setIteration (i : Nat) : (ctx.setIteration key i).iteration key = i := by
  unfold iteration setIteration
  rw [Keyed.find?_insert, if_pos rfl]
  rfl

theorem iteration_setIteration_ne (h : k ≠ key) {i : Nat} :
    (ctx.setIteration key i).iteration k = ctx.iteration k := by
  unfold iteration setIteration
  rw [Keyed.find?_insert, if_neg (Ne.symm h)]

end

/-! ### Inclusion -/

/-- **Entering a case.** A case that is being run cannot be entered again. -/
def enter (ctx : Context) (id : Int) : Except Fault Context :=
  if id ∈ ctx.including then misconfigured (.circularInclusion (ctx.including ++ [id]))
  else .ok { ctx with including := ctx.including ++ [id] }

/-- Leaving a case, if it is the one entered last. -/
def leave (ctx : Context) (id : Int) : Context :=
  if ctx.including.getLast? = some id then { ctx with including := ctx.including.dropLast } else ctx

/-! ### A look inside -/

/-- An optional text. -/
def showOption : Option String → String
  | none => "None"
  | some s => "Some(" ++ Text.Quoted.encode s ++ ")"

mutual

/-- A value with the kinds of its parts. -/
def showValue : Json.Value → String
  | .null => "Null"
  | .bool b => "Bool(" ++ (if b then "true" else "false") ++ ")"
  | .number n => "Number(" ++ n.text ++ ")"
  | .string s => "String(" ++ Text.Quoted.encode s ++ ")"
  | .array items => "Array " ++ Text.Quoted.list (showItems items)
  | .object members => "Object \x7b" ++ ", ".intercalate (showMembers members) ++ "\x7d"

def showItems : List Json.Value → List String
  | [] => []
  | v :: rest => showValue v :: showItems rest

def showMembers : List (String × Json.Value) → List String
  | [] => []
  | (k, v) :: rest => (Text.Quoted.encode k ++ ": " ++ showValue v) :: showMembers rest

end

/-- The context in one line, as it is shown for diagnosis. -/
def inspect (ctx : Context) : String :=
  "ExecutionContext \x7b case: " ++ Text.Quoted.encode ctx.case.code ++
    ", environment: " ++ showOption ctx.environment ++
    ", report_code: " ++ showOption ctx.reportCode ++
    ", session: \x7b" ++ ", ".intercalate (showMembers ctx.session) ++ "\x7d" ++
    ", client_open: " ++ (if ctx.client.isSome then "true" else "false") ++ ", .. \x7d"

end Context

end Scenario
