import Scenario.Step

/-!
# The structure of a step forest

Before a case runs, its forest is checked as a whole: every step has a known kind, no two siblings
share a number, only conditions, loops and groups have children, and no step with a code appears
inside a step of the same key. `structuralErrors` lists all violations; `validate` is the gate.
-/

namespace Scenario

/-- A violation of the structure. -/
inductive StructuralError where
  | repeatedNumber (number : Int) (parent : Option String)
  | kindMissing (key : String)
  | unsupportedKind (key kind : String)
  | childrenNotAllowed (key : String) (kind : StepKind)
  | insideItself (path : List String) (key : String)
deriving DecidableEq, Repr

/-- The wording of a violation. -/
def StructuralError.message : StructuralError → String
  | repeatedNumber number parent =>
    "duplicate step_no " ++ toString number ++ " among the children of " ++
      (match parent with
        | none => "root"
        | some key => "step '" ++ key ++ "'")
  | kindMissing key => "step '" ++ key ++ "' has no step_type"
  | unsupportedKind key kind => "step '" ++ key ++ "' has unsupported step_type '" ++ kind ++ "'"
  | childrenNotAllowed key kind =>
    "step '" ++ key ++ "' of type " ++ kind.name ++ " cannot have children"
  | insideItself path key =>
    "step '" ++ key ++ "' appears inside itself: " ++ " -> ".intercalate path ++ " -> " ++ key

namespace Structure

/-- What is wrong with the declared kind of a step. -/
def kindErrors (step : StepFields) : List StructuralError :=
  match step.kind.map Text.trim with
  | none => [.kindMissing step.key]
  | some declared =>
    if declared = "" then [.kindMissing step.key]
    else if (StepKind.ofText? declared).isNone then [.unsupportedKind step.key declared]
    else []

/-- What is wrong with a step that has children. -/
def parentErrors (step : StepFields) (hasChildren : Bool) : List StructuralError :=
  match step.kind? with
  | some kind =>
    if hasChildren && !kind.allowsChildren then [.childrenNotAllowed step.key kind] else []
  | none => []

/-- What is wrong with the number of a step after siblings with the numbers `seen`. -/
def numberErrors (parent : Option String) (seen : List Int) (number : Option Int) :
    List StructuralError :=
  match number with
  | some n => if n ∈ seen then [.repeatedNumber n parent] else []
  | none => []

mutual

/-- The violations in a step and below it; `path` holds the keys of the steps around it. -/
def stepErrors (path : List String) : Step → List StructuralError
  | ⟨fields, children⟩ =>
    let own := kindErrors fields ++ parentErrors fields (!children.isEmpty)
    if fields.code.isSome && fields.key ∈ path then own ++ [.insideItself path fields.key]
    else own ++ siblingErrors (some fields.key) (path ++ [fields.key]) [] children

/-- The violations in a list of siblings; `seen` holds the numbers of those before. -/
def siblingErrors (parent : Option String) (path : List String) (seen : List Int) :
    List Step → List StructuralError
  | [] => []
  | ⟨fields, children⟩ :: rest =>
    numberErrors parent seen fields.number ++ stepErrors path ⟨fields, children⟩ ++
      siblingErrors parent path (fields.number.toList ++ seen) rest

end

end Structure

/-- **All violations** in a forest, in the order of its steps. -/
def structuralErrors (steps : List Step) : List StructuralError :=
  Structure.siblingErrors none [] [] steps

/-- Why a case does not run at all. -/
inductive EngineError where
  | invalidTree (errors : List StructuralError)
  | reportNotCreated (caseCode reason : String)

/-- The wording of an engine error. -/
def EngineError.message : EngineError → String
  | invalidTree errors =>
    "invalid step tree: " ++ "; ".intercalate (errors.map StructuralError.message)
  | reportNotCreated caseCode reason =>
    "failed to create report for case " ++ caseCode ++ ": " ++ reason

/-- **The gate:** only a forest without violations may run. -/
def validate (steps : List Step) : Except EngineError Unit :=
  match structuralErrors steps with
  | [] => .ok ()
  | errors => .error (.invalidTree errors)

end Scenario
