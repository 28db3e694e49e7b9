import Scenario.Script.Machine

/-!
# Evaluation of scripts

What expressions and statements do on a `Machine`. The keys and arguments of a chain are evaluated
before its root; a step that changes a value changes the variable that the value is a part of.

`fuel` bounds how deep evaluation may go, a round of a loop being one level deeper than the round
before it. A script that runs out of it is stopped like one that takes too many operations.
-/

namespace Scenario

namespace Script

/-- A step of a chain whose key or arguments are known. -/
inductive Move where
  | property (name : String) (lenient : Bool) (place : Place)
  | method (name : String) (arguments : List Value) (lenient : Bool) (place : Place)
  /-- `inside` is the place of the key. -/
  | index (key : Value) (lenient : Bool) (inside place : Place)

/-- Whether a chain ends before a step, at a unit. -/
def Move.stopsAt (v : Value) : Move → Bool
  | .property _ lenient _ => lenient && v.same .unit
  | .method _ _ lenient _ => lenient && v.same .unit
  | .index _ lenient _ _ => lenient && v.same .unit

/-- What a loop goes through. -/
inductive Sequence where
  | items (values : List Value)
  | numbers (low : Int) (count : Nat)

/-- What can be gone through in a value. -/
def Sequence.of? : Value → Option Sequence
  | .array vs => some (.items vs)
  | .text s => some (.items (s.toList.map .char))
  | .range low high closed =>
    some (.numbers low ((high - low).toNat + (if closed && low ≤ high then 1 else 0)))
  | _ => none

/-- The first value of a sequence, and the rest. -/
def Sequence.next? : Sequence → Option (Value × Sequence)
  | .items [] => none
  | .items (v :: rest) => some (v, .items rest)
  | .numbers _ 0 => none
  | .numbers low (count + 1) => some (.int low, .numbers (low + 1) count)

/-- Whether a value is the one of a case. -/
def isCase (v : Value) : Value → Bool
  | .range low high closed =>
    match v with
    | .int n => low ≤ n && (if closed then n ≤ high else n < high)
    | _ => false
  | w => v.typeName = w.typeName && v.same w

/-- How deep calls of functions may go. -/
def callLimit : Nat := 64

/-- The rules under which a script runs. -/
structure Rules (ρ : Type) where
  around : Surroundings ρ
  /-- The number of operations it may take. -/
  limit : Nat
  functions : List Function

section

variable {ρ : Type} (rules : Rules ρ)

/-- A truth value at a place. -/
def truth (place : Place) : Value → Action ρ Bool
  | .bool b => pure b
  | v => Action.fail (.wrongType v.typeName "bool") (some place)

/-- The value of a variable. -/
def valueOfVariable (name : String) (place : Place) : Action ρ Value := do
  match ← Action.find? name with
  | some b => return b.value
  | none => Action.fail (.unknownVariable name) (some place)

/-- The function that a script defines under a name. -/
def ownFunction? (name : String) (arity : Nat) : Option Function :=
  rules.functions.find? fun f => f.name = name && f.parameters.length = arity

/-- An interruption as the caller of a function at a place sees it. -/
def afterCall (name : String) (place : Option Place) : Interruption → Except Interruption Value
  | .returned v => .ok v
  | .left _ v => .ok v
  | .exited v => .error (.exited v)
  | .failed e =>
    if e.flaw.isLimit then .error (.failed { e with place })
    else .error (.failed { e with calls := e.calls ++ [(name, place)] })

/-- Runs the body of a function. -/
def calling (name : String) (place : Option Place) (body : Action ρ Value) : Action ρ Value :=
  fun m =>
    match body m with
    | .ok v m => .ok v m
    | .error i m =>
      match afterCall name place i with
      | .ok v => .ok v m
      | .error i => .error i m

/-- One round of a loop: whether the loop goes on, or with what value it ends. -/
def round (body : Action ρ Value) : Action ρ (Option Value) := fun m =>
  match body m with
  | .ok _ m => .ok none m
  | .error (.left true _) m => .ok none m
  | .error (.left false v) m => .ok (some v) m
  | .error i m => .error i m

/-- Stops a script that goes too deep. -/
def exhausted {α : Type} : Action ρ α := Action.fail .tooManyOperations none

mutual

/-- The value of an expression. -/
def evalExpr (fuel level : Nat) (e : Expr) : Action ρ Value :=
  match fuel with
  | 0 => exhausted
  | fuel + 1 => do
    Action.count rules.limit (some e.place)
    evalWithin fuel level e

/-- The value of an expression that has been counted. -/
def evalWithin (fuel level : Nat) (e : Expr) : Action ρ Value :=
  match fuel with
  | 0 => exhausted
  | fuel + 1 =>
    match e with
    | .literal v _ => pure v
    | .joined parts _ => do
      return .text (String.join ((← evalAll fuel level parts).map Value.display))
    | .array items _ => do return .array (← evalAll fuel level items)
    | .map entries _ => do return .map (Keyed.ofList (← evalEntries fuel level entries))
    | .lookup name place => valueOfVariable name place
    | .call function arguments place => evalCall fuel level function arguments place
    | .operation symbol [e] place => do
      Action.ofExcept place (unary symbol (← evalExpr fuel level e))
    | .operation symbol [first, second] place => do
      let a ← evalExpr fuel level first
      let b ← evalExpr fuel level second
      Action.ofExcept place (binary symbol a b)
    | .operation symbol _ place => Action.ofExcept place (unknownCall symbol [])
    | .connected .and first second _ => do
      if ← truth first.place (← evalExpr fuel level first) then
        return .bool (← truth second.place (← evalExpr fuel level second))
      else return .bool false
    | .connected .or first second _ => do
      if ← truth first.place (← evalExpr fuel level first) then return .bool true
      else return .bool (← truth second.place (← evalExpr fuel level second))
    | .connected .otherwise first second _ => do
      let v ← evalExpr fuel level first
      if v.same .unit then evalExpr fuel level second else return v
    | .chain root links _ => evalChain fuel level root links
    | .statement body _ => evalStmt fuel level body

/-- The values of some expressions. -/
def evalAll (fuel level : Nat) (es : List Expr) : Action ρ (List Value) :=
  match fuel with
  | 0 => exhausted
  | fuel + 1 =>
    match es with
    | [] => pure []
    | e :: rest => do
      let v ← evalExpr fuel level e
      return v :: (← evalAll fuel level rest)

/-- The values of the entries of a map. -/
def evalEntries (fuel level : Nat) (entries : List (String × Expr)) :
    Action ρ (List (String × Value)) :=
  match fuel with
  | 0 => exhausted
  | fuel + 1 =>
    match entries with
    | [] => pure []
    | (name, e) :: rest => do
      let v ← evalExpr fuel level e
      return (name, v) :: (← evalEntries fuel level rest)

/-- A call. Where the first argument is a variable, the function may change it. -/
def evalCall (fuel level : Nat) (function : String) (arguments : List Expr) (place : Place) :
    Action ρ Value :=
  match fuel with
  | 0 => exhausted
  | fuel + 1 =>
    match arguments with
    | .lookup name namePlace :: others => do
      -- the variable is read last, when the other arguments may have changed it
      let others ← evalAll fuel level others
      Action.count rules.limit (some namePlace)
      let first ← valueOfVariable name namePlace
      let applied ← invoke fuel level function (first :: others) place
      if let some v := applied.changed then Action.assign name v
      return applied.result
    | arguments => do
      let values ← evalAll fuel level arguments
      return (← invoke fuel level function values place).result

/-- What a function makes of its arguments. -/
def invoke (fuel level : Nat) (function : String) (arguments : List Value) (place : Place) :
    Action ρ Applied :=
  match fuel with
  | 0 => exhausted
  | fuel + 1 =>
    match ownFunction? rules function arguments.length with
    | some f => do
      Action.count rules.limit (some place)
      if callLimit ≤ level then Action.fail .tooDeep (some place)
      else
        -- a function sees its parameters and nothing of its caller
        let bindings := (f.parameters.zip arguments).reverse.map fun (name, value) => { name, value }
        return ⟨← Action.apart bindings
          (calling f.name (some place) (evalBody fuel (level + 1) f.body)), none⟩
    | none => callBuiltin rules.around rules.limit place function arguments

/-- The steps of a chain with their keys and arguments. -/
def evalLinks (fuel level : Nat) (links : List Link) : Action ρ (List Move) :=
  match fuel with
  | 0 => exhausted
  | fuel + 1 =>
    match links with
    | [] => pure []
    | .property name lenient place :: rest => do
      return .property name lenient place :: (← evalLinks fuel level rest)
    | .method name arguments lenient place :: rest => do
      let arguments ← evalAll fuel level arguments
      return .method name arguments lenient place :: (← evalLinks fuel level rest)
    | .index key lenient place :: rest => do
      let v ← evalExpr fuel level key
      return .index v lenient key.start place :: (← evalLinks fuel level rest)

/-- Follows the steps of a chain from a value, and gives back the value as it is afterwards, if it
has changed. -/
def follow (fuel level : Nat) (v : Value) (moves : List Move) : Action ρ Applied :=
  match fuel with
  | 0 => exhausted
  | fuel + 1 =>
    match moves with
    | [] => pure ⟨v, none⟩
    | move :: rest =>
      if move.stopsAt v then pure ⟨.unit, none⟩
      else
        match move with
        | .property name _ place => do
          let part ← Action.ofExcept place (property v name)
          let applied ← follow fuel level part rest
          -- a part that has changed changes the whole; what has no place to be put back is dropped
          match applied.changed with
          | some new => return ⟨applied.result, (withProperty v name new).toOption⟩
          | none => return applied
        | .index key _ inside place => do
          Action.count rules.limit (some place)
          let part ← Action.ofExcept inside (part v key)
          let applied ← follow fuel level part rest
          match applied.changed with
          | some new => return ⟨applied.result, (withPart v key new).toOption⟩
          | none => return applied
        | .method name arguments _ place => do
          let applied ← invoke fuel level name (v :: arguments) place
          let after ← follow fuel level applied.result rest
          -- what the rest of the chain changes is what the method has made, which stands nowhere
          return ⟨after.result, applied.changed⟩

/-- The value of a chain. -/
def evalChain (fuel level : Nat) (root : Expr) (links : List Link) : Action ρ Value :=
  match fuel with
  | 0 => exhausted
  | fuel + 1 => do
    -- keys and arguments come before the value that they are for
    let moves ← evalLinks fuel level links
    match root with
    | .lookup name place => do
      Action.count rules.limit (some place)
      let v ← valueOfVariable name place
      let applied ← follow fuel level v moves
      if let some v := applied.changed then Action.assign name v
      return applied.result
    | root => do
      let v ← evalExpr fuel level root
      -- a value without a name has no place where a change could be kept
      return (← follow fuel level v moves).result

/-- A value with another part at the end of some steps: `new`, joined with the old part if `symbol`
says so. -/
def replace (fuel level : Nat) (v : Value) (moves : List Move) (symbol : Option String)
    (new : Value) (place : Place) : Action ρ Value :=
  match fuel with
  | 0 => exhausted
  | fuel + 1 =>
    let joined (old : Unit → Except RunFlaw Value) (oldPlace : Place) : Action ρ Value :=
      match symbol with
      | none => pure new
      | some symbol => do
        let old ← Action.ofExcept oldPlace (old ())
        Action.ofExcept place (joinInto symbol old new)
    match moves with
    -- only an empty chain comes here: below, the last step has a case of its own
    | [] => pure new
    | .property name _ at_ :: rest =>
      match rest with
      | [] => do
        let new ← joined (fun _ => property v name) at_
        Action.ofExcept at_ (withProperty v name new)
      | rest => do
        let inner ← Action.ofExcept at_ (property v name)
        let inner ← replace fuel level inner rest symbol new place
        Action.ofExcept at_ (withProperty v name inner)
    | .index key _ inside at_ :: rest => do
      Action.count rules.limit (some at_)
      match rest with
      | [] => do
        let new ← joined (fun _ => part v key) inside
        Action.ofExcept inside (withPart v key new)
      | rest => do
        let inner ← Action.ofExcept inside (part v key)
        let inner ← replace fuel level inner rest symbol new place
        Action.ofExcept inside (withPart v key inner)
    | .method _ _ _ at_ :: _ => Action.ofExcept at_ (unknownCall "=" [])

/-- Assigns to a variable or to a part of one. -/
def evalAssignment (fuel level : Nat) (target : Expr) (symbol : Option String) (value : Expr)
    (place : Place) : Action ρ Unit :=
  match fuel with
  | 0 => exhausted
  | fuel + 1 => do
    -- the right side comes first
    let new ← evalExpr fuel level value
    match target with
    | .lookup name namePlace => do
      Action.count rules.limit (some namePlace)
      match ← Action.find? name with
      | none => Action.fail (.unknownVariable name) (some namePlace)
      | some b =>
        if b.isConstant then Action.fail (.constant name) (some namePlace)
        else
          match symbol with
          | none => Action.assign name new
          | some symbol => Action.assign name (← Action.ofExcept place (joinInto symbol b.value new))
    | .chain (.lookup name namePlace) links _ => do
      let moves ← evalLinks fuel level links
      Action.count rules.limit (some namePlace)
      match ← Action.find? name with
      | none => Action.fail (.unknownVariable name) (some namePlace)
      | some b =>
        if b.isConstant then Action.fail (.constant name) (some namePlace)
        else Action.assign name (← replace fuel level b.value moves symbol new place)
    | _ => return ()

/-- Runs the statements of a body; its value is that of the last one. -/
def evalBody (fuel level : Nat) (body : List Stmt) : Action ρ Value :=
  match fuel with
  | 0 => exhausted
  | fuel + 1 =>
    match body with
    | [] => pure .unit
    | [s] => evalStmt fuel level s
    | s :: rest => do
      let _ ← evalStmt fuel level s
      evalBody fuel level rest

/-- Repeats a body as long as a test holds. -/
def repeatWhile (fuel level : Nat) (test : Option Expr) (body : List Stmt) (place : Place) :
    Action ρ Value :=
  match fuel with
  | 0 => exhausted
  | fuel + 1 => do
    let goesOn ←
      match test with
      | none => pure true
      | some test => do truth test.place (← evalExpr fuel level test)
    if !goesOn then return .unit
    else if body.isEmpty then
      -- a loop without a test and a body counts its rounds, or nothing would stop it
      if test.isNone then Action.count rules.limit (some place)
      repeatWhile fuel level test body place
    else
      match ← round (Action.enclosed (evalBody fuel level body)) with
      | some v => return v
      | none => repeatWhile fuel level test body place

/-- Runs a body for each value of a sequence. -/
def iterate (fuel level : Nat) (name : String) (values : Sequence) (body : List Stmt)
    (place : Place) : Action ρ Value :=
  match fuel with
  | 0 => exhausted
  | fuel + 1 =>
    match values.next? with
    | none => pure .unit
    | some (v, values) => do
      Action.count rules.limit (some place)
      -- the variable is another one in each round
      let ended ← round (Action.enclosed (do
        Action.declare name v false
        evalBody fuel level body))
      match ended with
      | some v => return v
      | none => iterate fuel level name values body place

/-- Whether a case is the one for a value. -/
def selects (fuel level : Nat) (v : Value) (values : Option (List Value))
    (condition : Option Expr) : Action ρ Bool :=
  match fuel with
  | 0 => exhausted
  | fuel + 1 =>
    if values.all fun vs => vs.any (isCase v) then
      match condition with
      | none => pure true
      | some test => do truth test.place (← evalExpr fuel level test)
    else pure false

/-- Runs the first case for a value. -/
def evalCases (fuel level : Nat) (v : Value) (cases : List Case) : Action ρ Value :=
  match fuel with
  | 0 => exhausted
  | fuel + 1 =>
    match cases with
    | [] => pure .unit
    | .mk values condition action :: rest => do
      if ← selects fuel level v values condition then
        Action.count rules.limit action.place
        evalStmt fuel level action
      else evalCases fuel level v rest

/-- Runs one side of a branch. -/
def evalSide (fuel level : Nat) (s : Stmt) : Action ρ Value :=
  match fuel with
  | 0 => exhausted
  | fuel + 1 =>
    match s with
    | .nothing => pure .unit
    | .block body _ => Action.enclosed (evalBody fuel level body)
    | s => evalStmt fuel level s

/-- The value of an expression that may be missing. -/
def evalOptional (fuel level : Nat) (e : Option Expr) : Action ρ Value :=
  match fuel with
  | 0 => exhausted
  | fuel + 1 =>
    match e with
    | none => pure .unit
    | some e => evalExpr fuel level e

/-- Runs a statement. -/
def evalStmt (fuel level : Nat) (s : Stmt) : Action ρ Value :=
  match fuel with
  | 0 => exhausted
  | fuel + 1 => do
    Action.count rules.limit s.place
    match s with
    | .nothing => return .unit
    -- these are counted once as statements, and not once more as expressions
    | .expression (.call function arguments place) =>
      evalCall fuel level function arguments place
    | .expression (.operation symbol operands place) =>
      evalWithin fuel level (.operation symbol operands place)
    | .expression e => evalExpr fuel level e
    | .declaration name value isConstant _ => do
      Action.declare name (← evalOptional fuel level value) isConstant
      return .unit
    | .assignment target symbol value place => do
      evalAssignment fuel level target symbol value place
      return .unit
    | .block body _ => Action.enclosed (evalBody fuel level body)
    | .branch test yes no _ => do
      if ← truth test.place (← evalExpr fuel level test) then evalSide fuel level yes
      else evalSide fuel level no
    | .selection subject cases _ => do
      let v ← evalExpr fuel level subject
      evalCases fuel level v cases
    | .repetition test body bodyPlace _ => repeatWhile fuel level test body bodyPlace
    | .iteration name source body bodyPlace _ => do
      let v ← evalExpr fuel level source
      match Sequence.of? v with
      | some values => iterate fuel level name values body bodyPlace
      | none => Action.fail .notIterable (some source.start)
    | .leaving again value _ => do throw (.left again (← evalOptional fuel level value))
    | .returning value _ => do throw (.returned (← evalOptional fuel level value))
    | .throwing value place => do
      Action.fail (.thrown (← evalOptional fuel level value).display) (some place)
    | .inclusion path _ => do
      Action.fail (.unknownModule (← evalExpr fuel level path).display) (some path.start)

end

end

end Script

end Scenario
