import Scenario.Script.Flaw
import Scenario.Script.Value

/-!
# The syntax of scripts

A `Program` is a list of statements and the functions that stand among them. Every expression has a
value, and so has every statement that ends a block.
-/

namespace Scenario

namespace Script

/-- How two truth values, or a value and another in its place, are joined. The second one is computed
only where it matters. -/
inductive Connective where
  | and
  | or
  /-- The second one in place of a unit. -/
  | otherwise
deriving DecidableEq, Repr

mutual

/-- An expression. -/
inductive Expr where
  | literal (value : Value) (place : Place)
  /-- The texts of some values, joined. -/
  | joined (parts : List Expr) (place : Place)
  | array (items : List Expr) (place : Place)
  | map (entries : List (String × Expr)) (place : Place)
  /-- The value of a variable. -/
  | lookup (name : String) (place : Place)
  | call (function : String) (arguments : List Expr) (place : Place)
  | operation (symbol : String) (operands : List Expr) (place : Place)
  | connected (connective : Connective) (first second : Expr) (place : Place)
  /-- Steps from a value to one of its parts, or to what a method makes of it. -/
  | chain (root : Expr) (links : List Link) (place : Place)
  | statement (body : Stmt) (place : Place)

/-- A step of a chain. A `lenient` step ends the chain at a unit. -/
inductive Link where
  | property (name : String) (lenient : Bool) (place : Place)
  | method (name : String) (arguments : List Expr) (lenient : Bool) (place : Place)
  | index (key : Expr) (lenient : Bool) (place : Place)

/-- A statement. -/
inductive Stmt where
  | nothing
  | expression (e : Expr)
  | declaration (name : String) (value : Option Expr) (isConstant : Bool) (place : Place)
  /-- An assignment; `symbol` joins the old value with the new one. -/
  | assignment (target : Expr) (symbol : Option String) (value : Expr) (place : Place)
  | block (body : List Stmt) (place : Place)
  | branch (test : Expr) (yes : Stmt) (no : Stmt) (place : Place)
  | selection (subject : Expr) (cases : List Case) (place : Place)
  /-- A loop; `test` is asked before each round. -/
  | repetition (test : Option Expr) (body : List Stmt) (bodyPlace place : Place)
  | iteration (name : String) (source : Expr) (body : List Stmt) (bodyPlace place : Place)
  /-- Leaves a loop with a value, or goes on to its next round. -/
  | leaving (again : Bool) (value : Option Expr) (place : Place)
  | returning (value : Option Expr) (place : Place)
  | throwing (value : Option Expr) (place : Place)
  | inclusion (path : Expr) (place : Place)

/-- A case of a selection: the values it is for, or none for all others, and a condition. -/
inductive Case where
  | mk (values : Option (List Value)) (condition : Option Expr) (action : Stmt)

end

instance : Inhabited Stmt := ⟨.nothing⟩

/-- A function. -/
structure Function where
  name : String
  parameters : List String
  body : List Stmt
  place : Place

/-- A script. -/
structure Program where
  statements : List Stmt := []
  functions : List Function := []

/-- Where the main part of an expression stands: an operation is found at its symbol, a chain at
its first step. -/
def Expr.place : Expr → Place
  | literal _ p => p
  | joined _ p => p
  | array _ p => p
  | map _ p => p
  | lookup _ p => p
  | call _ _ p => p
  | operation _ _ p => p
  | connected _ _ _ p => p
  | chain _ _ p => p
  | statement _ p => p

/-- Where an expression begins. -/
def Expr.start : Expr → Place
  | operation _ (first :: _ :: _) _ => first.start
  | connected _ first _ _ => first.start
  | chain root _ _ => root.start
  | e => e.place

namespace Stmt

/-- Where a statement stands. -/
def place : Stmt → Option Place
  | nothing => none
  | expression e => some e.place
  | declaration _ _ _ p => some p
  | assignment _ _ _ p => some p
  | block _ p => some p
  | branch _ _ _ p => some p
  | selection _ _ p => some p
  | repetition _ _ _ p => some p
  | iteration _ _ _ _ p => some p
  | leaving _ _ p => some p
  | returning _ p => some p
  | throwing _ p => some p
  | inclusion _ p => some p

/-- Whether a statement ends without a semicolon. -/
def endsItself : Stmt → Bool
  | block _ _ => true
  | branch _ _ _ _ => true
  | selection _ _ _ => true
  | repetition _ _ _ _ => true
  | iteration _ _ _ _ _ => true
  | _ => false

def isNothing : Stmt → Bool
  | nothing => true
  | _ => false

end Stmt

end Script

end Scenario
