import Scenario.Text.Quoted

/-!
# What is wrong with a script

A script fails while it is read, with a `SyntaxFlaw`, or while it runs, with a `RunFlaw`. Both are
known with the place in the text where they arose.
-/

namespace Scenario

namespace Script

/-- A place in a script. Lines and positions on them count from one. -/
structure Place where
  line : Nat
  position : Nat
deriving DecidableEq, Repr, Inhabited

/-- How a place stands behind a message. -/
def Place.text (place : Place) : String :=
  " (line " ++ toString place.line ++ ", position " ++ toString place.position ++ ")"

/-! ### While it is read -/

/-- Why a text is no script. -/
inductive SyntaxFlaw where
  -- characters
  | unexpected (text : String)
  | openString
  | badEscape (text : String)
  | badNumber (text : String)
  | badCharacter (text : String)
  | badName (text : String)
  /-- A symbol of another language, with advice. -/
  | improper (advice : String)
  | disabled (word : String)
  -- words and symbols
  | reservedWord (word : String)
  | reservedSymbol (symbol : String)
  | unknownOperator (symbol : String)
  | unfinished
  /-- A symbol is missing. -/
  | missing (symbol purpose : String)
  | notThisType (expected found : String)
  | expressionExpected (what : String)
  | variableExpected
  | propertyExpected
  -- assignments
  | constantValue
  | constant (name : String)
  | notAssignable
  -- literals and cases
  | repeatedProperty (name : String)
  | conditionOnDefault
  | defaultNotLast
  -- functions and loops
  | misplacedFunction
  | functionNameExpected
  | parametersExpected (name : String)
  | bodyExpected (name : String)
  | repeatedParameter (name function : String)
  | repeatedFunction (name : String) (arity : Nat)
  | breakOutside
deriving DecidableEq, Repr

/-- A number of parameters in words. -/
def parameterCount : Nat → String
  | 0 => "no parameters"
  | 1 => "1 parameter"
  | n => toString n ++ " parameters"

/-- The wording of a syntax flaw. -/
def SyntaxFlaw.message : SyntaxFlaw → String
  | unexpected text => "Unexpected '" ++ text ++ "'"
  | openString => "Open string is not terminated"
  | badEscape text => "Invalid escape sequence: '" ++ text ++ "'"
  | badNumber text => "Invalid number: '" ++ text ++ "'"
  | badCharacter text => "Invalid character: '" ++ text ++ "'"
  | badName text => "Variable name is not proper: '" ++ text ++ "'"
  | improper advice => advice
  | disabled word => "reserved keyword '" ++ word ++ "' is disabled"
  | reservedWord word => "'" ++ word ++ "' is a reserved keyword"
  | reservedSymbol symbol => "'" ++ symbol ++ "' is a reserved symbol"
  | unknownOperator symbol => "Unknown operator: '" ++ symbol ++ "'"
  | unfinished => "Script is incomplete"
  | missing symbol purpose => "Expecting '" ++ symbol ++ "' " ++ purpose
  | notThisType expected found => "Expecting " ++ expected ++ ", not " ++ found
  | expressionExpected what => "Expecting " ++ what ++ " expression"
  | variableExpected => "Expecting name of a variable"
  | propertyExpected => "Expecting name of a property"
  | constantValue => "Cannot assign to a constant value"
  | constant name => "Cannot assign to constant '" ++ name ++ "'"
  | notAssignable => "Expression cannot be assigned to"
  | repeatedProperty name => "Duplicated property for object map literal: " ++ name
  | conditionOnDefault => "This switch case cannot have a condition"
  | defaultNotLast => "Default switch case must be the last"
  | misplacedFunction =>
    "Function definitions must be at top level and cannot be inside a block or another function"
  | functionNameExpected => "Expecting function name"
  | parametersExpected name => "Expecting parameters for function " ++ name
  | bodyExpected name => "Expecting body statement block for function " ++ name
  | repeatedParameter name function =>
    "Duplicated parameter " ++ name ++ " for function " ++ function
  | repeatedFunction name arity =>
    "Function " ++ name ++ " with " ++ parameterCount arity ++ " already exists"
  | breakOutside => "Break statement should not be used outside of a loop"

/-- A syntax flaw at a place. -/
structure SyntaxError where
  flaw : SyntaxFlaw
  place : Place

/-- The wording of a syntax flaw with its place. -/
def SyntaxError.message (e : SyntaxError) : String := e.flaw.message ++ e.place.text

/-! ### While it runs -/

/-- Why a script stopped. -/
inductive RunFlaw where
  | unknownVariable (name : String)
  | unknownFunction (signature : String)
  | unreadable (property type : String)
  | unwritable (property type value : String)
  | notIndexable (signature : String)
  | outOfArray (size : Nat) (index : Int)
  | outOfText (size : Nat) (index : Int)
  | wrongType (found expected : String)
  | arithmetic (text : String)
  /-- What a script throws itself, and what a helper reports. -/
  | thrown (text : String)
  | notIterable
  | constant (name : String)
  | unknownModule (name : String)
  | tooManyOperations
  | tooDeep
deriving DecidableEq, Repr

/-- A number of items in words. -/
def onlyCount (noun : String) : Nat → String
  | 1 => "only 1 " ++ noun
  | n => "only " ++ toString n ++ " " ++ noun ++ "s"

/-- The wording of a flaw. -/
def RunFlaw.message : RunFlaw → String
  | unknownVariable name => "Variable not found: " ++ name
  | unknownFunction signature => "Function not found: " ++ signature
  | unreadable property type =>
    "Unknown property '" ++ property ++ "' - a getter is not registered for type '" ++ type ++ "'"
  | unwritable property type value =>
    "No writable property '" ++ property ++ "' - a setter is not registered for type '" ++ type ++
      "' to handle '" ++ value ++ "'"
  | notIndexable signature => "Indexer unavailable: " ++ signature
  | outOfArray size index =>
    "Array index " ++ toString index ++ " out of bounds: " ++
      (if size = 0 then "array is empty" else onlyCount "element" size ++ " in array")
  | outOfText size index =>
    "String index " ++ toString index ++ " out of bounds: " ++
      (if size = 0 then "string is empty" else onlyCount "character" size ++ " in string")
  | wrongType found expected => "Data type incorrect: " ++ found ++ " (expecting " ++ expected ++ ")"
  | arithmetic text => text
  | thrown text => if text.isEmpty then "Runtime error" else "Runtime error: " ++ text
  | notIterable => "For loop expects iterable type"
  | constant name => "Cannot modify constant: " ++ name
  | unknownModule name => "Module not found: " ++ name
  | tooManyOperations => "Too many operations"
  | tooDeep => "Stack overflow"

/-- Whether a flaw is a limit of the machine, which no function owns. -/
def RunFlaw.isLimit : RunFlaw → Bool
  | tooManyOperations => true
  | tooDeep => true
  | _ => false

/-- A flaw with the place where it arose, if one is known, and the functions it came out of,
innermost first, each with the place of its call. -/
structure RunError where
  flaw : RunFlaw
  place : Option Place
  calls : List (String × Option Place) := []

/-- A place behind a message, if it is known. -/
def placeText : Option Place → String
  | none => ""
  | some place => place.text

/-- The wording of a flaw with its place and its calls. -/
def RunError.message (e : RunError) : String :=
  e.calls.foldl
    (fun text call => text ++ " in call to function '" ++ call.1 ++ "'" ++ placeText call.2)
    (e.flaw.message ++ placeText e.place)

end Script

end Scenario
