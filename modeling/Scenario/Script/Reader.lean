import Scenario.Script.Syntax
import Scenario.Script.Token

/-!
# Reading scripts

`Program.ofText` reads a script. Operations bind by precedence; of operations with equal precedence
the first binds first, except that `**` binds from the right. The reader stops at the first flaw.
-/

namespace Scenario

namespace Script

/-- What the reader has in hand: the tokens to come, and the variables in sight, innermost first,
each with whether it is a constant. -/
structure Desk where
  tokens : List Located
  known : List (String × Bool) := []
  /-- Whether a bar ends an expression. -/
  barEnds : Bool := false

/-- What a part of the reader does. -/
abbrev Reading := StateT Desk (Except SyntaxError)

/-- Where a statement stands. -/
structure Surrounding where
  isTop : Bool := false
  inLoop : Bool := false

namespace Reading

variable {α : Type}

/-- Fails at a place. -/
def fail (flaw : SyntaxFlaw) (place : Place) : Reading α := throw ⟨flaw, place⟩

/-- Fails at a token; a flawed token fails for its own flaw. -/
def failAt (located : Located) (flaw : SyntaxFlaw) : Reading α :=
  match located.token with
  | .flawed own => fail own located.place
  | _ => fail flaw located.place

/-- The next token. -/
def peek : Reading Located := do
  return (← get).tokens.headD ⟨.ending, ⟨1, 1⟩⟩

/-- Passes over a token. -/
def skip : Reading Unit := modify fun d => { d with tokens := d.tokens.drop 1 }

/-- Whether the next token is a symbol. -/
def sees (symbol : String) : Reading Bool := do
  return (← peek).token = .symbol symbol

/-- Whether the next token is a word. -/
def seesWord (word : String) : Reading Bool := do
  return (← peek).token = .word word

/-- Passes over a symbol, if it comes next. -/
def accept (symbol : String) : Reading Bool := do
  if ← sees symbol then
    skip
    return true
  else return false

/-- Passes over a word, if it comes next. -/
def acceptWord (word : String) : Reading Bool := do
  if ← seesWord word then
    skip
    return true
  else return false

/-- Passes over a symbol that has to come next. -/
def expect (symbol purpose : String) : Reading Unit := do
  let t ← peek
  if t.token = .symbol symbol then skip else failAt t (.missing symbol purpose)

/-- A variable comes into sight. -/
def declare (name : String) (isConstant : Bool) : Reading Unit :=
  modify fun d => { d with known := (name, isConstant) :: d.known }

/-- Reads something inside of which variables may come into sight for its length. -/
def inScope (inside : Reading α) : Reading α := do
  let outer := (← get).known
  let a ← inside
  modify fun d => { d with known := outer }
  return a

end Reading

open Reading

/-! ### Operators -/

/-- The precedence of an operator; zero for all else. -/
def Token.precedence : Token → Nat
  | .symbol s =>
    if s ∈ ["||", "|", "^"] then 30
    else if s ∈ ["&&", "&"] then 60
    else if s ∈ ["==", "!="] then 90
    else if s = "!in" then 110
    else if s ∈ ["<", "<=", ">", ">="] then 130
    else if s = "??" then 135
    else if s ∈ ["..", "..="] then 140
    else if s ∈ ["+", "-"] then 150
    else if s ∈ ["*", "/", "%"] then 180
    else if s = "**" then 190
    else if s ∈ ["<<", ">>"] then 210
    else 0
  | .word s => if s = "in" then 110 else 0
  | _ => 0

/-- The precedence of the next token, which must not be an operator that is set aside. -/
def nextPrecedence : Reading Nat := do
  let t ← peek
  match t.token with
  | .reserved s =>
    if Token.isProperName s.toList then return 0 else fail (.unknownOperator s) t.place
  | .symbol s => if s = "|" && (← get).barEnds then return 0 else return t.token.precedence
  | token => return token.precedence

/-- What an expression is called where a truth value is wanted, if it can never be one. -/
def Expr.notTruth? : Expr → Option String
  | .literal .unit _ => some "()"
  | .literal (.int _) _ => some "a number"
  | .literal (.float _) _ => some "a floating-point number"
  | .literal (.char _) _ => some "a character"
  | .literal (.text _) _ => some "a string"
  | .joined _ _ => some "a string"
  | .array _ _ => some "an array"
  | .map _ _ => some "an object map"
  | _ => none

/-- An expression that may be a truth value. -/
def truthValued (e : Expr) : Reading Expr :=
  match e.notTruth? with
  | some found => fail (.notThisType "a boolean expression" found) e.start
  | none => pure e

/-- What an expression is called where something to go through is wanted, if it can never be so. -/
def Expr.notIterable? : Expr → Option String
  | .literal .unit _ => some "()"
  | .literal (.bool _) _ => some "a boolean"
  | .literal (.int _) _ => some "a number"
  | .literal (.float _) _ => some "a floating-point number"
  | .literal (.char _) _ => some "a character"
  | .map _ _ => some "an object map"
  | _ => none

/-- The operation of a token on two expressions. -/
def joinOperands (t : Located) (first second : Expr) : Reading Expr := do
  match t.token with
  | .word _ => return .call "contains" [second, first] t.place
  | .symbol "!in" => return .operation "!" [.call "contains" [second, first] t.place] t.place
  | .symbol "&&" => return .connected .and (← truthValued first) (← truthValued second) t.place
  | .symbol "||" => return .connected .or (← truthValued first) (← truthValued second) t.place
  | .symbol "??" => return .connected .otherwise first second t.place
  | token => return .operation token.spelling [first, second] t.place

/-- A signed operand. -/
def negated (e : Expr) (place : Place) : Expr :=
  match e with
  | .literal (.int n) p => .literal (if n = -2 ^ 63 then .float (.ofInt (-n)) else .int (-n)) p
  | .literal (.float x) p => .literal (.float x.neg) p
  | e => .operation "-" [e] place

/-- An operand with a plus sign. -/
def plus (e : Expr) (place : Place) : Expr :=
  match e with
  | .literal (.int n) p => .literal (.int n) p
  | .literal (.float x) p => .literal (.float x) p
  | e => .operation "+" [e] place

/-! ### Names -/

/-- A name for a variable. -/
def variableName : Reading (String × Place) := do
  let t ← peek
  skip
  match t.token with
  | .name s => return (s, t.place)
  | .reserved s =>
    if Token.isProperName s.toList then fail (.reservedWord s) t.place
    else fail .variableExpected t.place
  | _ => failAt t .variableExpected

/-- The flaw of a word or symbol that is set aside. -/
def reservedFlaw (s : String) : SyntaxFlaw :=
  if s = "this" then .improper "'this' can only be used in functions"
  else if Token.isProperName s.toList then .reservedWord s
  else .reservedSymbol s

/-- Whether a list of arguments comes next. -/
def seesArguments : Reading Bool := do
  return (← sees "(") || (← sees "()")

/-! ### Assignments -/

/-- Symbols of assignments, each with the operation that joins the old value and the new one. -/
def assignmentSymbols : List (String × Option String) := [
  ("=", none), ("+=", some "+"), ("-=", some "-"), ("*=", some "*"), ("/=", some "/"),
  ("%=", some "%"), ("**=", some "**"), ("<<=", some "<<"), (">>=", some ">>"), ("&=", some "&"),
  ("|=", some "|"), ("^=", some "^")]

mutual

/-- Whether an expression is made of literals. -/
def Expr.isLiteral : Expr → Bool
  | .literal _ _ => true
  | .array items _ => areLiterals items
  | .map entries _ => areLiteralEntries entries
  | _ => false

def areLiterals : List Expr → Bool
  | [] => true
  | e :: rest => e.isLiteral && areLiterals rest

def areLiteralEntries : List (String × Expr) → Bool
  | [] => true
  | (_, e) :: rest => e.isLiteral && areLiteralEntries rest

end

/-- The place of a method among the steps of a chain. -/
def methodPlace? : List Link → Option Place
  | [] => none
  | .method _ _ _ place :: _ => some place
  | _ :: rest => methodPlace? rest

/-- Makes sure that something can be assigned to. -/
def checkTarget (target : Expr) : Reading Unit := do
  match target with
  | .lookup name place =>
    match (← get).known.find? fun entry => entry.1 = name with
    | some (_, true) => fail (.constant name) place
    | _ => return ()
  | .chain root links _ =>
    match methodPlace? links, root with
    | some place, _ => fail .notAssignable place
    | none, .lookup _ _ => return ()
    | none, root => fail .notAssignable root.place
  | e => if e.isLiteral then fail .constantValue e.start else fail .notAssignable e.place

/-- Makes sure that an expression follows and no block. -/
def ensureExpression (what : String) : Reading Unit := do
  let t ← peek
  match t.token with
  | .symbol "\x7b" => fail (.expressionExpected what) t.place
  | .ending => fail (.expressionExpected what) t.place
  | _ => return ()

/-- Makes sure that a condition is not followed by an assignment. -/
def ensureNoAssignment : Reading Unit := do
  let t ← peek
  if t.token = .symbol "=" then fail (.improper "Possibly a typo of '=='?") t.place

/-- The value of a literal that stands in a case. -/
def caseValue (e : Expr) : Reading Value :=
  match e with
  | .literal v _ => pure v
  | .operation ".." [.literal (.int a) _, .literal (.int b) _] _ => pure (.range a b false)
  | .operation "..=" [.literal (.int a) _, .literal (.int b) _] _ => pure (.range a b true)
  | e => fail (.expressionExpected "a literal") e.place

/-- Whether a list of cases has one for all other values. -/
def hasDefault (cases : List Case) : Bool :=
  cases.any fun
    | .mk values _ _ => values.isNone

mutual

/-- An expression. -/
def readExpr (fuel : Nat) (here : Surrounding) : Reading Expr :=
  match fuel with
  | 0 => do fail .unfinished (← peek).place
  | fuel + 1 => do
    let first ← readOperand fuel here
    readOperations fuel here 1 first

/-- The operations that follow an operand and bind at least as strongly as `least`. -/
def readOperations (fuel : Nat) (here : Surrounding) (least : Nat) (first : Expr) : Reading Expr :=
  match fuel with
  | 0 => pure first
  | fuel + 1 => do
    let precedence ← nextPrecedence
    let t ← peek
    -- powers are the only operations that are joined from the right
    let fromRight := t.token = .symbol "**"
    if precedence = 0 || precedence < least || (precedence = least && !fromRight) then return first
    else
      skip
      -- what binds more strongly than this operator belongs to its second operand
      let second ← readOperand fuel here
      let after ← nextPrecedence
      let second ←
        if precedence < after || (precedence = after && fromRight) then
          readOperations fuel here precedence second
        else pure second
      readOperations fuel here least (← joinOperands t first second)

/-- An operand with its signs. -/
def readOperand (fuel : Nat) (here : Surrounding) : Reading Expr :=
  match fuel with
  | 0 => do fail .unfinished (← peek).place
  | fuel + 1 => do
    let t ← peek
    match t.token with
    | .symbol "-" => do
      skip
      return negated (← readOperand fuel here) t.place
    | .symbol "+" => do
      skip
      return plus (← readOperand fuel here) t.place
    | .symbol "!" => do
      skip
      return .operation "!" [← readOperand fuel here] t.place
    | .ending => fail .unfinished t.place
    | _ => do
      let root ← readPrimary fuel here
      match ← readLinks fuel here with
      | ([], _) => return root
      | (links, place) => return .chain root links place

/-- An expression that begins with a sign of its own. -/
def readPrimary (fuel : Nat) (here : Surrounding) : Reading Expr :=
  match fuel with
  | 0 => do fail .unfinished (← peek).place
  | fuel + 1 => do
    let t ← peek
    let literal (v : Value) : Reading Expr := do
      skip
      return .literal v t.place
    match t.token with
    | .integer n => literal (.int n)
    | .float x => literal (.float x)
    | .char c => literal (.char c)
    | .text s => literal (.text s)
    | .word "true" => literal (.bool true)
    | .word "false" => literal (.bool false)
    | .symbol "()" => literal .unit
    | .piece s => do
      skip
      let parts ← readPieces fuel here
      -- an empty piece before the first block is no part of the text
      let parts := if s.isEmpty then parts else .literal (.text s) t.place :: parts
      return .joined parts t.place
    | .symbol "(" => do
      skip
      if ← accept ")" then return .literal .unit t.place
      else
        let e ← readExpr fuel here
        expect ")" "for a matching ( in this expression"
        return e
    | .symbol "[" => do
      skip
      return .array (← readItems fuel here) t.place
    | .symbol "#\x7b" => do
      skip
      return .map (← readEntries fuel here []) t.place
    | .name s => do
      skip
      if ← seesArguments then return .call s (← readArguments fuel here s) t.place
      else return .lookup s t.place
    | .reserved s => do
      skip
      let called ← seesArguments
      -- some reserved words may be called like functions
      if called && s ∈ Token.callableWords then return .call s (← readArguments fuel here s) t.place
      else fail (reservedFlaw s) t.place
    | .symbol "\x7b" => return .statement (← readStatement fuel { here with isTop := false }) t.place
    | .word w =>
      if w ∈ ["if", "switch", "while", "loop", "for"] then
        return .statement (← readStatement fuel { here with isTop := false }) t.place
      else fail (.unexpected w) t.place
    | token => failAt t (.unexpected token.spelling)

/-- The blocks and pieces of an interrupted text, up to its last piece. -/
def readPieces (fuel : Nat) (here : Surrounding) : Reading (List Expr) :=
  match fuel with
  | 0 => do fail .unfinished (← peek).place
  | fuel + 1 => do
    let (body, place) ← readBlock fuel here
    let block := Expr.statement (.block body place) place
    let t ← peek
    skip
    match t.token with
    | .piece s => do
      let rest ← readPieces fuel here
      return block :: (if s.isEmpty then rest else .literal (.text s) t.place :: rest)
    | .text s => return block :: (if s.isEmpty then [] else [.literal (.text s) t.place])
    | token => failAt t (.unexpected token.spelling)

/-- The items of a list after its opening bracket. -/
def readItems (fuel : Nat) (here : Surrounding) : Reading (List Expr) :=
  match fuel with
  | 0 => do fail .unfinished (← peek).place
  | fuel + 1 => do
    let t ← peek
    if t.token = .symbol "]" then
      skip
      return []
    else if t.token = .ending then fail (.missing "]" "to end this array literal") t.place
    else
      let e ← readExpr fuel here
      let t ← peek
      -- a comma may stand before the closing bracket
      if t.token = .symbol "," then
        skip
        return e :: (← readItems fuel here)
      else if t.token = .symbol "]" then return e :: (← readItems fuel here)
      else if t.token = .ending then fail (.missing "]" "to end this array literal") t.place
      else failAt t (.missing "," "to separate the items of this array literal")

/-- The entries of a map after its opening brace; `names` are those before. -/
def readEntries (fuel : Nat) (here : Surrounding) (names : List String) :
    Reading (List (String × Expr)) :=
  match fuel with
  | 0 => do fail .unfinished (← peek).place
  | fuel + 1 => do
    let unclosed : SyntaxFlaw := .missing "\x7d" "to end this object map literal"
    let t ← peek
    skip
    let entry (name : String) : Reading (List (String × Expr)) := do
      if name ∈ names then fail (.repeatedProperty name) t.place
      else
        expect ":" ("to follow the property '" ++ name ++ "' in this object map literal")
        let e ← readExpr fuel here
        let t ← peek
        match t.token with
        | .symbol "," => do
          skip
          return (name, e) :: (← readEntries fuel here (name :: names))
        | .symbol "\x7d" => return (name, e) :: (← readEntries fuel here (name :: names))
        -- what looks like the next property has lost its comma
        | .name _ =>
          fail (.missing "," "to separate the items of this object map literal") t.place
        | _ => failAt t unclosed
    match t.token with
    | .symbol "\x7d" => return []
    | .name s => entry s
    | .text s => entry s
    | .piece _ => fail .propertyExpected t.place
    | .ending => fail unclosed t.place
    | .reserved s =>
      if Token.isProperName s.toList then fail (.reservedWord s) t.place
      else if names.isEmpty then fail unclosed t.place
      else fail .propertyExpected t.place
    | _ => if names.isEmpty then failAt t unclosed else failAt t .propertyExpected

/-- The arguments of a call. -/
def readArguments (fuel : Nat) (here : Surrounding) (function : String) : Reading (List Expr) :=
  match fuel with
  | 0 => do fail .unfinished (← peek).place
  | fuel + 1 => do
    if ← accept "()" then return []
    else
      skip
      let t ← peek
      let unclosed : SyntaxFlaw :=
        .missing ")" ("to close the arguments list of this function call '" ++ function ++ "'")
      if t.token = .ending then fail unclosed t.place
      else readMoreArguments fuel here function

/-- The arguments up to the closing parenthesis. -/
def readMoreArguments (fuel : Nat) (here : Surrounding) (function : String) :
    Reading (List Expr) :=
  match fuel with
  | 0 => do fail .unfinished (← peek).place
  | fuel + 1 => do
    if ← accept ")" then return []
    else
      let e ← readExpr fuel here
      let t ← peek
      if t.token = .symbol ")" then
        skip
        return [e]
      else if t.token = .symbol "," then
        skip
        return e :: (← readMoreArguments fuel here function)
      else if t.token = .ending then
        fail (.missing ")"
          ("to close the arguments list of this function call '" ++ function ++ "'")) t.place
      else
        failAt t (.missing "," ("to separate the arguments to function call '" ++ function ++ "'"))

/-- The steps of a chain, and the place of the first of them. -/
def readLinks (fuel : Nat) (here : Surrounding) : Reading (List Link × Place) :=
  match fuel with
  | 0 => do return ([], (← peek).place)
  | fuel + 1 => do
    let t ← peek
    let more (link : Link) : Reading (List Link × Place) := do
      return (link :: (← readLinks fuel here).1, t.place)
    match t.token with
    | .symbol s =>
      if s = "." || s = "?." then
        skip
        let lenient := s = "?."
        let n ← peek
        match n.token with
        | .name name => do
          skip
          if ← seesArguments then
            more (.method name (← readArguments fuel here name) lenient n.place)
          else more (.property name lenient n.place)
        | .reserved name =>
          -- these reserved words are methods where they are called
          if name ∈ ["type_of", "call", "curry"] then
            skip
            if ← seesArguments then
              more (.method name (← readArguments fuel here name) lenient n.place)
            else fail (.reservedWord name) n.place
          else if Token.isProperName name.toList then fail (.reservedWord name) n.place
          else fail (.reservedSymbol name) n.place
        | _ => failAt n .propertyExpected
      else if s = "[" || s = "?[" then
        skip
        let key ← readExpr fuel here
        expect "]" "for a matching [ in this index expression"
        more (.index key (s = "?[") t.place)
      else return ([], t.place)
    | _ => return ([], t.place)

/-- A block and the place of its brace. -/
def readBlock (fuel : Nat) (here : Surrounding) : Reading (List Stmt × Place) :=
  match fuel with
  | 0 => do fail .unfinished (← peek).place
  | fuel + 1 => do
    let t ← peek
    expect "\x7b" "to start a statement block"
    let body ← inScope (readStatements fuel { here with isTop := false })
    return (body, t.place)

/-- The statements of a block up to its closing brace. -/
def readStatements (fuel : Nat) (here : Surrounding) : Reading (List Stmt) :=
  match fuel with
  | 0 => do fail .unfinished (← peek).place
  | fuel + 1 => do
    let t ← peek
    if t.token = .symbol "\x7d" then
      skip
      return []
    else if t.token = .ending then fail (.missing "\x7d" "to terminate this block") t.place
    else
      let s ← readStatement fuel here
      -- a semicolon alone is no statement, and ends none
      if s.isNothing then readStatements fuel here
      else
        let t ← peek
        if t.token = .symbol "\x7d" then
          skip
          return [s]
        else if t.token = .symbol ";" then
          skip
          return s :: (← readStatements fuel here)
        else if s.endsItself then return s :: (← readStatements fuel here)
        else failAt t (.missing ";" "to terminate this statement")

/-- A condition. -/
def readTest (fuel : Nat) (here : Surrounding) : Reading Expr :=
  match fuel with
  | 0 => do fail .unfinished (← peek).place
  | fuel + 1 => do
    ensureExpression "a boolean"
    let test ← truthValued (← readExpr fuel here)
    ensureNoAssignment
    return test

/-- A value that may be missing where a statement ends. -/
def readOptional (fuel : Nat) (here : Surrounding) : Reading (Option Expr) :=
  match fuel with
  | 0 => do fail .unfinished (← peek).place
  | fuel + 1 => do
    let t ← peek
    match t.token with
    | .ending => return none
    | .symbol ";" => return none
    | .symbol "\x7d" => if here.isTop then return some (← readExpr fuel here) else return none
    | _ => return some (← readExpr fuel here)

/-- A declaration after its word. -/
def readDeclaration (fuel : Nat) (here : Surrounding) (isConstant : Bool) (place : Place) :
    Reading Stmt :=
  match fuel with
  | 0 => do fail .unfinished (← peek).place
  | fuel + 1 => do
    let (name, _) ← variableName
    let value ← if ← accept "=" then some <$> readExpr fuel here else pure none
    declare name isConstant
    return .declaration name value isConstant place

/-- A branch after its `if`, which stands at `place`. -/
def readBranch (fuel : Nat) (here : Surrounding) (place : Place) : Reading Stmt :=
  match fuel with
  | 0 => do fail .unfinished (← peek).place
  | fuel + 1 => do
    let test ← readTest fuel here
    let (yes, yesPlace) ← readBlock fuel here
    let no : Stmt ←
      if ← acceptWord "else" then
        let t ← peek
        -- the branches of a chain are nested, each in the one before
        if ← acceptWord "if" then readBranch fuel here t.place
        else
          let (no, noPlace) ← readBlock fuel here
          pure (.block no noPlace)
      else pure .nothing
    return .branch test (.block yes yesPlace) no place

/-- The values that a case is for. -/
def readCaseValues (fuel : Nat) (here : Surrounding) : Reading (List Value) :=
  match fuel with
  | 0 => do fail .unfinished (← peek).place
  | fuel + 1 => do
    let before := (← get).barEnds
    modify fun d => { d with barEnds := true }
    let e ← readExpr fuel here
    modify fun d => { d with barEnds := before }
    let v ← caseValue e
    if ← accept "|" then return v :: (← readCaseValues fuel here) else return [v]

/-- The cases of a selection up to its closing brace. -/
def readCases (fuel : Nat) (here : Surrounding) (before : List Case) : Reading (List Case) :=
  match fuel with
  | 0 => do fail .unfinished (← peek).place
  | fuel + 1 => do
    let t ← peek
    if t.token = .symbol "\x7d" then
      skip
      return before
    else if t.token = .ending then fail (.missing "\x7d" "to end this switch block") t.place
    -- a case behind the default could never be reached
    else if hasDefault before then failAt t .defaultNotLast
    else
      let values ←
        if ← accept "_" then
          let t ← peek
          if t.token = .word "if" then fail .conditionOnDefault t.place
          pure none
        else some <$> readCaseValues fuel here
      let condition ← if ← acceptWord "if" then some <$> readTest fuel here else pure none
      expect "=>" "in this switch case"
      let action ← readStatement fuel { here with isTop := false }
      let cases := before ++ [Case.mk values condition action]
      let t ← peek
      if t.token = .symbol "," then
        skip
        readCases fuel here cases
      else if t.token = .symbol "\x7d" then readCases fuel here cases
      -- the message names a parenthesis where a brace is meant
      else if t.token = .ending then fail (.missing ")" "to end this switch block") t.place
      else if action.endsItself then readCases fuel here cases
      else failAt t (.missing "," "to separate the items in this switch block")

/-- A loop over something, after its word. -/
def readIteration (fuel : Nat) (here : Surrounding) (place : Place) : Reading Stmt :=
  match fuel with
  | 0 => do fail .unfinished (← peek).place
  | fuel + 1 => do
    let (name, _) ← variableName
    let t ← peek
    unless ← acceptWord "in" do
      failAt t (.missing "in" "after the iteration variable")
    ensureExpression "a boolean"
    let source ← readExpr fuel here
    match source.notIterable? with
    | some found => fail (.notThisType "an iterable value" found) source.start
    | none => do
      -- the variable is known in the body only
      let (body, bodyPlace) ← inScope do
        declare name false
        readBlock fuel { here with inLoop := true }
      return .iteration name source body bodyPlace place

/-- An expression as a statement, or an assignment. -/
def readExpressionStatement (fuel : Nat) (here : Surrounding) : Reading Stmt :=
  match fuel with
  | 0 => do fail .unfinished (← peek).place
  | fuel + 1 => do
    let e ← readExpr fuel here
    let t ← peek
    match t.token with
    | .symbol s =>
      match assignmentSymbols.find? fun entry => entry.1 = s with
      | some (_, joined) => do
        skip
        let value ← readExpr fuel here
        -- whether it may be assigned to is asked once both sides have been read
        checkTarget e
        return .assignment e joined value t.place
      | none => return .expression e
    | _ => return .expression e

/-- A statement. -/
def readStatement (fuel : Nat) (here : Surrounding) : Reading Stmt :=
  match fuel with
  | 0 => do fail .unfinished (← peek).place
  | fuel + 1 => do
    let t ← peek
    match t.token with
    | .symbol ";" => do
      skip
      return .nothing
    | .symbol "\x7b" => do
      let (body, place) ← readBlock fuel here
      return .block body place
    | .word "let" => do
      skip
      readDeclaration fuel here false t.place
    | .word "const" => do
      skip
      readDeclaration fuel here true t.place
    | .word "fn" => fail .misplacedFunction t.place
    | .word "private" => fail .misplacedFunction t.place
    | .word "if" => do
      skip
      readBranch fuel here t.place
    | .word "switch" => do
      skip
      let subject ← readExpr fuel here
      expect "\x7b" "to start a switch block"
      return .selection subject (← readCases fuel here []) t.place
    | .word "while" => do
      skip
      let test ← readTest fuel here
      let (body, bodyPlace) ← readBlock fuel { here with inLoop := true }
      -- a test that always holds is none
      let test := match test with
        | .literal (.bool true) _ => none
        | test => some test
      return .repetition test body bodyPlace t.place
    | .word "loop" => do
      skip
      let (body, bodyPlace) ← readBlock fuel { here with inLoop := true }
      return .repetition none body bodyPlace t.place
    | .word "for" => do
      skip
      readIteration fuel here t.place
    | .word "break" => do
      if here.inLoop then
        skip
        return .leaving false (← readOptional fuel here) t.place
      else fail .breakOutside t.place
    | .word "continue" => do
      if here.inLoop then
        skip
        return .leaving true none t.place
      else fail .breakOutside t.place
    | .word "return" => do
      skip
      return .returning (← readOptional fuel here) t.place
    | .word "throw" => do
      skip
      return .throwing (← readOptional fuel here) t.place
    | .word "import" => do
      skip
      let path ← readExpr fuel here
      if ← acceptWord "as" then
        let _ ← variableName
      return .inclusion path t.place
    | _ => readExpressionStatement fuel here

end

/-! ### Functions and programs -/

/-- The parameters of a function after the opening parenthesis. -/
def readParameters (function : String) (fuel : Nat) (before : List String) :
    Reading (List String) :=
  match fuel with
  | 0 => do fail .unfinished (← peek).place
  | fuel + 1 => do
    let t ← peek
    skip
    match t.token with
    | .symbol ")" => return before
    | .name s =>
      if s ∈ before then fail (.repeatedParameter s function) t.place
      else
        let t ← peek
        skip
        match t.token with
        | .symbol ")" => return before ++ [s]
        | .symbol "," => readParameters function fuel (before ++ [s])
        | _ =>
          failAt t (.missing "," ("to separate the parameters of function '" ++ function ++ "'"))
    | _ => failAt t (.missing ")" ("to close the parameters list of function '" ++ function ++ "'"))

/-- A function after its word, which stands at `place`. -/
def readFunction (fuel : Nat) (place : Place) : Reading Function := do
  let t ← peek
  skip
  match t.token with
  | .name name => do
    let parameters ←
      if ← accept "()" then pure []
      else if ← accept "(" then readParameters name fuel []
      else do failAt (← peek) (.parametersExpected name)
    let t ← peek
    if t.token = .symbol "\x7b" then
      -- the variables around are not known in a function
      let outer := (← get).known
      modify fun d => { d with known := parameters.map fun p => (p, false) }
      let (body, _) ← readBlock fuel {}
      modify fun d => { d with known := outer }
      return ⟨name, parameters, body, place⟩
    else failAt t (.bodyExpected name)
  | .reserved s => fail (reservedFlaw s) t.place
  | _ => failAt t .functionNameExpected

/-- Adds a function to a program that does not have it yet. -/
def Program.with (program : Program) (function : Function) : Reading Program :=
  let arity := function.parameters.length
  if program.functions.any fun f => f.name = function.name && f.parameters.length = arity then
    fail (.repeatedFunction function.name arity) function.place
  else pure { program with functions := program.functions ++ [function] }

/-- The statements and functions of a program up to its end. -/
def readProgram (depth : Nat) (fuel : Nat) (program : Program) : Reading Program :=
  match fuel with
  | 0 => pure program
  | fuel + 1 => do
    let t ← peek
    match t.token with
    | .ending => return program
    | .word "fn" => do
      skip
      readProgram depth fuel (← program.with (← readFunction depth t.place))
    | .word "private" => do
      skip
      let n ← peek
      if ← acceptWord "fn" then
        readProgram depth fuel (← program.with (← readFunction depth n.place))
      else failAt n (.missing "fn" "following 'private'")
    | _ => do
      let s ← readStatement depth { isTop := true }
      -- as in a block, but that the text ends and no brace
      if s.isNothing then readProgram depth fuel program
      else
        let program := { program with statements := program.statements ++ [s] }
        let t ← peek
        if t.token = .ending then return program
        else if t.token = .symbol ";" then
          skip
          readProgram depth fuel program
        else if s.endsItself then readProgram depth fuel program
        else failAt t (.missing ";" "to terminate this statement")

/-- **Reading a script.** -/
def Program.ofText (code : String) : Except SyntaxError Program :=
  let ts := tokens code
  ((readProgram (16 * ts.length + 16) (ts.length + 1) {}).run { tokens := ts }).map Prod.fst

end Script

end Scenario
