import Scenario.Binary64.Decimal
import Scenario.Json.Reader
import Scenario.Script.Flaw
import Scenario.Text.Blank
import Scenario.Text.Integer

/-!
# Tokens of scripts

A script is cut into tokens, each with the place of its first character. Blanks and comments are
skipped; comments in stars may stand inside each other.

* A `-` right before a digit belongs to the number, where no operand stands before it.
* A text between back quotes may hold blocks of statements, `$\x7b…\x7d`. It is cut into pieces: every
  piece but the last is `partial`, and the tokens of a block stand between two pieces.
* What is no token is a `flawed` one, the last of the list. Otherwise the last one is `ending`, one
  place behind the text.
-/

namespace Scenario

namespace Script

/-- A token. -/
inductive Token where
  | integer (n : Int)
  | float (x : Binary64)
  | char (c : Char)
  | text (s : String)
  /-- A piece of a text that goes on after a block. -/
  | piece (s : String)
  | name (s : String)
  /-- A word of the language. -/
  | word (s : String)
  /-- A symbol of the language. -/
  | symbol (s : String)
  /-- A word or symbol that is set aside. -/
  | reserved (s : String)
  | flawed (flaw : SyntaxFlaw)
  | ending
deriving DecidableEq

/-- A token at its place. -/
structure Located where
  token : Token
  place : Place

namespace Token

/-! ### Words and symbols -/

/-- The words of the language. -/
def words : List String := [
  "true", "false", "let", "const", "if", "else", "switch", "do", "while", "until", "loop", "for",
  "in", "fn", "private", "break", "continue", "return", "throw", "try", "catch", "import", "export",
  "as"]

/-- Words that are set aside. -/
def reservedWords : List String := [
  "var", "static", "shared", "is", "goto", "match", "case", "public", "protected", "new", "use",
  "with", "module", "package", "super", "thread", "spawn", "go", "await", "async", "sync", "yield",
  "default", "void", "null", "nil"]

/-- Words that are set aside and may be called. -/
def callableWords : List String := [
  "print", "debug", "type_of", "Fn", "call", "curry", "is_def_var", "is_def_fn", "is_shared"]

/-- The symbols of the language. -/
def symbols : List String := [
  "..=", "<<=", ">>=", "**=", "!in",
  "()", "#\x7b", "+=", "-=", "*=", "**", "/=", "..", "==", "=>", "::", "<=", "<<", ">=", ">>", "!=",
  "||", "|=", "&&", "&=", "^=", "%=", "??", "?.", "?[",
  "\x7b", "\x7d", "(", ")", "[", "]", "+", "-", "*", "/", ";", ",", ".", "=", ":", "<", ">", "!",
  "|", "&", "^", "%"]

/-- Symbols of other languages, with advice. -/
def improperSymbols : List (String × String) := [
  ("===", "'===' is not a valid operator. This is not JavaScript! Should it be '=='?"),
  ("!==", "'!==' is not a valid operator. This is not JavaScript! Should it be '!='?"),
  ("->", "'->' is not a valid symbol. This is not C or C++!"),
  ("<-", "'<-' is not a valid symbol. This is not Go! Should it be '<='?"),
  (":=", "':=' is not a valid assignment operator. This is not Go or Pascal! Should it be simply '='?"),
  (":;", "':;' is not a valid symbol. Should it be '::'?"),
  ("::<", "'::<>' is not a valid symbol. This is not Rust! Should it be '::'?"),
  ("(*", "'(* .. *)' is not a valid comment format. This is not Pascal! Should it be '/* .. */'?"),
  ("*)", "'(* .. *)' is not a valid comment format. This is not Pascal! Should it be '/* .. */'?"),
  ("# \x7b", "'#' is not a valid symbol. Should it be '#\x7b'?")]

/-- Symbols that are set aside. -/
def reservedSymbols : List String := [
  "...", "++", "--", "#!", "<|", "|>", "!.", "#", "~", "@", "$", "?"]

/-- All symbols, each as the token it stands for. -/
def allSymbols : List (List Char × Token) :=
  improperSymbols.map (fun (s, advice) => (s.toList, flawed (.improper advice))) ++
    reservedSymbols.map (fun s => (s.toList, reserved s)) ++
      symbols.map fun s => (s.toList, symbol s)

/-- The longest symbol at the beginning of a text. -/
def longestSymbol? (text : List Char) : Option (List Char × Token) :=
  allSymbols.foldl
    (fun best entry =>
      if Text.startsWith entry.1 text && best.all (fun b => b.1.length < entry.1.length) then
        some entry
      else best)
    none

/-- Symbols after which a `-` is a sign; all but the closing ones and those of a chain. -/
def isBeforeOperand : Token → Bool
  | symbol s => !(s ∈ [")", "]", "\x7d", "()", ".", "?.", "::", "!in"])
  | word s => s ∈ ["if", "while", "until", "in", "return", "throw"]
  | _ => false

/-- How a token is spelled in a message. -/
def spelling : Token → String
  | integer n => toString n
  | float x => x.plainStyle
  | char c => String.singleton c
  | text s => s
  | piece s => s
  | name s => s
  | word s => s
  | symbol s => s
  | reserved s => s
  | flawed f => f.message
  | ending => ""

/-! ### Names -/

/-- Whether a name may begin with a character. -/
def startsName (c : Char) : Bool :=
  ('a' ≤ c && c ≤ 'z') || ('A' ≤ c && c ≤ 'Z') || c = '_'

/-- Whether a name may go on with a character. -/
def continuesName (c : Char) : Bool :=
  startsName c || c.isDigit

/-- Whether a word is proper: its first character but underscores is a letter. -/
def isProperName (name : List Char) : Bool :=
  match name.dropWhile (· = '_') with
  | c :: rest => startsName c && rest.all continuesName
  | [] => false

/-- The token of a word. -/
def ofWord (name : List Char) : Token :=
  let s := String.ofList name
  if s ∈ words then word s
  else if s = "_" then symbol s
  else if s = "eval" then flawed (.disabled s)
  else if s ∈ reservedWords || s ∈ callableWords || s = "this" then reserved s
  else if isProperName name then Token.name s
  else flawed (.badName s)

/-! ### Numbers -/

/-- The significant characters of a number and how many characters it takes. A point or an exponent
belongs to it only where a number can go on. -/
def takeNumber (point exponent : Bool) : List Char → List Char × Nat
  | [] => ([], 0)
  | '_' :: rest =>
    let (digits, n) := takeNumber point exponent rest
    (digits, n + 1)
  | '.' :: rest =>
    if point then ([], 0)
    else
      match rest with
      | [] => ([], 0)
      | c :: _ =>
        if c.isDigit then
          let (digits, n) := takeNumber true exponent rest
          ('.' :: digits, n + 1)
        -- a point before a name is a step of a chain, and before another point it is a range
        else if c = '_' || c = '.' || startsName c then ([], 0)
        else
          let (digits, n) := takeNumber true exponent rest
          -- a point that ends a number reads as one before a zero
          ('.' :: '0' :: digits, n + 1)
  | 'e' :: rest =>
    if exponent then ([], 0)
    else
      match rest with
      | '+' :: more =>
        let (digits, n) := takeNumber point true more
        ('e' :: '+' :: digits, n + 2)
      | '-' :: more =>
        let (digits, n) := takeNumber point true more
        ('e' :: '-' :: digits, n + 2)
      | c :: more =>
        if c.isDigit then
          let (digits, n) := takeNumber point true (c :: more)
          ('e' :: digits, n + 1)
        else ([], 0)
      | [] => ([], 0)
  | c :: rest =>
    if c.isDigit then
      let (digits, n) := takeNumber point exponent rest
      (c :: digits, n + 1)
    else ([], 0)

/-- A number in decimal notation; an integer that does not fit becomes a floating-point number. -/
def decimalNumber (negative : Bool) (digits : List Char) : Token :=
  let signed := if negative then '-' :: digits else digits
  let asFloat : Token :=
    match Binary64.ofText? (String.ofList signed) with
    | some x => float x
    | none => flawed (.badNumber (String.ofList signed))
  if digits.all Char.isDigit then
    match Text.integer? signed with
    | some n => if -2 ^ 63 ≤ n && n < 2 ^ 63 then integer n else asFloat
    | none => asFloat
  else asFloat

/-- The base that a letter after a leading zero stands for. -/
def base? : Char → Option Nat
  | 'x' | 'X' => some 16
  | 'o' | 'O' => some 8
  | 'b' | 'B' => some 2
  | _ => none

/-- The value of digits in a base. -/
def inBase? (base : Nat) (digits : List Char) : Option Nat :=
  if digits.isEmpty then none
  else digits.foldlM
    (fun n c => (Json.hexValue? c).bind fun d => if d < base then some (n * base + d) else none) 0

/-- A number in another base, after the zero and the letter. -/
def basedNumber (negative : Bool) (letter : Char) (base : Nat) (rest : List Char) : Token × Nat :=
  let taken := rest.takeWhile fun c =>
    c = '_' || (if base = 16 then (Json.hexValue? c).isSome else c.isDigit)
  let digits := taken.filter (· ≠ '_')
  let token := match inBase? base digits with
    | some n =>
      if n < 2 ^ 63 then integer (if negative then -n else n)
      else if n < 2 ^ 64 then integer (Text.signed64 n)
      else flawed (.badNumber (String.ofList ('0' :: letter :: digits)))
    | none => flawed (.badNumber (String.ofList ('0' :: letter :: digits)))
  (token, taken.length + 2)

/-- The number at the beginning of a text, and how many characters it takes. -/
def number (negative : Bool) (text : List Char) : Token × Nat :=
  match text with
  | '0' :: letter :: rest =>
    match base? letter with
    | some base => basedNumber negative letter base rest
    | none =>
      let (digits, n) := takeNumber false false text
      (decimalNumber negative digits, n)
  | _ =>
    let (digits, n) := takeNumber false false text
    (decimalNumber negative digits, n)

end Token

/-! ### The reading head -/

/-- Where the reader stands: what is left of the text, and the place of the character before it. -/
structure Head where
  rest : List Char
  before : Place

namespace Head

/-- The place of the next character. -/
def place (head : Head) : Place := ⟨head.before.line, head.before.position + 1⟩

/-- The place after a character. -/
def pass (place : Place) (c : Char) : Place :=
  if c = '\n' then ⟨place.line + 1, 0⟩ else ⟨place.line, place.position + 1⟩

/-- The head after some characters. -/
def skip (head : Head) (count : Nat) : Head :=
  ⟨head.rest.drop count, (head.rest.take count).foldl pass head.before⟩

end Head

/-! ### Texts -/

/-- What was read of a text. -/
structure TextRead where
  chars : List Char
  /-- Whether a block follows. -/
  interrupted : Bool
  head : Head

/-- The letters after which a number of a character follows, with the count of its digits. -/
def codeLength? : Char → Option Nat
  | 'x' => some 2
  | 'u' => some 4
  | 'U' => some 8
  | _ => none

/-- The character with a code. -/
def charOfCode? (code : Nat) : Option Char :=
  if code < 0xD800 || (0xDFFF < code && code < 0x110000) then some (Char.ofNat code) else none

/-- Reads `count` hexadecimal digits; `seen` are the characters of the escape so far. -/
def readCode (count value : Nat) (seen : List Char) (head : Head) :
    Except SyntaxError (Char × Head) :=
  match count with
  | 0 =>
    match charOfCode? value with
    | some c => .ok (c, head)
    | none => .error ⟨.badEscape (String.ofList seen.reverse), head.before⟩
  | count + 1 =>
    match head.rest with
    | [] => .error ⟨.badEscape (String.ofList seen.reverse), head.before⟩
    | c :: _ =>
      match Json.hexValue? c with
      | some d => readCode count (value * 16 + d) (c :: seen) (head.skip 1)
      | none => .error ⟨.badEscape (String.ofList (c :: seen).reverse), head.place⟩

/-- The character that a letter after a backslash stands for. -/
def plainEscape? (quote : Char) (c : Char) : Option Char :=
  match c with
  | '\\' => some '\\'
  | 't' => some '\t'
  | 'n' => some '\n'
  | 'r' => some '\r'
  | _ => if c = quote then some c else none

/-- The text after the blanks of a line. -/
def skipLineBlanks (head : Head) : Head :=
  head.skip (head.rest.takeWhile fun c => Text.isBlank c && c ≠ '\n').length

/-- Reads a text between `quote`s after the first one, which stands at `start`. -/
def readQuoted (fuel : Nat) (quote : Char) (start : Place) (acc : List Char) (head : Head) :
    Except SyntaxError TextRead :=
  match fuel, head.rest with
  | 0, _ => .error ⟨.openString, start⟩
  | _, [] => .error ⟨.openString, start⟩
  | fuel + 1, c :: rest =>
    let verbatim := quote = '\x60'
    if c = quote then
      -- a quote that is doubled stands for itself
      if rest.head? = some quote then readQuoted fuel quote start (quote :: acc) (head.skip 2)
      else .ok ⟨acc.reverse, false, head.skip 1⟩
    else if verbatim then
      -- a block interrupts the text, and its brace is left to be read
      if c = '$' && rest.head? = some '\x7b' then .ok ⟨acc.reverse, true, head.skip 1⟩
      else readQuoted fuel quote start (c :: acc) (head.skip 1)
    else if c = '\n' then .error ⟨.openString, start⟩
    else if c = '\\' then
      let head := head.skip 1
      match head.rest with
      | [] => .error ⟨.openString, start⟩
      | letter :: _ =>
        match plainEscape? quote letter, codeLength? letter with
        | some c, _ => readQuoted fuel quote start (c :: acc) (head.skip 1)
        | none, some count => do
          let (c, head) ← readCode count 0 [letter, '\\'] (head.skip 1)
          readQuoted fuel quote start (c :: acc) head
        | none, none =>
          -- an escaped break joins two lines, without the blanks that begin the second one
          if letter = '\n' && quote = '\x22' then
            readQuoted fuel quote start acc (skipLineBlanks (head.skip 1))
          else .error ⟨.badEscape (String.ofList ['\\', letter]), head.place⟩
    else readQuoted fuel quote start (c :: acc) (head.skip 1)

/-! ### Comments -/

/-- The number of characters of a comment in stars after its opening, `depth` of which are open. -/
def starComment (depth : Nat) : List Char → Nat
  | [] => 0
  | '*' :: '/' :: rest => if depth ≤ 1 then 2 else starComment (depth - 1) rest + 2
  | '/' :: '*' :: rest => starComment (depth + 1) rest + 2
  | _ :: rest => starComment depth rest + 1

/-! ### The list of tokens -/

/-- What the reader remembers: whether an operand has just ended, and for each text that is
interrupted by a block how many braces are open in the block. -/
structure Memory where
  afterOperand : Bool := false
  open_ : List Nat := []

/-- What the reader remembers after a token. -/
def Memory.after (memory : Memory) (token : Token) : Memory :=
  { memory with
    afterOperand := !token.isBeforeOperand
    open_ := match memory.open_, token with
      | depth :: outer, .symbol s =>
        if s = "\x7b" || s = "#\x7b" then (depth + 1) :: outer
        else if s = "\x7d" then (depth - 1) :: outer
        else depth :: outer
      | depths, _ => depths }

/-- The token of a text, and the memory after it. -/
def pieceOf (read : TextRead) (memory : Memory) : Token × Memory :=
  if read.interrupted then
    (.piece (String.ofList read.chars), { memory with afterOperand := true, open_ := 0 :: memory.open_ })
  else (.text (String.ofList read.chars), { memory with afterOperand := true })

/-- Whether a text is about to go on: its block has just been closed. -/
def Memory.resumes (memory : Memory) : Option Memory :=
  match memory.open_ with
  | 0 :: outer => some { memory with open_ := outer }
  | _ => none

/-- The place of the text that begins at a head: a text between back quotes may begin on the line
after its quote. -/
def textStart (quote : Char) (head : Head) : Head :=
  if quote = '\x60' then
    match head.rest with
    | '\r' :: '\n' :: _ => head.skip 2
    | '\n' :: _ => head.skip 1
    | _ => head
  else head

mutual

/-- The tokens from a head on. -/
def readTokens (fuel : Nat) (memory : Memory) (head : Head) : List Located :=
  match fuel with
  | 0 => [⟨.ending, head.place⟩]
  | fuel + 1 =>
    match head.rest with
    | [] => [⟨.ending, head.place⟩]
    | c :: rest =>
      let place := head.place
      if Text.isBlank c then readTokens fuel memory (head.skip 1)
      else if c = '/' && rest.head? = some '/' then
        readTokens fuel memory (head.skip (head.rest.takeWhile (· ≠ '\n')).length)
      else if c = '/' && rest.head? = some '*' then
        readTokens fuel memory (head.skip (starComment 1 (rest.drop 1) + 2))
      else if c.isDigit then
        let (token, n) := Token.number false head.rest
        readAfter fuel memory ⟨token, place⟩ (head.skip n)
      -- a sign after an operand is an operator
      else if c = '-' && !memory.afterOperand && rest.head?.any Char.isDigit then
        let (token, n) := Token.number true rest
        readAfter fuel memory ⟨token, place⟩ (head.skip (n + 1))
      else if Token.startsName c then
        let name := head.rest.takeWhile Token.continuesName
        readAfter fuel memory ⟨Token.ofWord name, place⟩ (head.skip name.length)
      else if c = '\x22' || c = '\x60' then
        readText fuel memory c place (textStart c (head.skip 1))
      else if c = '\x27' then
        if rest.head? = some '\x27' then [⟨.flawed (.badCharacter ""), place⟩]
        else
          match readQuoted (rest.length + 1) c place [] (head.skip 1) with
          | .error e => [⟨.flawed e.flaw, e.place⟩]
          | .ok read =>
            match read.chars with
            | [c] => readAfter fuel memory ⟨.char c, place⟩ read.head
            | chars => [⟨.flawed (.badCharacter (String.ofList chars)), place⟩]
      else
        match Token.longestSymbol? head.rest with
        | some (spelled, token) => readAfter fuel memory ⟨token, place⟩ (head.skip spelled.length)
        | none => [⟨.flawed (.unexpected (String.singleton c)), place⟩]

/-- A token and those after it. -/
def readAfter (fuel : Nat) (memory : Memory) (located : Located) (head : Head) : List Located :=
  match fuel with
  | 0 => [located]
  | fuel + 1 =>
    match located.token with
    | .flawed _ => [located]
    | token =>
      let memory := memory.after token
      match memory.resumes with
      | some outer => located :: readText fuel outer '\x60' head.place head
      | none => located :: readTokens fuel memory head

/-- A text between quotes, or the rest of one, and the tokens after it. -/
def readText (fuel : Nat) (memory : Memory) (quote : Char) (start : Place) (head : Head) :
    List Located :=
  match fuel with
  | 0 => []
  | fuel + 1 =>
    match readQuoted (head.rest.length + 1) quote start [] head with
    | .error e => [⟨.flawed e.flaw, e.place⟩]
    | .ok read =>
      let (token, memory) := pieceOf read memory
      ⟨token, start⟩ :: readTokens fuel memory read.head

end

/-- **The tokens of a script.** -/
def tokens (code : String) : List Located :=
  let chars := code.toList
  readTokens (3 * chars.length + 3) {} ⟨chars, ⟨1, 0⟩⟩

end Script

end Scenario
