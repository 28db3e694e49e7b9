import Scenario.Power
import Scenario.Xml.Document

/-!
# Reading XML

`read` reads a document: an optional declaration, one root element, and comments or instructions
around it. Documents with a document type are refused. Names are checked for their namespaces, and
references are resolved.

Elements and their contents are mutually recursive; each step consumes a character, so the length of
the text bounds the depth.
-/

namespace Scenario

namespace Xml

/-- Where the reader stands. -/
structure Reader where
  rest : List Char
  spot : Spot

/-- A part of the reader. -/
abbrev Read := StateT Reader (Except Flaw)

namespace Read

def fail {α : Type} (flaw : Flaw) : Read α := fun _ => .error flaw

def spot : Read Spot := fun r => .ok (r.spot, r)

def text : Read (List Char) := fun r => .ok (r.rest, r)

/-- The place after a character. -/
def after (spot : Spot) (c : Char) : Spot :=
  if c = '\n' then ⟨spot.line + 1, 1⟩ else ⟨spot.line, spot.column + 1⟩

/-- Steps over `n` characters. -/
def skip : Nat → Read Unit
  | 0 => return ()
  | n + 1 => do
    (fun r =>
      match r.rest with
      | [] => .ok ((), r)
      | c :: rest => .ok ((), ⟨rest, after r.spot c⟩) : Read Unit)
    skip n

/-- Whether a text comes next. -/
def comes (word : List Char) : Read Bool := fun r => .ok (Text.startsWith word r.rest, r)

/-- The next character; there must be one. -/
def next : Read Char := fun r =>
  match r.rest with
  | [] => .error .unexpectedEnd
  | c :: _ => .ok (c, r)

/-- Whether a character is white space between the parts of a tag. -/
def isSpace (c : Char) : Bool := c = ' ' || c = '\t' || c = '\n' || c = '\r'

def skipSpaces : Read Unit := do
  skip ((← text).takeWhile isSpace).length

/-- A certain character must come next. -/
def byte (expected : Char) : Read Unit := do
  let c ← next
  if c = expected then skip 1 else fail (.otherExpected expected c (← spot))

/-- A certain text must come next. -/
def word (expected : String) : Read Unit := do
  if ← comes expected.toList then skip expected.length
  else fail (.textExpected expected (← spot))

/-- Whether a character may stand in a document. -/
def isXmlChar (c : Char) : Bool :=
  let n := c.toNat
  if n < 0x20 then c = '\t' || c = '\n' || c = '\r' else n ≠ 0xFFFE && n ≠ 0xFFFF

/-- The characters of a text before the first that satisfies `stop` of itself and what follows. -/
def before (stop : List Char → Bool) : List Char → List Char
  | [] => []
  | c :: rest => if stop (c :: rest) then [] else c :: before stop rest

/-- Takes the characters before the first place that satisfies `stop`. -/
def takeBefore (stop : List Char → Bool) : Read (List Char) := do
  let taken := before stop (← text)
  match taken.span isXmlChar with
  | (_, []) =>
    skip taken.length
    return taken
  | (good, c :: _) =>
    skip good.length
    fail (.invalidCharacter c (← spot))

/-! ### Names -/

/-- Whether a character may begin a name. -/
def isNameStart (c : Char) : Bool :=
  let n := c.toNat
  c.isAlpha || c = '_' || c = ':' || (0xC0 ≤ n && n ≤ 0xD6) || (0xD8 ≤ n && n ≤ 0xF6) ||
    (0xF8 ≤ n && n ≤ 0x2FF) || (0x370 ≤ n && n ≤ 0x37D) || (0x37F ≤ n && n ≤ 0x1FFF) ||
    (0x200C ≤ n && n ≤ 0x200D) || (0x2070 ≤ n && n ≤ 0x218F) || (0x2C00 ≤ n && n ≤ 0x2FEF) ||
    (0x3001 ≤ n && n ≤ 0xD7FF) || (0xF900 ≤ n && n ≤ 0xFDCF) || (0xFDF0 ≤ n && n ≤ 0xFFFD) ||
    (0x10000 ≤ n && n ≤ 0xEFFFF)

/-- Whether a character may stand in a name. -/
def isNameChar (c : Char) : Bool :=
  let n := c.toNat
  isNameStart c || c.isDigit || c = '-' || c = '.' || n = 0xB7 || (0x300 ≤ n && n ≤ 0x36F) ||
    (0x203F ≤ n && n ≤ 0x2040)

/-- A name with its namespace prefix, which may be empty. -/
structure QualifiedName where
  space : String
  local_ : String
deriving DecidableEq, Repr

/-- How a name is written. -/
def QualifiedName.text (name : QualifiedName) : String :=
  if name.space = "" then name.local_ else name.space ++ ":" ++ name.local_

/-- Whether a list begins with a character that may begin a name. -/
def startsName (chars : List Char) : Bool :=
  chars.head?.any fun c => isNameStart c && c ≠ ':'

/-- A name. -/
def name : Read QualifiedName := do
  let start ← spot
  let chars := (← text).takeWhile isNameChar
  skip chars.length
  match Text.splitOnChar ':' chars with
  | [local_] =>
    if startsName local_ then return ⟨"", String.ofList local_⟩ else fail (.invalidName start)
  | [space, local_] =>
    if (space.isEmpty || startsName space) && startsName local_ then
      return ⟨String.ofList space, String.ofList local_⟩
    else fail (.invalidName start)
  | _ => fail (.invalidName start)

/-! ### References -/

/-- What a reference stands for. -/
inductive Reference where
  | char (c : Char)
  | named (name : String)
  | malformed

/-- The character of the number in a reference. -/
def numbered (base : Nat) (digits : List Char) : Reference :=
  let value := digits.foldl
    (fun n c =>
      base * n +
        (if c.isDigit then c.toNat - 48 else if c.isUpper then c.toNat - 55 else c.toNat - 87)) 0
  if digits.isEmpty || 2 ^ 32 ≤ value then .malformed
  else
    let c := if h : value.isValidChar then Char.ofNatAux value h else '\ufffd'
    if isXmlChar c then .char c else .malformed

/-- A reference from its ampersand on, with the text after it. -/
def reference (chars : List Char) : Reference × List Char :=
  let body := chars.drop 1
  let isHex (c : Char) : Bool :=
    c.isDigit || ('a' ≤ c && c ≤ 'f') || ('A' ≤ c && c ≤ 'F')
  let (found, rest) :=
    match body with
    | '#' :: 'x' :: more => (numbered 16 (more.takeWhile isHex), more.dropWhile isHex)
    | '#' :: more => (numbered 10 (more.takeWhile Char.isDigit), more.dropWhile Char.isDigit)
    | more =>
      -- there are no declarations, and only five entities need none
      let letters := more.takeWhile isNameChar
      let found : Reference :=
        match String.ofList letters with
        | "quot" => .char '\x22'
        | "amp" => .char '&'
        | "apos" => .char '\x27'
        | "lt" => .char '<'
        | "gt" => .char '>'
        | other => if letters.head?.any isNameStart then .named other else .malformed
      (found, more.dropWhile isNameChar)
  match rest with
  | ';' :: after => (found, after)
  | _ => (.malformed, rest)

/-- Resolves the references in a text that starts at `start`. Line ends become `lineEnd`, and other
control blanks are changed by `blank`. -/
def resolve (blank : Char → Char) (fuel : Nat) (start : Spot) :
    List Char → Except Flaw (List Char)
  | chars =>
    match fuel, chars with
    | 0, _ => .ok []
    | _, [] => .ok []
    | fuel + 1, c :: rest =>
      if c = '&' then
        match reference (c :: rest) with
        | (.char d, more) => do
          -- the place goes on by what has been read, and not by what it stands for
          let consumed := (c :: rest).take (rest.length + 1 - more.length)
          return d :: (← resolve blank fuel (consumed.foldl after start) more)
        | (.named name, _) => .error (.unknownReference name start)
        | (.malformed, _) => .error (.malformedReference start)
      else if c = '\r' then
        match rest with
        | '\n' :: more => do
          return blank '\n' :: (← resolve blank fuel (after (after start c) '\n') more)
        | more => do return blank '\n' :: (← resolve blank fuel (after start c) more)
      else do return blank c :: (← resolve blank fuel (after start c) rest)

/-- Control blanks become plain blanks in attributes. -/
def attributeBlank (c : Char) : Char :=
  if c = '\n' || c = '\t' || c = '\r' then ' ' else c

/-! ### Markup around elements -/

/-- The rest of a comment or instruction up to its closing text. -/
def upTo (closing : String) : Read (List Char) := do
  let body ← takeBefore (Text.startsWith closing.toList)
  word closing
  return body

def comment : Read Unit := do
  let start ← spot
  skip 4
  let body ← upTo "-->"
  if Text.occursIn ['-', '-'] body || body.getLast? = some '-' then
    fail (.hyphensInComment start)

def instruction : Read Unit := do
  if ← comes "<?xml ".toList then fail (.misplacedDeclaration (← spot))
  else
    skip 2
    let start ← spot
    let chars := (← text).takeWhile isNameChar
    if !chars.head?.any isNameStart then fail (.invalidName start)
    else
      skip chars.length
      skipSpaces
      let _ ← upTo "?>"

/-- Comments and instructions, `fuel` of them at most. -/
def misc : Nat → Read Unit
  | 0 => return ()
  | fuel + 1 => do
    skipSpaces
    if ← comes "<!--".toList then
      comment
      misc fuel
    else if ← comes "<?".toList then
      instruction
      misc fuel

/-! ### Tags -/

/-- The raw value of an attribute, with the place where it starts. -/
def attributeValue : Read (List Char × Spot) := do
  skipSpaces
  byte '='
  skipSpaces
  let quote ← next
  if quote ≠ '\x22' && quote ≠ '\x27' then fail (.kindExpected "a quote" quote (← spot))
  else
    skip 1
    let start ← spot
    let value ← takeBefore fun rest => rest.head? = some quote || rest.head? = some '<'
    byte quote
    return (value, start)

/-- White space between the parts of a declaration. -/
def declarationSpace : Read Unit := do
  match ← text with
  | [] => return ()
  | c :: rest =>
    if isSpace c then skipSpaces
    else if Text.startsWith "?>".toList (c :: rest) then return ()
    else fail (.kindExpected "a whitespace" c (← spot))

/-- A part of a declaration, if it comes next. -/
def declarationPart (title : String) (needed : Bool) : Read Unit := do
  if needed || (← comes title.toList) then
    word title
    let _ ← attributeValue
    declarationSpace

def declaration : Read Unit := do
  skip 5
  declarationSpace
  declarationPart "version" true
  declarationPart "encoding" false
  declarationPart "standalone" false
  word "?>"

/-- An attribute with its places: of its name and of its value. -/
structure RawAttribute where
  name : QualifiedName
  value : String
  spot : Spot

/-- How a start tag ends. -/
inductive TagEnd where
  | opened
  | closed
  /-- The text ends inside the tag. -/
  | cut

/-- The attributes of a start tag and how it ends; `before` holds the attributes so far, in
reverse. -/
def tag (before : List RawAttribute) : Nat → Read (List RawAttribute × TagEnd)
  | 0 => return (before.reverse, .cut)
  | fuel + 1 => do
    let chars ← text
    if chars.isEmpty then return (before.reverse, .cut)
    else
      let spaced := chars.head?.any isSpace
      skipSpaces
      let c ← next
      if c = '/' then
        skip 1
        byte '>'
        return (before.reverse, .closed)
      else if c = '>' then
        skip 1
        return (before.reverse, .opened)
      -- attributes are separated by blanks, also from the title
      else if !spaced then fail (.kindExpected "a whitespace" c (← spot))
      else
        let at_ ← spot
        let title ← name
        let (raw, start) ← attributeValue
        let value ← (liftM (resolve attributeBlank (raw.length + 1) start raw) : Read (List Char))
        tag (⟨title, String.ofList value, at_⟩ :: before) fuel

/-! ### Namespaces -/

/-- The namespace prefixes in scope with their addresses, innermost first; the default namespace has
the empty prefix. -/
abbrev Spaces := List (String × String)

/-- The namespace of the prefix `xml`. -/
def xmlSpace : String := "http://www.w3.org/XML/1998/namespace"

/-- The namespace of declarations. -/
def declarationSpaceName : String := "http://www.w3.org/2000/xmlns/"

/-- Declares the namespaces among the attributes of an element; `own` are those already declared on
it. The other attributes are left. -/
def declareSpaces (own : Spaces) : List RawAttribute → Except Flaw (Spaces × List RawAttribute)
  | [] => .ok (own, [])
  | a :: rest =>
    if a.name.space = "xmlns" then
      if a.value = declarationSpaceName then .error (.namespaceOfNamespaces a.spot)
      else if a.name.local_ = "xml" && a.value ≠ xmlSpace then .error (.wrongXmlPrefix a.spot)
      else if a.name.local_ ≠ "xml" && a.value = xmlSpace then
        .error (.xmlNamespaceElsewhere a.spot)
      else if own.any fun (known, _) => known = a.name.local_ then
        .error (.repeatedNamespace a.name.local_ a.spot)
      else declareSpaces ((a.name.local_, a.value) :: own) rest
    else if a.name.space = "" && a.name.local_ = "xmlns" then
      if a.value = xmlSpace then .error (.xmlNamespaceElsewhere a.spot)
      else if a.value = declarationSpaceName then .error (.namespaceOfNamespaces a.spot)
      else declareSpaces (("", a.value) :: own) rest
    else do
      let (spaces, others) ← declareSpaces own rest
      return (spaces, a :: others)

/-- The namespace of a prefix. -/
def spaceOf (spaces : Spaces) (name : String) (at_ : Spot) : Except Flaw (Option String) :=
  if name = "xml" then .ok (some xmlSpace)
  else
    match spaces.find? fun (known, _) => known = name with
    | some (_, address) => .ok (some address)
    | none => if name = "" then .ok none else .error (.unknownNamespace name at_)

/-- Checks the attributes of an element for unknown prefixes and repeated names; `seen` are the
expanded names so far. -/
def checkAttributes (spaces : Spaces) (seen : List (Option String × String)) :
    List RawAttribute → Except Flaw (List Attribute)
  | [] => .ok []
  | a :: rest => do
    let space ← if a.name.space = "" then pure none else spaceOf spaces a.name.space a.spot
    if (space, a.name.local_) ∈ seen then .error (.repeatedAttribute a.name.local_ a.spot)
    else
      let others ← checkAttributes spaces ((space, a.name.local_) :: seen) rest
      return ⟨space.isSome, a.name.local_, a.value⟩ :: others

/-! ### Elements -/

/-- What was read: nodes, and whether the text ended inside an open element. -/
structure Piece where
  nodes : List Node
  unclosed : Bool

mutual

/-- An element from its opening angle. -/
def element (spaces : Spaces) (fuel : Nat) : Read Piece := do
  match fuel with
  | 0 => return ⟨[], true⟩
  | fuel + 1 =>
    skip 1
    let at_ ← spot
    let title ← name
    if title.space = "xmlns" then fail (.namespacePrefixOnElement at_)
    else
      let (raw, ending) ← tag [] ((← text).length + 1)
      match ending with
      | .cut => return ⟨[], false⟩
      | _ =>
        let (own, others) ← (liftM (declareSpaces [] raw) : Read (Spaces × List RawAttribute))
        -- a prefix may be declared by the element that uses it
        let spaces := own ++ spaces
        let attributes ← (liftM (checkAttributes spaces [] others) : Read (List Attribute))
        let _ ← (liftM (spaceOf spaces title.space at_) : Read (Option String))
        match ending with
        | .opened =>
          let inner ← content spaces title fuel
          return ⟨[.element title.local_ attributes inner.nodes], inner.unclosed⟩
        | _ => return ⟨[.element title.local_ attributes []], false⟩

/-- What stands in an element up to its closing tag. -/
def content (spaces : Spaces) (title : QualifiedName) (fuel : Nat) : Read Piece := do
  match fuel with
  | 0 => return ⟨[], true⟩
  | fuel + 1 =>
    let chars ← text
    match chars with
    | [] => return ⟨[], true⟩
    | '<' :: '/' :: _ =>
      let at_ ← spot
      skip 2
      let closing ← name
      skipSpaces
      byte '>'
      -- the prefixes have to be the same, and not only what they stand for
      if closing = title then return ⟨[], false⟩
      else fail (.wrongClosingTag title.text closing.text at_)
    | '<' :: '?' :: _ =>
      instruction
      content spaces title fuel
    | '<' :: '!' :: _ =>
      if Text.startsWith "<!--".toList chars then
        comment
        content spaces title fuel
      else if Text.startsWith "<![CDATA[".toList chars then
        skip 9
        let data ← upTo "]]>"
        let after ← content spaces title fuel
        return ⟨.text (String.ofList data) :: after.nodes, after.unclosed⟩
      else fail (.unknownToken (← spot))
    | '<' :: [] => fail (.unknownToken (← spot))
    | '<' :: _ =>
      let first ← element spaces fuel
      -- the text is at its end, so that there is nothing after the element
      if first.unclosed then return first
      else
        let after ← content spaces title fuel
        return ⟨first.nodes ++ after.nodes, after.unclosed⟩
    | _ =>
      let start ← spot
      let raw ← takeBefore fun rest => rest.head? = some '<'
      -- the end of a data section may not stand in a text
      if Text.occursIn "]]>".toList raw then fail (.closedDataInText (← spot))
      else
        let plain ← (liftM (resolve id (raw.length + 1) start raw) : Read (List Char))
        let after ← content spaces title fuel
        return ⟨.text (String.ofList plain) :: after.nodes, after.unclosed⟩

end

/-- A whole document. -/
def document : Read Piece := do
  let length := (← text).length + 1
  if ← comes "<?xml ".toList then declaration
  misc length
  skipSpaces
  if ← comes "<!DOCTYPE".toList then fail .documentType
  else
    let root ← (do if ← comes ['<'] then element [] (2 * length) else return ⟨[], false⟩)
    misc length
    -- there is one root, and only comments and instructions around it
    if (← text).isEmpty then return root else fail (.unknownToken (← spot))

end Read

/-- **Reading a document.** The result is a node that holds the root element. -/
def read (text : String) : Except Flaw Node := do
  let chars :=
    match text.toList with
    | '\ufeff' :: rest => rest
    | chars => chars
  let (root, _) ← Read.document.run ⟨chars, ⟨1, 1⟩⟩
  if root.unclosed then .error .unclosedRoot
  else if root.nodes.isEmpty then .error .noRoot
  else return .element "" [] root.nodes

end Xml

end Scenario
