import Scenario.Text.Blank

/-!
# XML documents

What is kept of a document: elements with the local part of their names, their attributes and their
children, and text. Comments and instructions leave no trace.

A text that is not well-formed has a `Flaw`.
-/

namespace Scenario

namespace Xml

/-- An attribute. Only an attribute without a namespace is found by its name. -/
structure Attribute where
  namespaced : Bool
  name : String
  value : String
deriving DecidableEq, Repr

/-- A part of a document. -/
inductive Node where
  | element (name : String) (attributes : List Attribute) (children : List Node)
  | text (content : String)

namespace Node

def children : Node → List Node
  | .element _ _ children => children
  | .text _ => []

/-- The name of an element. -/
def name? : Node → Option String
  | .element name _ _ => some name
  | .text _ => none

/-- The value of the attribute with a name. -/
def attribute? (name : String) : Node → Option String
  | .element _ attributes _ =>
    (attributes.find? fun a => !a.namespaced && a.name = name).map Attribute.value
  | .text _ => none

mutual

/-- All text below a node, in document order. -/
def content : Node → String
  | .element _ _ children => contentOf children
  | .text s => s

def contentOf : List Node → String
  | [] => ""
  | n :: rest => content n ++ contentOf rest

end

/-- The text of a node without blanks at both ends. -/
def trimmedText (n : Node) : String :=
  Text.trim n.content

end Node

/-- A line and a column, both from 1; a column is one character. -/
structure Spot where
  line : Nat
  column : Nat
deriving DecidableEq, Repr

/-- How a place is written. -/
def Spot.text (spot : Spot) : String :=
  toString spot.line ++ ":" ++ toString spot.column

/-- Why a text is not a well-formed document. -/
inductive Flaw where
  | wrongXmlPrefix (at_ : Spot)
  | xmlNamespaceElsewhere (at_ : Spot)
  | namespaceOfNamespaces (at_ : Spot)
  | namespacePrefixOnElement (at_ : Spot)
  | repeatedNamespace (name : String) (at_ : Spot)
  | unknownNamespace (name : String) (at_ : Spot)
  | wrongClosingTag (expected found : String) (at_ : Spot)
  | unexpectedClosingTag (at_ : Spot)
  | unknownReference (name : String) (at_ : Spot)
  | malformedReference (at_ : Spot)
  | repeatedAttribute (name : String) (at_ : Spot)
  | noRoot
  | unclosedRoot
  | misplacedDeclaration (at_ : Spot)
  | documentType
  | invalidName (at_ : Spot)
  | invalidCharacter (c : Char) (at_ : Spot)
  | otherExpected (expected found : Char) (at_ : Spot)
  | kindExpected (expected : String) (found : Char) (at_ : Spot)
  | textExpected (expected : String) (at_ : Spot)
  | hyphensInComment (at_ : Spot)
  | closedDataInText (at_ : Spot)
  | unknownToken (at_ : Spot)
  | unexpectedEnd
deriving DecidableEq, Repr

/-- A character as it is named in a flaw. -/
def namedChar (c : Char) : String := c.toString

/-- The wording of a flaw. -/
def Flaw.message : Flaw → String
  | wrongXmlPrefix p => "'xml' namespace prefix mapped to wrong URI at " ++ p.text
  | xmlNamespaceElsewhere p =>
    "the 'xml' namespace URI is used for not 'xml' prefix at " ++ p.text
  | namespaceOfNamespaces p =>
    "the 'xmlns' URI is used at " ++ p.text ++ ", but it must not be declared"
  | namespacePrefixOnElement p =>
    "the 'xmlns' prefix is used at " ++ p.text ++ ", but it must not be"
  | repeatedNamespace name p => "namespace '" ++ name ++ "' at " ++ p.text ++ " is already defined"
  | unknownNamespace name p => "an unknown namespace prefix '" ++ name ++ "' at " ++ p.text
  | wrongClosingTag expected found p =>
    "expected '" ++ expected ++ "' tag, not '" ++ found ++ "' at " ++ p.text
  | unexpectedClosingTag p => "unexpected close tag at " ++ p.text
  | unknownReference name p => "unknown entity reference '" ++ name ++ "' at " ++ p.text
  | malformedReference p => "malformed entity reference at " ++ p.text
  | repeatedAttribute name p => "attribute '" ++ name ++ "' at " ++ p.text ++ " is already defined"
  | noRoot => "the document does not have a root node"
  | unclosedRoot => "the root node was opened but never closed"
  | misplacedDeclaration p => "unexpected XML declaration at " ++ p.text
  | documentType => "XML with DTD detected"
  | invalidName p => "invalid name token at " ++ p.text
  | invalidCharacter c p =>
    "a non-XML character '\\u\x7b" ++ String.ofList (Nat.toDigits 16 c.toNat) ++ "\x7d' found at " ++
      p.text
  | otherExpected expected found p =>
    "expected '" ++ namedChar expected ++ "' not '" ++ namedChar found ++ "' at " ++ p.text
  | kindExpected expected found p =>
    "expected " ++ expected ++ " not '" ++ namedChar found ++ "' at " ++ p.text
  | textExpected expected p => "expected '" ++ expected ++ "' at " ++ p.text
  | hyphensInComment p => "comment at " ++ p.text ++ " contains '--'"
  | closedDataInText p => "']]>' at " ++ p.text ++ " is not allowed inside a character data"
  | unknownToken p => "unknown token at " ++ p.text
  | unexpectedEnd => "unexpected end of stream"

end Xml

end Scenario
