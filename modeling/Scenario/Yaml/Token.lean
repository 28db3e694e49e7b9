import Scenario.Yaml.Scalar

/-!
# Tokens of documents

A document as a list of tokens. Indentation becomes tokens of its own: `blockMapping` and
`blockSequence` open a collection, `blockEnd` closes it.

A text that may be a key is known to be one only when its `:` comes; `openKeys` remembers where the
token of such a text stands, so that `key` can be put before it. A key that stands at the
indentation of a mapping has to get its `:`, and a key has to fit on a line and into 1024 characters.
-/

namespace Scenario

namespace Yaml

/-- A token. -/
inductive Token where
  | directive
  | documentStart
  | documentEnd
  | blockSequence
  | blockMapping
  | blockEnd
  | flowSequence
  | flowSequenceEnd
  | flowMapping
  | flowMappingEnd
  | blockEntry
  | flowEntry
  | key
  | value
  | alias (name : String)
  | anchor (name : String)
  | tag (text : String)
  | scalar (text : String) (plain : Bool)
  | streamEnd
deriving DecidableEq, Inhabited

/-- A text that may turn out to be a key. -/
structure OpenKey where
  required : Bool
  /-- How many tokens stand before it. -/
  number : Nat
  index : Nat
  line : Nat
  column : Nat

/-- What the reader of tokens remembers. -/
structure Desk where
  at_ : Cursor
  tokens : Array Token := #[]
  /-- For each flow collection that is open, innermost first, and for the block outside of them, the
  text that may turn out to be a key. -/
  openKeys : List (Option OpenKey) := [none]
  /-- The indentation of the innermost block collection, and those around it. -/
  indent : Int := -1
  outer : List Int := []
  keyAllowed : Bool := true

/-- What a part of the reader does; there is no result for a text that is no document. -/
abbrev Reading := StateT Desk Option

namespace Reading

/-- Adds a token. -/
def emit (token : Token) : Reading Unit :=
  modify fun d => { d with tokens := d.tokens.push token }

/-- Whether a flow collection is open. -/
def inFlow : Reading Bool := do
  return 1 < (← get).openKeys.length

/-- Whether a text at the cursor has to be a key. -/
def keyRequired : Reading Bool := do
  let d ← get
  return d.openKeys.length = 1 && d.indent = d.at_.column

/-- Gives up the innermost open key. -/
def dropKey : Reading Unit := do
  match (← get).openKeys with
  | some k :: rest =>
    if k.required then failure else modify fun d => { d with openKeys := none :: rest }
  | _ => return ()

/-- Remembers that a text at the cursor may be a key. -/
def openKey : Reading Unit := do
  let d ← get
  if d.keyAllowed then
    dropKey
    let key : OpenKey :=
      ⟨← keyRequired, d.tokens.size, d.at_.index, d.at_.line, d.at_.column⟩
    modify fun e => { e with openKeys := some key :: e.openKeys.drop 1 }

/-- Gives up keys that have become too long. -/
def dropStaleKeys : Reading Unit := do
  let d ← get
  let stale (k : OpenKey) : Bool := k.line < d.at_.line || k.index + 1024 < d.at_.index
  if d.openKeys.any fun k => k.any fun k => stale k && k.required then failure
  else
    modify fun d =>
      { d with openKeys := d.openKeys.map fun k => k.filter fun k => !stale k }

/-- Whether a key may begin at the cursor. -/
def allowKey (allowed : Bool) : Reading Unit :=
  modify fun d => { d with keyAllowed := allowed }

/-- Opens a block collection at a column, unless one is open there; its token becomes the one with
the number `number`. -/
def indentTo (column : Nat) (number : Nat) (token : Token) : Reading Unit := do
  let d ← get
  if d.openKeys.length = 1 && d.indent < column then
    set { d with
      indent := column
      outer := d.indent :: d.outer
      tokens := d.tokens.toList.insertIdx number token |>.toArray }

/-- Closes the block collections that are deeper than a column. -/
def closeTo (column : Int) : (outer : List Int) → Reading Unit
  | [] => pure ()
  | next :: outer => do
    let d ← get
    if column < d.indent then
      set { d with indent := next, outer := outer, tokens := d.tokens.push .blockEnd }
      closeTo column outer

/-- Closes the block collections that are deeper than a column, outside of flow collections. -/
def dedentTo (column : Int) : Reading Unit := do
  if !(← inFlow) then closeTo column (← get).outer

/-- Moves over some characters. -/
def skip (count : Nat) : Reading Unit :=
  modify fun d => { d with at_ := d.at_.skip count }

/-! ### Between tokens -/

/-- Moves over blanks, comments and breaks. Tabs may not indent a key. -/
def skipBetween : (fuel : Nat) → Reading Unit
  | 0 => pure ()
  | fuel + 1 => do
    let d ← get
    let tabs := 1 < d.openKeys.length || !d.keyAllowed
    -- a mark of the byte order takes no column
    let at_ := if d.at_.column = 0 && d.at_.rest.head?.any (fun c => c.toNat = 0xFEFF)
      then { d.at_.skip 1 with column := 0 } else d.at_
    let at_ := at_.skip (at_.rest.takeWhile fun c => c = ' ' || (tabs && c = '\t')).length
    let at_ := skipComment at_
    if at_.rest.head?.any isBreak then
      set { d with
        at_ := at_.takeBreak.2
        keyAllowed := d.keyAllowed || d.openKeys.length = 1 }
      skipBetween fuel
    else set { d with at_ }

/-! ### Single tokens -/

/-- The end of the document. -/
def endStream : Reading Unit := do
  dedentTo (-1)
  dropKey
  allowKey false
  emit .streamEnd

/-- The mark at which a document begins or ends. -/
def readMark (token : Token) : Reading Unit := do
  dedentTo (-1)
  dropKey
  allowKey false
  skip 3
  emit token

/-- A line with a directive. -/
def readDirective : Reading Unit := do
  dedentTo (-1)
  dropKey
  allowKey false
  let line := (← get).at_.rest.takeWhile fun c => !isBreak c
  let name := (line.drop 1).takeWhile fun c => !isSpacing c
  if name = "YAML".toList || name = "TAG".toList then
    skip line.length
    emit .directive
  else failure

/-- The sign that opens a flow collection. -/
def openFlow (token : Token) : Reading Unit := do
  openKey
  modify fun d => { d with openKeys := none :: d.openKeys, keyAllowed := true }
  skip 1
  emit token

/-- The sign that closes a flow collection. -/
def closeFlow (token : Token) : Reading Unit := do
  dropKey
  modify fun d =>
    { d with
      openKeys := if 1 < d.openKeys.length then d.openKeys.drop 1 else d.openKeys
      keyAllowed := false }
  skip 1
  emit token

/-- The sign between the entries of a flow collection. -/
def readFlowEntry : Reading Unit := do
  dropKey
  allowKey true
  skip 1
  emit .flowEntry

/-- The sign before an entry of a block sequence. -/
def readBlockEntry : Reading Unit := do
  let d ← get
  if !(← inFlow) then
    if !d.keyAllowed then failure
    indentTo d.at_.column d.tokens.size .blockSequence
  dropKey
  allowKey true
  skip 1
  emit .blockEntry

/-- The sign before a key. -/
def readKey : Reading Unit := do
  let d ← get
  let flow ← inFlow
  if !flow then
    if !d.keyAllowed then failure
    indentTo d.at_.column d.tokens.size .blockMapping
  dropKey
  allowKey (!flow)
  skip 1
  emit .key

/-- The sign between a key and its value. -/
def readValue : Reading Unit := do
  let d ← get
  let flow ← inFlow
  match d.openKeys with
  | some k :: rest => do
    set { d with
      openKeys := none :: rest
      -- what has been read was a key, and the sign of a key goes before it
      tokens := (d.tokens.toList.insertIdx k.number .key).toArray
      keyAllowed := false }
    indentTo k.column k.number .blockMapping
  | _ => do
    if !flow then
      if !d.keyAllowed then failure
      indentTo d.at_.column d.tokens.size .blockMapping
    allowKey (!flow)
  skip 1
  emit .value

/-- Whether the name of an anchor may hold a character. -/
def isNameChar (c : Char) : Bool := c.isAlphanum || c = '_' || c = '-'

/-- An anchor, or the place of one. -/
def readAnchor (token : String → Token) : Reading Unit := do
  openKey
  allowKey false
  let rest := (← get).at_.rest.drop 1
  let name := rest.takeWhile isNameChar
  let after := rest.drop name.length
  if name.isEmpty then failure
  if !endsHere after && !after.head?.any (fun c => c ∈ ['?', ':', ',', ']', '\x7d', '%', '@', '\x60'])
    then failure
  skip (name.length + 1)
  emit (token (String.ofList name))

/-- A tag. -/
def readTag : Reading Unit := do
  openKey
  allowKey false
  let flow ← inFlow
  let text := (← get).at_.rest.takeWhile fun c =>
    !(isSpacing c || isBreak c || (flow && isFlowMark c))
  skip text.length
  emit (.tag (String.ofList text))

/-- A text that was read. -/
def emitScalar (plain : Bool) (read : Option ScalarRead) : Reading Unit := do
  match read with
  | none => failure
  | some read => do
    modify fun d => { d with at_ := read.after, keyAllowed := d.keyAllowed || read.lineEnded }
    emit (.scalar (String.ofList read.text) plain)

/-- The indentation that the lines of a text must have. -/
def textIndent : Reading Nat := do
  return ((← get).indent + 1).toNat

/-- A block of lines. -/
def readBlockScalar : Reading Unit := do
  dropKey
  allowKey true
  emitScalar false (readBlock (← textIndent) (← get).at_)

/-- A quoted text. -/
def readQuotedScalar (double : Bool) : Reading Unit := do
  openKey
  allowKey false
  emitScalar false (readQuoted double (← get).at_)

/-- A plain text. -/
def readPlainScalar : Reading Unit := do
  openKey
  allowKey false
  let at_ := (← get).at_
  emitScalar true (readPlain (at_.rest.length + 1) (← inFlow) (← textIndent) [] {} at_)

/-- Whether a plain text may begin with a character that has `after` behind it. -/
def startsPlain (flow : Bool) (c : Char) (after : List Char) : Bool :=
  let spaced := after.head?.any isSpacing
  if c = '-' then !spaced
  else if c = '?' || c = ':' then !flow && !endsHere after
  else !isSpacing c && !isBreak c && !(c ∈ [',', '[', ']', '\x7b', '\x7d', '#', '&', '*', '!', '|',
    '>', '\x27', '\x22', '%', '@', '\x60'])

/-- Reads the next token; the result says whether there are more. -/
def readToken : Reading Bool := do
  skipBetween ((← get).at_.rest.length + 1)
  dropStaleKeys
  let d ← get
  dedentTo d.at_.column
  let flow ← inFlow
  match d.at_.rest with
  | [] => do
    endStream
    return false
  | c :: rest => do
    if d.at_.column = 0 && c = '%' then readDirective
    else if d.at_.atMark then readMark (if c = '-' then .documentStart else .documentEnd)
    else if c = '[' then openFlow .flowSequence
    else if c = '\x7b' then openFlow .flowMapping
    else if c = ']' then closeFlow .flowSequenceEnd
    else if c = '\x7d' then closeFlow .flowMappingEnd
    else if c = ',' then readFlowEntry
    -- these signs begin a text, unless a blank stands behind them
    else if c = '-' && endsHere rest then readBlockEntry
    else if c = '?' && (flow || endsHere rest) then readKey
    else if c = ':' && (flow || endsHere rest) then readValue
    else if c = '*' then readAnchor .alias
    else if c = '&' then readAnchor .anchor
    else if c = '!' then readTag
    else if (c = '|' || c = '>') && !flow then readBlockScalar
    else if c = '\x27' then readQuotedScalar false
    else if c = '\x22' then readQuotedScalar true
    else if startsPlain flow c rest then readPlainScalar
    else failure
    return true

/-- Reads all tokens. -/
def readTokens : (fuel : Nat) → Reading Unit
  | 0 => failure
  | fuel + 1 => do
    if ← readToken then readTokens fuel

end Reading

/-- **The tokens of a document,** if it can be cut into tokens. -/
def tokens? (text : String) : Option (List Token) :=
  let chars := text.toList
  if chars.all fun c => isAllowed c || c.toNat = 0xFEFF then
    ((Reading.readTokens (chars.length + 2)).run { at_ := { rest := chars } }).map fun r =>
      r.2.tokens.toList
  else none

end Yaml

end Scenario
