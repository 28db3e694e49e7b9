import Scenario.Json.Number

/-!
# Reading JSON

A strict reader. A text is one value between blanks; a failure names its cause and the place where
the reader stood.

* `Failure.message` is the wording of a failure with its line and column. Columns count bytes.
* `read` keeps the members of an object as they stand in the text, so that a reader of records can
  see a repeated key; `Value.ofText` sorts them.

Lists and objects may be nested 127 deep.
-/

namespace Scenario

namespace Json

/-- Why a text is not JSON. -/
inductive Cause where
  | endInList
  | endInObject
  | endInString
  | endInValue
  | colonExpected
  | listSeparatorExpected
  | objectSeparatorExpected
  | wordExpected
  | valueExpected
  | invalidEscape
  | invalidNumber
  | numberOutOfRange
  | controlCharacter
  | keyNotString
  | loneSurrogate
  | trailingComma
  | trailingCharacters
  | unfinishedEscape
  | tooDeep
deriving DecidableEq, Repr

/-- The wording of a cause. -/
def Cause.message : Cause → String
  | endInList => "EOF while parsing a list"
  | endInObject => "EOF while parsing an object"
  | endInString => "EOF while parsing a string"
  | endInValue => "EOF while parsing a value"
  | colonExpected => "expected `:`"
  | listSeparatorExpected => "expected `,` or `]`"
  | objectSeparatorExpected => "expected `,` or `\x7d`"
  | wordExpected => "expected ident"
  | valueExpected => "expected value"
  | invalidEscape => "invalid escape"
  | invalidNumber => "invalid number"
  | numberOutOfRange => "number out of range"
  | controlCharacter =>
    "control character (\\u0000-\\u001F) found while parsing a string"
  | keyNotString => "key must be a string"
  | loneSurrogate => "lone leading surrogate in hex escape"
  | trailingComma => "trailing comma"
  | trailingCharacters => "trailing characters"
  | unfinishedEscape => "unexpected end of hex escape"
  | tooDeep => "recursion limit exceeded"

/-- A cause with the text that was left, and how many bytes of that text belong to the failure. -/
structure Failure where
  cause : Cause
  left : List Char
  beyond : Nat

/-- What a part of the reader gives: a result and the rest of the text. -/
abbrev Reader (α : Type) := List Char → Except Failure (α × List Char)

/-- A failure just before `left`. -/
def failBefore {α : Type} (cause : Cause) (left : List Char) : Except Failure α :=
  .error ⟨cause, left, 0⟩

/-- A failure at the next byte of `left`, or at the end of the text. -/
def failAt {α : Type} (cause : Cause) (left : List Char) : Except Failure α :=
  .error ⟨cause, left, if left.isEmpty then 0 else 1⟩

/-- The text after blanks. -/
def skipBlanks : List Char → List Char
  | [] => []
  | c :: rest =>
    if c = ' ' || c = '\n' || c = '\t' || c = '\r' then skipBlanks rest else c :: rest

/-! ### Strings -/

/-- The value of a hexadecimal digit. -/
def hexValue? (c : Char) : Option Nat :=
  if '0' ≤ c && c ≤ '9' then some (c.toNat - 48)
  else if 'a' ≤ c && c ≤ 'f' then some (c.toNat - 87)
  else if 'A' ≤ c && c ≤ 'F' then some (c.toNat - 55)
  else none

/-- The number of bytes of a text. -/
def byteCount (text : List Char) : Nat :=
  text.foldl (fun n c => n + c.utf8Size) 0

/-- Four hexadecimal digits. -/
def readFourHex : Reader Nat
  | text =>
    match text with
    | a :: b :: c :: d :: rest =>
      match hexValue? a, hexValue? b, hexValue? c, hexValue? d with
      | some a, some b, some c, some d => .ok (((a * 16 + b) * 16 + c) * 16 + d, rest)
      | _, _, _, _ => .error ⟨.invalidEscape, text, 4⟩
    | short =>
      if 4 ≤ byteCount short then .error ⟨.invalidEscape, short, 4⟩
      else .error ⟨.endInString, [], 0⟩

/-- The character of an escape `\u…` after the `u`: one unit, or two that form a surrogate pair. -/
def readUnicodeEscape : Reader Char
  | text => do
    let (first, rest) ← readFourHex text
    -- a second half without a first one
    if 0xDC00 ≤ first && first ≤ 0xDFFF then failBefore .loneSurrogate rest
    else if first < 0xD800 || 0xDBFF < first then pure (Char.ofNat first, rest)
    else
      match rest with
      | [] => failBefore .endInString []
      | '\\' :: [] => failBefore .endInString []
      -- a first half needs a second one at once
      | '\\' :: 'u' :: more =>
        let (second, rest) ← readFourHex more
        if second < 0xDC00 || 0xDFFF < second then failBefore .loneSurrogate rest
        else pure (Char.ofNat ((first - 0xD800) * 0x400 + (second - 0xDC00) + 0x10000), rest)
      | '\\' :: more => .error ⟨.unfinishedEscape, more, 1⟩
      | more => .error ⟨.unfinishedEscape, more, 1⟩

/-- The character that a letter after a backslash stands for. -/
def simpleEscape? : Char → Option Char
  | '\x22' => some '\x22'
  | '\\' => some '\\'
  | '/' => some '/'
  | 'b' => some '\x08'
  | 'f' => some '\x0c'
  | 'n' => some '\n'
  | 'r' => some '\r'
  | 't' => some '\t'
  | _ => none

/-- The rest of a string after its opening quote; `fuel` bounds the number of characters. -/
def readStringBody (fuel : Nat) (acc : List Char) : Reader String
  | text =>
    match fuel, text with
    | 0, _ => failBefore .endInString []
    | _, [] => failBefore .endInString []
    | fuel + 1, c :: rest =>
      if c = '\x22' then .ok (String.ofList acc.reverse, rest)
      else if c = '\\' then
        match rest with
        | [] => failBefore .endInString []
        | 'u' :: more => do
          let (c, rest) ← readUnicodeEscape more
          readStringBody fuel (c :: acc) rest
        | letter :: more =>
          match simpleEscape? letter with
          | some c => readStringBody fuel (c :: acc) more
          | none => .error ⟨.invalidEscape, rest, 1⟩
      -- control characters have to be escaped
      else if c.toNat < 0x20 then .error ⟨.controlCharacter, text, 1⟩
      else readStringBody fuel (c :: acc) rest

/-- The rest of a string after its opening quote. -/
def readString : Reader String
  | text => readStringBody (text.length + 1) [] text

/-! ### Numbers -/

/-- The largest integer that is kept exactly. -/
def largestInteger : Nat := 2 ^ 64 - 1

/-- Reads digits into a significand as long as it fits 64 bits; counts them. Further digits stay. -/
def takeSignificand (significand count : Nat) : List Char → Nat × Nat × List Char
  | [] => (significand, count, [])
  | c :: rest =>
    if c.isDigit then
      let next := significand * 10 + (c.toNat - 48)
      if next ≤ largestInteger then takeSignificand next (count + 1) rest
      else (significand, count, c :: rest)
    else (significand, count, c :: rest)

/-- The scaled number or the failure for one that is too large. -/
def finishNumber (negative : Bool) (significand : Nat) (exponent : Int) (rest : List Char) :
    Except Failure (Number × List Char) :=
  match scaled? negative significand exponent with
  | some x => .ok (.float x, rest)
  | none => failBefore .numberOutOfRange rest

/-- The exponent part after its `e`. -/
def readExponent (negative : Bool) (significand : Nat) (start : Int) : Reader Number
  | text =>
    let (down, text) :=
      match text with
      | '+' :: rest => (false, rest)
      | '-' :: rest => (true, rest)
      | rest => (false, rest)
    match text with
    | [] => failBefore .endInValue []
    | c :: rest =>
      if !c.isDigit then .error ⟨.invalidNumber, text, 1⟩
      else
        let (digits, after) := (c :: rest).span Char.isDigit
        let exponent := Binary64.valueOfDigits digits
        -- beyond 32 bits an exponent overflows or makes zero, whatever the digits before it are
        if 2 ^ 31 ≤ exponent then
          if significand ≠ 0 && !down then
            -- the error is placed behind the first ten digits that count
            let kept := (digits.takeWhile (· = '0')).length + 10
            failBefore .numberOutOfRange (digits.drop kept ++ after)
          else .ok (.float (.zero negative), after)
        else finishNumber negative significand (if down then start - exponent else start + exponent)
          after

/-- After the digits of a fraction: an exponent or the end. -/
def readAfterFraction (negative : Bool) (significand : Nat) (exponent : Int) : Reader Number
  | 'e' :: rest => readExponent negative significand exponent rest
  | 'E' :: rest => readExponent negative significand exponent rest
  | rest => finishNumber negative significand exponent rest

/-- The fraction after its point. -/
def readFraction (negative : Bool) (significand : Nat) (before : Int) : Reader Number
  | text =>
    let (significand, count, rest) := takeSignificand significand 0 text
    match rest with
    | c :: _ =>
      if c.isDigit then
        readAfterFraction negative significand (before - count) (rest.dropWhile Char.isDigit)
      else if count = 0 then failAt .invalidNumber rest
      else readAfterFraction negative significand (before - count) rest
    | [] =>
      if count = 0 then failAt .endInValue []
      else readAfterFraction negative significand (before - count) []

/-- After the digits of the whole part, the last `dropped` of which are not in the significand. -/
def readAfterWhole (negative : Bool) (significand dropped : Nat) : Reader Number
  | '.' :: rest => readFraction negative significand dropped rest
  | 'e' :: rest => readExponent negative significand dropped rest
  | 'E' :: rest => readExponent negative significand dropped rest
  | rest =>
    if dropped ≠ 0 then finishNumber negative significand dropped rest
    else if !negative then .ok (.integer significand, rest)
    else if significand = 0 || 2 ^ 63 < significand then
      .ok (.float (Number.toFinite (.integer significand)).neg, rest)
    else .ok (.integer (-(significand : Int)), rest)

/-- A number after its sign. -/
def readUnsigned (negative : Bool) : Reader Number
  | [] => failBefore .endInValue []
  | c :: rest =>
    if c = '0' then
      match rest with
      | d :: _ =>
        if d.isDigit then failAt .invalidNumber rest else readAfterWhole negative 0 0 rest
      | [] => readAfterWhole negative 0 0 []
    else if c.isDigit then
      let (significand, _, after) := takeSignificand 0 0 (c :: rest)
      let (extra, after) := after.span Char.isDigit
      readAfterWhole negative significand extra.length after
    else .error ⟨.invalidNumber, c :: rest, 1⟩

/-! ### Values -/

/-- The rest of a word after its first letter. -/
def readWord (value : Value) : List Char → Reader Value
  | [], text => .ok (value, text)
  | _ :: _, [] => failBefore .endInValue []
  | w :: word, c :: rest =>
    if w = c then readWord value word rest else .error ⟨.wordExpected, c :: rest, 1⟩

mutual

/-- A value; `depth` more levels may open, and `fuel` bounds the number of steps. -/
def readValue (fuel depth : Nat) : Reader Value
  | text =>
    match fuel with
    | 0 => failBefore .endInValue []
    | fuel + 1 =>
      match skipBlanks text with
      | [] => failAt .endInValue []
      | c :: rest =>
        if c = 'n' then readWord .null ['u', 'l', 'l'] rest
        else if c = 't' then readWord (.bool true) ['r', 'u', 'e'] rest
        else if c = 'f' then readWord (.bool false) ['a', 'l', 's', 'e'] rest
        else if c = '-' then (readUnsigned true rest).map fun (n, rest) => (.number n, rest)
        else if c.isDigit then
          (readUnsigned false (c :: rest)).map fun (n, rest) => (.number n, rest)
        else if c = '\x22' then (readString rest).map fun (s, rest) => (.string s, rest)
        else if c = '[' then
          -- the depth is counted when a bracket opens, and scalars do not count
          if depth ≤ 1 then failAt .tooDeep (c :: rest)
          else (readItems fuel (depth - 1) true rest).map fun (items, rest) => (.array items, rest)
        else if c = '\x7b' then
          if depth ≤ 1 then failAt .tooDeep (c :: rest)
          else (readMembers fuel (depth - 1) true rest).map fun (members, rest) =>
            (.object members, rest)
        else failAt .valueExpected (c :: rest)

/-- The items of a list up to its closing bracket. -/
def readItems (fuel depth : Nat) (first : Bool) : Reader (List Value)
  | text =>
    match fuel with
    | 0 => failBefore .endInList []
    | fuel + 1 =>
      match skipBlanks text with
      | [] => failAt .endInList []
      | c :: rest =>
        if c = ']' then .ok ([], rest)
        else if first then do
          let (v, rest) ← readValue fuel depth (c :: rest)
          let (vs, rest) ← readItems fuel depth false rest
          pure (v :: vs, rest)
        else if c = ',' then
          -- a comma has to be followed by an item
          match skipBlanks rest with
          | [] => failAt .endInValue []
          | ']' :: more => failAt .trailingComma (']' :: more)
          | more => do
            let (v, rest) ← readValue fuel depth more
            let (vs, rest) ← readItems fuel depth false rest
            pure (v :: vs, rest)
        else failAt .listSeparatorExpected (c :: rest)

/-- The members of an object up to its closing brace, in the order of the text. -/
def readMembers (fuel depth : Nat) (first : Bool) : Reader (List (String × Value))
  | text =>
    match fuel with
    | 0 => failBefore .endInObject []
    | fuel + 1 =>
      match skipBlanks text with
      | [] => failAt .endInObject []
      | c :: rest =>
        if c = '\x7d' then .ok ([], rest)
        else if first then
          -- the first member has no comma before it
          if c = '\x22' then readMember fuel depth rest else failAt .keyNotString (c :: rest)
        else if c = ',' then
          match skipBlanks rest with
          | [] => failAt .endInValue []
          | d :: more =>
            if d = '\x22' then readMember fuel depth more
            else if d = '\x7d' then failAt .trailingComma (d :: more)
            else failAt .keyNotString (d :: more)
        else failAt .objectSeparatorExpected (c :: rest)

/-- A member after the opening quote of its key, and the members after it. -/
def readMember (fuel depth : Nat) : Reader (List (String × Value))
  | text =>
    match fuel with
    | 0 => failBefore .endInObject []
    | fuel + 1 => do
      let (key, rest) ← readString text
      match skipBlanks rest with
      | [] => failAt .endInObject []
      | ':' :: more =>
        let (v, rest) ← readValue fuel depth more
        let (vs, rest) ← readMembers fuel depth false rest
        pure ((key, v) :: vs, rest)
      | more => failAt .colonExpected more

end

/-- How deep lists and objects may be nested, plus one. -/
def depthLimit : Nat := 128

/-- **Reading a text** that holds one value. The members of its objects keep the text's order. -/
def read (text : String) : Except Failure Value := do
  let chars := text.toList
  let (v, rest) ← readValue (2 * chars.length + 2) depthLimit chars
  match skipBlanks rest with
  | [] => pure v
  | more => failAt .trailingCharacters more

/-! ### Places -/

/-- A line, from 1, and the number of bytes on it up to the place. -/
structure Place where
  line : Nat
  column : Nat
deriving DecidableEq, Repr

/-- Moves a place over bytes. -/
def Place.advance (place : Place) (bytes : List UInt8) : Place :=
  bytes.foldl (fun p b => if b = 10 then ⟨p.line + 1, 0⟩ else ⟨p.line, p.column + 1⟩) place

/-- Where in `text` a failure lies. -/
def Failure.place (failure : Failure) (text : String) : Place :=
  let bytes := text.toUTF8.toList
  let offset := bytes.length - byteCount failure.left + failure.beyond
  Place.advance ⟨1, 0⟩ (bytes.take offset)

/-- The wording of a failure at a place. -/
def Failure.messageAt (failure : Failure) (place : Place) : String :=
  failure.cause.message ++ " at line " ++ toString place.line ++ " column " ++
    toString place.column

/-- **The value of a text,** its objects in key order. -/
def Value.ofText (text : String) : Except Failure Value :=
  (read text).map Value.sorted

/-- The value of a text that is JSON. -/
def Value.ofText? (text : String) : Option Value :=
  (Value.ofText text).toOption

end Json

end Scenario
