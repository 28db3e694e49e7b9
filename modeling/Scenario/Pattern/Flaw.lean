import Scenario.Text.Blank

/-!
# Flaws of patterns

A pattern that cannot be read has a `Flaw`: a cause, the span of the pattern where it lies, and
sometimes a second span that the cause refers to. `Flaw.message` shows the pattern with the spans
underlined.
-/

namespace Scenario

namespace Pattern

/-- A line and a column of a pattern, both from 1; a column is one character. -/
structure Spot where
  line : Nat
  column : Nat
deriving DecidableEq, Repr

/-- The part of a pattern from `start` up to and without `stop`. -/
structure Span where
  start : Spot
  stop : Spot
deriving DecidableEq, Repr

/-- Why a pattern cannot be read. -/
inductive Cause where
  | invalidClassEscape
  | invalidClassRange
  | rangeNotLiteral
  | unclosedClass
  | emptyDecimal
  | invalidDecimal
  | emptyHex
  | invalidHex
  | invalidHexDigit
  | unfinishedEscape
  | unknownEscape
  | danglingNegation
  | repeatedFlag
  | repeatedNegation
  | unfinishedFlags
  | unknownFlag
  | repeatedName
  | emptyName
  | invalidName
  | unfinishedName
  | unclosedGroup
  | unopenedGroup
  | invalidCount
  | emptyCount
  | unclosedCount
  | nothingToRepeat
  | unclosedBoundary
  | unknownBoundary
  | unfinishedBoundary
  | invalidUnicodeClass
  | unknownProperty
  | unknownPropertyValue
  | backreference
  | lookAround
deriving DecidableEq, Repr

/-- The wording of a cause. -/
def Cause.message : Cause → String
  | invalidClassEscape => "invalid escape sequence found in character class"
  | invalidClassRange => "invalid character class range, the start must be <= the end"
  | rangeNotLiteral => "invalid range boundary, must be a literal"
  | unclosedClass => "unclosed character class"
  | emptyDecimal => "decimal literal empty"
  | invalidDecimal => "decimal literal invalid"
  | emptyHex => "hexadecimal literal empty"
  | invalidHex => "hexadecimal literal is not a Unicode scalar value"
  | invalidHexDigit => "invalid hexadecimal digit"
  | unfinishedEscape => "incomplete escape sequence, reached end of pattern prematurely"
  | unknownEscape => "unrecognized escape sequence"
  | danglingNegation => "dangling flag negation operator"
  | repeatedFlag => "duplicate flag"
  | repeatedNegation => "flag negation operator repeated"
  | unfinishedFlags => "expected flag but got end of regex"
  | unknownFlag => "unrecognized flag"
  | repeatedName => "duplicate capture group name"
  | emptyName => "empty capture group name"
  | invalidName => "invalid capture group character"
  | unfinishedName => "unclosed capture group name"
  | unclosedGroup => "unclosed group"
  | unopenedGroup => "unopened group"
  | invalidCount => "invalid repetition count range, the start must be <= the end"
  | emptyCount => "repetition quantifier expects a valid decimal"
  | unclosedCount => "unclosed counted repetition"
  | nothingToRepeat => "repetition operator missing expression"
  | unclosedBoundary =>
    "special word boundary assertion is either unclosed or contains an invalid character"
  | unknownBoundary =>
    "unrecognized special word boundary assertion, valid choices are: start, end, start-half " ++
      "or end-half"
  | unfinishedBoundary =>
    "found either the beginning of a special word boundary or a bounded repetition on a \\b " ++
      "with an opening brace, but no closing brace"
  | invalidUnicodeClass => "invalid Unicode character class"
  | unknownProperty => "Unicode property not found"
  | unknownPropertyValue => "Unicode property value not found"
  | backreference => "backreferences are not supported"
  | lookAround => "look-around, including look-ahead and look-behind, is not supported"

/-- A cause and where it lies. -/
structure Flaw where
  cause : Cause
  span : Span
  /-- An earlier part of the pattern that the cause refers to. -/
  earlier : Option Span
deriving DecidableEq, Repr

namespace Flaw

/-- The lines of a pattern; a line break at the end opens no further line. -/
def lines (pattern : List Char) : List (List Char) :=
  let all := Text.splitOnChar '\n' pattern
  let kept := if all.getLast? = some [] then all.dropLast else all
  kept.map fun line => if line.getLast? = some '\r' then line.dropLast else line

/-- Text of one repeated character. -/
def times (n : Nat) (c : Char) : String := String.ofList (List.replicate n c)

/-- Underlines spans on one line; `column` characters stand already. -/
def underline (column : Nat) : List Span → String
  | [] => ""
  | span :: rest =>
    let start := span.start.column - 1
    let width := max 1 (span.stop.column - span.start.column)
    times (start - column) ' ' ++ times width '^' ++ underline (max column start + width) rest

/-- Whether a span lies on one line. -/
def onOneLine (span : Span) : Bool := span.start.line = span.stop.line

/-- The spans of a flaw in the order of their starts. -/
def spans (flaw : Flaw) : List Span :=
  match flaw.earlier with
  | none => [flaw.span]
  | some earlier => [earlier, flaw.span]

/-- One shown line with its marks; `width` is the width of line numbers, zero for none. -/
def shownLine (flaw : Flaw) (width number : Nat) (line : List Char) : String :=
  let head :=
    if width = 0 then times 4 ' '
    else
      let digits := toString number
      times (width - digits.length) ' ' ++ digits ++ ": "
  let marked := flaw.spans.filter fun span => onOneLine span && span.start.line = number
  let marks :=
    if marked.isEmpty then ""
    else times (if width = 0 then 4 else width + 2) ' ' ++ underline 0 marked ++ "\n"
  head ++ String.ofList line ++ "\n" ++ marks

/-- The shown lines, numbered from `number`. -/
def shownLines (flaw : Flaw) (width : Nat) : Nat → List (List Char) → String
  | _, [] => ""
  | number, line :: rest =>
    flaw.shownLine width number line ++ flaw.shownLines width (number + 1) rest

/-- What is said of a span over several lines. -/
def lineNote (span : Span) : String :=
  "on line " ++ toString span.start.line ++ " (column " ++ toString span.start.column ++
    ") through line " ++ toString span.stop.line ++ " (column " ++
    toString (span.stop.column - 1) ++ ")"

/-- **The wording of a flaw** of the given pattern. -/
def message (flaw : Flaw) (pattern : String) : String :=
  let chars := pattern.toList
  let all := lines chars
  let head := "regex parse error:\n"
  let last := "error: " ++ flaw.cause.message
  if '\n' ∈ chars then
    -- a pattern that ends a line has an empty line after it, which is counted and not shown
    let count := if chars.getLast? = some '\n' then all.length + 1 else all.length
    let width := if count ≤ 1 then 0 else (toString count).length
    let divider := times 79 '~' ++ "\n"
    -- a span over several lines cannot be underlined, and is told in words
    let notes := flaw.spans.filter fun span => !onOneLine span
    let noted :=
      if notes.isEmpty then "" else "\n".intercalate (notes.map lineNote) ++ "\n"
    head ++ divider ++ flaw.shownLines width 1 all ++ divider ++ noted ++ last
  else head ++ flaw.shownLines 0 1 all ++ last

end Flaw

end Pattern

end Scenario
