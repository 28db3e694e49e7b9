import Scenario.Binary64.Decimal
import Scenario.Json.Reader

/-!
# Scalars

A value without parts. In a document a scalar may stand unquoted, and its spelling decides what it
is: `Scalar.ofSpelling` takes it for a null, a truth value, an integer, a floating-point number or,
if nothing else fits, a text.

* Nothing at all and `~` are null, as is `null` in the usual letter cases.
* An integer may be written in base 16, 8 or 2. Digits with a needless zero in front are a text.
* A floating-point number has a finite value, or is one of `.inf`, `-.inf` and `.nan`.
-/

namespace Scenario

namespace Record

/-- A value without parts. -/
inductive Scalar where
  | null
  | bool (b : Bool)
  | integer (n : Int)
  | float (x : Binary64)
  | text (s : String)

namespace Scalar

/-- A word in lower case, with a capital, and in capitals. -/
def letterCases (word : String) : List String :=
  [word, word.capitalize, word.toUpper]

/-- Whether a spelling is one of null. -/
def spellsNull (s : String) : Bool :=
  s.isEmpty || s = "~" || s ∈ letterCases "null"

/-- The truth value of a spelling. -/
def boolOfSpelling? (s : String) : Option Bool :=
  if s ∈ letterCases "true" then some true
  else if s ∈ letterCases "false" then some false
  else none

/-- The natural number that digits of a base spell. -/
def digitsInBase? (base : Nat) : List Char → Option Nat
  | [] => none
  | digits => digits.foldlM (fun n c =>
      ((Json.hexValue? c).filter (· < base)).map fun d => n * base + d) 0

/-- The natural number of digits that may have the sign of a base in front. -/
def naturalOfSpelling? : List Char → Option Nat
  | '0' :: 'x' :: digits => digitsInBase? 16 digits
  | '0' :: 'o' :: digits => digitsInBase? 8 digits
  | '0' :: 'b' :: digits => digitsInBase? 2 digits
  | digits => digitsInBase? 10 digits

/-- The sign of a spelling, and the rest. -/
def splitSign : List Char → Bool × List Char
  | '-' :: rest => (true, rest)
  | '+' :: rest => (false, rest)
  | rest => (false, rest)

/-- Whether a spelling has nothing but digits, the first of which is a needless zero. -/
def isZeroPadded (s : String) : Bool :=
  match (splitSign s.toList).2 with
  | '0' :: rest => !rest.isEmpty && rest.all Char.isDigit
  | _ => false

/-- The integer of a spelling; integers have 128 bits. -/
def integerOfSpelling? (s : String) : Option Int :=
  if isZeroPadded s then none
  else
    let (negative, digits) := splitSign s.toList
    (naturalOfSpelling? digits).bind fun n =>
      if negative then (if n ≤ 2 ^ 127 then some (-(n : Int)) else none)
      else if n < 2 ^ 128 then some n else none

/-- The floating-point number of a spelling. -/
def floatOfSpelling? (s : String) : Option Binary64 :=
  let infinite := [".inf", ".Inf", ".INF"]
  if s ∈ infinite || s ∈ infinite.map ("+" ++ ·) then some (.infinity false)
  else if s ∈ infinite.map ("-" ++ ·) then some (.infinity true)
  else if s ∈ [".nan", ".NaN", ".NAN"] then some .nan
  else (Binary64.ofText? s).filter fun x => x.toFinite?.isSome

/-- **What an unquoted scalar is.** -/
def ofSpelling (s : String) : Scalar :=
  if spellsNull s then .null
  else
    match boolOfSpelling? s, integerOfSpelling? s, floatOfSpelling? s with
    | some b, _, _ => .bool b
    | none, some n, _ => .integer n
    | none, none, some x => if isZeroPadded s then .text s else .float x
    | none, none, none => .text s

end Scalar

end Record

end Scenario
