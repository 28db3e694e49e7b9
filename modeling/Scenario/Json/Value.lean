import Scenario.Binary64.Basic
import Scenario.Keyed

/-!
# JSON values

The one dynamic type of the engine: variables, response bodies and the free parts of a case file are
JSON values. An integer is kept exactly, every other number is a finite binary64 number. The members
of an object form a `Keyed` collection.

Equality comes in two strengths.

* `Value.beq` is equality of data: an integer never equals a floating-point number, and the two
  floating-point zeros are equal.
* `Number.toFinite` rounds an integer to a floating-point number; comparisons that cross the two
  kinds of number compare after that rounding.
-/

namespace Scenario

namespace Json

/-- A number. Readers produce integers from `-2^63` to `2^64 - 1` only. -/
inductive Number where
  | integer (n : Int)
  | float (x : Binary64.Finite)
deriving DecidableEq

namespace Number

instance : Inhabited Number := ⟨.integer 0⟩

/-- Equality of data. -/
def beq : Number → Number → Bool
  | .integer m, .integer n => m = n
  | .float x, .float y => x.sameValue y
  | _, _ => false

/-- The nearest floating-point number. -/
def toFinite : Number → Binary64.Finite
  | .integer n => .ofInt n
  | .float x => x

/-- The integer, when it is a signed 64-bit one. -/
def toInt64? : Number → Option Int
  | .integer n => if n < 2 ^ 63 then some n else none
  | .float _ => none

/-- The integer, when it is not negative. -/
def toNat? : Number → Option Nat
  | .integer n => if 0 ≤ n then some n.toNat else none
  | .float _ => none

/-- The number of a binary64 value; there is none for an infinity or a NaN. -/
def ofBinary64? (x : Binary64) : Option Number :=
  x.toFinite?.map .float

end Number

/-- A JSON value. -/
inductive Value where
  | null
  | bool (b : Bool)
  | number (n : Number)
  | string (s : String)
  | array (items : List Value)
  | object (members : List (String × Value))
deriving Inhabited

/-- The members of an object; also a scope of variables. -/
abbrev Members := Keyed Value

namespace Value

mutual

/-- Equality of data, member by member. -/
def beq : Value → Value → Bool
  | .null, .null => true
  | .bool a, .bool b => a == b
  | .number a, .number b => a.beq b
  | .string a, .string b => a = b
  | .array xs, .array ys => beqItems xs ys
  | .object xs, .object ys => beqMembers xs ys
  | _, _ => false

def beqItems : List Value → List Value → Bool
  | [], [] => true
  | x :: xs, y :: ys => beq x y && beqItems xs ys
  | _, _ => false

def beqMembers : List (String × Value) → List (String × Value) → Bool
  | [], [] => true
  | (k, x) :: xs, (l, y) :: ys => k = l && (beq x y && beqMembers xs ys)
  | _, _ => false

end

instance : BEq Value := ⟨beq⟩

/-- An integer as a value. -/
def ofInt (n : Int) : Value := .number (.integer n)

/-- A natural number as a value. -/
def ofNat (n : Nat) : Value := .number (.integer n)

/-- A binary64 number as a value; what is no number in JSON is `null`. -/
def ofBinary64 (x : Binary64) : Value :=
  match Number.ofBinary64? x with
  | some n => .number n
  | none => .null

/-- An optional value, absent as `null`. -/
def ofOption {α : Type} (f : α → Value) : Option α → Value
  | some a => f a
  | none => .null

/-- An object with the given members in key order. -/
def ofMembers (pairs : List (String × Value)) : Value := .object (Keyed.ofList pairs)

def isNull : Value → Bool
  | .null => true
  | _ => false

/-- The text of a string value. -/
def asString? : Value → Option String
  | .string s => some s
  | _ => none

/-- The member under `key`, when the value is an object that has it. -/
def member? (key : String) : Value → Option Value
  | .object members => Keyed.find? key members
  | _ => none

/-- What kind of value it is, in words. -/
def kindName : Value → String
  | .null => "null"
  | .bool _ => "boolean"
  | .number _ => "number"
  | .string _ => "string"
  | .array _ => "list"
  | .object _ => "object"

mutual

/-- The value with the members of every object in key order; the last member of a repeated key
counts. -/
def sorted : Value → Value
  | .array items => .array (sortedItems items)
  | .object members => .object (Keyed.ofList (sortedMembers members))
  | v => v

def sortedItems : List Value → List Value
  | [] => []
  | v :: rest => sorted v :: sortedItems rest

def sortedMembers : List (String × Value) → List (String × Value)
  | [] => []
  | (k, v) :: rest => (k, sorted v) :: sortedMembers rest

end

end Value

end Json

end Scenario
