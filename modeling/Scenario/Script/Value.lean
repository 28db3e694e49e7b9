import Scenario.Json.Value
import Scenario.Binary64.Decimal
import Scenario.Text.Quoted

/-!
# Values of scripts

What a script computes with. JSON values go in and come out: `Value.ofJson` and `Value.toJson`. A
value has two texts, `Value.text` for itself, as it is printed or joined to a string, and
`Value.inner` for its place inside of a list or a map.
-/

namespace Scenario

namespace Script

/-- A value of a script. Integers are signed 64-bit ones. -/
inductive Value where
  | unit
  | bool (b : Bool)
  | int (n : Int)
  /-- An integer beyond the signed ones. -/
  | wide (n : Nat)
  | float (x : Binary64)
  | char (c : Char)
  | text (s : String)
  /-- The integers from `low` up to `high`, with or without `high` itself. -/
  | range (low high : Int) (closed : Bool)
  | array (items : List Value)
  | map (entries : List (String × Value))
deriving Inhabited

namespace Value

/-- The name of a value's type. -/
def typeName : Value → String
  | unit => "()"
  | bool _ => "bool"
  | int _ => "i64"
  | wide _ => "u64"
  | float _ => "f64"
  | char _ => "char"
  | text _ => "string"
  | range _ _ closed => if closed then "range=" else "range"
  | array _ => "array"
  | map _ => "map"

/-! ### Texts -/

/-- The greatest magnitude that is written without an exponent. -/
def largestPlain : Binary64 := .ofInt 10000000000000

/-- The least magnitude that is written without an exponent. -/
def smallestPlain : Binary64 := .ofDecimal false ⟨1, -13⟩

/-- The magnitude of a floating-point number. -/
def magnitude (x : Binary64) : Binary64 := if x.isNegative then x.neg else x

/-- Whether a floating-point number has no fraction. -/
def isWhole : Binary64 → Bool
  | .finite x => x.isIntegral
  | _ => false

/-- A floating-point number. -/
def floatText (x : Binary64) : String :=
  let m := magnitude x
  if m.sameValue (.zero false) then "0.0"
  else if largestPlain.lt m || m.lt smallestPlain then x.scientificStyle
  else if isWhole x then x.plainStyle ++ ".0"
  else x.plainStyle

/-- A floating-point number inside of a list or a map. -/
def innerFloat (x : Binary64) : String :=
  let m := magnitude x
  if m.sameValue (.zero false) then x.plainStyle ++ ".0"
  else if x.isFinite && ((Binary64.ofInt (10 ^ 16)).le m || m.lt (.ofDecimal false ⟨1, -4⟩)) then
    x.scientificStyle
  else if isWhole x then x.plainStyle ++ ".0"
  else x.plainStyle

/-- A character between quotes. -/
def quotedChar (c : Char) : String :=
  if c = '\x27' then "'\\''"
  else if c = '\x22' then "'\"'"
  else "'" ++ Text.Quoted.encodeChar c ++ "'"

/-- A range. -/
def rangeText (low high : Int) (closed : Bool) : String :=
  toString low ++ (if closed then "..=" else "..") ++ toString high

mutual

/-- A value inside of a list or a map. -/
def inner : Value → String
  | unit => "()"
  | bool b => if b then "true" else "false"
  | int n => toString n
  | wide n => toString n
  | float x => innerFloat x
  | char c => quotedChar c
  | text s => Text.Quoted.encode s
  | range low high closed => rangeText low high closed
  | array items => "[" ++ ", ".intercalate (innerItems items) ++ "]"
  | map entries => "#\x7b" ++ ", ".intercalate (innerEntries entries) ++ "\x7d"

def innerItems : List Value → List String
  | [] => []
  | v :: rest => inner v :: innerItems rest

def innerEntries : List (String × Value) → List String
  | [] => []
  | (k, v) :: rest => (Text.Quoted.encode k ++ ": " ++ inner v) :: innerEntries rest

end

/-- **The text of a value.** -/
def display : Value → String
  | unit => ""
  | float x => floatText x
  | char c => String.singleton c
  | text s => s
  | v => inner v

/-! ### JSON values -/

/-- A number from JSON. -/
def ofNumber : Json.Number → Value
  | .integer n => if n < 2 ^ 63 then .int n else .wide n.toNat
  | .float x => .float (.finite x)

mutual

/-- The value of a JSON value. -/
def ofJson : Json.Value → Value
  | .null => unit
  | .bool b => bool b
  | .number n => ofNumber n
  | .string s => text s
  | .array items => array (ofItems items)
  | .object members => map (ofMembers members)

def ofItems : List Json.Value → List Value
  | [] => []
  | v :: rest => ofJson v :: ofItems rest

def ofMembers : List (String × Json.Value) → List (String × Value)
  | [] => []
  | (k, v) :: rest => (k, ofJson v) :: ofMembers rest

end

mutual

/-- The JSON value of a value. -/
def toJson : Value → Json.Value
  | unit => .null
  | bool b => .bool b
  | int n => .ofInt n
  | wide n => .ofNat n
  | float x => .ofBinary64 x
  | char c => .string (String.singleton c)
  | text s => .string s
  | range _ _ _ => .null
  | array items => .array (toItems items)
  | map entries => .object (toMembers entries)

def toItems : List Value → List Json.Value
  | [] => []
  | v :: rest => toJson v :: toItems rest

def toMembers : List (String × Value) → List (String × Json.Value)
  | [] => []
  | (k, v) :: rest => (k, toJson v) :: toMembers rest

end

/-! ### Equality -/

mutual

/-- Equality of values. Integers and floating-point numbers are compared as floating-point numbers;
values of other different types differ. -/
def same : Value → Value → Bool
  | unit, unit => true
  | bool a, bool b => a = b
  | int m, int n => m = n
  | int m, float y => (Binary64.ofInt m).sameValue y
  | float x, int n => x.sameValue (.ofInt n)
  | float x, float y => x.sameValue y
  | wide m, wide n => m = n
  | char a, char b => a = b
  | text a, text b => a = b
  | char a, text b => String.singleton a = b
  | text a, char b => a = String.singleton b
  | range a b c, range d e f => a = d && b = e && c = f
  | array xs, array ys => sameItems xs ys
  | map xs, map ys => sameEntries xs ys
  | _, _ => false

def sameItems : List Value → List Value → Bool
  | [], [] => true
  | x :: xs, y :: ys => same x y && sameItems xs ys
  | _, _ => false

def sameEntries : List (String × Value) → List (String × Value) → Bool
  | [], [] => true
  | (k, x) :: xs, (l, y) :: ys => k = l && (same x y && sameEntries xs ys)
  | _, _ => false

end

end Value

end Script

end Scenario
