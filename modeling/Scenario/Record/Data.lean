import Scenario.Record.Scalar
import Scenario.Text.Quoted

/-!
# Untyped data

What a record is decoded from. JSON values and documents both become `Data`; a document may leave a
scalar unquoted, and such a scalar keeps its spelling beside its reading, so that `007` can be taken
as a text where a text is wanted. An unquoted scalar without any spelling is a blank: it stands for
an empty list or an empty map where one of these is wanted.

A record that does not fit its data has a `Flaw`; the readers of scalars below raise them.
-/

namespace Scenario

namespace Record

/-- Untyped data. The entries of a map keep the order and the repeated keys of their source. -/
inductive Data where
  | scalar (value : Scalar) (spelling : Option String)
  | list (items : List Data)
  | map (entries : List (String × Data))

/-- Why data does not fit a record. -/
inductive Flaw where
  | missingField (name : String)
  | duplicateField (name : String)
  | invalidType (found expected : String)
  | invalidValue (found expected : String)
  | invalidLength (length : Nat) (expected : String)
  | unknownVariant (name : String) (variants : List String)
deriving DecidableEq, Repr

/-- A name between back quotes. -/
def ticked (name : String) : String := "\x60" ++ name ++ "\x60"

/-- A choice of names in words. -/
def choice : List String → String
  | [] => "there are no variants"
  | [a] => "expected " ++ ticked a
  | [a, b] => "expected " ++ ticked a ++ " or " ++ ticked b
  | names => "expected one of " ++ ", ".intercalate (names.map ticked)

/-- The wording of a flaw. -/
def Flaw.message : Flaw → String
  | missingField name => "missing field " ++ ticked name
  | duplicateField name => "duplicate field " ++ ticked name
  | invalidType found expected => "invalid type: " ++ found ++ ", expected " ++ expected
  | invalidValue found expected => "invalid value: " ++ found ++ ", expected " ++ expected
  | invalidLength length expected =>
    "invalid length " ++ toString length ++ ", expected " ++ expected
  | unknownVariant name variants => "unknown variant " ++ ticked name ++ ", " ++ choice variants

/-- What a scalar is called in a flaw. -/
def Scalar.describe : Scalar → String
  | .null => "null"
  | .bool b => "boolean " ++ ticked (if b then "true" else "false")
  | .integer n => "integer " ++ ticked (toString n)
  | .float (.finite x) => "floating point " ++ ticked x.exponentStyle
  | .float x => "floating point " ++ ticked (Binary64.plainStyle x)
  | .text s => "string " ++ Text.Quoted.encode s

namespace Data

/-- What data is called in a flaw. -/
def describe : Data → String
  | .scalar value _ => value.describe
  | .list _ => "sequence"
  | .map _ => "map"

/-- A text. -/
def ofText (s : String) : Data := .scalar (.text s) none

/-- An unquoted scalar. -/
def ofSpelling (s : String) : Data := .scalar (.ofSpelling s) (some s)

mutual

/-- The data of a JSON value. -/
def ofJson : Json.Value → Data
  | .null => .scalar .null none
  | .bool b => .scalar (.bool b) none
  | .number (.integer n) => .scalar (.integer n) none
  | .number (.float x) => .scalar (.float (.finite x)) none
  | .string s => .scalar (.text s) none
  | .array items => .list (ofItems items)
  | .object members => .map (ofMembers members)

def ofItems : List Json.Value → List Data
  | [] => []
  | v :: rest => ofJson v :: ofItems rest

def ofMembers : List (String × Json.Value) → List (String × Data)
  | [] => []
  | (k, v) :: rest => (k, ofJson v) :: ofMembers rest

end

/-- A scalar as a JSON value; what is no number in JSON is `null`. -/
def jsonOfScalar : Scalar → Json.Value
  | .null => .null
  | .bool b => .bool b
  | .integer n => .ofInt n
  | .float x => .ofBinary64 x
  | .text s => .string s

mutual

/-- Data read as a JSON value. -/
def toJson : Data → Json.Value
  | .scalar value _ => jsonOfScalar value
  | .list items => .array (toItems items)
  | .map entries => .ofMembers (toMembers entries)

def toItems : List Data → List Json.Value
  | [] => []
  | d :: rest => toJson d :: toItems rest

def toMembers : List (String × Data) → List (String × Json.Value)
  | [] => []
  | (k, d) :: rest => (k, toJson d) :: toMembers rest

end

mutual

/-- The same data without spellings. -/
def unspelled : Data → Data
  | .scalar value _ => .scalar value none
  | .list items => .list (unspelledItems items)
  | .map entries => .map (unspelledEntries entries)

def unspelledItems : List Data → List Data
  | [] => []
  | d :: rest => unspelled d :: unspelledItems rest

def unspelledEntries : List (String × Data) → List (String × Data)
  | [] => []
  | (k, d) :: rest => (k, unspelled d) :: unspelledEntries rest

end

/-! ### Readers -/

/-- The flaw of data of the wrong type. -/
def mismatch {α : Type} (d : Data) (expected : String) : Except Flaw α :=
  .error (.invalidType d.describe expected)

/-- A text. -/
def readText : Data → Except Flaw String
  | .scalar _ (some spelling) => .ok spelling
  | .scalar (.text s) none => .ok s
  | d => d.mismatch "a string"

/-- A truth value. -/
def readBool : Data → Except Flaw Bool
  | .scalar (.bool b) _ => .ok b
  | d => d.mismatch "a boolean"

/-- An integer from `low` to `high`; `name` names the range. -/
def readRange (low high : Int) (name : String) : Data → Except Flaw Int
  | .scalar (.integer n) s =>
    if low ≤ n && n ≤ high then .ok n
    else .error (.invalidValue (describe (.scalar (.integer n) s)) name)
  | d => d.mismatch name

/-- A signed 64-bit integer. -/
def readInt : Data → Except Flaw Int :=
  readRange (-2 ^ 63) (2 ^ 63 - 1) "i64"

/-- A natural number below `2^bits`; `name` names the range. -/
def readNat (bits : Nat) (name : String) (d : Data) : Except Flaw Nat :=
  (readRange 0 (2 ^ bits - 1) name d).map Int.toNat

/-- A binary64 number. -/
def readNumber : Data → Except Flaw Binary64
  | .scalar value (some spelling) =>
    match Scalar.floatOfSpelling? spelling with
    | some x => .ok x
    | none => (scalar value (some spelling)).mismatch "f64"
  | .scalar (.integer n) none => .ok (.ofInt n)
  | .scalar (.float x) none => .ok x
  | d => d.mismatch "f64"

mutual

/-- The first integer that is none of 64 bits. -/
def longInteger? : Data → Option Int
  | .scalar (.integer n) _ => if n < -2 ^ 63 || 2 ^ 64 ≤ n then some n else none
  | .scalar _ _ => none
  | .list items => longIntegerOfItems? items
  | .map entries => longIntegerOfEntries? entries

def longIntegerOfItems? : List Data → Option Int
  | [] => none
  | d :: rest => longInteger? d <|> longIntegerOfItems? rest

def longIntegerOfEntries? : List (String × Data) → Option Int
  | [] => none
  | (_, d) :: rest => longInteger? d <|> longIntegerOfEntries? rest

end

/-- Any JSON value. -/
def readJson (d : Data) : Except Flaw Json.Value :=
  match d.longInteger? with
  | some n => .error (.invalidType ("integer " ++ ticked (toString n)) "any valid JSON value")
  | none => .ok d.toJson

/-- Members of a JSON object. -/
def readMembers : Data → Except Flaw Json.Members
  | .scalar .null (some "") => .ok []
  | .map entries => do
    let values ← entries.mapM fun (key, d) => (readJson d).map fun v => (key, v)
    return Keyed.ofList values
  | d => d.mismatch "a map"

/-- Nothing for `null`, otherwise what `read` gives. -/
def readOption {α : Type} (read : Data → Except Flaw α) : Data → Except Flaw (Option α)
  | .scalar .null _ => .ok none
  | d => (read d).map some

/-- The items of a list. -/
def readList {α : Type} (read : Data → Except Flaw α) : Data → Except Flaw (List α)
  | .scalar .null (some "") => .ok []
  | .list items => items.mapM read
  | d => d.mismatch "a sequence"

/-- A map with values of one type; the last entry of a repeated key counts. -/
def readKeyed {α : Type} (read : Data → Except Flaw α) : Data → Except Flaw (Keyed α)
  | .scalar .null (some "") => .ok []
  | .map entries =>
    (entries.mapM fun entry => (read entry.2).map fun a => (entry.1, a)).map Keyed.ofList
  | d => d.mismatch "a map"

/-- One of several named values: `spellings` lists for each the names it goes by. A map with a
single entry whose value is `null` may stand for the name. -/
def readNamed {α : Type} (spellings : List (α × List String)) (d : Data) : Except Flaw α :=
  let named (name : String) : Except Flaw α :=
    match spellings.find? fun (_, names) => name ∈ names with
    | some (a, _) => .ok a
    | none => .error (.unknownVariant name (spellings.flatMap Prod.snd))
  match d with
  | .scalar (.text s) none => named s
  -- a scalar that is no text is taken at its spelling
  | .scalar _ (some spelling) => named spelling
  | .map [(name, value)] => do
    let a ← named name
    match value with
    | .scalar .null _ => pure a
    | other => other.mismatch "unit"
  | .map _ => .error (.invalidValue "map" "map with a single key")
  | other => other.mismatch "string or map"

end Data

end Record

end Scenario
