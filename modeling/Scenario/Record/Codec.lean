import Scenario.Record.Data

/-!
# Records with named fields

A `Codec` is the list of a record's fields. Each field knows its names, how it is read into the
record and how it is written.

* `Codec.ofData` reads a record. The entries of a map are taken in their order: an unknown key is
  skipped, a field that comes twice is a flaw, and a value that does not fit is a flaw at once.
  Fields that are missing at the end are reported in the order of their declaration. A list stands
  for the fields in the order of their declaration.
* `Codec.write` writes every field under its first name.
-/

namespace Scenario

namespace Record

/-- What it means that a field is not there. -/
inductive Presence where
  /-- The field must be there. -/
  | required
  /-- The field may be missing from a map, but not from a list. -/
  | optional
  /-- The field may be missing. -/
  | defaulted
deriving DecidableEq, Repr

/-- A field of a record of type `ρ`. -/
structure FieldCodec (ρ : Type) where
  name : String
  aliases : List String
  presence : Presence
  read : Data → ρ → Except Flaw ρ
  write : ρ → Option Json.Value

/-- A field that holds an `α`. -/
def FieldCodec.holding {ρ α : Type} (name : String) (presence : Presence)
    (read : Data → Except Flaw α) (write : α → Json.Value) (get : ρ → α) (set : α → ρ → ρ) :
    FieldCodec ρ where
  name := name
  aliases := []
  presence := presence
  read := fun d r => (read d).map fun a => set a r
  write := fun r => some (write (get r))

/-- The field under further names. -/
def FieldCodec.orAs {ρ : Type} (field : FieldCodec ρ) (aliases : List String) : FieldCodec ρ :=
  { field with aliases := aliases }

/-- The field, written only when `keep` says so. -/
def FieldCodec.unless {ρ : Type} (field : FieldCodec ρ) (leaveOut : ρ → Bool) : FieldCodec ρ :=
  { field with write := fun r => if leaveOut r then none else field.write r }

/-- Whether a field goes by `key`. -/
def FieldCodec.isCalled {ρ : Type} (field : FieldCodec ρ) (key : String) : Bool :=
  field.name = key || key ∈ field.aliases

/-- The fields of a record, with the record to start from and the record's name in flaws. -/
structure Codec (ρ : Type) where
  title : String
  start : ρ
  fields : List (FieldCodec ρ)

namespace Codec

variable {ρ : Type}

/-- A record on its way: what has been read, and the names of the fields that have come. -/
structure Draft (ρ : Type) where
  record : ρ
  seen : List String

/-- Notes that a field has come, unless it has come before. -/
def Draft.meet (draft : Draft ρ) (name : String) : Except Flaw (Draft ρ) :=
  if name ∈ draft.seen then .error (.duplicateField name)
  else .ok { draft with seen := name :: draft.seen }

/-- Takes one entry. -/
def readEntry (codec : Codec ρ) (draft : Draft ρ) (entry : String × Data) :
    Except Flaw (Draft ρ) :=
  match codec.fields.find? (·.isCalled entry.1) with
  | none => .ok draft
  | some field => do
    let draft ← draft.meet field.name
    let record ← field.read entry.2 draft.record
    pure { draft with record }

/-- The first required field that has not come. -/
def missing? (codec : Codec ρ) (seen : List String) : Option String :=
  (codec.fields.find? fun field => field.presence = .required && !(field.name ∈ seen)).map
    FieldCodec.name

/-- The record of a draft, if no required field is missing. -/
def finish (codec : Codec ρ) (draft : Draft ρ) : Except Flaw ρ :=
  match codec.missing? draft.seen with
  | some name => .error (.missingField name)
  | none => .ok draft.record

/-- **Reading the entries of a map.** -/
def ofEntries (codec : Codec ρ) (entries : List (String × Data)) : Except Flaw ρ := do
  codec.finish (← entries.foldlM codec.readEntry ⟨codec.start, []⟩)

/-- What a list for this record should have been. -/
def expectedList (codec : Codec ρ) : String :=
  "struct " ++ codec.title ++ " with " ++ toString codec.fields.length ++
    (if codec.fields.length = 1 then " element" else " elements")

/-- The flaw of a list with `count` items, if the count does not fit the fields. -/
def lengthFlaw? (codec : Codec ρ) (count : Nat) : Option Flaw :=
  if codec.fields.length < count then
    some (.invalidLength count "fewer elements in array")
  else
    match (codec.fields.drop count).findIdx? (fun field => field.presence ≠ .defaulted) with
    | some i => some (.invalidLength (count + i) codec.expectedList)
    | none => none

/-- A list as entries of a map, each item under the name of its field. -/
def entriesOfItems (codec : Codec ρ) (items : List Data) : List (String × Data) :=
  (codec.fields.map FieldCodec.name).zip items

/-- **Reading a record.** -/
def ofData (codec : Codec ρ) : Data → Except Flaw ρ
  | .scalar .null (some "") => codec.ofEntries []
  | .map entries => codec.ofEntries entries
  | .list items => do
    let draft ← (codec.entriesOfItems items).foldlM codec.readEntry ⟨codec.start, []⟩
    match codec.lengthFlaw? items.length with
    | some flaw => .error flaw
    | none => pure draft.record
  | d => d.mismatch ("struct " ++ codec.title)

/-- The written fields in the order of their declaration. -/
def members (codec : Codec ρ) (record : ρ) : List (String × Json.Value) :=
  codec.fields.filterMap fun field => (field.write record).map fun v => (field.name, v)

/-- **Writing a record.** -/
def write (codec : Codec ρ) (record : ρ) : Json.Value :=
  .object (codec.members record)

end Codec

end Record

end Scenario
