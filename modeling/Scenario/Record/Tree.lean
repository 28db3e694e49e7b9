import Scenario.Record.Codec

/-!
# Records with children

A tree of records of one kind: every node has the fields of a codec and, last and perhaps missing, a
list of children of the same kind. `TreeCodec.ofData` reads a tree by recursion on the data, with
the rules that `Codec.ofData` has for a single record.
-/

namespace Scenario

namespace Record

/-- The fields of a node, and the node of given fields and children. -/
structure TreeCodec (ρ τ : Type) where
  codec : Codec ρ
  make : ρ → List τ → τ

namespace TreeCodec

variable {ρ τ : Type}

/-- The field that holds the children. -/
def childrenName : String := "children"

/-- A node on its way: its fields and its children. -/
structure Draft (ρ τ : Type) where
  fields : Codec.Draft ρ
  children : List τ

/-- The node to start from. -/
def start (tree : TreeCodec ρ τ) : Draft ρ τ :=
  ⟨⟨tree.codec.start, []⟩, []⟩

/-- The names of all fields in the order of their declaration. -/
def names (tree : TreeCodec ρ τ) : List String :=
  tree.codec.fields.map FieldCodec.name ++ [childrenName]

/-- What a list for this record should have been. -/
def expectedList (tree : TreeCodec ρ τ) : String :=
  "struct " ++ tree.codec.title ++ " with " ++ toString tree.names.length ++ " elements"

/-- The flaw of a list with `count` items, if the count does not fit the fields. -/
def lengthFlaw? (tree : TreeCodec ρ τ) (count : Nat) : Option Flaw :=
  if tree.names.length < count then some (.invalidLength count "fewer elements in array")
  else
    match (tree.codec.fields.drop count).findIdx? (fun field => field.presence ≠ .defaulted) with
    | some i => some (.invalidLength (count + i) tree.expectedList)
    | none => none

mutual

/-- **Reading a tree.** -/
def ofData (tree : TreeCodec ρ τ) : Data → Except Flaw τ
  | .map entries => do
    let draft ← ofEntries tree entries tree.start
    return tree.make (← tree.codec.finish draft.fields) draft.children
  | .list items => do
    let draft ← ofItems tree tree.names items tree.start
    match tree.lengthFlaw? items.length with
    | some flaw => .error flaw
    | none => return tree.make draft.fields.record draft.children
  | .scalar .null (some "") => do
    return tree.make (← tree.codec.finish tree.start.fields) []
  | .scalar value spelling =>
    (Data.scalar value spelling).mismatch ("struct " ++ tree.codec.title)

/-- The entries of a map, one after the other. -/
def ofEntries (tree : TreeCodec ρ τ) :
    List (String × Data) → Draft ρ τ → Except Flaw (Draft ρ τ)
  | [], draft => .ok draft
  | (key, d) :: rest, draft =>
    if key = childrenName then do
      let fields ← draft.fields.meet childrenName
      ofEntries tree rest ⟨fields, ← childrenOfData tree d⟩
    else do
      ofEntries tree rest { draft with fields := ← tree.codec.readEntry draft.fields (key, d) }

/-- The items of a list, each under the name of its field. -/
def ofItems (tree : TreeCodec ρ τ) :
    List String → List Data → Draft ρ τ → Except Flaw (Draft ρ τ)
  | _, [], draft => .ok draft
  | [], _ :: _, draft => .ok draft
  | name :: names, d :: rest, draft =>
    if name = childrenName then do
      ofItems tree names rest { draft with children := ← childrenOfData tree d }
    else do
      ofItems tree names rest
        { draft with fields := ← tree.codec.readEntry draft.fields (name, d) }

/-- A list of children. -/
def childrenOfData (tree : TreeCodec ρ τ) : Data → Except Flaw (List τ)
  | .list items => forestOfItems tree items
  | .map entries => (Data.map entries).mismatch "a sequence"
  | .scalar .null (some "") => .ok []
  | .scalar value spelling => (Data.scalar value spelling).mismatch "a sequence"

/-- The trees of a list. -/
def forestOfItems (tree : TreeCodec ρ τ) : List Data → Except Flaw (List τ)
  | [] => .ok []
  | d :: rest => do
    let first ← ofData tree d
    return first :: (← forestOfItems tree rest)

end

end TreeCodec

end Record

end Scenario
