import Scenario.Rule
import Scenario.Step

/-!
# Cases

A case has a header that identifies it and a forest of steps. Cases that other cases may include are
kept as records with a visibility: only a public case may be included.
-/

namespace Scenario

/-- Whether other cases may include a case. -/
inductive Visibility where
  | shared
  | restricted
deriving DecidableEq, Repr

namespace Visibility

/-- The spellings, names first. -/
def spellings : List (Visibility × List String) := [
  (shared, ["public", "公共脚本"]),
  (restricted, ["private", "用户脚本"])]

def name : Visibility → String
  | shared => "public"
  | restricted => "private"

end Visibility

/-- What identifies a case. -/
structure CaseHeader where
  id : Option Int := none
  code : String := ""
  name : String := ""
deriving DecidableEq, Inhabited

/-- A case that may be included. -/
structure CaseRecord where
  header : CaseHeader := {}
  visibility : Visibility := .restricted
  steps : List Step := []
deriving Inhabited

open Record

/-- Headers as records. -/
def CaseHeader.codec : Codec CaseHeader where
  title := "CaseMeta"
  start := {}
  fields := [
    optionalInteger "id" (·.id) fun v c => { c with id := v },
    (FieldCodec.holding "case_code" .defaulted Data.readText Json.Value.string (·.code) fun v c =>
      { c with code := v }).orAs ["code"],
    (FieldCodec.holding "case_name" .defaulted Data.readText Json.Value.string (·.name) fun v c =>
      { c with name := v }).orAs ["name"]]

namespace CaseRecord

/-- The fields of a case record besides its header. -/
def ownCodec : Codec CaseRecord where
  title := "CaseRecord"
  start := {}
  fields := [
    .holding "case_type" .defaulted (Data.readNamed Visibility.spellings)
      (fun v => .string v.name) (·.visibility) fun v c => { c with visibility := v },
    .holding "steps" .defaulted (Data.readList Step.ofData)
      (fun steps => .array (Step.writeAll steps)) (·.steps) fun v c => { c with steps := v }]

/-- **Reading a case record.** The fields of the header stand beside the others; a list never
stands for this record. -/
def ofData : Data → Except Flaw CaseRecord
  | .map entries => do
    let record ← ownCodec.ofEntries entries
    let others := entries.filter fun (key, _) => !ownCodec.fields.any (·.isCalled key)
    let header ← CaseHeader.codec.ofEntries (Data.unspelledEntries others)
    return { record with header }
  | .scalar .null (some "") => .ok {}
  | d => d.mismatch "struct CaseRecord"

/-- **Writing a case record.** -/
def write (record : CaseRecord) : Json.Value :=
  .object (CaseHeader.codec.members record.header ++ ownCodec.members record)

end CaseRecord

end Scenario
