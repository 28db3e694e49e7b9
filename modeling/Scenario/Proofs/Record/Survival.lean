import Scenario.CaseFile
import Scenario.Proofs.Record.Forests

/-!
# Records survive being written and read

Steps, results, case records and case files are read from JSON values with aliases, missing fields,
explicit nulls and fields that nobody knows. None of that comes back when they are written, but the
record does: reading what was written gives the record that was written, in every field and at every
depth, and writing it once more gives the same value.

* `StepFields.restorable`, `ResultFields.restorable`, … — the slots of each record.
* `Step.slotted`, `StepResult.slotted` — the trees of steps and of results.
* `CaseRecord.faithful` — the one record whose fields stand among those of another.
* `records_survive` — **what is read can be written and read again,** in whatever order the members
  of objects are put.
-/

namespace Scenario

open Record
open Json (Arrangement)

variable {a : Arrangement}

/-! ### Headers and settings -/

theorem CaseHeader.restorable : CaseHeader.codec.Restorable a := by
  apply Codec.exists_slotted
  case fills =>
    repeat' first | exact .nil | exact .holding | exact .orAs .holding _ | apply List.Forall₂.cons
  case distinct => decide
  case apart => simp [Slot.Apart]
  case get_set => simp
  case faithful => simp
  case start => simp [Settled, codec]
  case whole =>
    rintro ⟨⟩ ⟨⟩ h
    simpa using h

/-- The slots of settings. -/
def Settings.slots : List (Slot Settings) := [
  ⟨"request_timeout_secs", Binary64, Data.readNumber, .ofBinary64, (·.requestTimeout),
    fun v s => { s with requestTimeout := v }⟩,
  ⟨"connect_timeout_secs", Binary64, Data.readNumber, .ofBinary64, (·.connectTimeout),
    fun v s => { s with connectTimeout := v }⟩,
  ⟨"max_wait_secs", Binary64, Data.readNumber, .ofBinary64, (·.maxWait),
    fun v s => { s with maxWait := v }⟩,
  ⟨"script_max_operations", Nat, Data.readNat 64 "u64", .ofNat, (·.scriptOperations),
    fun v s => { s with scriptOperations := v }⟩]

theorem Settings.slotted : Settings.codec.Slotted a Settings.slots where
  distinct := by decide
  fills := by repeat' first | exact .nil | exact .holding | apply List.Forall₂.cons
  apart := by simp [slots, Slot.Apart]
  get_set := by simp [slots]
  faithful := by simp [slots]
  start := by simp [Settled, slots, codec, longestWait]

theorem Settings.restorable : Settings.codec.Restorable a := by
  refine ⟨Settings.slots, Settings.slotted, ?_⟩
  rintro ⟨⟩ ⟨⟩ h
  simpa [slots] using h

/-! ### Steps -/

/-- Whatever stands for a project is read as a text, and then it is one. -/
@[simp] theorem faithful_textOrValue :
    Faithful a StepFields.readTextOrValue (.ofOption .string) := by
  intro v x _ _
  cases x <;> rfl

@[simp] theorem rereads_no_project :
    Rereads a StepFields.readTextOrValue (.ofOption .string) none := rfl

theorem StepFields.restorable : StepFields.codec.Restorable a := by
  apply Codec.exists_slotted
  case fills =>
    repeat' first | exact .nil | exact .holding | exact .orAs .holding _ | apply List.Forall₂.cons
  case distinct => decide
  case apart =>
    repeat' first
      | exact ⟨fun _ _ => rfl, fun _ _ => rfl⟩
      | exact List.forall_mem_nil _
      | exact List.Pairwise.nil
      | refine List.forall_mem_cons.mpr ⟨?_, ?_⟩
      | refine List.Pairwise.cons ?_ ?_
  case get_set => simp
  case faithful => simp
  case start => simp [Settled, codec]
  case whole =>
    rintro ⟨⟩ ⟨⟩ h
    simpa using h

theorem Step.writeAll_eq_map (steps : List Step) : Step.writeAll steps = steps.map Step.write := by
  induction steps with
  | nil => rfl
  | cons step rest ih => exact congrArg (step.write :: ·) ih

theorem Step.slotted : ∃ slots, Step.codec.Slotted a Step.write slots := by
  obtain ⟨slots, hslotted, hext⟩ := StepFields.restorable (a := a)
  refine ⟨slots, hslotted, by decide, hext, fun fields children => ?_⟩
  rw [← Step.writeAll_eq_map]
  rfl

theorem Step.faithful : Faithful a Step.ofData Step.write := by
  obtain ⟨slots, hslotted⟩ := Step.slotted (a := a)
  exact hslotted.faithful_tree

theorem Step.writeAll_eq : (fun steps => Json.Value.array (Step.writeAll steps)) =
    fun steps => .array (steps.map Step.write) := by
  funext steps
  rw [Step.writeAll_eq_map]

@[simp] theorem rereads_no_steps :
    Rereads a (Data.readList Step.ofData) (fun steps => .array (Step.writeAll steps)) [] :=
  Step.writeAll_eq ▸ rereads_no_items

@[simp] theorem faithful_steps :
    Faithful a (Data.readList Step.ofData) (fun steps => .array (Step.writeAll steps)) :=
  Step.writeAll_eq ▸ Step.faithful.list

/-! ### Results -/

theorem Assertion.restorable : Assertion.codec.Restorable a := by
  apply Codec.exists_slotted
  case fills =>
    repeat' first
      | exact .nil
      | exact .holding
      | exact .withPresence .holding (by decide)
      | exact .keptUnless .holding (by decide) (by simp [codec])
      | apply List.Forall₂.cons
  case distinct => decide
  case apart => simp [Slot.Apart]
  case get_set => simp
  case faithful => simp
  case start => simp [Settled, codec]
  case whole =>
    rintro ⟨⟩ ⟨⟩ h
    simpa using h

theorem ResultFields.restorable : ResultFields.codec.Restorable a := by
  apply Codec.exists_slotted
  case fills =>
    repeat' first
      | exact .nil
      | exact .holding
      | exact .withPresence .holding (by decide)
      | exact .keptUnless .holding (by decide) (by simp [codec])
      | apply List.Forall₂.cons
  case distinct => decide
  case apart => simp [Slot.Apart]
  case get_set => simp
  case faithful => simp [Assertion.restorable.faithful.list]
  case start => simp [Settled, codec]
  case whole =>
    rintro ⟨⟩ ⟨⟩ h
    simpa using h

theorem StepResult.writeAll_eq_map (results : List StepResult) :
    StepResult.writeAll results = results.map StepResult.write := by
  induction results with
  | nil => rfl
  | cons result rest ih => exact congrArg (result.write :: ·) ih

theorem StepResult.slotted : ∃ slots, StepResult.codec.Slotted a StepResult.write slots := by
  obtain ⟨slots, hslotted, hext⟩ := ResultFields.restorable (a := a)
  refine ⟨slots, hslotted, by decide, hext, fun fields children => ?_⟩
  rw [← StepResult.writeAll_eq_map]
  rfl

theorem StepResult.faithful : Faithful a StepResult.ofData StepResult.write := by
  obtain ⟨slots, hslotted⟩ := StepResult.slotted (a := a)
  exact hslotted.faithful_tree

/-! ### Case records -/

/-- A visibility is written under a name that it goes by. -/
@[simp] theorem rereads_visibility (v : Visibility) :
    Rereads a (Data.readNamed Visibility.spellings) (fun v => .string v.name) v := by
  cases v <;> rfl

@[simp] theorem faithful_visibility :
    Faithful a (Data.readNamed Visibility.spellings) (fun v => .string v.name) :=
  fun _ v _ _ => rereads_visibility v

namespace CaseRecord

/-- The slots of a case record besides its header. -/
theorem own_slotted : ∃ slots, ownCodec.Slotted a slots ∧
    (∀ r r' : CaseRecord, (∀ s ∈ slots, s.get r' = s.get r) →
      { r' with header := r.header } = r) ∧
    ∀ s ∈ slots, ∀ (r : CaseRecord) header, s.get { r with header } = s.get r := by
  apply Codec.exists_slotted
  case fills => repeat' first | exact .nil | exact .holding | apply List.Forall₂.cons
  case distinct => decide
  case apart => simp [Slot.Apart]
  case get_set => simp
  case faithful => simp
  case start => simp [Settled, ownCodec]
  case whole =>
    refine ⟨?_, by simp⟩
    rintro ⟨⟩ ⟨⟩ h
    simpa using h

/-- The keys that are left to the header: those that no other field goes by. -/
def isLeft (key : String) : Bool :=
  !ownCodec.fields.any (·.isCalled key)

theorem isLeft_iff {key : String} : isLeft key = true ↔ ownCodec.Unknown key := by
  simp [isLeft, Codec.Unknown]

/-- The names of the header are left to it. -/
theorem isLeft_header {header : CaseHeader} {key : String}
    (h : key ∈ (CaseHeader.codec.members header).map Prod.fst) : isLeft key = true := by
  obtain ⟨member, hmember, rfl⟩ := List.mem_map.mp h
  obtain ⟨field, hfield, hwrite⟩ := List.mem_filterMap.mp hmember
  obtain ⟨v, -, rfl⟩ := Option.map_eq_some_iff.mp hwrite
  have hall : ∀ field ∈ CaseHeader.codec.fields, isLeft field.name = true := by decide
  exact hall field hfield

/-- What is left to the header of the members of an object. -/
theorem others_ofMembers (members : List (String × Json.Value)) :
    Data.unspelledEntries ((Data.ofMembers members).filter fun entry => isLeft entry.1) =
      Data.ofMembers (members.filter fun member => isLeft member.1) := by
  have hfilter : (Data.ofMembers members).filter (fun entry => isLeft entry.1) =
      Data.ofMembers (members.filter fun member => isLeft member.1) := by
    rw [Data.ofMembers_eq_mapValues, Data.ofMembers_eq_mapValues, Keyed.mapValues, List.filter_map]
    rfl
  rw [hfilter, Data.unspelledEntries_ofMembers]

/-- A case record is read from the members of an object in two passes. -/
theorem ofData_object (members : List (String × Json.Value)) :
    ofData (.ofJson (.object members)) = do
      let record ← ownCodec.ofEntries (Data.ofMembers members)
      let header ← CaseHeader.codec.ofEntries
        (Data.ofMembers (members.filter fun member => isLeft member.1))
      return { record with header } := by
  rw [← others_ofMembers]
  rfl

/-- **A case record is read again:** each pass skips the members of the other. -/
theorem rereads {slots : List (Slot CaseRecord)} {heads : List (Slot CaseHeader)} {r : CaseRecord}
    (hown : ownCodec.Slotted a slots) (hheader : CaseHeader.codec.Slotted a heads)
    (hwhole : ∀ r', (∀ s ∈ slots, s.get r' = s.get r) → { r' with header := r.header } = r)
    (hext : ∀ header, (∀ s ∈ heads, s.get header = s.get r.header) → header = r.header)
    (hsettled : Settled a slots r) (hsettledHeader : Settled a heads r.header) :
    Rereads a ofData write r := by
  have hleft : ∀ member ∈ Keyed.mapValues a.arrange (CaseHeader.codec.members r.header),
      isLeft member.1 = true :=
    fun member hmember => isLeft_header (Keyed.mem_keys_of_mem_mapValues hmember)
  have htaken : ∀ member ∈ Keyed.mapValues a.arrange (ownCodec.members r),
      ¬ isLeft member.1 = true := by
    intro member hmember
    rw [isLeft_iff]
    exact hown.not_unknown_of_mem_members (Keyed.mem_keys_of_mem_mapValues hmember)
  have hkeys : ((CaseHeader.codec.members r.header ++ ownCodec.members r).map
      Prod.fst).Nodup := by
    rw [List.map_append, List.nodup_append]
    refine ⟨hheader.members_keys_nodup _, hown.members_keys_nodup _, ?_⟩
    rintro key hkey other hother rfl
    exact hown.not_unknown_of_mem_members hother (isLeft_iff.mp (isLeft_header hkey))
  obtain ⟨arranged, harranged, hperm, hdistinct⟩ := Arrangement.arrange_object (a := a) hkeys
  rw [Keyed.mapValues_append] at hperm
  -- the first pass takes the visibility and the steps
  obtain ⟨r', hread, hslots⟩ := hown.ofEntries_written hsettled
    (hperm.trans List.perm_append_comm) hdistinct fun member hmember =>
      isLeft_iff.mp (hleft member hmember)
  -- the second pass takes what the first one has left
  have hothers : (arranged.filter fun member => isLeft member.1).Perm
      (Keyed.mapValues a.arrange (CaseHeader.codec.members r.header) ++ []) := by
    have hfilter := hperm.filter fun member => isLeft member.1
    rwa [List.filter_append, List.filter_eq_self.mpr hleft,
      List.filter_eq_nil_iff.mpr htaken] at hfilter
  obtain ⟨header, hheaderRead, hheads⟩ := hheader.ofEntries_written hsettledHeader hothers
    (hdistinct.sublist (List.filter_sublist.map _)) nofun
  unfold Rereads
  rw [write, harranged, ofData_object, hread, hheaderRead]
  have hsame : { r' with header := r.header } = r := hwhole r' hslots
  rw [hext header hheads]
  exact congrArg Except.ok hsame

/-- **The reader of case records** keeps to their writer. -/
@[simp] theorem faithful : Faithful a ofData write := by
  obtain ⟨slots, hown, hwhole, hbeside⟩ := own_slotted (a := a)
  obtain ⟨heads, hheader, hext⟩ := CaseHeader.restorable (a := a)
  intro v r hsized hread
  cases v with
  | object members =>
    rw [ofData_object] at hread
    obtain ⟨record, hrecord, hread⟩ := exists_of_bind_eq_ok hread
    obtain ⟨header, hheaderRead, hread⟩ := exists_of_bind_eq_ok hread
    cases hread
    have hmembers := Json.Value.sized_object.mp hsized
    have hsettled : Settled a slots { record with header } := by
      intro s hs
      rw [Rereads, hbeside s hs]
      exact hown.ofEntries_settled hmembers hrecord s hs
    exact rereads hown hheader (hwhole _) (hext _) hsettled
      (hheader.ofEntries_settled (fun member hmember =>
        hmembers member (List.mem_of_mem_filter hmember)) hheaderRead)
  | number n => cases n <;> cases hread
  | null | bool | string | array => cases hread

end CaseRecord

/-! ### Case files -/

theorem faithful_texts : Faithful a (Data.readKeyed Data.readText) textsToJson :=
  faithful_text.keyed

/-- The slots of a case file. -/
def CaseFile.slots : List (Slot CaseFile) := [
  ⟨"case", CaseHeader, CaseHeader.codec.ofData, CaseHeader.codec.write, (·.case),
    fun v f => { f with case := v }⟩,
  ⟨"environment", Option String, Data.readOption Data.readText, .ofOption .string, (·.environment),
    fun v f => { f with environment := v }⟩,
  ⟨"environments", Keyed (Keyed String), Data.readKeyed (Data.readKeyed Data.readText),
    fun es => .object (Keyed.mapValues textsToJson es), (·.environments),
    fun v f => { f with environments := v }⟩,
  ⟨"variables", Json.Members, Data.readMembers, .object, (·.session),
    fun v f => { f with session := v }⟩,
  ⟨"library", Library, Data.readList CaseRecord.ofData,
    fun records => .array (records.map CaseRecord.write), (·.library),
    fun v f => { f with library := v }⟩,
  ⟨"steps", List Step, Data.readList Step.ofData, fun steps => .array (Step.writeAll steps),
    (·.steps), fun v f => { f with steps := v }⟩,
  ⟨"settings", Option Settings, Data.readOption Settings.codec.ofData,
    .ofOption Settings.codec.write, (·.settings), fun v f => { f with settings := v }⟩]

theorem CaseFile.slotted : CaseFile.codec.Slotted a CaseFile.slots where
  distinct := by decide
  fills := by repeat' first | exact .nil | exact .holding | apply List.Forall₂.cons
  apart := by simp [slots, Slot.Apart]
  get_set := by simp [slots]
  faithful := by
    simp [slots, CaseHeader.restorable.faithful, faithful_texts.keyed, CaseRecord.faithful.list,
      Settings.restorable.faithful.option_of_refuses Codec.ofData_null]
  start := by
    have hstart : Rereads a CaseHeader.codec.ofData CaseHeader.codec.write {} :=
      CaseHeader.restorable.rereads_start
    simp [Settled, slots, codec, hstart]

theorem CaseFile.restorable : CaseFile.codec.Restorable a := by
  refine ⟨CaseFile.slots, CaseFile.slotted, ?_⟩
  rintro ⟨⟩ ⟨⟩ h
  simpa [slots] using h

/-! ### What is read can be written and read again -/

section Survives

variable {α : Type} {read : Data → Except Flaw α} {write : α → Json.Value} {v : Json.Value}

/-- What comes of a value that is read and written. -/
def rewrite (a : Arrangement) (read : Data → Except Flaw α) (write : α → Json.Value)
    (v : Json.Value) : Except Flaw Json.Value :=
  (read (.ofJson v)).map fun r => a.arrange (write r)

/-- **The record in a value survives:** what is written of it is read as the same record, and when
it is written once more, nothing changes. -/
structure Survives (a : Arrangement) (read : Data → Except Flaw α) (write : α → Json.Value)
    (v : Json.Value) : Prop where
  reread : ∀ r, read (.ofJson v) = .ok r → read (.ofJson (a.arrange (write r))) = .ok r
  idempotent : ∀ u, rewrite a read write v = .ok u → rewrite a read write u = .ok u

theorem Record.Faithful.survives (h : Faithful a read write) (hsized : v.Sized) :
    Survives a read write v where
  reread _ hread := h hsized hread
  idempotent u hu := by
    obtain ⟨r, hread, rfl⟩ := exists_of_map_eq_ok hu
    rw [rewrite, show read _ = .ok r from h hsized hread]
    rfl

end Survives

/-- **Records survive being written and read.** Whatever value a case file, a case record, a step or
a result is read from, the record is written and read again as it is, with all that is below it: as
it is written (`Arrangement.declared`), with its members in the order of their keys
(`Arrangement.byKey`), or in any other order. -/
theorem records_survive (a : Arrangement) {v : Json.Value} (hsized : v.Sized) :
    Survives a CaseFile.codec.ofData CaseFile.codec.write v ∧
      Survives a CaseRecord.ofData CaseRecord.write v ∧
      Survives a Step.ofData Step.write v ∧
      Survives a StepResult.ofData StepResult.write v := by
  refine ⟨?file, ?record, ?step, ?result⟩
  case file => exact CaseFile.restorable.faithful.survives hsized
  case record => exact CaseRecord.faithful.survives hsized
  case step => exact Step.faithful.survives hsized
  case result => exact StepResult.faithful.survives hsized

/-- A case file in loose words: other names for fields, nulls for missing values, fields that nobody
knows, a number for a text, an integer for a number of seconds, and members in no order. -/
def looseFile : Json.Value := .object [
  ("owner", .string "nobody"),
  ("settings", .object [("max_wait_secs", .ofInt 5)]),
  ("environment", .null),
  ("environments", .object [("7", .object [("test", .string "http://localhost")])]),
  ("library", .array [.object [
    ("case_type", .string "公共脚本"), ("id", .ofInt 8), ("code", .string "SHARED")]]),
  ("steps", .array [.object [
    ("kind", .string "group"), ("id", .ofInt 3), ("code", .null), ("children", .array [.object [
      ("validators", .array []), ("request_project", .ofInt 7), ("loop_interval", .ofInt 1)]])]]),
  ("case", .object [("name", .string "login"), ("id", .ofInt 1)])]

/-- A result in loose words. -/
def looseResult : Json.Value := .object [
  ("success", .bool false), ("step_name", .string "outer"), ("aborted", .bool true),
  ("elapsed", .ofInt 2), ("response", .null), ("children", .array [.object [
    ("step_name", .string "inner"), ("success", .bool true), ("color", .string "red")]])]

/-- The file and the result in loose words are read, and survive when their members are sorted. -/
theorem records_survive_loose :
    (∃ file, CaseFile.codec.ofData (.ofJson looseFile) = .ok file ∧
      CaseFile.codec.ofData (.ofJson (CaseFile.codec.write file).sorted) = .ok file) ∧
    ∃ result, StepResult.ofData (.ofJson looseResult) = .ok result ∧
      StepResult.ofData (.ofJson (StepResult.write result).sorted) = .ok result := by
  have hfile := (records_survive .byKey (by decide : looseFile.Sized)).1
  have hresult := (records_survive .byKey (by decide : looseResult.Sized)).2.2.2
  obtain ⟨file, hread⟩ := exists_of_isOk
    (by decide : (CaseFile.codec.ofData (.ofJson looseFile)).isOk = true)
  obtain ⟨result, hreadResult⟩ := exists_of_isOk
    (by decide : (StepResult.ofData (.ofJson looseResult)).isOk = true)
  have hfileAgain := hfile.reread file hread
  have hresultAgain := hresult.reread result hreadResult
  rw [Arrangement.arrange_byKey] at hfileAgain hresultAgain
  exact ⟨⟨file, hread, hfileAgain⟩, result, hreadResult, hresultAgain⟩

end Scenario
