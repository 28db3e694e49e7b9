import Scenario.Proofs.Record.Slots

/-!
# What data says of a record

A record is read entry by entry, and each entry fills one slot at most. No field comes twice, so
what stands in a slot afterwards is what its one entry says, or what stood there at the start.

* `Codec.written?` — what data says of a field, whether the record is a map or a list.
* `Codec.Supplies` — a slot has what is written, and otherwise what another record has in it.
* `Codec.Slotted.supplies` — **a record that was read** is supplied by its data, and by the record
  to start from.
-/

namespace Scenario

namespace Record

open Json (Arrangement)

namespace Codec

variable {ρ : Type} {a : Arrangement}

/-- The entries that data has for a record: those of a map, or the items of a list under the names
of the fields. -/
def entriesOf (codec : Codec ρ) : Data → List (String × Data)
  | .map entries => entries
  | .list items => codec.entriesOfItems items
  | .scalar _ _ => []

/-- The name of the field that goes by a key. -/
def fieldName? (codec : Codec ρ) (key : String) : Option String :=
  (codec.fields.find? (·.isCalled key)).map FieldCodec.name

/-- What entries say of a field. -/
def amongEntries? (codec : Codec ρ) (name : String) (entries : List (String × Data)) :
    Option Data :=
  (entries.find? fun entry => codec.fieldName? entry.1 = some name).map Prod.snd

/-- **What data says of a field,** if it says anything. -/
def written? (codec : Codec ρ) (name : String) (d : Data) : Option Data :=
  codec.amongEntries? name (codec.entriesOf d)

/-- **A slot is supplied** by what is written, and otherwise by another record. -/
def Supplies (slot : Slot ρ) (written : Option Data) (other r : ρ) : Prop :=
  match written with
  | some d => slot.read d = .ok (slot.get r)
  | none => slot.get r = slot.get other

/-- Of the other record only the one slot counts. -/
theorem Supplies.of_other {slot : Slot ρ} {written : Option Data} {other other' r : ρ}
    (h : Supplies slot written other r) (hother : slot.get other = slot.get other') :
    Supplies slot written other' r := by
  cases written with
  | none => exact Eq.trans h hother
  | some d => exact h

namespace Slotted

variable {codec : Codec ρ} {slots : List (Slot ρ)} {slot : Slot ρ} {r : ρ} {draft draft' : Draft ρ}
  {key : String} {d : Data} {entries : List (String × Data)}

/-- A field that comes has not come before. -/
theorem readEntry_fresh {name : String} (hread : codec.readEntry draft (key, d) = .ok draft')
    (hkey : codec.fieldName? key = some name) :
    name ∉ draft.seen ∧ draft'.seen = name :: draft.seen := by
  obtain ⟨field, hfind, rfl⟩ := Option.map_eq_some_iff.mp hkey
  rw [readEntry, hfind] at hread
  obtain ⟨met, hmet, hread⟩ := exists_of_bind_eq_ok hread
  obtain ⟨record, -, hread⟩ := exists_of_bind_eq_ok hread
  obtain ⟨hfresh, rfl⟩ := Draft.meet_eq_ok_iff.mp hmet
  cases hread
  exact ⟨hfresh, rfl⟩

/-- **The entry of a field** fills its slot. -/
theorem readEntry_own (h : codec.Slotted a slots) (hslot : slot ∈ slots)
    (hread : codec.readEntry draft (key, d) = .ok draft')
    (hkey : codec.fieldName? key = some slot.name) :
    slot.read d = .ok (slot.get draft'.record) := by
  obtain ⟨field, hfind, hname⟩ := Option.map_eq_some_iff.mp hkey
  obtain ⟨other, hother, hfills⟩ := h.exists_field hslot
  obtain rfl := h.eq_of_name hother (List.mem_of_find?_eq_some hfind) (hfills.name.trans hname.symm)
  obtain ⟨hnone, -⟩ | ⟨field, record, hsome, hfield, rfl⟩ := readEntry_cases hread
  · rw [hfind] at hnone
    cases hnone
  · obtain rfl := Option.some.inj (hfind.symm.trans hsome)
    rw [hfills.read] at hfield
    obtain ⟨x, hx, rfl⟩ := exists_of_map_eq_ok hfield
    exact hx.trans (congrArg Except.ok (h.get_set slot hslot x _).symm)

/-- **Another entry** leaves the slot as it is. -/
theorem readEntry_other (h : codec.Slotted a slots) (hslot : slot ∈ slots)
    (hread : codec.readEntry draft (key, d) = .ok draft')
    (hkey : codec.fieldName? key ≠ some slot.name) :
    slot.get draft'.record = slot.get draft.record := by
  obtain ⟨-, rfl⟩ | ⟨field, record, hfind, hfield, rfl⟩ := readEntry_cases hread
  · rfl
  · obtain ⟨other, hother, hfills⟩ := h.exists_slot (List.mem_of_find?_eq_some hfind)
    rw [hfills.read] at hfield
    obtain ⟨x, -, rfl⟩ := exists_of_map_eq_ok hfield
    obtain rfl | hapart := h.eq_or_apart hslot hother
    · exact absurd (Option.map_eq_some_iff.mpr ⟨field, hfind, hfills.name⟩) hkey
    · exact hapart.1 x draft.record

theorem seen_of_readEntry (hread : codec.readEntry draft (key, d) = .ok draft') {name : String}
    (hseen : name ∈ draft.seen) : name ∈ draft'.seen := by
  obtain ⟨-, rfl⟩ | ⟨field, record, -, -, rfl⟩ := readEntry_cases hread
  · exact hseen
  · exact List.mem_cons_of_mem _ hseen

/-- **A slot whose field has come** stays as it is. -/
theorem readEntries_seen (h : codec.Slotted a slots) (hslot : slot ∈ slots)
    (hseen : slot.name ∈ draft.seen) (hread : entries.foldlM codec.readEntry draft = .ok draft') :
    slot.get draft'.record = slot.get draft.record := by
  induction entries generalizing draft with
  | nil =>
    cases hread
    rfl
  | cons entry rest ih =>
    rw [List.foldlM_cons] at hread
    obtain ⟨between, hentry, hread⟩ := exists_of_bind_eq_ok hread
    have hother : codec.fieldName? entry.1 ≠ some slot.name :=
      fun hkey => (readEntry_fresh hentry hkey).1 hseen
    exact (ih (seen_of_readEntry hentry hseen) hread).trans (h.readEntry_other hslot hentry hother)

/-- **Any entries** supply a slot, and the draft supplies what they leave out. -/
theorem readEntries_supplies (h : codec.Slotted a slots) (hslot : slot ∈ slots)
    (hread : entries.foldlM codec.readEntry draft = .ok draft') :
    Supplies slot (codec.amongEntries? slot.name entries) draft.record draft'.record := by
  -- the first entry of the field fills the slot, and no second one may come; the others pass it by
  induction entries generalizing draft with
  | nil =>
    cases hread
    rfl
  | cons entry rest ih =>
    rw [List.foldlM_cons] at hread
    obtain ⟨between, hentry, hread⟩ := exists_of_bind_eq_ok hread
    unfold amongEntries?
    rw [List.find?_cons]
    by_cases hkey : codec.fieldName? entry.1 = some slot.name
    · rw [decide_eq_true hkey]
      have hseen : slot.name ∈ between.seen := by
        rw [(readEntry_fresh hentry hkey).2]
        exact List.mem_cons_self
      have hkept := h.readEntries_seen hslot hseen hread
      exact (h.readEntry_own hslot hentry hkey).trans (congrArg Except.ok hkept.symm)
    · rw [decide_eq_false hkey]
      exact (ih hread).of_other (h.readEntry_other hslot hentry hkey)

/-- **A record that was read** is supplied by its data, and by the record to start from. -/
theorem supplies (h : codec.Slotted a slots) (hread : codec.ofData d = .ok r) :
    ∀ slot ∈ slots, Supplies slot (codec.written? slot.name d) codec.start r := by
  intro slot hslot
  have read : ∀ entries draft, entries.foldlM codec.readEntry ⟨codec.start, []⟩ = .ok draft →
      Supplies slot (codec.amongEntries? slot.name entries) codec.start draft.record :=
    fun _ _ hentries => h.readEntries_supplies hslot hentries
  have finished : ∀ entries, codec.ofEntries entries = .ok r →
      Supplies slot (codec.amongEntries? slot.name entries) codec.start r := by
    intro entries hentries
    obtain ⟨draft, hentries, hfinish⟩ := exists_of_bind_eq_ok hentries
    rw [eq_of_finish hfinish]
    exact read _ _ hentries
  -- a record is read from nothing, from a mapping or from a sequence
  unfold ofData at hread
  split at hread
  · exact finished [] hread
  · exact finished _ hread
  · obtain ⟨draft, hentries, hlength⟩ := exists_of_bind_eq_ok hread
    split at hlength
    · cases hlength
    · cases hlength
      exact read _ _ hentries
  · cases hread

end Slotted

end Codec

end Record

end Scenario
