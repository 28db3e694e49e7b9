import Mathlib.Data.List.Forall2
import Mathlib.Data.List.Pairwise
import Scenario.Proofs.Record.Readers
import Scenario.Record.Codec

/-!
# Records that are read again

The fields of a record do not get in each other's way: each has a slot of its own, and setting one
slot leaves the others as they are. So what comes out of the entries of a map does not depend on
their order, and a record that is written and read again has in each slot what it had before.

* `Slot`, `FieldCodec.Fills` — the content of a field, with the way it is read and written.
* `Codec.Slotted` — a record's fields with their slots.
* `Codec.Slotted.settled` — what stands in the slots of a record that was read can be read again.
* `Codec.Underway` — a written record on its way back, with the members that are still to come:
  `Underway.step` takes one member and `Underway.run` all of them.
* `Codec.Restorable.faithful` — **the reader of a record** keeps to its writer.
-/

namespace Scenario

namespace Record

open Json (Arrangement)

variable {ρ α : Type} {a : Arrangement}

/-! ### Slots -/

/-- **A slot of a record:** the name and the content of a field, how the content is read and
written, and how it is got from a record and set. -/
structure Slot (ρ : Type) where
  name : String
  Content : Type
  read : Data → Except Flaw Content
  write : Content → Json.Value
  get : ρ → Content
  set : Content → ρ → ρ

/-- Two slots that do not get in each other's way. -/
def Slot.Apart (s t : Slot ρ) : Prop :=
  (∀ x r, s.get (t.set x r) = s.get r) ∧ ∀ x r, t.get (s.set x r) = t.get r

instance : Std.Symm (@Slot.Apart ρ) := ⟨fun _ _ => And.symm⟩

/-- The slots of a record hold what can be written and read again. -/
def Settled (a : Arrangement) (slots : List (Slot ρ)) (r : ρ) : Prop :=
  ∀ s ∈ slots, Rereads a s.read s.write (s.get r)

/-- **A field fills a slot:** it is read into the slot and written from it. It is left out only
where nothing else stands in the slot than at the start, and then it need not be there. -/
structure FieldCodec.Fills (start : ρ) (field : FieldCodec ρ) (slot : Slot ρ) : Prop where
  name : field.name = slot.name
  read : ∀ d r, field.read d r = (slot.read d).map fun x => slot.set x r
  written : ∀ r v, field.write r = some v → v = slot.write (slot.get r)
  leftOut : ∀ r, field.write r = none → slot.get r = slot.get start ∧ field.presence ≠ .required

namespace FieldCodec.Fills

variable {start : ρ} {field : FieldCodec ρ} {slot : Slot ρ} {name : String} {presence : Presence}
  {read : Data → Except Flaw α} {write : α → Json.Value} {get : ρ → α} {set : α → ρ → ρ}

theorem holding : (FieldCodec.holding name presence read write get set).Fills start
    ⟨name, α, read, write, get, set⟩ where
  name := rfl
  read _ _ := rfl
  written _ _ h := (Option.some.inj h).symm
  leftOut _ h := by cases h

theorem orAs (h : field.Fills start slot) (aliases : List String) :
    (field.orAs aliases).Fills start slot :=
  ⟨h.name, h.read, h.written, h.leftOut⟩

theorem withPresence (h : field.Fills start slot) (hpresence : presence ≠ .required) :
    ({ field with presence } : FieldCodec ρ).Fills start slot :=
  ⟨h.name, h.read, h.written, fun r hr => ⟨(h.leftOut r hr).1, hpresence⟩⟩

/-- A field may be left out where its slot is as at the start. -/
theorem keptUnless (h : field.Fills start slot) {leaveOut : ρ → Bool}
    (hpresence : field.presence ≠ .required)
    (hstart : ∀ r, leaveOut r = true → slot.get r = slot.get start) :
    (field.unless leaveOut).Fills start slot where
  name := h.name
  read := h.read
  written r v hwrite := by
    simp only [FieldCodec.unless] at hwrite
    split at hwrite
    · cases hwrite
    · exact h.written r v hwrite
  leftOut r hwrite := by
    simp only [FieldCodec.unless] at hwrite
    split at hwrite
    · next hout => exact ⟨hstart r hout, hpresence⟩
    · exact h.leftOut r hwrite

end FieldCodec.Fills

namespace Codec

/-! ### One entry -/

section ReadEntry

variable {codec : Codec ρ} {draft draft' : Draft ρ} {key : String} {d : Data}
  {field : FieldCodec ρ} {record : ρ}

/-- A field that comes for the first time is noted. -/
theorem Draft.meet_eq_ok_iff {name : String} : draft.meet name = .ok draft' ↔
    name ∉ draft.seen ∧ draft' = { draft with seen := name :: draft.seen } := by
  unfold Draft.meet
  split
  · next hseen => exact iff_of_false nofun fun h => h.1 hseen
  · next hfresh => exact ⟨fun h => ⟨hfresh, (Except.ok.inj h).symm⟩, fun h => h.2 ▸ rfl⟩

theorem eq_of_finish (h : codec.finish draft = .ok record) : record = draft.record := by
  unfold finish at h
  split at h
  · cases h
  · exact (Except.ok.inj h).symm

theorem readEntry_unknown (h : codec.fields.find? (·.isCalled key) = none) :
    codec.readEntry draft (key, d) = .ok draft := by
  rw [readEntry, h]

theorem readEntry_known (h : codec.fields.find? (·.isCalled key) = some field)
    (hfresh : field.name ∉ draft.seen) (hread : field.read d draft.record = .ok record) :
    codec.readEntry draft (key, d) = .ok ⟨record, field.name :: draft.seen⟩ := by
  have hmeet := Draft.meet_eq_ok_iff.mpr ⟨hfresh, rfl⟩
  rw [readEntry, h]
  simp only [hmeet, hread, bind, Except.bind, pure, Except.pure]

/-- **What an entry does to a draft:** an unknown key nothing; a field has not come before and is
read into the record. -/
theorem readEntry_cases (h : codec.readEntry draft (key, d) = .ok draft') :
    (codec.fields.find? (·.isCalled key) = none ∧ draft' = draft) ∨
      ∃ field record, codec.fields.find? (·.isCalled key) = some field ∧
        field.read d draft.record = .ok record ∧ draft' = ⟨record, field.name :: draft.seen⟩ := by
  unfold readEntry at h
  split at h
  · next hnone =>
    cases h
    exact .inl ⟨hnone, rfl⟩
  · next field hsome =>
    obtain ⟨met, hmet, h⟩ := exists_of_bind_eq_ok h
    obtain ⟨record, hread, h⟩ := exists_of_bind_eq_ok h
    obtain ⟨-, rfl⟩ := Draft.meet_eq_ok_iff.mp hmet
    cases h
    exact .inr ⟨field, record, hsome, hread, rfl⟩

end ReadEntry

end Codec

/-! ### Fields with slots -/

/-- Neither of two fields goes by the name of the other. -/
def FieldCodec.Distinct (f g : FieldCodec ρ) : Prop :=
  f.isCalled g.name = false ∧ g.isCalled f.name = false

instance : Std.Symm (@FieldCodec.Distinct ρ) := ⟨fun _ _ => And.symm⟩

instance : DecidableRel (@FieldCodec.Distinct ρ) :=
  fun _ _ => inferInstanceAs (Decidable (_ ∧ _))

theorem exists_of_forall₂ {β γ : Type*} {R : β → γ → Prop} {l : List β} {m : List γ} {x : β}
    (h : List.Forall₂ R l m) (hx : x ∈ l) : ∃ y ∈ m, R x y := by
  induction h with
  | nil => cases hx
  | cons hfirst _ ih =>
    obtain rfl | hx := List.mem_cons.mp hx
    · exact ⟨_, List.mem_cons_self, hfirst⟩
    · obtain ⟨y, hy, hxy⟩ := ih hx
      exact ⟨y, List.mem_cons_of_mem _ hy, hxy⟩

theorem FieldCodec.isCalled_name (field : FieldCodec ρ) : field.isCalled field.name = true := by
  simp [isCalled]

namespace Codec

/-- **A record with slots.** No field goes by the name of another, each fills a slot, and the slots
are apart; what is read into a slot can be read again, and so can what stands there at the start. -/
structure Slotted (a : Arrangement) (codec : Codec ρ) (slots : List (Slot ρ)) : Prop where
  distinct : codec.fields.Pairwise FieldCodec.Distinct
  fills : List.Forall₂ (FieldCodec.Fills codec.start) codec.fields slots
  apart : slots.Pairwise Slot.Apart
  get_set : ∀ s ∈ slots, ∀ x r, s.get (s.set x r) = x
  faithful : ∀ s ∈ slots, Faithful a s.read s.write
  start : Settled a slots codec.start

namespace Slotted

variable {codec : Codec ρ} {slots : List (Slot ρ)} {r : ρ} {draft draft' : Draft ρ}

theorem exists_slot (h : codec.Slotted a slots) {field : FieldCodec ρ}
    (hfield : field ∈ codec.fields) : ∃ s ∈ slots, field.Fills codec.start s :=
  exists_of_forall₂ h.fills hfield

theorem exists_field (h : codec.Slotted a slots) {s : Slot ρ} (hs : s ∈ slots) :
    ∃ field ∈ codec.fields, field.Fills codec.start s :=
  exists_of_forall₂ h.fills.flip hs

/-- A slot is apart from all others. -/
theorem eq_or_apart (h : codec.Slotted a slots) {s t : Slot ρ} (hs : s ∈ slots) (ht : t ∈ slots) :
    s = t ∨ s.Apart t :=
  or_iff_not_imp_left.mpr (h.apart.forall hs ht)

/-- A field is found by its name. -/
theorem find?_name (h : codec.Slotted a slots) {field : FieldCodec ρ}
    (hfield : field ∈ codec.fields) :
    codec.fields.find? (·.isCalled field.name) = some field := by
  cases hfind : codec.fields.find? (·.isCalled field.name) with
  | none =>
    rw [List.find?_eq_none] at hfind
    exact absurd field.isCalled_name (hfind field hfield)
  | some found =>
    have hcalled : found.isCalled field.name = true := (List.find?_some hfind :)
    by_contra hne
    have hdistinct := h.distinct.forall (List.mem_of_find?_eq_some hfind) hfield
      fun heq => hne (congrArg some heq)
    exact Bool.noConfusion (hcalled.symm.trans hdistinct.1)

theorem eq_of_name (h : codec.Slotted a slots) {f g : FieldCodec ρ} (hf : f ∈ codec.fields)
    (hg : g ∈ codec.fields) (hname : f.name = g.name) : f = g := by
  have hfind := h.find?_name hf
  rw [hname, h.find?_name hg] at hfind
  exact (Option.some.inj hfind).symm

/-! ### Reading -/

/-- **One entry** leaves in the slots what can be read again. -/
theorem readEntry_settled (h : codec.Slotted a slots) {key : String} {v : Json.Value}
    (hsized : v.Sized) (hsettled : Settled a slots draft.record)
    (hread : codec.readEntry draft (key, .ofJson v) = .ok draft') :
    Settled a slots draft'.record := by
  obtain ⟨-, rfl⟩ | ⟨field, record, hfind, hfield, rfl⟩ := readEntry_cases hread
  · exact hsettled
  · obtain ⟨s, hs, hfills⟩ := h.exists_slot (List.mem_of_find?_eq_some hfind)
    rw [hfills.read] at hfield
    obtain ⟨x, hx, rfl⟩ := exists_of_map_eq_ok hfield
    intro t ht
    -- the slot of the field has what was read, the others have what they had
    obtain rfl | hapart := h.eq_or_apart ht hs
    · change Rereads a t.read t.write (t.get (t.set x draft.record))
      rw [h.get_set t ht]
      exact h.faithful t ht hsized hx
    · change Rereads a t.read t.write (t.get (s.set x draft.record))
      rw [hapart.1]
      exact hsettled t ht

/-- **Any entries** leave in the slots what can be read again. -/
theorem readEntries_settled (h : codec.Slotted a slots) {members : List (String × Json.Value)}
    (hsized : ∀ member ∈ members, member.2.Sized) (hsettled : Settled a slots draft.record)
    (hread : (Data.ofMembers members).foldlM codec.readEntry draft = .ok draft') :
    Settled a slots draft'.record := by
  induction members generalizing draft with
  | nil =>
    cases hread
    exact hsettled
  | cons member rest ih =>
    obtain ⟨hfirst, hrest⟩ := List.forall_mem_cons.mp hsized
    rw [Data.ofMembers, List.foldlM_cons] at hread
    obtain ⟨between, hentry, hread⟩ := exists_of_bind_eq_ok hread
    exact ih hrest (h.readEntry_settled hfirst hsettled hentry) hread

theorem ofEntries_settled (h : codec.Slotted a slots) {members : List (String × Json.Value)}
    (hsized : ∀ member ∈ members, member.2.Sized)
    (hread : codec.ofEntries (Data.ofMembers members) = .ok r) : Settled a slots r := by
  obtain ⟨draft, hentries, hfinish⟩ := exists_of_bind_eq_ok hread
  rw [eq_of_finish hfinish]
  exact h.readEntries_settled hsized h.start hentries

/-- The items of a list are entries under the names of the fields. -/
theorem entriesOfItems_ofItems (items : List Json.Value) :
    codec.entriesOfItems (Data.ofItems items) =
      Data.ofMembers ((codec.fields.map FieldCodec.name).zip items) := by
  rw [entriesOfItems, Data.ofItems_eq_map, Data.ofMembers_eq_mapValues, List.zip_map_right]
  rfl

/-- **A record that was read** has in its slots what can be read again. -/
theorem settled (h : codec.Slotted a slots) {v : Json.Value} (hsized : v.Sized)
    (hread : codec.ofData (.ofJson v) = .ok r) : Settled a slots r := by
  cases v with
  | object members => exact h.ofEntries_settled (Json.Value.sized_object.mp hsized) hread
  | array items =>
    rw [Data.ofJson, ofData, entriesOfItems_ofItems] at hread
    obtain ⟨draft, hentries, hlength⟩ := exists_of_bind_eq_ok hread
    have hitems := Json.Value.sized_array.mp hsized
    have hsettled := h.readEntries_settled (fun member hmember =>
      hitems _ (List.of_mem_zip hmember).2) h.start hentries
    split at hlength
    · cases hlength
    · cases hlength
      exact hsettled
  | number n => cases n <;> cases hread
  | null | bool | string => cases hread

end Slotted

/-! ### Reading again -/

/-- A member that is written of `r`. -/
def Wrote (a : Arrangement) (codec : Codec ρ) (r : ρ) (member : String × Json.Value) : Prop :=
  ∃ field ∈ codec.fields, field.name = member.1 ∧
    ∃ v, field.write r = some v ∧ member.2 = a.arrange v

/-- A key that no field goes by. -/
def Unknown (codec : Codec ρ) (key : String) : Prop :=
  codec.fields.find? (·.isCalled key) = none

instance (codec : Codec ρ) (key : String) : Decidable (codec.Unknown key) :=
  decidable_of_iff ((codec.fields.find? (·.isCalled key)).isNone = true) Option.isNone_iff_eq_none

/-- **A written record on its way back.** The members that are still to come have names of their
own; a slot has what it had before, or its member is still to come, and a field that must be there
has come or is still to come. -/
structure Underway (a : Arrangement) (codec : Codec ρ) (slots : List (Slot ρ)) (r : ρ)
    (left : List (String × Json.Value)) (draft : Draft ρ) : Prop where
  distinct : (left.map Prod.fst).Nodup
  fresh : ∀ key ∈ left.map Prod.fst, key ∉ draft.seen
  known : ∀ member ∈ left, codec.Wrote a r member ∨ codec.Unknown member.1
  slots : ∀ s ∈ slots, s.get draft.record = s.get r ∨ s.name ∈ left.map Prod.fst
  required : ∀ field ∈ codec.fields, field.presence = .required →
    field.name ∈ draft.seen ∨ field.name ∈ left.map Prod.fst

namespace Underway

variable {codec : Codec ρ} {slots : List (Slot ρ)} {r : ρ} {draft : Draft ρ}
  {member : String × Json.Value} {left : List (String × Json.Value)}

/-- A member that the record does not know is nothing to wait for. -/
theorem skip (hu : codec.Underway a slots r (member :: left) draft)
    (h : codec.Slotted a slots) (hunknown : codec.Unknown member.1) :
    codec.Underway a slots r left draft := by
  have hname : ∀ field ∈ codec.fields, field.name ≠ member.1 := by
    rintro field hfield hname
    unfold Unknown at hunknown
    rw [← hname, h.find?_name hfield] at hunknown
    cases hunknown
  refine ⟨(List.nodup_cons.mp hu.distinct).2, ?_, ?_, ?_, ?_⟩
  · exact fun key hkey => hu.fresh key (List.mem_cons_of_mem _ hkey)
  · exact fun other hother => hu.known other (List.mem_cons_of_mem _ hother)
  · intro s hs
    obtain ⟨field, hfield, hfills⟩ := h.exists_field hs
    refine (hu.slots s hs).imp_right fun hmem => ?_
    exact (List.mem_cons.mp hmem).resolve_left fun heq => hname field hfield (hfills.name.trans heq)
  · intro field hfield hrequired
    refine (hu.required field hfield hrequired).imp_right fun hmem => ?_
    exact (List.mem_cons.mp hmem).resolve_left (hname field hfield)

/-- A key that comes without a member to come may be noted. -/
theorem noted (hu : codec.Underway a slots r left draft) {key : String}
    (hkey : key ∉ left.map Prod.fst) :
    codec.Underway a slots r left { draft with seen := key :: draft.seen } where
  distinct := hu.distinct
  fresh other hother hseen := by
    obtain rfl | hseen := List.mem_cons.mp hseen
    · exact hkey hother
    · exact hu.fresh other hother hseen
  known := hu.known
  slots := hu.slots
  required field hfield hrequired :=
    (hu.required field hfield hrequired).imp_left (List.mem_cons_of_mem _)

/-- **A member of the record** goes where it came from. -/
theorem take (hu : codec.Underway a slots r (member :: left) draft) (h : codec.Slotted a slots)
    (hsettled : Settled a slots r) (hwrote : codec.Wrote a r member) :
    ∃ draft', codec.readEntry draft (member.1, .ofJson member.2) = .ok draft' ∧
      codec.Underway a slots r left draft' := by
  obtain ⟨key, value⟩ := member
  obtain ⟨field, hfield, rfl, v, hwrite, rfl⟩ := hwrote
  -- the field was written by its slot, so what it reads back is what the slot holds
  have hread : ∀ s ∈ slots, field.Fills codec.start s →
      field.read (.ofJson (a.arrange v)) draft.record = .ok (s.set (s.get r) draft.record) := by
    intro s hs hfills
    rw [hfills.read, hfills.written r v hwrite, show s.read _ = _ from hsettled s hs]
    rfl
  obtain ⟨s, hs, hfills⟩ := h.exists_slot hfield
  obtain ⟨hlast, hdistinct⟩ := List.nodup_cons.mp hu.distinct
  refine ⟨_, readEntry_known (h.find?_name hfield) (hu.fresh _ List.mem_cons_self)
    (hread s hs hfills), hdistinct, ?fresh, ?known, ?slots, ?required⟩
  case fresh =>
    intro key hkey hseen
    obtain rfl | hseen := List.mem_cons.mp hseen
    · exact hlast hkey
    · exact hu.fresh key (List.mem_cons_of_mem _ hkey) hseen
  case known => exact fun other hother => hu.known other (List.mem_cons_of_mem _ hother)
  case slots =>
    intro t ht
    obtain ⟨g, hg, hgt⟩ := h.exists_field ht
    by_cases hname : t.name = field.name
    · -- the field of this slot has come
      obtain rfl := h.eq_of_name hg hfield (hgt.name.trans hname)
      have hsame := (hread s hs hfills).symm.trans (hread t ht hgt)
      rw [Except.ok.inj hsame]
      exact .inl (h.get_set t ht _ _)
    · obtain rfl | hapart := h.eq_or_apart ht hs
      · exact absurd hfills.name.symm hname
      · rw [hapart.1]
        exact (hu.slots t ht).imp_right fun hmem => (List.mem_cons.mp hmem).resolve_left hname
  case required =>
    intro other hother hrequired
    obtain hseen | hmem := hu.required other hother hrequired
    · exact .inl (List.mem_cons_of_mem _ hseen)
    · obtain heq | hmem := List.mem_cons.mp hmem
      · exact .inl (heq ▸ List.mem_cons_self)
      · exact .inr hmem

/-- **One member** is taken or skipped. -/
theorem step (hu : codec.Underway a slots r (member :: left) draft) (h : codec.Slotted a slots)
    (hsettled : Settled a slots r) :
    ∃ draft', codec.readEntry draft (member.1, .ofJson member.2) = .ok draft' ∧
      codec.Underway a slots r left draft' := by
  obtain hwrote | hunknown := hu.known member List.mem_cons_self
  · exact hu.take h hsettled hwrote
  · exact ⟨draft, readEntry_unknown hunknown, hu.skip h hunknown⟩

/-- **All members** are read. -/
theorem run (hu : codec.Underway a slots r left draft) (h : codec.Slotted a slots)
    (hsettled : Settled a slots r) :
    ∃ draft', (Data.ofMembers left).foldlM codec.readEntry draft = .ok draft' ∧
      codec.Underway a slots r [] draft' := by
  induction left generalizing draft with
  | nil => exact ⟨draft, rfl, hu⟩
  | cons member rest ih =>
    obtain ⟨between, hentry, hbetween⟩ := hu.step h hsettled
    obtain ⟨draft', hrest, hdone⟩ := ih hbetween
    refine ⟨draft', ?_, hdone⟩
    rw [Data.ofMembers, List.foldlM_cons, hentry]
    exact hrest

/-- **When all have come,** every slot has what it had before. -/
theorem finish (hu : codec.Underway a slots r [] draft) :
    codec.finish draft = .ok draft.record ∧ ∀ s ∈ slots, s.get draft.record = s.get r := by
  refine ⟨?_, fun s hs => (hu.slots s hs).resolve_right List.not_mem_nil⟩
  have hmissing : codec.missing? draft.seen = none := by
    rw [missing?, Option.map_eq_none_iff, List.find?_eq_none]
    intro field hfield hmissing
    obtain ⟨hrequired, hunseen⟩ : field.presence = .required ∧ field.name ∉ draft.seen := by
      simpa using hmissing
    exact hunseen ((hu.required field hfield hrequired).resolve_right List.not_mem_nil)
  rw [Codec.finish, hmissing]

end Underway

namespace Slotted

variable {codec : Codec ρ} {slots : List (Slot ρ)} {r : ρ}
  {left others : List (String × Json.Value)}

theorem members_keys_nodup (h : codec.Slotted a slots) (r : ρ) :
    ((codec.members r).map Prod.fst).Nodup := by
  have hnames : (codec.fields.map FieldCodec.name).Nodup := by
    refine List.pairwise_map.mpr (h.distinct.imp fun {f g} hdistinct heq => ?_)
    have hcalled : g.isCalled f.name = true := heq ▸ g.isCalled_name
    exact Bool.noConfusion (hcalled.symm.trans hdistinct.2)
  refine hnames.sublist ?_
  unfold members
  induction codec.fields with
  | nil => exact .slnil
  | cons field rest ih =>
    rw [List.filterMap_cons]
    cases field.write r with
    | none => exact ih.cons _
    | some v => exact ih.cons_cons _

/-- What is written is known. -/
theorem not_unknown_of_mem_members (h : codec.Slotted a slots) {key : String}
    (hkey : key ∈ (codec.members r).map Prod.fst) : ¬ codec.Unknown key := by
  intro hunknown
  obtain ⟨member, hmember, rfl⟩ := List.mem_map.mp hkey
  obtain ⟨field, hfield, hwrite⟩ := List.mem_filterMap.mp hmember
  obtain ⟨v, -, rfl⟩ := Option.map_eq_some_iff.mp hwrite
  rw [Unknown, h.find?_name hfield] at hunknown
  cases hunknown

/-- **A written record sets out,** with its members in any order and among others. -/
theorem underway (h : codec.Slotted a slots)
    (hperm : left.Perm (Keyed.mapValues a.arrange (codec.members r) ++ others))
    (hdistinct : (left.map Prod.fst).Nodup) (hothers : ∀ member ∈ others, codec.Unknown member.1) :
    codec.Underway a slots r left ⟨codec.start, []⟩ := by
  have hwritten : ∀ field ∈ codec.fields, ∀ v, field.write r = some v →
      (field.name, a.arrange v) ∈ left := by
    intro field hfield v hwrite
    refine hperm.mem_iff.mpr (List.mem_append_left _ (List.mem_map.mpr ⟨(field.name, v), ?_, rfl⟩))
    exact List.mem_filterMap.mpr ⟨field, hfield, by rw [hwrite]; rfl⟩
  refine ⟨hdistinct, fun _ _ => List.not_mem_nil, ?known, ?slots, ?required⟩
  case known =>
    intro member hmember
    obtain hmember | hmember := List.mem_append.mp (hperm.mem_iff.mp hmember)
    · obtain ⟨written, hwritten, rfl⟩ := List.mem_map.mp hmember
      obtain ⟨field, hfield, hwrite⟩ := List.mem_filterMap.mp hwritten
      obtain ⟨v, hv, rfl⟩ := Option.map_eq_some_iff.mp hwrite
      exact .inl ⟨field, hfield, rfl, v, hv, rfl⟩
    · exact .inr (hothers member hmember)
  case slots =>
    -- a field that is left out has in its slot what stands there at the start
    intro s hs
    obtain ⟨field, hfield, hfills⟩ := h.exists_field hs
    cases hwrite : field.write r with
    | none => exact .inl (hfills.leftOut r hwrite).1.symm
    | some v =>
      exact .inr (hfills.name ▸ List.mem_map_of_mem (hwritten field hfield v hwrite))
  case required =>
    intro field hfield hrequired
    obtain ⟨s, -, hfills⟩ := h.exists_slot hfield
    cases hwrite : field.write r with
    | none => exact absurd hrequired (hfills.leftOut r hwrite).2
    | some v => exact .inr (List.mem_map_of_mem (hwritten field hfield v hwrite))

/-- **A written record is read again,** slot by slot. -/
theorem ofEntries_written (h : codec.Slotted a slots) (hsettled : Settled a slots r)
    (hperm : left.Perm (Keyed.mapValues a.arrange (codec.members r) ++ others))
    (hdistinct : (left.map Prod.fst).Nodup) (hothers : ∀ member ∈ others, codec.Unknown member.1) :
    ∃ r', codec.ofEntries (Data.ofMembers left) = .ok r' ∧ ∀ s ∈ slots, s.get r' = s.get r := by
  obtain ⟨draft, hread, hdone⟩ := (h.underway hperm hdistinct hothers).run h hsettled
  obtain ⟨hfinish, hslots⟩ := hdone.finish
  refine ⟨draft.record, ?_, hslots⟩
  rw [ofEntries, hread]
  exact hfinish

/-- **The writing of a record** is read as the record if its slots make it up. -/
theorem rereads (h : codec.Slotted a slots)
    (hext : ∀ r', (∀ s ∈ slots, s.get r' = s.get r) → r' = r) (hsettled : Settled a slots r) :
    Rereads a codec.ofData codec.write r := by
  obtain ⟨arranged, harranged, hperm, hdistinct⟩ := Arrangement.arrange_object (a := a)
    (h.members_keys_nodup r)
  obtain ⟨r', hread, hslots⟩ := h.ofEntries_written hsettled
    (by rwa [List.append_nil] : arranged.Perm (_ ++ [])) hdistinct nofun
  unfold Rereads
  rw [write, harranged, ← hext r' hslots]
  exact hread

end Slotted

/-! ### Records -/

/-- **A record that can be restored:** it has slots, and they make it up. -/
def Restorable (a : Arrangement) (codec : Codec ρ) : Prop :=
  ∃ slots, codec.Slotted a slots ∧ ∀ r r', (∀ s ∈ slots, s.get r' = s.get r) → r' = r

variable {codec : Codec ρ} {slots : List (Slot ρ)}

/-- The slots of a record are those that its fields fill. -/
theorem exists_slotted {Q : List (Slot ρ) → Prop}
    (fills : List.Forall₂ (FieldCodec.Fills codec.start) codec.fields slots)
    (distinct : codec.fields.Pairwise FieldCodec.Distinct) (apart : slots.Pairwise Slot.Apart)
    (get_set : ∀ s ∈ slots, ∀ x r, s.get (s.set x r) = x)
    (faithful : ∀ s ∈ slots, Faithful a s.read s.write) (start : Settled a slots codec.start)
    (whole : Q slots) : ∃ slots, codec.Slotted a slots ∧ Q slots :=
  ⟨slots, ⟨distinct, fills, apart, get_set, faithful, start⟩, whole⟩

/-- **The reader of a record** keeps to its writer. -/
theorem Restorable.faithful (h : codec.Restorable a) : Faithful a codec.ofData codec.write := by
  obtain ⟨slots, hslotted, hext⟩ := h
  intro v r hsized hread
  exact hslotted.rereads (hext r) (hslotted.settled hsized hread)

theorem Restorable.rereads_start (h : codec.Restorable a) :
    Rereads a codec.ofData codec.write codec.start := by
  obtain ⟨slots, hslotted, hext⟩ := h
  exact hslotted.rereads (hext _) hslotted.start

theorem ofData_null (r : ρ) : codec.ofData (.ofJson .null) ≠ .ok r := by
  intro h
  cases h

end Codec

end Record

end Scenario
