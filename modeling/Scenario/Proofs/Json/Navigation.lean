import Scenario.Json.Path
import Scenario.Proofs.Digits
import Scenario.Proofs.Splitting

/-!
# Navigation by JSON paths

A path leads to the part of a value that it names, and to nothing else; where it leads nowhere, the
first segment that cannot be followed says why.

* `Value.part?` — the parts of a value, by the moves that lead to them.
* `Hop.Written` — how a move is written in a path; a key that is empty, has blanks around it or
  holds a mark of the notation cannot be written, nor can an index that does not fit 64 bits.
* `Path.segments_written` — the segments of a path that was written from moves.
* `Path.leads?` — where segments lead; `Path.follow_eq_ok_iff` says that they are followed there.
* `Path.Refuses` — why a value cannot be entered by a segment; `Path.follow_eq_error_iff` finds the
  first such segment behind every fault.
* `Path.find_exact` — **a path finds exactly what it names.**
-/

namespace Scenario

namespace Json

/-! ### The parts of a value -/

/-- A move from a value to one of its parts. -/
inductive Hop where
  | member (key : String)
  | item (index : Nat)

/-- The part that a move leads to. -/
def Hop.part? : Hop → Value → Option Value
  | .member key, .object members => Keyed.find? key members
  | .item i, .array items => items[i]?
  | _, _ => none

/-- **The part of a value** at the end of some moves. -/
def Value.part? : List Hop → Value → Option Value
  | [], v => some v
  | hop :: rest, v => (hop.part? v).bind (part? rest)

/-- Whether a value has no parts. -/
def Value.IsScalar : Value → Prop
  | .array _ => False
  | .object _ => False
  | _ => True

/-- **How a move is written** in a path. A key stands behind a dot, an index behind a dot or between
brackets. An index has 64 bits, as that of anything in memory has. -/
inductive Hop.Written : Hop → String → Prop
  | member {key : String} : key ≠ "" → Text.trim key = key →
      (∀ c ∈ key.toList, c ≠ '.' ∧ c ≠ '[' ∧ c ≠ ']') → Written (.member key) ("." ++ key)
  | item {i : Nat} : i < 2 ^ 64 → Written (.item i) ("." ++ toString i)
  | bracketed {i : Nat} : i < 2 ^ 64 → Written (.item i) ("[" ++ toString i ++ "]")

/-- The segment of a move. -/
def Hop.segment : Hop → String
  | .member key => key
  | .item i => toString i

namespace Path

/-! ### Following segments -/

/-- The part of a value that a segment leads to: the member under that key, or the item at that
index. -/
def lead? (segment : String) : Value → Option Value
  | .object members => Keyed.find? segment members
  | .array items => (Text.natural? segment.toList).bind (items[·]?)
  | _ => none

/-- **Where segments lead,** one after the other. -/
def leads? : List String → Value → Option Value
  | [], v => some v
  | segment :: rest, v => (lead? segment v).bind (leads? rest)

/-- **Why a value cannot be entered** by the last segment of a path. -/
inductive Refuses (path segment : String) : Value → Fault → Prop
  | missing {members : Members} : Keyed.find? segment members = none →
      Refuses path segment (.object members)
        (.pathNotFound path segment (shownKeys (Keyed.keys members)))
  | beyond {items : List Value} {i : Nat} : Text.natural? segment.toList = some i →
      items.length ≤ i → Refuses path segment (.array items)
        (.indexOutOfRange ("path '" ++ path ++ "'") (Text.signed64 i) items.length)
  | noIndex {items : List Value} : Text.natural? segment.toList = none →
      Refuses path segment (.array items) (.pathType path segment "list")
  | scalar {v : Value} : v.IsScalar → Refuses path segment v (.pathType path segment v.kindName)

section Following

variable {root v w : Value} {segment : String} {before walked rest segments : List String}
  {fault : Fault}

theorem step_eq_ok_iff : step walked segment v = .ok w ↔ lead? segment v = some w := by
  cases v with
  | object members =>
    cases hfound : Keyed.find? segment members <;> simp [step, lead?, hfound]
  | array items =>
    cases hindex : Text.natural? segment.toList with
    | none => simp [step, lead?, hindex]
    | some i => cases hitem : items[i]? <;> simp [step, lead?, hindex, hitem]
  | _ => simp [step, lead?]

theorem step_eq_error_iff :
    step walked segment v = .error fault ↔ Refuses (spell walked) segment v fault := by
  constructor
  · intro h
    cases v with
    | object members =>
      cases hfound : Keyed.find? segment members with
      | some w => simp [step, hfound] at h
      | none =>
        simp only [step, hfound, Except.error.injEq] at h
        exact h ▸ .missing hfound
    | array items =>
      cases hindex : Text.natural? segment.toList with
      | none =>
        simp only [step, hindex, Except.error.injEq] at h
        exact h ▸ .noIndex hindex
      | some i =>
        cases hitem : items[i]? with
        | some w => simp [step, hindex, hitem] at h
        | none =>
          simp only [step, hindex, hitem, Except.error.injEq] at h
          exact h ▸ .beyond hindex (List.getElem?_eq_none_iff.mp hitem)
    | _ => exact Except.error.inj h ▸ .scalar trivial
  · intro h
    -- the other way round, each refusal determines the kind of the value
    cases h with
    | missing hfound => simp [step, hfound]
    | beyond hindex hlong => simp [step, hindex, List.getElem?_eq_none hlong]
    | noIndex hindex => simp [step, hindex]
    | scalar hscalar =>
      cases v with
      | object members => exact hscalar.elim
      | array items => exact hscalar.elim
      | _ => rfl

/-- Segments are followed where they lead. -/
theorem follow_eq_ok_iff : follow before rest v = .ok w ↔ leads? rest v = some w := by
  induction rest generalizing before v with
  | nil => simp [follow, leads?]
  | cons segment rest ih =>
    rw [follow, leads?]
    cases hstep : step (before ++ [segment]) segment v with
    | ok u =>
      rw [step_eq_ok_iff.mp hstep]
      exact ih
    | error fault =>
      -- a step that fails leads nowhere
      have hnone : lead? segment v = none := by
        cases hlead : lead? segment v with
        | none => rfl
        | some u =>
          rw [step_eq_ok_iff.mpr hlead] at hstep
          cases hstep
      rw [hnone]
      exact iff_of_false nofun nofun

/-- **The first segment that cannot be followed** gives the fault, which names the path up to it. -/
theorem follow_eq_error_iff : follow before rest v = .error fault ↔
    ∃ walked segment u, walked ++ [segment] <+: rest ∧ leads? walked v = some u ∧
      Refuses (spell (before ++ (walked ++ [segment]))) segment u fault := by
  induction rest generalizing before v with
  | nil =>
    refine iff_of_false nofun ?_
    rintro ⟨walked, segment, u, hprefix, -⟩
    simp at hprefix
  | cons first rest ih =>
    rw [follow]
    constructor
    · intro h
      cases hstep : step (before ++ [first]) first v with
      -- it is the first segment, and nothing has been walked
      | error other =>
        rw [hstep] at h
        cases h
        exact ⟨[], first, v, by simp, rfl, step_eq_error_iff.mp hstep⟩
      | ok u =>
        rw [hstep] at h
        obtain ⟨walked, segment, w, hprefix, hleads, hrefuses⟩ := ih.mp h
        refine ⟨first :: walked, segment, w, ?_, ?_, ?_⟩
        · rw [List.cons_append]
          exact List.cons_prefix_cons.mpr ⟨rfl, hprefix⟩
        · rw [leads?, step_eq_ok_iff.mp hstep]
          exact hleads
        · simpa using hrefuses
    · rintro ⟨walked, segment, w, hprefix, hleads, hrefuses⟩
      -- the segment that cannot be followed is the first one or a later one
      cases walked with
      | nil =>
        obtain ⟨rfl, -⟩ := List.cons_prefix_cons.mp hprefix
        cases hleads
        have hstep : step (before ++ [segment]) segment v = .error fault :=
          step_eq_error_iff.mpr hrefuses
        rw [hstep]
        rfl
      | cons second walked =>
        obtain ⟨rfl, hrest⟩ := List.cons_prefix_cons.mp (List.cons_append ▸ hprefix)
        rw [leads?, Option.bind_eq_some_iff] at hleads
        obtain ⟨u, hlead, hleads⟩ := hleads
        rw [step_eq_ok_iff.mpr hlead]
        refine ih.mpr ⟨walked, segment, w, hrest, hleads, ?_⟩
        simpa using hrefuses

/-- A segment leads to a part of the value. -/
theorem exists_hop_of_lead? (h : lead? segment v = some w) : ∃ hop : Hop, hop.part? v = some w := by
  cases v with
  | object members => exact ⟨.member segment, h⟩
  | array items =>
    obtain ⟨i, -, hitem⟩ := Option.bind_eq_some_iff.mp h
    exact ⟨.item i, hitem⟩
  | _ => cases h

theorem exists_part_of_leads? (h : leads? segments v = some w) :
    ∃ hops : List Hop, v.part? hops = some w := by
  induction segments generalizing v with
  | nil => exact ⟨[], h⟩
  | cons segment rest ih =>
    obtain ⟨u, hlead, hrest⟩ := Option.bind_eq_some_iff.mp h
    obtain ⟨hop, hhop⟩ := exists_hop_of_lead? hlead
    obtain ⟨hops, hhops⟩ := ih hrest
    refine ⟨hop :: hops, ?_⟩
    rw [Value.part?, hhop]
    exact hhops

end Following

/-! ### Written paths -/

theorem plain_append (first second : List Char) :
    plain (first ++ second) = plain first ++ plain second := by
  rw [plain, List.map_append, List.filter_append]
  rfl

/-- A text without brackets stays as it is. -/
theorem plain_eq_self {text : List Char} (h : ∀ c ∈ text, c ≠ '[' ∧ c ≠ ']') :
    plain text = text := by
  have hmap : (text.map fun c => if c = '[' then '.' else c) = text := by
    refine (List.map_congr_left fun c hc => ?_).trans text.map_id
    exact if_neg (h c hc).1
  rw [plain, hmap]
  exact List.filter_eq_self.mpr fun c hc => by simp [(h c hc).2]

end Path

section Written

variable {hop : Hop} {text : String} {hops : List Hop} {texts : List String} {v w : Value}

theorem isDigit_of_mem_toString {i : Nat} {c : Char} (h : c ∈ (toString i).toList) :
    c.isDigit = true := by
  rw [Nat.toString_eq_repr, Nat.toList_repr] at h
  exact Nat.isDigit_of_mem_toDigits (by decide) (by decide) h

/-- The segment of a move that can be written: it has a character, and no mark of the notation. -/
theorem Hop.Written.segment_free (h : hop.Written text) :
    hop.segment.toList ≠ [] ∧ ∀ c ∈ hop.segment.toList, c ≠ '.' ∧ c ≠ '[' ∧ c ≠ ']' := by
  have hindex : ∀ i : Nat, (toString i).toList ≠ [] ∧
      ∀ c ∈ (toString i).toList, c ≠ '.' ∧ c ≠ '[' ∧ c ≠ ']' := by
    intro i
    constructor
    · rw [Nat.toString_eq_repr, Nat.toList_repr]
      exact Nat.toDigits_ne_nil
    · intro c hc
      have hdigit := isDigit_of_mem_toString hc
      refine ⟨?_, ?_, ?_⟩ <;> (rintro rfl; exact absurd hdigit (by decide))
  cases h with
  | member hne _ hfree => exact ⟨by simpa [Hop.segment] using hne, hfree⟩
  | item => exact hindex _
  | bracketed => exact hindex _

/-- Without its brackets, a move is a dot and its segment. -/
theorem Hop.Written.plain_text (h : hop.Written text) :
    Path.plain text.toList = '.' :: hop.segment.toList := by
  have hplain := Path.plain_eq_self fun c hc => (h.segment_free.2 c hc).2
  cases h with
  | member =>
    rw [String.toList_append, Path.plain_append]
    exact congrArg _ hplain
  | item =>
    rw [String.toList_append, Path.plain_append]
    exact congrArg _ hplain
  | bracketed =>
    rw [String.toList_append, String.toList_append, Path.plain_append, Path.plain_append]
    have hclosing : Path.plain "]".toList = [] := by decide
    rw [hclosing, List.append_nil]
    exact congrArg _ hplain

/-- The text of a move ends with no blank. -/
theorem Hop.Written.last (h : hop.Written text) :
    ∀ c ∈ text.toList.getLast?, Text.isBlank c = false := by
  -- a dot is no blank, nor is what is written behind it
  have hdotted : ∀ segment : String, (∀ c ∈ segment.toList.getLast?, Text.isBlank c = false) →
      ∀ c ∈ ("." ++ segment).toList.getLast?, Text.isBlank c = false := by
    intro segment hlast c hc
    rw [String.toList_append, List.getLast?_append, Option.mem_def, Option.or_eq_some_iff] at hc
    obtain hc | ⟨-, hc⟩ := hc
    · exact hlast c hc
    · cases hc
      decide
  cases h with
  | member _ htrim => exact hdotted _ (Text.trim_eq_self_iff.mp htrim).2
  | item =>
    refine hdotted _ fun c hc => ?_
    rw [← Bool.not_eq_true]
    intro hblank
    have hdigit := isDigit_of_mem_toString (List.mem_of_getLast? hc)
    rw [Text.not_isDigit_of_isBlank hblank] at hdigit
    cases hdigit
  | bracketed =>
    intro c hc
    rw [String.toList_append, List.getLast?_append] at hc
    cases hc
    decide

/-- The segment of a move leads where the move does. -/
theorem Hop.Written.lead (h : hop.Written text) (hpart : hop.part? v = some w) :
    Path.lead? hop.segment v = some w := by
  -- an index reads back if it has 64 bits
  have hindex : ∀ i : Nat, i < 2 ^ 64 → (Hop.item i).part? v = some w →
      Path.lead? (toString i) v = some w := by
    intro i hi hitem
    cases v with
    | array items =>
      rw [Path.lead?, Nat.toString_eq_repr, Nat.toList_repr,
        Text.natural?_of_digitsValue? (Text.digitsValue?_toDigits i) hi]
      exact hitem
    | _ => cases hitem
  cases h with
  | member =>
    cases v with
    | object members => exact hpart
    | _ => cases hpart
  | item hi => exact hindex _ hi hpart
  | bracketed hi => exact hindex _ hi hpart

/-- **The segments of a written path** are those of its moves. -/
theorem Path.segments_written (h : List.Forall₂ Hop.Written hops texts) :
    Path.segments (texts.flatMap String.toList) = hops.map Hop.segment := by
  have hplain : Path.plain (texts.flatMap String.toList) =
      (hops.map fun hop => hop.segment.toList).flatMap ('.' :: ·) := by
    induction h with
    | nil => rfl
    | cons hfirst _ ih =>
      rw [List.flatMap_cons, Path.plain_append, hfirst.plain_text, ih, List.map_cons,
        List.flatMap_cons]
  -- no segment is empty or has a dot, so that the dots between them are all there are
  have hfree : ∀ part ∈ hops.map fun hop => hop.segment.toList,
      part ≠ [] ∧ '.' ∉ part := by
    clear hplain
    induction h with
    | nil => exact nofun
    | cons hfirst _ ih =>
      intro part hpart
      obtain rfl | hpart := List.mem_cons.mp hpart
      · obtain ⟨hne, hmarks⟩ := hfirst.segment_free
        exact ⟨hne, fun hdot => (hmarks '.' hdot).1 rfl⟩
      · exact ih part hpart
  rw [Path.segments, hplain, Text.splitOnChar_led fun part hpart => (hfree part hpart).2]
  have hkept : (hops.map fun hop => hop.segment.toList).filter (fun s => !s.isEmpty) =
      hops.map fun hop => hop.segment.toList := by
    refine List.filter_eq_self.mpr fun part hpart => ?_
    simpa using (hfree part hpart).1
  rw [List.filter_cons_of_neg (by simp), hkept, List.map_map]
  exact List.map_congr_left fun hop _ => String.ofList_toList

/-- The segments of a written path lead where its moves do. -/
theorem Path.leads?_written (h : List.Forall₂ Hop.Written hops texts)
    (hpart : v.part? hops = some w) : Path.leads? (hops.map Hop.segment) v = some w := by
  induction h generalizing v with
  | nil => exact hpart
  | cons hfirst _ ih =>
    obtain ⟨u, hhop, hrest⟩ := Option.bind_eq_some_iff.mp hpart
    rw [List.map_cons, Path.leads?, hfirst.lead hhop]
    exact ih hrest

/-- A written path ends with no blank. -/
theorem Path.last_written (h : List.Forall₂ Hop.Written hops texts) :
    ∀ c ∈ (texts.flatMap String.toList).getLast?, Text.isBlank c = false := by
  induction h with
  | nil => exact fun c hc => nomatch hc
  | cons hfirst _ ih =>
    intro c hc
    rw [List.flatMap_cons, List.getLast?_append, Option.mem_def, Option.or_eq_some_iff] at hc
    obtain hc | ⟨-, hc⟩ := hc
    · exact ih c hc
    · exact hfirst.last c hc

end Written

namespace Path

/-! ### Paths -/

section Paths

variable {root v : Value} {path : String} {blanks body : List Char} {fault : Fault}

/-- A path is followed from its root mark on; blanks around it do not count. -/
theorem find_eq_follow (hpath : path.toList = blanks ++ '$' :: body)
    (hblanks : blanks.all Text.isBlank = true) :
    find root path = follow [] (segments (Text.trimEndList Text.isBlank body)) root := by
  have htrimmed := Text.toList_trim_led hpath hblanks (by decide)
  simp only [find, htrimmed]

/-- **A segment is looked up** in a value, to which the segments before it lead. -/
structure Arrives (root : Value) (segments walked : List String) (segment : String) (v : Value) :
    Prop where
  next : walked ++ [segment] <+: segments
  leads : leads? walked root = some v

/-- Every fault of a path is that of a segment and the value in which it is looked up. -/
theorem find_eq_error_iff (hpath : path.toList = blanks ++ '$' :: body)
    (hblanks : blanks.all Text.isBlank = true) : find root path = .error fault ↔
      ∃ walked segment v,
        Arrives root (segments (Text.trimEndList Text.isBlank body)) walked segment v ∧
          Refuses (spell (walked ++ [segment])) segment v fault := by
  rw [find_eq_follow hpath hblanks, follow_eq_error_iff]
  constructor
  · rintro ⟨walked, segment, v, hnext, hleads, hrefuses⟩
    exact ⟨walked, segment, v, ⟨hnext, hleads⟩, hrefuses⟩
  · rintro ⟨walked, segment, v, ⟨hnext, hleads⟩, hrefuses⟩
    exact ⟨walked, segment, v, hnext, hleads, hrefuses⟩

/-- **A key is not found** in the mapping that the segments before it lead to. -/
theorem find_eq_pathNotFound_iff (hpath : path.toList = blanks ++ '$' :: body)
    (hblanks : blanks.all Text.isBlank = true) {shown segment : String} {keys : List String} :
    find root path = .error (.pathNotFound shown segment keys) ↔
      ∃ walked members, Arrives root (segments (Text.trimEndList Text.isBlank body)) walked segment
          (.object members) ∧ Keyed.find? segment members = none ∧
        shown = spell (walked ++ [segment]) ∧ keys = shownKeys (Keyed.keys members) := by
  rw [find_eq_error_iff hpath hblanks]
  constructor
  · rintro ⟨walked, segment, v, harrives, hrefuses⟩
    cases hrefuses with
    | missing hfound => exact ⟨walked, _, harrives, hfound, rfl, rfl⟩
  · rintro ⟨walked, members, harrives, hfound, rfl, rfl⟩
    exact ⟨walked, segment, _, harrives, .missing hfound⟩

/-- **An index is not in the list** that the segments before it lead to. -/
theorem find_eq_indexOutOfRange_iff (hpath : path.toList = blanks ++ '$' :: body)
    (hblanks : blanks.all Text.isBlank = true) {context : String} {index : Int} {length : Nat} :
    find root path = .error (.indexOutOfRange context index length) ↔
      ∃ walked segment items i, Arrives root (segments (Text.trimEndList Text.isBlank body)) walked
          segment (.array items) ∧ Text.natural? segment.toList = some i ∧ items.length ≤ i ∧
        context = "path '" ++ spell (walked ++ [segment]) ++ "'" ∧ index = Text.signed64 i ∧
        length = items.length := by
  rw [find_eq_error_iff hpath hblanks]
  constructor
  · rintro ⟨walked, segment, v, harrives, hrefuses⟩
    cases hrefuses with
    | beyond hindex hlong =>
      exact ⟨walked, segment, _, _, harrives, hindex, hlong, rfl, rfl, rfl⟩
  · rintro ⟨walked, segment, items, i, harrives, hindex, hlong, hcontext, hi, hlength⟩
    rw [hcontext, hi, hlength]
    exact ⟨walked, segment, _, harrives, .beyond hindex hlong⟩

/-- **A segment does not fit** the value that the segments before it lead to: no value without parts
has one, and no list has one that is not an index. -/
theorem find_eq_pathType_iff (hpath : path.toList = blanks ++ '$' :: body)
    (hblanks : blanks.all Text.isBlank = true) {shown segment found : String} :
    find root path = .error (.pathType shown segment found) ↔
      ∃ walked v, Arrives root (segments (Text.trimEndList Text.isBlank body)) walked segment v ∧
        (v.IsScalar ∨ ∃ items, v = .array items ∧ Text.natural? segment.toList = none) ∧
        shown = spell (walked ++ [segment]) ∧ found = v.kindName := by
  rw [find_eq_error_iff hpath hblanks]
  constructor
  · rintro ⟨walked, segment, v, harrives, hrefuses⟩
    cases hrefuses with
    | noIndex hindex => exact ⟨walked, _, harrives, .inr ⟨_, rfl, hindex⟩, rfl, rfl⟩
    | scalar hscalar => exact ⟨walked, v, harrives, .inl hscalar, rfl, rfl⟩
  · rintro ⟨walked, v, harrives, hscalar | ⟨items, rfl, hindex⟩, rfl, rfl⟩
    · exact ⟨walked, segment, v, harrives, .scalar hscalar⟩
    · exact ⟨walked, segment, _, harrives, .noIndex hindex⟩

end Paths

/-- **A path finds exactly what it names.** A path that is written from the moves to a part of a
value finds that part. Every path finds the part to which its segments lead, if they lead to one.
Otherwise the first segment that leads nowhere decides: a key that is not in a mapping, an index
that is not in a list, or a segment that fits no such value; and the fault names the path up to
that segment. -/
theorem find_exact (root : Value) :
    (∀ hops texts v, List.Forall₂ Hop.Written hops texts → root.part? hops = some v →
      find root ("$" ++ String.join texts) = .ok v) ∧
    ∀ (path : String) (blanks body : List Char), path.toList = blanks ++ '$' :: body →
      blanks.all Text.isBlank = true →
      let segments := segments (Text.trimEndList Text.isBlank body)
      (∀ v, find root path = .ok v ↔ leads? segments root = some v) ∧
      (∀ v, find root path = .ok v → ∃ hops, root.part? hops = some v) ∧
      (∀ shown segment keys, find root path = .error (.pathNotFound shown segment keys) ↔
        ∃ walked members, Arrives root segments walked segment (.object members) ∧
          Keyed.find? segment members = none ∧
          shown = spell (walked ++ [segment]) ∧ keys = shownKeys (Keyed.keys members)) ∧
      (∀ context index length,
        find root path = .error (.indexOutOfRange context index length) ↔
          ∃ walked segment items i, Arrives root segments walked segment (.array items) ∧
            Text.natural? segment.toList = some i ∧ items.length ≤ i ∧
            context = "path '" ++ spell (walked ++ [segment]) ++ "'" ∧
            index = Text.signed64 i ∧ length = items.length) ∧
      (∀ shown segment found, find root path = .error (.pathType shown segment found) ↔
        ∃ walked v, Arrives root segments walked segment v ∧
          (v.IsScalar ∨ ∃ items, v = .array items ∧ Text.natural? segment.toList = none) ∧
          shown = spell (walked ++ [segment]) ∧ found = v.kindName) ∧
      (∀ fault, find root path = .error fault →
        (∃ shown segment keys, fault = .pathNotFound shown segment keys) ∨
        (∃ context index length, fault = .indexOutOfRange context index length) ∨
        ∃ shown segment found, fault = .pathType shown segment found) := by
  constructor
  -- a written path has its moves for segments, and these lead where the moves do
  · intro hops texts v hwritten hpart
    have hpath : ("$" ++ String.join texts).toList = [] ++ '$' :: texts.flatMap String.toList := by
      rw [String.toList_append, String.toList_join]
      rfl
    rw [find_eq_follow hpath rfl, Text.trimEndList_eq_self (last_written hwritten),
      segments_written hwritten, follow_eq_ok_iff]
    exact leads?_written hwritten hpart
  -- any other path leads where its segments do, or is refused at the first that leads nowhere
  · intro path blanks body hpath hblanks segments
    have hok : ∀ v, find root path = .ok v ↔ leads? segments root = some v := by
      intro v
      rw [find_eq_follow hpath hblanks, follow_eq_ok_iff]
    refine ⟨hok, fun v hv => exists_part_of_leads? ((hok v).mp hv), ?_, ?_, ?_, ?_⟩
    · exact fun shown segment keys => find_eq_pathNotFound_iff hpath hblanks
    · exact fun context index length => find_eq_indexOutOfRange_iff hpath hblanks
    · exact fun shown segment found => find_eq_pathType_iff hpath hblanks
    · intro fault hfault
      obtain ⟨walked, segment, v, -, hrefuses⟩ := (find_eq_error_iff hpath hblanks).mp hfault
      cases hrefuses with
      | missing => exact .inl ⟨_, _, _, rfl⟩
      | beyond => exact .inr (.inl ⟨_, _, _, rfl⟩)
      | noIndex => exact .inr (.inr ⟨_, _, _, rfl⟩)
      | scalar => exact .inr (.inr ⟨_, _, _, rfl⟩)

/-- Keys, one of them a number, and an index in brackets: a path that finds its part, and one that
ends at the list. -/
theorem find_exact_mixed :
    let root : Value := .object [("data",
      .object [("items", .array [.null, .object [("0", .bool true)]])])]
    let hops : List Hop := [.member "data", .member "items", .item 1, .member "0"]
    let texts := [".data", ".items", "[1]", ".0"]
    (List.Forall₂ Hop.Written hops texts ∧ root.part? hops = some (.bool true) ∧
      find root ("$" ++ String.join texts) = .ok (.bool true)) ∧
    (" $.data.items[2].0".toList = [' '] ++ '$' :: ".data.items[2].0".toList ∧
      [' '].all Text.isBlank = true ∧
      find root " $.data.items[2].0" =
        .error (.indexOutOfRange "path '$.data.items.2'" 2 2)) := by
  intro root hops texts
  -- a key without marks is written behind a dot
  have hmember : ∀ key : String, key ≠ "" → Text.trim key = key →
      key.toList.all (fun c => c ≠ '.' ∧ c ≠ '[' ∧ c ≠ ']') = true →
      Hop.Written (.member key) ("." ++ key) := by
    intro key hne htrim hfree
    exact .member hne htrim fun c hc => of_decide_eq_true (List.all_eq_true.mp hfree c hc)
  have hwritten : List.Forall₂ Hop.Written hops texts := by
    exact .cons (hmember "data" (by decide) (by decide) (by decide))
      (.cons (hmember "items" (by decide) (by decide) (by decide))
        (.cons (.bracketed (by decide))
          (.cons (hmember "0" (by decide) (by decide) (by decide)) .nil)))
  have hpart : root.part? hops = some (.bool true) := rfl
  obtain ⟨hfinds, hpaths⟩ := find_exact root
  obtain ⟨-, -, -, hrange, -⟩ := hpaths " $.data.items[2].0" [' '] ".data.items[2].0".toList
    (by decide) (by decide)
  refine ⟨⟨hwritten, hpart, hfinds _ _ _ hwritten hpart⟩, by decide, by decide, ?_⟩
  exact (hrange _ _ _).mpr ⟨["data", "items"], "2", _, 2, ⟨by decide, rfl⟩, by decide,
    Nat.le_refl 2, by decide, by decide, rfl⟩

end Path

end Json

end Scenario
