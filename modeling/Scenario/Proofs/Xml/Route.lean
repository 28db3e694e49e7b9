import Scenario.Proofs.Digits
import Scenario.Proofs.Splitting
import Scenario.Xml.Path

/-!
# Paths as they are meant

A path is meant to be a list of element names, each with an index perhaps, and at its end it may ask
for texts or for an attribute. `Route` is such a path as data: nothing else can be built.

* `Name`, `Index`, `Tag`, `Ending`, `Route` — what a path is made of, and how it is written.
* `Route.SpelledBy` — the texts of a route: with or without a slash in front.
* `Route.segments_of_spelledBy` — the program cuts them where they were put together.
* `Path.elementStep_tag`, `Path.follow_of_not_looksFinal`, `Path.follow_ending` — and takes every
  segment for what it is.
-/

namespace Scenario

namespace Xml

/-- **A name:** characters of names, the first of which may begin one. -/
def IsName (text : List Char) : Prop :=
  text.head?.any Read.isNameStart = true ∧ text.all Read.isNameChar = true

instance (text : List Char) : Decidable (IsName text) :=
  inferInstanceAs (Decidable (_ ∧ _))

/-- A name of elements or attributes. -/
structure Name where
  text : String
  valid : IsName text.toList

/-- **An index:** a number from one, in decimal digits. -/
structure Index where
  digits : String
  number : Nat
  value : Text.digitsValue? digits.toList = some number
  positive : 0 < number

/-- **A tag:** a name, and an index if not all elements of that name are meant. -/
structure Tag where
  name : Name
  index : Option Index

/-- **What a path asks for** in the end. -/
inductive Ending where
  /-- The texts of the elements, said by nothing. -/
  | elements
  /-- The texts of the elements, said in so many words. -/
  | texts
  | attributes (name : Name)

/-- **A path as it is meant.** -/
structure Route where
  tags : List Tag
  ending : Ending
  nonempty : tags ≠ [] ∨ ending ≠ .elements

/-- How a tag is written. -/
def Tag.text (tag : Tag) : String :=
  match tag.index with
  | none => tag.name.text
  | some index => tag.name.text ++ "[" ++ index.digits ++ "]"

/-- How an ending is written, if it is. -/
def Ending.segments : Ending → List String
  | .elements => []
  | .texts => ["text()"]
  | .attributes name => ["@" ++ name.text]

/-- The segments of a route. -/
def Route.segments (route : Route) : List String :=
  route.tags.map Tag.text ++ route.ending.segments

/-- **How a route is written:** its segments with slashes between them, and perhaps one in front.
Blanks around it do not count. -/
def Route.SpelledBy (route : Route) (path : String) : Prop :=
  Text.trim path = "/".intercalate route.segments ∨
    Text.trim path = "/" ++ "/".intercalate route.segments

/-- What an ending asks of a node. -/
def Ending.reading : Ending → Node → Option String
  | .attributes name, node => node.attribute? name.text
  | _, node => some node.trimmedText

/-- The segment that a path ends with, if that before is `last`; an attribute is told without its
mark. -/
def Ending.segmentAfter (last : String) : Ending → String
  | .elements => last
  | .texts => "text()"
  | .attributes name => name.text

/-- How a path is shown that was walked along some segments. -/
def Path.shown (segments : List String) : String :=
  String.join (segments.map fun segment => "/" ++ segment)

/-- Whether a segment is taken for the end of a path, wherever it stands. -/
def Path.LooksFinal (segment : String) : Prop :=
  segment = "text()" ∨ segment.toList.head? = some '@'

/-! ### Names and indices in a text -/

section Marks

variable {text : List Char} {c : Char}

theorem IsName.ne_nil (h : IsName text) : text ≠ [] := by
  rintro rfl
  exact absurd h.1 Bool.false_ne_true

theorem IsName.ne_of_mem (h : IsName text) (hc : c ∈ text) {mark : Char}
    (hmark : Read.isNameChar mark = false) : c ≠ mark := by
  rintro rfl
  exact absurd (List.all_eq_true.mp h.2 c hc) (by simp [hmark])

theorem IsName.notMem (h : IsName text) {mark : Char} (hmark : Read.isNameChar mark = false) :
    mark ∉ text :=
  fun hmem => h.ne_of_mem hmem hmark rfl

theorem Index.notMem (index : Index) {mark : Char} (hmark : mark.isDigit = false) :
    mark ∉ index.digits.toList := by
  intro hmem
  have hdigit := Text.isDigit_of_digitsValue? index.value mark hmem
  exact absurd hdigit (by simp [hmark])

theorem Tag.toList_text (tag : Tag) : tag.text.toList = tag.name.text.toList ++
    (match tag.index with
      | none => []
      | some index => '[' :: index.digits.toList ++ [']']) := by
  rw [Tag.text]
  cases tag.index with
  | none => exact (List.append_nil _).symm
  | some index =>
    rw [String.toList_append, String.toList_append, String.toList_append, List.append_assoc,
      List.append_assoc]
    rfl

/-- The index of a tag begins behind the first bracket. -/
theorem Tag.splitOnce?_text (tag : Tag) {index : Index} (h : tag.index = some index) :
    Text.splitOnce? '[' tag.text = some (tag.name.text, index.digits ++ "]") := by
  have htext := tag.toList_text
  rw [h] at htext
  refine Text.splitOnce?_of_eq ?_ (tag.name.valid.notMem (by decide))
  rw [htext, String.toList_append]
  rfl

/-- A tag holds characters of names, and brackets. -/
theorem Tag.notMem_text (tag : Tag) {mark : Char} (hmark : Read.isNameChar mark = false)
    (hopening : mark ≠ '[') (hclosing : mark ≠ ']') : mark ∉ tag.text.toList := by
  have hdigit : mark.isDigit = false := by
    rw [← Bool.not_eq_true]
    intro hdigit
    simp [Read.isNameChar, hdigit] at hmark
  rw [tag.toList_text, List.mem_append, not_or]
  refine ⟨tag.name.valid.notMem hmark, ?_⟩
  cases tag.index with
  | none => exact List.not_mem_nil
  | some index => simpa [hopening, hclosing] using index.notMem hdigit

/-- No tag looks like an end. -/
theorem Tag.not_looksFinal (tag : Tag) : ¬ Path.LooksFinal tag.text := by
  have hat : '@' ∉ tag.text.toList := tag.notMem_text (by decide) (by decide) (by decide)
  have hround : '(' ∉ tag.text.toList := tag.notMem_text (by decide) (by decide) (by decide)
  rintro (heq | hfirst)
  · exact hround (heq ▸ by decide)
  · exact hat (List.mem_of_head? hfirst)

/-! ### Segments -/

/-- No tag is empty, and none holds a slash. -/
theorem Tag.text_free (tag : Tag) : tag.text ≠ "" ∧ '/' ∉ tag.text.toList := by
  refine ⟨fun hempty => ?_, tag.notMem_text (by decide) (by decide) (by decide)⟩
  have htext := tag.toList_text
  rw [hempty] at htext
  exact tag.name.valid.ne_nil (List.append_eq_nil_iff.mp htext.symm).1

theorem Ending.segments_free {ending : Ending} {segment : String} (h : segment ∈ ending.segments) :
    segment ≠ "" ∧ '/' ∉ segment.toList := by
  cases ending with
  | elements => cases h
  | texts =>
    rw [List.mem_singleton.mp h]
    decide
  | attributes name =>
    rw [List.mem_singleton.mp h, Ne, ← String.toList_inj, String.toList_append]
    simpa using name.valid.notMem (by decide)

theorem Route.segments_free {route : Route} {segment : String} (h : segment ∈ route.segments) :
    segment ≠ "" ∧ '/' ∉ segment.toList := by
  obtain h | h := List.mem_append.mp h
  · obtain ⟨tag, -, rfl⟩ := List.mem_map.mp h
    exact tag.text_free
  · exact Ending.segments_free h

theorem Route.segments_ne_nil (route : Route) : route.segments ≠ [] := by
  obtain ⟨tags, ending, hne⟩ := route
  rw [segments, Ne, List.append_eq_nil_iff, List.map_eq_nil_iff]
  rintro ⟨htags, hending⟩
  cases ending with
  | elements => exact hne.elim (· htags) (· rfl)
  | texts => cases hending
  | attributes name => cases hending

/-- A slash in front gives an empty part. -/
theorem Route.split_of_spelledBy {route : Route} {path : String} (h : route.SpelledBy path) :
    Text.split '/' (Text.trim path) = route.segments ∨
      Text.split '/' (Text.trim path) = "" :: route.segments := by
  have hparts : ∀ part ∈ [] :: route.segments.map String.toList, '/' ∉ part := by
    intro part hpart
    obtain rfl | hpart := List.mem_cons.mp hpart
    · exact List.not_mem_nil
    · obtain ⟨segment, hmem, rfl⟩ := List.mem_map.mp hpart
      exact (segments_free hmem).2
  have hlists : route.segments.map String.toList ≠ [] :=
    mt List.map_eq_nil_iff.mp route.segments_ne_nil
  have hback : (route.segments.map String.toList).map String.ofList = route.segments := by
    rw [List.map_map]
    exact (List.map_congr_left fun segment _ => String.ofList_toList).trans (List.map_id _)
  rw [Text.split]
  -- no segment holds a slash, so splitting gives back what was joined
  obtain h | h := h
  · have hcut := Text.splitOnChar_intercalate (fun part hpart => hparts part (.tail _ hpart)) hlists
    rw [h, String.toList_intercalate]
    exact .inl ((congrArg _ hcut).trans hback)
  · have hcut := Text.splitOnChar_intercalate hparts (List.cons_ne_nil _ _)
    rw [List.intercalate_cons_of_ne_nil hlists] at hcut
    have hled : ("/".toList ++ "/".toList.intercalate (route.segments.map String.toList)) =
        [] ++ ['/'] ++ ['/'].intercalate (route.segments.map String.toList) := rfl
    rw [h, String.toList_append, String.toList_intercalate, hled, hcut, List.map_cons, hback]
    exact .inr rfl

/-- **A route is cut into its segments.** -/
theorem Route.segments_of_spelledBy {route : Route} {path : String} (h : route.SpelledBy path) :
    Path.segments path = route.segments := by
  have hkept : route.segments.filter (fun s => !(s = "")) = route.segments :=
    List.filter_eq_self.mpr fun segment hmem => by simpa using (segments_free hmem).1
  rw [Path.segments]
  obtain h | h := split_of_spelledBy h
  · rw [h, hkept]
  · rw [h, List.filter_cons_of_neg (by simp), hkept]

/-! ### Steps -/

namespace Path

variable {path walked last : String} {rest : List String} {nodes : List Node}

/-- One closing bracket is cut off. -/
theorem trimEnd_bracket {digits : String} (h : ']' ∉ digits.toList) :
    Text.trimEnd (· = ']') (digits ++ "]") = digits := by
  have hlast : ∀ c ∈ digits.toList.getLast?, decide (c = ']') = false := by
    refine fun c hc => decide_eq_false ?_
    rintro rfl
    exact h (List.mem_of_getLast? hc)
  have hcut : Text.trimEndList (· = ']') (digits.toList ++ [']']) = digits.toList :=
    (List.rdropWhile_concat_pos _ _ _ rfl).trans (Text.trimEndList_eq_self hlast)
  rw [Text.trimEnd, String.toList_append]
  exact (congrArg String.ofList hcut).trans String.ofList_toList

/-- **A tag is taken as its name and its index,** if the index fits 64 bits. -/
theorem elementStep_tag {tag : Tag} (hfits : ∀ index ∈ tag.index, index.number < 2 ^ 64) :
    elementStep path tag.text = .ok (tag.name.text, tag.index.map Index.number) := by
  have hname : '[' ∉ tag.name.text.toList := tag.name.valid.notMem (by decide)
  rw [elementStep, splitIndex]
  cases hindex : tag.index with
  | none =>
    have hplain : tag.text = tag.name.text := by rw [Tag.text, hindex]
    rw [hplain, Text.splitOnce?_of_notMem hname]
    rfl
  | some index =>
    have hcut := tag.splitOnce?_text hindex
    have hbracket : ']' ∉ index.digits.toList := index.notMem (by decide)
    have hclosed := trimEnd_bracket hbracket
    have hnumber := Text.natural?_of_digitsValue? index.value (hfits index hindex)
    simp only [hcut, hclosed, hnumber]
    rfl

/-- What does not look like an end selects among the nodes so far. -/
theorem follow_of_not_looksFinal {segment : String} (h : ¬ LooksFinal segment) :
    follow path walked last (segment :: rest) nodes =
      (selectAll path (walked ++ "/" ++ segment) segment nodes).bind
        (follow path (walked ++ "/" ++ segment) segment rest) := by
  rw [follow]
  split
  · next name heq => exact absurd (.inr (by rw [heq]; rfl)) h
  · rw [if_neg fun heq => h (.inl heq)]
    rfl

theorem shown_append (before after : List String) :
    shown (before ++ after) = shown before ++ shown after := by
  rw [shown, List.map_append, String.join_append]
  rfl

theorem append_shown_singleton (walked segment : String) :
    walked ++ shown [segment] = walked ++ "/" ++ segment := by
  rw [shown, List.map_singleton, String.join_cons, String.join_nil, String.append_empty,
    String.append_assoc]

/-- **An ending gathers** what it asks of the nodes. -/
theorem follow_ending (ending : Ending) : follow path walked last ending.segments nodes =
    collapse (walked ++ shown ending.segments) (ending.segmentAfter last)
      (nodes.filterMap ending.reading) := by
  have htexts : texts nodes = nodes.filterMap (some ∘ Node.trimmedText) := by
    rw [List.filterMap_eq_map]
    rfl
  cases ending with
  | elements =>
    have hwalked : walked ++ shown (Ending.segments .elements) = walked := String.append_empty
    rw [hwalked]
    exact congrArg (collapse walked last) htexts
  | texts =>
    rw [Ending.segments, append_shown_singleton]
    exact congrArg (collapse (walked ++ "/" ++ "text()") "text()") htexts
  | attributes name =>
    -- the name of an attribute comes behind its mark, and no other segment begins with that
    have hmark : ("@" ++ name.text).toList = '@' :: name.text.toList := String.toList_append
    rw [Ending.segments, append_shown_singleton, follow]
    split
    · next heq =>
      obtain ⟨-, hname⟩ := List.cons.inj (hmark.symm.trans heq)
      rw [← hname, String.ofList_toList]
      rfl
    · next hplain => exact absurd hmark (hplain _)

end Path

end Marks

end Xml

end Scenario
