import Scenario.Proofs.Xml.Names
import Scenario.Proofs.Xml.Selection

/-!
# The paths that have a value

A path with a value need not be the text of a route: what follows a segment that looks like an end
is never read, empty parts do not count, and an index may lack its closing bracket, have more of
them or begin with a sign. These are all the ways in which it may fail to be one.

* `Path.Tidy` — a path with none of that, said of its text alone.
* `Route.tidy_of_spelledBy` — the text of a route is tidy.
* `Path.selectAll_sound`, `Path.tag_of_elementStep` — a tidy segment that selects something is a tag.
* `Path.follow_tidy` — tidy segments with a value are tags and an ending.
* `Path.find_grammatical` — **a path with a value is tidy if and only if it is the text of a
  route.**
-/

namespace Scenario

namespace Xml

namespace Path

/-- **An index as it is meant:** behind the first bracket comes the text of an index, which has no
sign, and one closing bracket at the end. -/
def ClosedIndex (segment : String) : Prop :=
  ∀ name index, Text.splitOnce? '[' segment = some (name, index) →
    ∃ digits, index = digits ++ "]" ∧ ']' ∉ digits.toList ∧ digits.toList.head? ≠ some '+'

/-- **A tidy path:** no part is empty but the one before a slash in front, only the last one looks
like an end, and every index is closed. -/
structure Tidy (path : String) : Prop where
  gapless : ∀ part ∈ (Text.split '/' (Text.trim path)).tail, part ≠ ""
  final : ∀ segment ∈ (segments path).dropLast, ¬ LooksFinal segment
  closed : ∀ segment ∈ segments path, ClosedIndex segment

end Path

/-! ### Routes are tidy -/

theorem Tag.closedIndex (tag : Tag) : Path.ClosedIndex tag.text := by
  intro name index hcut
  cases hindex : tag.index with
  | none =>
    have hplain : tag.text = tag.name.text := by rw [Tag.text, hindex]
    rw [hplain, Text.splitOnce?_of_notMem (tag.name.valid.notMem (by decide))] at hcut
    cases hcut
  | some number =>
    rw [tag.splitOnce?_text hindex] at hcut
    cases hcut
    refine ⟨number.digits, rfl, number.notMem (by decide), fun hsign => ?_⟩
    exact number.notMem (by decide) (List.mem_of_head? hsign)

theorem Ending.closedIndex {ending : Ending} {segment : String} (h : segment ∈ ending.segments) :
    Path.ClosedIndex segment := by
  have hbracket : '[' ∉ segment.toList := by
    cases ending with
    | elements => cases h
    | texts =>
      rw [List.mem_singleton.mp h]
      decide
    | attributes name =>
      rw [List.mem_singleton.mp h, String.toList_append]
      simpa using name.valid.notMem (by decide)
  intro name index hcut
  rw [Text.splitOnce?_of_notMem hbracket] at hcut
  cases hcut

/-- What is before the last segment is a tag. -/
theorem Route.mem_tags_of_mem_dropLast {route : Route} {segment : String}
    (h : segment ∈ route.segments.dropLast) : segment ∈ route.tags.map Tag.text := by
  rw [segments] at h
  cases hending : route.ending with
  | elements =>
    rw [hending, Ending.segments, List.append_nil] at h
    exact List.mem_of_mem_dropLast h
  | texts => rwa [hending, Ending.segments, List.dropLast_concat] at h
  | attributes name => rwa [hending, Ending.segments, List.dropLast_concat] at h

/-- **The text of a route is tidy.** -/
theorem Route.tidy_of_spelledBy {route : Route} {path : String} (h : route.SpelledBy path) :
    Path.Tidy path := by
  have hsegments := route.segments_of_spelledBy h
  refine ⟨fun part hpart => ?_, fun segment hsegment => ?_, fun segment hsegment => ?_⟩
  · obtain hsplit | hsplit := route.split_of_spelledBy h
    · exact (segments_free (List.mem_of_mem_tail (hsplit ▸ hpart))).1
    · rw [hsplit] at hpart
      exact (segments_free hpart).1
  · rw [hsegments] at hsegment
    have htag := route.mem_tags_of_mem_dropLast hsegment
    obtain ⟨tag, -, rfl⟩ := List.mem_map.mp htag
    exact tag.not_looksFinal
  · rw [hsegments] at hsegment
    obtain hsegment | hsegment := List.mem_append.mp hsegment
    · obtain ⟨tag, -, rfl⟩ := List.mem_map.mp hsegment
      exact tag.closedIndex
    · exact Ending.closedIndex hsegment

/-! ### Tidy segments -/

namespace Path

section Segments

variable {path walked last segment : String} {rest : List String} {node : Node}
  {nodes found : List Node} {v : Json.Value}

/-- Only children with the name are selected, and never by the index zero. -/
theorem selectBelow_sound {name : String} {index : Option Nat}
    (h : selectBelow path walked name index node = .ok found) :
    index ≠ some 0 ∧ ∀ child ∈ found, child ∈ childrenNamed name node := by
  obtain _ | _ | n := index
  · cases h
    exact ⟨by simp, fun _ hchild => hchild⟩
  · cases h
  · refine ⟨by simp, ?_⟩
    simp only [selectBelow] at h
    split at h
    · next hit hhit =>
      cases h
      intro child hchild
      rw [List.mem_singleton.mp hchild]
      exact List.mem_of_getElem? hhit
    · split at h
      · cases h
        exact fun child hchild => absurd hchild List.not_mem_nil
      · cases h

/-- **What a segment selects:** children of the nodes so far, with the name that it says. -/
theorem selectAll_sound (h : selectAll path walked segment nodes = .ok found) :
    ∃ name index, elementStep path segment = .ok (name, index) ∧ index ≠ some 0 ∧ found ≠ [] ∧
      ∀ child ∈ found, child.name? = some name ∧ ∃ node ∈ nodes, child ∈ node.children := by
  obtain ⟨⟨name, index⟩, hstep, h⟩ := exists_of_bind_eq_ok h
  obtain ⟨lists, hlists, h⟩ := exists_of_bind_eq_ok h
  refine ⟨name, index, hstep, ?_⟩
  split at h
  · cases h
  · next hne =>
    cases h
    have hchildren : ∀ child ∈ lists.flatten, index ≠ some 0 ∧ child.name? = some name ∧
        ∃ node ∈ nodes, child ∈ node.children := by
      intro child hchild
      obtain ⟨list, hlist, hchild⟩ := List.mem_flatten.mp hchild
      obtain ⟨node, hnode, hselect⟩ := exists_of_mem_mapM hlists list hlist
      obtain ⟨hindex, hall⟩ := selectBelow_sound hselect
      obtain ⟨hmem, hname⟩ := List.mem_filter.mp (hall child hchild)
      exact ⟨hindex, of_decide_eq_true hname, node, hnode, hmem⟩
    obtain ⟨child, hchild⟩ := List.exists_mem_of_ne_nil _ hne
    exact ⟨(hchildren child hchild).1, hne, fun child hchild => (hchildren child hchild).2⟩

/-- **A tidy segment** with a name is a tag. -/
theorem tag_of_elementStep {name : String} {index : Option Nat} (hclosed : ClosedIndex segment)
    (hname : IsName name.toList) (hindex : index ≠ some 0)
    (hstep : elementStep path segment = .ok (name, index)) :
    ∃ tag : Tag, tag.text = segment ∧ ∀ index ∈ tag.index, index.number < 2 ^ 64 := by
  rw [elementStep, splitIndex] at hstep
  cases hcut : Text.splitOnce? '[' segment with
  | none =>
    rw [hcut] at hstep
    cases hstep
    exact ⟨⟨⟨segment, hname⟩, none⟩, rfl, fun _ hindex => by cases hindex⟩
  | some parts =>
    obtain ⟨before, after⟩ := parts
    obtain ⟨digits, rfl, hbracket, hsign⟩ := hclosed before after hcut
    simp only [hcut, trimEnd_bracket hbracket] at hstep
    split at hstep
    · next n hnumber =>
      cases hstep
      -- without a sign, the text between the brackets is its digits
      obtain ⟨hvalue, hfits⟩ := (Text.natural?_eq_some_iff hsign).mp hnumber
      have hpositive : 0 < n := Nat.pos_of_ne_zero fun hzero => hindex (congrArg some hzero)
      obtain ⟨htext, -⟩ := Text.splitOnce?_eq_some_iff.mp hcut
      refine ⟨⟨⟨name, hname⟩, some ⟨digits, n, hvalue, hpositive⟩⟩, ?_, ?_⟩
      · rw [← String.toList_inj, Tag.toList_text, htext, String.toList_append]
        rfl
      · rintro index ⟨⟩
        exact hfits
    · cases hstep

/-- A segment that looks like an end and gives a value is the ending of a route. -/
theorem ending_of_follow (hproper : ∀ node ∈ nodes, node.Proper) (hlooks : LooksFinal segment)
    (h : follow path walked last (segment :: rest) nodes = .ok v) :
    ∃ ending : Ending, ending.segments = [segment] := by
  obtain rfl | hfirst := hlooks
  · exact ⟨.texts, rfl⟩
  · obtain ⟨chars, hchars⟩ := List.head?_eq_some_iff.mp hfirst
    have hsegment : "@" ++ String.ofList chars = segment := by
      have hmark : ("@" ++ String.ofList chars).toList = '@' :: (String.ofList chars).toList :=
        String.toList_append
      rw [← String.toList_inj, hchars, hmark, String.toList_ofList]
    rw [follow, hchars] at h
    -- some node has the attribute, so its name is one
    have hvalues : nodes.filterMap (Node.attribute? (String.ofList chars)) ≠ [] := by
      intro hnone
      simp only [hnone, collapse] at h
      cases h
    obtain ⟨value, hvalue⟩ := List.exists_mem_of_ne_nil _ hvalues
    obtain ⟨node, hnode, hattribute⟩ := List.mem_filterMap.mp hvalue
    have hname := (hproper node hnode).attributes _ (Option.isSome_of_eq_some hattribute)
    exact ⟨.attributes ⟨_, hname⟩, congrArg (fun s => [s]) hsegment⟩

/-- **Tidy segments** with a value are tags and an ending. -/
theorem follow_tidy (hproper : ∀ node ∈ nodes, node.Proper)
    (hfinal : ∀ segment ∈ rest.dropLast, ¬ LooksFinal segment)
    (hclosed : ∀ segment ∈ rest, ClosedIndex segment)
    (h : follow path walked last rest nodes = .ok v) :
    ∃ (tags : List Tag) (ending : Ending), tags.map Tag.text ++ ending.segments = rest ∧
      ∀ tag ∈ tags, ∀ index ∈ tag.index, index.number < 2 ^ 64 := by
  induction rest generalizing walked last nodes with
  | nil => exact ⟨[], .elements, rfl, nofun⟩
  | cons segment rest ih =>
    by_cases hlooks : LooksFinal segment
    · -- what looks like an end is the last segment of a tidy path
      have hlast : rest = [] := by
        by_contra hmore
        refine hfinal segment ?_ hlooks
        rw [List.dropLast_cons_of_ne_nil hmore]
        exact List.mem_cons_self
      obtain ⟨ending, hending⟩ := ending_of_follow hproper hlooks h
      exact ⟨[], ending, by rw [hending, hlast]; rfl, nofun⟩
    · -- any other segment selects children, and the name of a child is valid
      rw [follow_of_not_looksFinal hlooks] at h
      obtain ⟨found, hselect, hrest⟩ := exists_of_bind_eq_ok h
      obtain ⟨name, index, hstep, hindex, hne, hfound⟩ := selectAll_sound hselect
      have hnamed : ∀ child ∈ found, child.Named := by
        intro child hchild
        obtain ⟨-, node, hnode, hmem⟩ := hfound child hchild
        exact (hproper node hnode).children child hmem
      have hname : IsName name.toList := by
        obtain ⟨child, hchild⟩ := List.exists_mem_of_ne_nil _ hne
        have hchild' := (hfound child hchild).1
        cases hnamed child hchild with
        | text => cases hchild'
        | element hvalid =>
          cases hchild'
          exact hvalid
      obtain ⟨tag, htext, hfits⟩ :=
        tag_of_elementStep (hclosed segment List.mem_cons_self) hname hindex hstep
      have hdrop : ∀ other ∈ rest.dropLast, ¬ LooksFinal other := by
        intro other hother
        refine hfinal other ?_
        rw [List.dropLast_cons_of_ne_nil (List.ne_nil_of_mem (List.mem_of_mem_dropLast hother))]
        exact List.mem_cons_of_mem _ hother
      have hproper' : ∀ child ∈ found, child.Proper := fun child hchild =>
        (hnamed child hchild).proper
      have hclosed' : ∀ other ∈ rest, ClosedIndex other := fun other hother =>
        hclosed other (List.mem_cons_of_mem _ hother)
      obtain ⟨tags, ending, hsegments, hall⟩ := ih hproper' hdrop hclosed' hrest
      refine ⟨tag :: tags, ending, ?_, List.forall_mem_cons.mpr ⟨hfits, hall⟩⟩
      rw [List.map_cons, List.cons_append, hsegments, htext]

end Segments

/-! ### Paths -/

section Paths

variable {text path : String} {v : Json.Value}

/-- A path without gaps is its segments, with slashes between them and perhaps one in front. -/
theorem trim_of_gapless (hgapless : ∀ part ∈ (Text.split '/' (Text.trim path)).tail, part ≠ "")
    (hsome : segments path ≠ []) :
    Text.trim path = "/".intercalate (segments path) ∨
      Text.trim path = "/" ++ "/".intercalate (segments path) := by
  have hwhole : "/".intercalate (Text.split '/' (Text.trim path)) = Text.trim path :=
    Text.intercalate_split '/' _
  rw [← hwhole]
  rw [segments] at hsome ⊢
  generalize Text.split '/' (Text.trim path) = parts at *
  cases parts with
  | nil => exact absurd rfl hsome
  | cons first rest =>
    have hrest : rest.filter (fun s => !(s = "")) = rest :=
      List.filter_eq_self.mpr fun part hpart => by simpa using hgapless part hpart
    by_cases hfirst : first = ""
    · -- the empty part stands for a slash in front
      rw [List.filter_cons_of_neg (by simp [hfirst]), hrest] at hsome ⊢
      rw [String.intercalate_cons_of_ne_nil hsome, hfirst, String.empty_append]
      exact .inr rfl
    · rw [List.filter_cons_of_pos (by simp [hfirst]), hrest]
      exact .inl rfl

/-- **A tidy path with a value** is the text of a route. -/
theorem exists_route_of_tidy (htidy : Tidy path) (h : find text path = .ok v) :
    ∃ (document : Node) (route : Route), read text = .ok document ∧ route.SpelledBy path ∧
      ∀ tag ∈ route.tags, ∀ index ∈ tag.index, index.number < 2 ^ 64 := by
  cases hread : read text with
  | error flaw =>
    simp only [find, hread] at h
    cases h
  | ok document =>
    simp only [find, hread] at h
    split at h
    · cases h
    · next hsome =>
      have hproper : ∀ node ∈ [document], node.Proper := by
        intro node hnode
        exact List.mem_singleton.mp hnode ▸ proper_of_read hread
      obtain ⟨tags, ending, hsegments, hfits⟩ :=
        follow_tidy hproper htidy.final htidy.closed h
      -- a path without any segments was refused before
      have hnonempty : tags ≠ [] ∨ ending ≠ .elements := by
        by_contra hnone
        obtain ⟨rfl, rfl⟩ : tags = [] ∧ ending = .elements := by simpa using hnone
        exact hsome hsegments.symm
      refine ⟨document, ⟨tags, ending, hnonempty⟩, rfl, ?_, hfits⟩
      have htrim := trim_of_gapless htidy.gapless hsome
      rwa [← hsegments] at htrim

/-- **A path with a value is tidy if and only if it is the text of a route.** Every segment of a
tidy one then takes part: the value is made of what the whole route selects. -/
theorem find_grammatical (h : find text path = .ok v) :
    (Tidy path ↔ ∃ route : Route, route.SpelledBy path) ∧
    (Tidy path → ∃ (document : Node) (route : Route), read text = .ok document ∧
      route.SpelledBy path ∧
      Yields ((selected document route.tags).filterMap route.ending.reading) v) := by
  constructor
  · constructor
    · intro htidy
      obtain ⟨-, route, -, hspelled, -⟩ := exists_route_of_tidy htidy h
      exact ⟨route, hspelled⟩
    · rintro ⟨route, hspelled⟩
      exact route.tidy_of_spelledBy hspelled
  · intro htidy
    obtain ⟨document, route, hread, hspelled, hfits⟩ := exists_route_of_tidy htidy h
    have hsound := find_sound hread hspelled hfits
    rw [h] at hsound
    exact ⟨document, route, hread, hspelled, hsound.2.2.2⟩

end Paths

/-- A path with an index and an attribute: it is the text of a route, and has its value. -/
theorem find_grammatical_second :
    let text := "<a><b id='1'/><b id='2'/></a>"
    let path := "/a/b[2]/@id"
    find text path = .ok (.string "2") ∧ Tidy path ∧
      ∃ (document : Node) (route : Route), read text = .ok document ∧ route.SpelledBy path ∧
        Yields ((selected document route.tags).filterMap route.ending.reading) (.string "2") := by
  intro text path
  let route : Route := {
    tags := [⟨⟨"a", by decide⟩, none⟩, ⟨⟨"b", by decide⟩, some ⟨"2", 2, by decide, by decide⟩⟩]
    ending := .attributes ⟨"id", by decide⟩
    nonempty := .inl (List.cons_ne_nil _ _) }
  have hfind : find text path = .ok (.string "2") := by cbv
  have htidy : Tidy path := route.tidy_of_spelledBy (.inr (by decide))
  exact ⟨hfind, htidy, (find_grammatical hfind).2 htidy⟩

/-- Paths with a value that no route is written as: something behind an attribute or behind a text,
an index with too few or too many closing brackets or with a sign, and an empty part. -/
theorem find_ungrammatical :
    let text := "<a id='1'>x</a>"
    (find text "/a/@id/b" = .ok (.string "1") ∧ find text "/a/text()/b[" = .ok (.string "x") ∧
      find text "/a[1" = .ok (.string "x") ∧ find text "/a[1]]" = .ok (.string "x") ∧
      find text "/a[+1]" = .ok (.string "x") ∧ find text "//a" = .ok (.string "x")) ∧
    ∀ path ∈ ["/a/@id/b", "/a/text()/b[", "/a[1", "/a[1]]", "/a[+1]", "//a"],
      ¬ ∃ route : Route, route.SpelledBy path := by
  intro text
  have hread : read text =
      .ok (.element "" [] [.element "a" [⟨false, "id", "1"⟩] [.text "x"]]) := by cbv
  refine ⟨?_, ?_⟩
  · have hfind : ∀ path, segments path ≠ [] →
        find text path = follow path "" "" (segments path) [_] :=
      fun path hsteps => find_of_read hread hsteps
    rw [hfind "/a/@id/b" (by decide), hfind "/a/text()/b[" (by decide), hfind "/a[1" (by decide),
      hfind "/a[1]]" (by decide), hfind "/a[+1]" (by decide), hfind "//a" (by decide)]
    exact ⟨by cbv, by cbv, by cbv, by cbv, by cbv, by cbv⟩
  have hindex : ∀ {index digits : String}, index = digits ++ "]" →
      index.toList = digits.toList ++ [']'] := by
    rintro index digits rfl
    exact String.toList_append
  -- a path that is written as a route is tidy, and each of these is not, in a way of its own
  have huntidy : ∀ path ∈ ["/a/@id/b", "/a/text()/b[", "/a[1", "/a[1]]", "/a[+1]", "//a"],
      ¬ Tidy path := by
    simp only [List.forall_mem_cons]
    refine ⟨fun h => ?_, fun h => ?_, fun h => ?_, fun h => ?_, fun h => ?_, fun h => ?_,
      fun _ hpath => absurd hpath List.not_mem_nil⟩
    · exact h.final "@id" (by decide) (.inr (by decide))
    · exact h.final "text()" (by decide) (.inl rfl)
    · obtain ⟨digits, heq, -, -⟩ := h.closed "a[1" (by decide) "a" "1" (by decide)
      have hlast := congrArg List.getLast? (hindex heq)
      rw [List.getLast?_concat] at hlast
      exact absurd hlast (by decide)
    · obtain ⟨digits, heq, hbracket, -⟩ := h.closed "a[1]]" (by decide) "a" "1]]" (by decide)
      have hdigits := congrArg List.dropLast (hindex heq)
      rw [List.dropLast_concat] at hdigits
      exact hbracket (hdigits ▸ by decide)
    · obtain ⟨digits, heq, -, hsign⟩ := h.closed "a[+1]" (by decide) "a" "+1]" (by decide)
      have hdigits := congrArg List.dropLast (hindex heq)
      rw [List.dropLast_concat] at hdigits
      exact hsign (hdigits ▸ by decide)
    · exact h.gapless "" (by decide) rfl
  rintro path hpath ⟨route, hspelled⟩
  exact huntidy path hpath (route.tidy_of_spelledBy hspelled)

end Path

end Xml

end Scenario
