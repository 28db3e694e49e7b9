import Mathlib
import Scenario.Proofs.Traversal
import Scenario.Proofs.Xml.Route

/-!
# What an XML path selects

A tag keeps, below every place so far, the places of the children of its name, or that of one of
them. This is a walk over sets of places; the program walks over lists of nodes, and stops at the
first that has too few children.

* `Place`, `Node.part?` — where a node stands in a document.
* `selection`, `selected` — the places that tags lead to, and the nodes there;
  `pairwise_selection` puts them in document order.
* `RunsOver`, `RunsDry` — what ends a walk early.
* `Path.selectAll_of_not_exceeds`, `Path.selectAll_of_exceeds` — one step of the program.
* `Path.Stops` — every way in which a walk fails, and `Path.follow_sound`, the whole walk.
* `Path.find_selects` — **a path selects what it means.**
-/

namespace Scenario

namespace Xml

/-- If a function has a value for every item, its values are as many. -/
theorem map_eq_map_some {α β : Type} {f : α → Option β} {items : List α}
    (h : ∀ a ∈ items, ∃ b, f a = some b) : items.map f = (items.filterMap f).map some := by
  induction items with
  | nil => rfl
  | cons a rest ih =>
    obtain ⟨b, hb⟩ := h a List.mem_cons_self
    rw [List.map_cons, List.filterMap_cons_some hb, List.map_cons, hb,
      ih fun c hc => h c (List.mem_cons_of_mem _ hc)]

/-! ### Places -/

/-- **A place in a document:** the positions that lead down to it. -/
abbrev Place := List Nat

/-- The node at a place. -/
def Node.part? (node : Node) : Place → Option Node
  | [] => some node
  | i :: rest => node.children[i]?.bind fun child => child.part? rest

/-- The positions of the element children with a name. -/
def Node.positions (name : String) (node : Node) : List Nat :=
  node.children.findIdxs fun child => child.name? = some name

/-- The positions that a tag picks below a node: all of its name, or the one that its index says. -/
def Tag.picks (tag : Tag) (node : Node) : List Nat :=
  match tag.index with
  | none => node.positions tag.name.text
  | some index => (node.positions tag.name.text)[index.number - 1]?.toList

/-- The places that a tag picks below a place. -/
def Tag.below (document : Node) (tag : Tag) (place : Place) : List Place :=
  match document.part? place with
  | some node => (tag.picks node).map fun i => place ++ [i]
  | none => []

/-- **The selection:** the places that tags lead to, one tag after the other. -/
def selection (document : Node) (tags : List Tag) : List Place :=
  tags.foldl (fun places tag => places.flatMap (tag.below document)) [[]]

/-- The nodes at the places of a selection. -/
def selected (document : Node) (tags : List Tag) : List Node :=
  (selection document tags).filterMap document.part?

/-- **A tag asks too much of a node** that has children of that name, but not as many. -/
def Tag.Exceeds (tag : Tag) (node : Node) : Prop :=
  ∃ index ∈ tag.index, 0 < (node.positions tag.name.text).length ∧
    (node.positions tag.name.text).length < index.number

/-- Some tag asks too much of a node. -/
def RunsOver (document : Node) (tags : List Tag) : Prop :=
  ∃ before tag, before ++ [tag] <+: tags ∧ ∃ node ∈ selected document before, tag.Exceeds node

/-- Some tag leaves nothing. -/
def RunsDry (document : Node) (tags : List Tag) : Prop :=
  ∃ before, before <+: tags ∧ selected document before = []

/-- If a route asks for an attribute, a selected node has it. -/
def Carries (document : Node) (route : Route) : Prop :=
  ∀ name, route.ending = .attributes name →
    ∃ node ∈ selected document route.tags, (node.attribute? name.text).isSome

/-- **How a route fails:** by the first tag that asks too much of a node; or else by the first that
leaves nothing; or else by an attribute that no selected node has. The fault shows the path up to
there. -/
inductive Path.Stops (document : Node) (route : Route) : Fault → Prop
  | short {before : List Tag} {tag : Tag} {node : Node} {index : Index} :
      before ++ [tag] <+: route.tags → ¬ RunsOver document before →
      node ∈ selected document before → index ∈ tag.index →
      0 < (node.positions tag.name.text).length →
      (node.positions tag.name.text).length < index.number →
      Stops document route
        (.indexOutOfRange ("XML path '" ++ shown ((before ++ [tag]).map Tag.text) ++ "'")
          (Text.signed64 index.number) (node.positions tag.name.text).length)
  | dry {before : List Tag} {tag : Tag} :
      before ++ [tag] <+: route.tags → ¬ RunsOver document route.tags →
      selected document before ≠ [] → selected document (before ++ [tag]) = [] →
      Stops document route
        (.pathNotFound (shown ((before ++ [tag]).map Tag.text)) tag.name.text
          ((dedup ((selected document before).flatMap childNames)).take 10))
  | bare {name : Name} :
      ¬ RunsOver document route.tags → ¬ RunsDry document route.tags →
      route.ending = .attributes name → ¬ Carries document route →
      Stops document route (.pathNotFound (shown route.segments) name.text [])

/-- **The value of texts:** the only one, or the list of them. -/
def Yields (texts : List String) (v : Json.Value) : Prop :=
  (∃ s, texts = [s] ∧ v = .string s) ∨ (1 < texts.length ∧ v = .array (texts.map .string))

section Places

variable {document node : Node} {tag : Tag} {before tags : List Tag} {place : Place}

theorem Node.part?_append (first second : Place) (node : Node) :
    node.part? (first ++ second) = (node.part? first).bind (·.part? second) := by
  induction first generalizing node with
  | nil => rfl
  | cons i rest ih =>
    rw [List.cons_append, part?, part?]
    cases node.children[i]? with
    | none => rfl
    | some child => exact ih child

/-- A place is one child below another. -/
theorem Node.part?_concat {i : Nat} (h : document.part? place = some node) :
    document.part? (place ++ [i]) = node.children[i]? := by
  rw [part?_append, h]
  exact Option.bind_fun_some _

/-- At the positions of a name, there are the children of that name. -/
theorem Node.positions_map (name : String) (node : Node) :
    (node.positions name).map (node.children[·]?) = (Path.childrenNamed name node).map some := by
  rw [positions, Path.childrenNamed]
  generalize node.children = children
  induction children with
  | nil => rfl
  | cons child rest ih =>
    -- behind the first child, every position is one further
    have hrest : ((rest.findIdxs (fun child => child.name? = some name)).map (· + 1)).map
        ((child :: rest)[·]?) = (rest.filter fun child => child.name? = some name).map some := by
      rw [List.map_map, ← ih]
      rfl
    rw [List.findIdxs_cons, List.findIdxs_start, List.filter_cons]
    split
    · rw [List.map_cons, List.map_cons, hrest]
      rfl
    · exact hrest

/-- The nodes that a tag picks. -/
def Tag.picked (tag : Tag) (node : Node) : List Node :=
  (tag.picks node).filterMap (node.children[·]?)

/-- Every position that a tag picks has its node. -/
theorem Tag.picks_map (tag : Tag) (node : Node) :
    (tag.picks node).map (node.children[·]?) = (tag.picked node).map some := by
  have hpositions := node.positions_map tag.name.text
  have hall : ∀ i ∈ tag.picks node, ∃ child, node.children[i]? = some child := by
    intro i hi
    -- with an index or without, only positions of the name are picked
    have hmem : i ∈ node.positions tag.name.text := by
      rw [picks] at hi
      split at hi
      · exact hi
      · exact List.mem_of_getElem? (Option.mem_toList.mp hi)
    obtain ⟨child, -, hchild⟩ := List.mem_map.mp (hpositions ▸ List.mem_map_of_mem hmem)
    exact ⟨child, hchild.symm⟩
  rw [picked]
  exact map_eq_map_some hall

/-- What a tag picks below a place is one child below it. -/
theorem Tag.exists_of_mem_below {x : Place} (h : x ∈ tag.below document place) :
    ∃ node i, document.part? place = some node ∧ i ∈ tag.picks node ∧ x = place ++ [i] := by
  rw [below] at h
  split at h
  · next node hnode =>
    obtain ⟨i, hi, rfl⟩ := List.mem_map.mp h
    exact ⟨node, i, hnode, hi, rfl⟩
  · cases h

theorem selection_concat : selection document (tags ++ [tag]) =
    (selection document tags).flatMap (tag.below document) := by
  rw [selection, List.foldl_append]
  rfl

/-- **A further tag** picks below each of the nodes so far. -/
theorem selected_concat : selected document (tags ++ [tag]) =
    (selected document tags).flatMap tag.picked := by
  rw [selected, selection_concat, selected]
  generalize selection document tags = places
  induction places with
  | nil => rfl
  | cons place rest ih =>
    rw [List.flatMap_cons, List.filterMap_append, ih, Tag.below]
    -- a place without a node adds nothing on either side
    cases hplace : document.part? place with
    | none => rw [List.filterMap_cons_none hplace]; rfl
    | some node =>
      have hpicked : ((tag.picks node).map fun i => place ++ [i]).filterMap document.part? =
          tag.picked node := by
        rw [List.filterMap_map]
        exact List.filterMap_congr fun i _ => Node.part?_concat hplace
      rw [List.filterMap_cons_some hplace, List.flatMap_cons, hpicked]

/-- Every place of a selection has its node. -/
theorem selection_map (document : Node) (tags : List Tag) :
    (selection document tags).map document.part? = (selected document tags).map some := by
  refine map_eq_map_some ?_
  induction tags using List.reverseRecOn with
  | nil => exact fun place hplace => ⟨document, by rw [List.mem_singleton.mp hplace]; rfl⟩
  | append_singleton tags tag ih =>
    intro place hplace
    rw [selection_concat, List.mem_flatMap] at hplace
    obtain ⟨above, -, hbelow⟩ := hplace
    obtain ⟨node, i, habove, hi, rfl⟩ := Tag.exists_of_mem_below hbelow
    obtain ⟨child, -, hchild⟩ := List.mem_map.mp (tag.picks_map node ▸ List.mem_map_of_mem hi)
    exact ⟨child, (Node.part?_concat habove).trans hchild.symm⟩

/-- The places of a selection are as deep as there are tags. -/
theorem length_of_mem_selection (h : place ∈ selection document tags) :
    place.length = tags.length := by
  induction tags using List.reverseRecOn generalizing place with
  | nil => rw [List.mem_singleton.mp h]; rfl
  | append_singleton tags tag ih =>
    rw [selection_concat, List.mem_flatMap] at h
    obtain ⟨above, habove, hbelow⟩ := h
    obtain ⟨node, i, -, -, rfl⟩ := Tag.exists_of_mem_below hbelow
    rw [List.length_append, List.length_append, ih habove]
    rfl

theorem Tag.pairwise_picks (tag : Tag) (node : Node) : (tag.picks node).Pairwise (· < ·) := by
  rw [picks]
  split
  · exact List.pairwise_findIdxs
  · next index _ => cases (node.positions tag.name.text)[index.number - 1]? <;> simp

/-- What is below an earlier place comes before what is below a later one, if both are as deep. -/
theorem append_lt_append {first second below beyond : Place} (h : first < second)
    (hlength : first.length = second.length) : first ++ below < second ++ beyond := by
  induction first generalizing second with
  | nil =>
    rw [List.length_eq_zero_iff.mp hlength.symm] at h
    exact absurd h (List.lt_irrefl _)
  | cons i rest ih =>
    cases second with
    | nil => cases hlength
    | cons j more =>
      rw [List.cons_append, List.cons_append, List.cons_lt_cons_iff]
      obtain hlt | ⟨rfl, hlt⟩ := List.cons_lt_cons_iff.mp h
      · exact .inl hlt
      · exact .inr ⟨rfl, ih hlt (Nat.succ.inj hlength)⟩

/-- **A selection is in document order,** and no place occurs in it twice. -/
theorem pairwise_selection (document : Node) (tags : List Tag) :
    (selection document tags).Pairwise (· < ·) := by
  induction tags using List.reverseRecOn with
  | nil => exact List.pairwise_singleton _ _
  | append_singleton tags tag ih =>
    rw [selection_concat, List.pairwise_flatMap]
    constructor
    · -- below one place, the positions rise
      intro place _
      rw [Tag.below]
      split
      · next node _ =>
        refine List.pairwise_map.mpr ((tag.pairwise_picks node).imp fun hlt => ?_)
        exact List.append_left_lt (List.cons_lt_cons_iff.mpr (.inl hlt))
      · exact .nil
    · -- below two places, the places decide, as both are equally deep
      refine ih.imp_of_mem fun {first second} hfirst hsecond hlt x hx y hy => ?_
      obtain ⟨_, i, -, -, rfl⟩ := Tag.exists_of_mem_below hx
      obtain ⟨_, j, -, -, rfl⟩ := Tag.exists_of_mem_below hy
      have hdepth := length_of_mem_selection hfirst
      exact append_lt_append hlt (hdepth.trans (length_of_mem_selection hsecond).symm)

end Places

/-! ### Steps -/

section Steps

variable {path walked : String} {tag : Tag} {node : Node} {nodes found : List Node} {fault : Fault}

theorem Tag.picked_of_none (h : tag.index = none) (node : Node) :
    tag.picked node = Path.childrenNamed tag.name.text node := by
  have hnodes := congrArg (List.filterMap id) (node.positions_map tag.name.text)
  rw [List.filterMap_map, List.filterMap_map] at hnodes
  rw [picked, picks, h]
  exact hnodes.trans List.filterMap_some

theorem Tag.picked_of_some {index : Index} (h : tag.index = some index) (node : Node) :
    tag.picked node = (Path.childrenNamed tag.name.text node)[index.number - 1]?.toList := by
  have hnodes := congrArg (·[index.number - 1]?) (node.positions_map tag.name.text)
  have hpicks : tag.picks node = (node.positions tag.name.text)[index.number - 1]?.toList := by
    rw [picks, h]
  simp only [List.getElem?_map] at hnodes
  rw [picked, hpicks]
  cases hposition : (node.positions tag.name.text)[index.number - 1]? with
  | none =>
    rw [hposition] at hnodes
    rw [Option.map_eq_none_iff.mp hnodes.symm]
    rfl
  | some i =>
    rw [hposition] at hnodes
    obtain ⟨child, hchild, heq⟩ := Option.map_eq_some_iff.mp hnodes.symm
    rw [hchild]
    exact List.filterMap_cons_some heq.symm

theorem length_positions (name : String) (node : Node) :
    (node.positions name).length = (Path.childrenNamed name node).length := by
  have hlengths := congrArg List.length (node.positions_map name)
  rwa [List.length_map, List.length_map] at hlengths

namespace Path

/-- **Below a node,** a tag finds what it picks, unless it asks too much. -/
theorem selectBelow_of_not_exceeds (h : ¬ tag.Exceeds node) :
    selectBelow path walked tag.name.text (tag.index.map Index.number) node =
      .ok (tag.picked node) := by
  cases hindex : tag.index with
  | none =>
    rw [Tag.picked_of_none hindex]
    rfl
  | some index =>
    obtain ⟨n, hn⟩ := Nat.exists_eq_succ_of_ne_zero index.positive.ne'
    rw [Tag.picked_of_some hindex, Option.map_some, hn, selectBelow]
    cases hhit : (childrenNamed tag.name.text node)[n]? with
    | some hit => simp [hhit]
    | none =>
      -- too few children of that name, so none at all
      have hshort := List.getElem?_eq_none_iff.mp hhit
      have hnone : childrenNamed tag.name.text node = [] := by
        by_contra hsome
        refine h ⟨index, hindex, ?_⟩
        rw [length_positions]
        exact ⟨List.length_pos_iff.mpr hsome, by omega⟩
      simp [hnone]

theorem selectBelow_of_exceeds (path walked : String) {index : Index} (hindex : index ∈ tag.index)
    (hsome : 0 < (node.positions tag.name.text).length)
    (hfew : (node.positions tag.name.text).length < index.number) :
    selectBelow path walked tag.name.text (tag.index.map Index.number) node =
      .error (.indexOutOfRange ("XML path '" ++ walked ++ "'") (Text.signed64 index.number)
        (node.positions tag.name.text).length) := by
  obtain ⟨n, hn⟩ := Nat.exists_eq_succ_of_ne_zero index.positive.ne'
  rw [length_positions] at hsome hfew ⊢
  have hhit : (childrenNamed tag.name.text node)[n]? = none :=
    List.getElem?_eq_none (by omega)
  have hne := List.length_pos_iff.mp hsome
  rw [Option.mem_def.mp hindex, Option.map_some, hn, selectBelow]
  simp [hhit, hne]

variable (hfits : ∀ index ∈ tag.index, index.number < 2 ^ 64)
include hfits

theorem selectAll_tag : selectAll path walked tag.text nodes =
    (nodes.mapM (selectBelow path walked tag.name.text (tag.index.map Index.number))).bind
      fun lists => match lists.flatten with
        | [] => .error (.pathNotFound walked tag.name.text
          ((dedup (nodes.flatMap childNames)).take 10))
        | found => .ok found := by
  rw [selectAll, elementStep_tag hfits]
  rfl

/-- **A tag that asks too much of no node** finds what it picks, if that is something. -/
theorem selectAll_of_not_exceeds (path walked : String) (h : ∀ node ∈ nodes, ¬ tag.Exceeds node) :
    selectAll path walked tag.text nodes =
      match nodes.flatMap tag.picked with
      | [] => .error (.pathNotFound walked tag.name.text
        ((dedup (nodes.flatMap childNames)).take 10))
      | found => .ok found := by
  rw [selectAll_tag hfits, mapM_eq_ok fun node hnode => selectBelow_of_not_exceeds (h node hnode),
    List.flatMap_def]
  rfl

/-- **A tag that asks too much of a node** fails, and the fault counts the children of one such. -/
theorem selectAll_of_exceeds (path walked : String) (h : ∃ node ∈ nodes, tag.Exceeds node) :
    ∃ node ∈ nodes, ∃ index ∈ tag.index, 0 < (node.positions tag.name.text).length ∧
      (node.positions tag.name.text).length < index.number ∧
      selectAll path walked tag.text nodes =
        .error (.indexOutOfRange ("XML path '" ++ walked ++ "'") (Text.signed64 index.number)
          (node.positions tag.name.text).length) := by
  obtain ⟨node, hnode, index, hindex, hsome, hfew⟩ := h
  obtain ⟨first, hfirst, fault, hfault, hmap⟩ := exists_mapM_eq_error hnode
    (selectBelow_of_exceeds path walked hindex hsome hfew)
  -- the node that failed is one that is asked too much of
  have hexceeds : tag.Exceeds first := by
    by_contra hnot
    rw [selectBelow_of_not_exceeds hnot] at hfault
    cases hfault
  obtain ⟨index, hindex, hsome, hfew⟩ := hexceeds
  rw [selectBelow_of_exceeds path walked hindex hsome hfew] at hfault
  refine ⟨first, hfirst, index, hindex, hsome, hfew, ?_⟩
  rw [selectAll_tag hfits, hmap, Except.error.inj hfault]
  rfl

end Path

end Steps

/-! ### Walks -/

section Walks

variable {document : Node} {route : Route} {tag : Tag} {tags before after todo : List Tag}
  {path last text : String} {texts : List String} {v : Json.Value} {fault : Fault}

theorem runsOver_concat : RunsOver document (tags ++ [tag]) ↔
    RunsOver document tags ∨ ∃ node ∈ selected document tags, tag.Exceeds node := by
  constructor
  · rintro ⟨before, next, hnext, hover⟩
    obtain heq | hnext := List.prefix_concat_iff.mp hnext
    · obtain ⟨rfl, rfl⟩ := List.append_singleton_inj.mp heq
      exact .inr hover
    · exact .inl ⟨before, next, hnext, hover⟩
  · rintro (⟨before, next, hnext, hover⟩ | hover)
    · exact ⟨before, next, hnext.trans (List.prefix_append _ _), hover⟩
    · exact ⟨tags, tag, List.prefix_rfl, hover⟩

/-- Where nothing is left, further tags find nothing. -/
theorem selected_append (h : selected document before = []) :
    selected document (before ++ after) = [] := by
  induction after using List.reverseRecOn with
  | nil => rwa [List.append_nil]
  | append_singleton after tag ih =>
    rw [← List.append_assoc, selected_concat, ih]
    rfl

theorem runsDry_iff : RunsDry document tags ↔ selected document tags = [] := by
  constructor
  · rintro ⟨before, ⟨after, rfl⟩, hdry⟩
    exact selected_append hdry
  · exact fun hdry => ⟨tags, List.prefix_rfl, hdry⟩

/-- Where nothing is left, no further tag asks too much. -/
theorem not_runsOver_append (hover : ¬ RunsOver document before)
    (hdry : selected document before = []) : ¬ RunsOver document (before ++ after) := by
  induction after using List.reverseRecOn with
  | nil => rwa [List.append_nil]
  | append_singleton after tag ih =>
    rw [← List.append_assoc, runsOver_concat, selected_append hdry]
    rintro (hbefore | ⟨node, hnode, -⟩)
    · exact ih hbefore
    · cases hnode

namespace Path

theorem collapse_eq_ok_iff {walked segment : String} :
    collapse walked segment texts = .ok v ↔ Yields texts v := by
  rw [Yields]
  match texts with
  | [] => simp [collapse]
  | [s] => simp [collapse, eq_comm]
  | s :: t :: rest => simp [collapse, eq_comm]

theorem collapse_eq_error_iff {walked segment : String} :
    collapse walked segment texts = .error fault ↔
      texts = [] ∧ fault = .pathNotFound walked segment [] := by
  match texts with
  | [] => simp [collapse, eq_comm]
  | [s] => simp [collapse]
  | s :: t :: rest => simp [collapse]

/-- Where something is left, only an attribute may be missing. -/
theorem values_eq_nil_iff (hdry : selected document route.tags ≠ []) :
    (selected document route.tags).filterMap route.ending.reading = [] ↔
      ¬ Carries document route := by
  obtain ⟨first, hfirst⟩ := List.exists_mem_of_ne_nil _ hdry
  rw [List.filterMap_eq_nil_iff]
  constructor
  · intro hnone hcarries
    -- every node has a text, so it is an attribute that is missing
    cases hending : route.ending with
    | attributes name =>
      obtain ⟨node, hnode, hattribute⟩ := hcarries name hending
      have hreading := hnone node hnode
      rw [hending] at hreading
      rw [Ending.reading.eq_1] at hreading
      simp [hreading] at hattribute
    | _ =>
      have hreading := hnone first hfirst
      rw [hending] at hreading
      cases hreading
  · intro hbare node hnode
    by_contra hsome
    refine hbare fun name hending => ⟨node, hnode, ?_⟩
    rw [hending] at hsome
    exact Option.isSome_iff_ne_none.mpr hsome

/-- What is known of a walk from how it ends. -/
def Sound (document : Node) (route : Route) : Except Fault Json.Value → Prop
  | .ok v => ¬ RunsOver document route.tags ∧ ¬ RunsDry document route.tags ∧
      Carries document route ∧
      Yields ((selected document route.tags).filterMap route.ending.reading) v
  | .error fault => Stops document route fault

/-- The end of a walk that came to some nodes. -/
theorem follow_ending_sound (hover : ¬ RunsOver document route.tags)
    (hdry : selected document route.tags ≠ []) :
    Sound document route (follow path (shown (route.tags.map Tag.text)) last route.ending.segments
      (selected document route.tags)) := by
  have hwet := mt runsDry_iff.mp hdry
  rw [follow_ending, ← shown_append]
  cases hresult : collapse _ _ ((selected document route.tags).filterMap route.ending.reading) with
  | ok v =>
    have hyields := collapse_eq_ok_iff.mp hresult
    refine ⟨hover, hwet, ?_, hyields⟩
    by_contra hbare
    rw [(values_eq_nil_iff hdry).mpr hbare] at hresult
    cases hresult
  | error fault =>
    obtain ⟨hnone, rfl⟩ := collapse_eq_error_iff.mp hresult
    have hbare := (values_eq_nil_iff hdry).mp hnone
    obtain ⟨name, hname⟩ := not_forall.mp hbare
    obtain ⟨hending, -⟩ := Classical.not_imp.mp hname
    have hsegment : route.ending.segmentAfter last = name.text := by rw [hending]; rfl
    rw [hsegment]
    exact .bare hover hwet hending hbare

/-- **The walk:** from where it stands, it does what the route says. -/
theorem follow_sound (hfits : ∀ tag ∈ route.tags, ∀ index ∈ tag.index, index.number < 2 ^ 64)
    (htags : before ++ todo = route.tags) (hover : ¬ RunsOver document before)
    (hdry : selected document before ≠ []) :
    Sound document route (follow path (shown (before.map Tag.text)) last
      (todo.map Tag.text ++ route.ending.segments) (selected document before)) := by
  -- the nodes at hand are always those that the tags so far select
  induction todo generalizing before last with
  | nil =>
    rw [List.append_nil] at htags
    subst htags
    exact follow_ending_sound hover hdry
  | cons tag todo ih =>
    have hnext : before ++ [tag] <+: route.tags := ⟨todo, by rw [← htags]; simp⟩
    have hmem : tag ∈ route.tags := hnext.subset (by simp)
    have hwalked : shown (before.map Tag.text) ++ "/" ++ tag.text =
        shown ((before ++ [tag]).map Tag.text) := by
      rw [List.map_append, shown_append, List.map_singleton, append_shown_singleton]
    rw [List.map_cons, List.cons_append, follow_of_not_looksFinal tag.not_looksFinal, hwalked]
    by_cases hexceeds : ∃ node ∈ selected document before, tag.Exceeds node
    · obtain ⟨node, hnode, index, hindex, hsome, hfew, hstep⟩ :=
        selectAll_of_exceeds (hfits tag hmem) path (shown ((before ++ [tag]).map Tag.text)) hexceeds
      rw [hstep]
      exact .short hnext hover hnode hindex hsome hfew
    · have hstep := selectAll_of_not_exceeds (hfits tag hmem) path
        (shown ((before ++ [tag]).map Tag.text)) fun node hnode hnot => hexceeds ⟨node, hnode, hnot⟩
      have hover' : ¬ RunsOver document (before ++ [tag]) :=
        fun h => (runsOver_concat.mp h).elim hover hexceeds
      rw [← selected_concat] at hstep
      rw [hstep]
      split
      · next hnone =>
        refine .dry hnext ?_ hdry hnone
        obtain ⟨more, hmore⟩ := hnext
        exact hmore ▸ not_runsOver_append hover' hnone
      · next hsome =>
        -- something is left: the walk goes on from there
        refine ih ?_ hover' hsome
        rw [← htags, List.append_assoc]
        rfl

end Path

/-- The kind of a fault tells whether some tag asks too much. -/
theorem Path.Stops.kind (h : Stops document route fault) :
    (RunsOver document route.tags ∧
      ∃ context index length, fault = .indexOutOfRange context index length) ∨
    (¬ RunsOver document route.tags ∧ ¬ (¬ RunsDry document route.tags ∧ Carries document route) ∧
      ∃ walked segment keys, fault = .pathNotFound walked segment keys) := by
  cases h with
  | short hnext _ hnode hindex hsome hfew =>
    exact .inl ⟨⟨_, _, hnext, _, hnode, _, hindex, hsome, hfew⟩, _, _, _, rfl⟩
  | dry hnext hover _ hnone =>
    exact .inr ⟨hover, fun h => h.1 ⟨_, hnext, hnone⟩, _, _, _, rfl⟩
  | bare hover _ _ hbare => exact .inr ⟨hover, fun h => hbare h.2, _, _, _, rfl⟩

/-- A path is followed from the node that holds the root element. -/
theorem Path.find_of_read {document : Node} (hread : read text = .ok document)
    (hsteps : segments path ≠ []) :
    find text path = follow path "" "" (segments path) [document] := by
  simp only [find, hread]

/-- **A written route** is walked as it says. -/
theorem Path.find_sound {document : Node} (hread : read text = .ok document)
    (hspelled : route.SpelledBy path)
    (hfits : ∀ tag ∈ route.tags, ∀ index ∈ tag.index, index.number < 2 ^ 64) :
    Sound document route (find text path) := by
  have hstart : ¬ RunsOver document [] := fun ⟨before, tag, hnext, _⟩ => by simp at hnext
  have hwalk : Sound document route (follow path "" "" route.segments [document]) :=
    follow_sound hfits rfl hstart (List.cons_ne_nil document [])
  have hsegments := route.segments_of_spelledBy hspelled
  rw [find_of_read hread (hsegments ▸ route.segments_ne_nil), hsegments]
  exact hwalk

/-- **A path selects what it means.** The places that the tags lead to are in document order,
without repetition. There is a value if and only if no tag asks too much of a node or leaves
nothing, and an attribute that is asked for is there. The value is then made of the trimmed texts of
the nodes at these places, or of their attributes. Otherwise, an index is out of range if some tag
asks too much; if none does, nothing is found. The fault shows the path up to where it stopped. -/
theorem Path.find_selects {document : Node} (hread : read text = .ok document)
    (hspelled : route.SpelledBy path)
    (hfits : ∀ tag ∈ route.tags, ∀ index ∈ tag.index, index.number < 2 ^ 64) :
    (selection document route.tags).Pairwise (· < ·) ∧
    (selection document route.tags).map document.part? =
      (selected document route.tags).map some ∧
    ((∃ v, find text path = .ok v) ↔ ¬ RunsOver document route.tags ∧
      ¬ RunsDry document route.tags ∧ Carries document route) ∧
    (∀ v, find text path = .ok v →
      Yields ((selected document route.tags).filterMap route.ending.reading) v) ∧
    (RunsOver document route.tags → ∃ context index length,
      find text path = .error (.indexOutOfRange context index length)) ∧
    (¬ RunsOver document route.tags → RunsDry document route.tags ∨ ¬ Carries document route →
      ∃ shown segment keys, find text path = .error (.pathNotFound shown segment keys)) ∧
    ∀ fault, find text path = .error fault → Stops document route fault := by
  refine ⟨pairwise_selection _ _, selection_map _ _, ?_⟩
  have hsound := find_sound hread hspelled hfits
  cases hfind : find text path with
  | ok v =>
    rw [hfind] at hsound
    obtain ⟨hover, hdry, hcarries, hyields⟩ := hsound
    have hfound : (∃ w, (.ok v : Except Fault Json.Value) = .ok w) := ⟨v, rfl⟩
    refine ⟨⟨fun _ => ⟨hover, hdry, hcarries⟩, fun _ => hfound⟩, ?_, ?_, ?_, fun _ h => by cases h⟩
    · rintro w ⟨⟩
      exact hyields
    · exact fun h => absurd h hover
    · exact fun _ h => (h.elim hdry (· hcarries)).elim
  | error fault =>
    rw [hfind] at hsound
    have hstops : Stops document route fault := hsound
    have hlast : ∀ other, (.error fault : Except Fault Json.Value) = .error other →
        Stops document route other := by
      rintro other ⟨⟩
      exact hstops
    obtain ⟨hover, context, index, length, rfl⟩ | ⟨hover, hfails, walked, segment, keys, rfl⟩ :=
      hstops.kind
    -- a fault is that of an index, or there is nothing to be found
    · refine ⟨⟨nofun, fun h => absurd hover h.1⟩, nofun, ?_, fun h => absurd hover h, hlast⟩
      exact fun _ => ⟨context, index, length, rfl⟩
    · refine ⟨⟨nofun, fun h => absurd h.2 hfails⟩, nofun, fun h => absurd h hover, ?_, hlast⟩
      exact fun _ _ => ⟨walked, segment, keys, rfl⟩

end Walks

/-- Elements below different parents, of which one has two and is asked for the first: their
attributes. -/
theorem Path.find_selects_shelves :
    let text := "<a><b><c id='1'/><c/></b><b><c id='2'/></b></a>"
    let path := " a/b/c[1]/@id"
    let document : Node := .element "" [] [.element "a" [] [
      .element "b" [] [.element "c" [⟨false, "id", "1"⟩] [], .element "c" [] []],
      .element "b" [] [.element "c" [⟨false, "id", "2"⟩] []]]]
    let route : Route := {
      tags := [⟨⟨"a", by decide⟩, none⟩, ⟨⟨"b", by decide⟩, none⟩,
        ⟨⟨"c", by decide⟩, some ⟨"1", 1, by decide, by decide⟩⟩]
      ending := .attributes ⟨"id", by decide⟩
      nonempty := .inl (List.cons_ne_nil _ _) }
    read text = .ok document ∧ route.SpelledBy path ∧
      (∀ tag ∈ route.tags, ∀ index ∈ tag.index, index.number < 2 ^ 64) ∧
      selection document route.tags = [[0, 0, 0], [0, 1, 0]] ∧
      find text path = .ok (.array [.string "1", .string "2"]) ∧
      ¬ RunsOver document route.tags ∧
      Yields ["1", "2"] (.array [.string "1", .string "2"]) := by
  intro text path document route
  have hread : read text = .ok document := by cbv
  have hspelled : route.SpelledBy path := .inl (by decide)
  have hfits : ∀ tag ∈ route.tags, ∀ index ∈ tag.index, index.number < 2 ^ 64 := by
    simp [route]
  have hfind : find text path = .ok (.array [.string "1", .string "2"]) := by
    rw [find_of_read hread (by decide)]
    cbv
  have hplaces : selection document route.tags = [[0, 0, 0], [0, 1, 0]] := by decide +kernel
  have hvalues : (selected document route.tags).filterMap route.ending.reading = ["1", "2"] := by
    decide +kernel
  obtain ⟨-, -, hfound, hvalue, -⟩ := find_selects hread hspelled hfits
  refine ⟨hread, hspelled, hfits, hplaces, hfind, (hfound.mp ⟨_, hfind⟩).1, ?_⟩
  exact hvalues ▸ hvalue _ hfind

/-- Two routes that no path asks for: an index that does not fit is no index, and a name that ends
with a character that is a blank as well is cut. -/
theorem Path.find_unfit :
    let tall : Route := {
      tags := [⟨⟨"a", by decide⟩, some ⟨"18446744073709551616", 2 ^ 64, by decide, by decide⟩⟩]
      ending := .elements
      nonempty := .inl (List.cons_ne_nil _ _) }
    let hollow : Node := .element "" [] [.element "a" [] []]
    let blank : Route := {
      tags := [⟨⟨"a\u1680", by decide⟩, none⟩]
      ending := .elements
      nonempty := .inl (List.cons_ne_nil _ _) }
    let odd : Node := .element "" [] [.element "a\u1680" [] [.text "x"]]
    ("/" ++ "/".intercalate tall.segments = "/a[18446744073709551616]" ∧
      read "<a/>" = .ok hollow ∧ RunsOver hollow tall.tags ∧
      find "<a/>" "/a[18446744073709551616]" =
        misconfigured (.invalidXmlIndex "18446744073709551616" "/a[18446744073709551616]")) ∧
    ("/" ++ "/".intercalate blank.segments = "/a\u1680" ∧
      read "<a\u1680>x</a\u1680>" = .ok odd ∧ ¬ RunsOver odd blank.tags ∧
      ¬ RunsDry odd blank.tags ∧ Carries odd blank ∧
      find "<a\u1680>x</a\u1680>" "/a\u1680" = .error (.pathNotFound "/a" "a" ["a\u1680"])) := by
  intro tall hollow blank odd
  have hollowRead : read "<a/>" = .ok hollow := by cbv
  have hoddRead : read "<a\u1680>x</a\u1680>" = .ok odd := by cbv
  refine ⟨⟨by decide, hollowRead, ?_, ?_⟩, by decide, hoddRead, ?_, ?_,
    fun _ hending => (by cases hending), ?_⟩
  · refine ⟨[], _, List.prefix_rfl, hollow, List.mem_singleton_self _, _, rfl, ?_, ?_⟩ <;> decide
  · rw [find_of_read hollowRead (by decide)]
    cbv
  · rintro ⟨before, tag, hnext, node, -, index, hindex, -⟩
    have htag : tag ∈ blank.tags := hnext.subset (by simp)
    rw [List.mem_singleton.mp htag] at hindex
    cases hindex
  · rw [runsDry_iff]
    have hselected : selected odd blank.tags = [.element "a\u1680" [] [.text "x"]] := by cbv
    rw [hselected]
    exact List.cons_ne_nil _ _
  · rw [find_of_read hoddRead (by decide)]
    cbv

end Xml

end Scenario
