import Scenario.Proofs.Traversal
import Scenario.Proofs.Xml.Route

/-!
# The names of a document

The reader takes names apart at their colon and checks how each part begins. So the elements and
attributes of a document that was read have valid names, and a path that finds one has named it
properly.

* `Read.Gives` — what every result of a part of the reader satisfies; closed under `bind`.
* `Node.Named` — a node with valid names in all of it.
* `Read.element_content_gives` — elements and their contents, by one induction on the fuel.
* `proper_of_read` — **a document that was read is named well.**
-/

namespace Scenario

namespace Xml

/-- **A node is named well:** it and all that is below it, with their attributes. -/
inductive Node.Named : Node → Prop
  | element {name : String} {attributes : List Attribute} {children : List Node} :
      IsName name.toList → (∀ a ∈ attributes, IsName a.name.toList) →
      (∀ child ∈ children, Named child) → Named (.element name attributes children)
  | text {content : String} : Named (.text content)

/-- **A node in a document:** it has attributes with names only, and is named well below itself. -/
structure Node.Proper (node : Node) : Prop where
  attributes : ∀ name, (node.attribute? name).isSome → IsName name.toList
  children : ∀ child ∈ node.children, child.Named

theorem Node.Named.proper {node : Node} (h : node.Named) : node.Proper := by
  cases h with
  | text => exact ⟨fun _ hsome => absurd hsome Bool.false_ne_true, nofun⟩
  | element _ hattributes hchildren =>
    refine ⟨fun name hsome => ?_, hchildren⟩
    rw [attribute?, Option.isSome_map, Option.isSome_iff_exists] at hsome
    obtain ⟨a, ha⟩ := hsome
    have hfound := List.find?_some ha
    have hname : a.name = name := of_decide_eq_true (Bool.and_eq_true_iff.mp hfound).2
    exact hname ▸ hattributes a (List.mem_of_find?_eq_some ha)

namespace Read

/-- **What a part of the reader gives:** its results satisfy a predicate. -/
def Gives {α : Type} (m : Read α) (P : α → Prop) : Prop :=
  ∀ r a r', m r = .ok (a, r') → P a

section Gives

variable {α β : Type} {m : Read α} {f : α → Read β} {P : α → Prop} {Q : β → Prop} {a : α}

theorem Gives.pure (h : P a) : Gives (pure a) P := by
  rintro r b r' ⟨⟩
  exact h

theorem Gives.fail {flaw : Flaw} : Gives (fail flaw) P := fun _ _ _ h => nomatch h

theorem Gives.ofExcept {x : Except Flaw α} : Gives (liftM x : Read α) (x = .ok ·) := by
  intro r a r' hrun
  cases x with
  | error flaw => cases hrun
  | ok b =>
    cases hrun
    rfl

theorem Gives.bindOf (hm : Gives m P) (hf : ∀ a, P a → Gives (f a) Q) : Gives (m >>= f) Q := by
  intro r b r'' hrun
  have hbind : (m >>= f) r = m r >>= fun p => f p.1 p.2 := rfl
  rw [hbind] at hrun
  obtain ⟨⟨a, r'⟩, hfirst, hnext⟩ := exists_of_bind_eq_ok hrun
  exact hf a (hm r a r' hfirst) r' b r'' hnext

/-- Where it does not matter what the first part gives. -/
theorem Gives.bind (hf : ∀ a, Gives (f a) Q) : Gives (m >>= f) Q := by
  have htrue : Gives m fun _ => True := fun _ _ _ _ => trivial
  exact htrue.bindOf fun a _ => hf a

end Gives

/-! ### Names -/

theorem isName_of_startsName {chars : List Char} (hstart : startsName chars = true)
    (hchars : ∀ c ∈ chars, isNameChar c = true) : IsName chars := by
  refine ⟨?_, List.all_eq_true.mpr hchars⟩
  cases chars with
  | nil => cases hstart
  | cons c rest => exact (Bool.and_eq_true_iff.mp hstart).1

/-- **A name** is one after its prefix. -/
theorem name_gives : Gives name fun title => IsName title.local_.toList := by
  refine .bind fun start => .bind fun text => .bind fun _ => ?_
  have hchars : ∀ c ∈ text.takeWhile isNameChar, isNameChar c = true :=
    fun _ => List.mem_takeWhile_imp
  have hparts := Text.intercalate_splitOnChar ':' (text.takeWhile isNameChar)
  -- the name has no colon, or one, or more
  split
  · next local_ hsplit =>
    split
    · next hstart =>
      rw [hsplit, List.intercalate_singleton] at hparts
      refine .pure ?_
      rw [String.toList_ofList]
      exact isName_of_startsName hstart (hparts ▸ hchars)
    · exact .fail
  · next space local_ hsplit =>
    split
    · next hstart =>
      rw [hsplit, List.intercalate_cons_cons, List.intercalate_singleton] at hparts
      refine .pure ?_
      rw [String.toList_ofList]
      refine isName_of_startsName (Bool.and_eq_true_iff.mp hstart).2 fun c hc => hchars c ?_
      rw [← hparts]
      exact List.mem_append_right _ hc
    · exact .fail
  · exact .fail

/-! ### Tags -/

/-- The attributes of a tag have names. -/
theorem tag_gives {before : List RawAttribute} (fuel : Nat)
    (hbefore : ∀ a ∈ before, IsName a.name.local_.toList) :
    Gives (tag before fuel) fun result => ∀ a ∈ result.1, IsName a.name.local_.toList := by
  have hreverse : ∀ a ∈ before.reverse, IsName a.name.local_.toList :=
    fun a ha => hbefore a (List.mem_reverse.mp ha)
  induction fuel generalizing before with
  | zero => exact .pure hreverse
  | succ fuel ih =>
    refine .bind fun chars => ?_
    split
    · exact .pure hreverse
    · refine .bind fun _ => .bind fun c => ?_
      -- a tag ends, with a slash or without one, or it goes on with an attribute behind a blank
      split
      · exact .bind fun _ => .bind fun _ => .pure hreverse
      · split
        · exact .bind fun _ => .pure hreverse
        · split
          · exact .bind fun _ => .fail
          · refine .bind fun spot => name_gives.bindOf fun title htitle => ?_
            refine .bind fun raw => .bind fun value => ?_
            have hnext : ∀ a ∈ (⟨title, String.ofList value, spot⟩ :: before : List RawAttribute),
                IsName a.name.local_.toList := by
              intro a ha
              obtain rfl | ha := List.mem_cons.mp ha
              · exact htitle
              · exact hbefore a ha
            exact ih hnext fun a ha => hnext a (List.mem_reverse.mp ha)

/-- Only attributes of the tag are left when the namespaces are declared. -/
theorem mem_of_declareSpaces {own spaces : Spaces} {raw others : List RawAttribute}
    (h : declareSpaces own raw = .ok (spaces, others)) : ∀ a ∈ others, a ∈ raw := by
  induction raw generalizing own spaces others with
  | nil =>
    cases h
    exact nofun
  | cons first rest ih =>
    have hdeclared : ∀ {more}, declareSpaces more rest = .ok (spaces, others) →
        ∀ a ∈ others, a ∈ first :: rest := fun hrest a ha => List.mem_cons_of_mem _ (ih hrest a ha)
    rw [declareSpaces] at h
    split at h
    · -- a prefix is declared
      split at h <;> try cases h
      split at h <;> try cases h
      split at h <;> try cases h
      split at h <;> try cases h
      exact hdeclared h
    · split at h
      · -- the default namespace is declared
        split at h <;> try cases h
        split at h <;> try cases h
        exact hdeclared h
      · obtain ⟨⟨spaces', others'⟩, hrest, h⟩ := exists_of_bind_eq_ok h
        cases h
        intro a ha
        obtain rfl | ha := List.mem_cons.mp ha
        · exact List.mem_cons_self
        · exact List.mem_cons_of_mem _ (ih hrest a ha)

/-- The attributes of an element are those of its tag. -/
theorem exists_of_checkAttributes {spaces : Spaces} {seen : List (Option String × String)}
    {raw : List RawAttribute} {attributes : List Attribute}
    (h : checkAttributes spaces seen raw = .ok attributes) :
    ∀ a ∈ attributes, ∃ b ∈ raw, a.name = b.name.local_ := by
  induction raw generalizing seen attributes with
  | nil =>
    cases h
    exact nofun
  | cons first rest ih =>
    rw [checkAttributes] at h
    -- with a prefix or without, the attribute keeps its local name
    split at h
    all_goals
      obtain ⟨space, -, h⟩ := exists_of_bind_eq_ok h
      beta_reduce at h
      split at h
      · cases h
      · obtain ⟨others, hothers, h⟩ := exists_of_bind_eq_ok h
        cases h
        intro a ha
        obtain rfl | ha := List.mem_cons.mp ha
        · exact ⟨first, List.mem_cons_self, rfl⟩
        · obtain ⟨b, hb, hname⟩ := ih hothers a ha
          exact ⟨b, List.mem_cons_of_mem _ hb, hname⟩

/-! ### Elements -/

/-- What is read of an element or of its content is named well. -/
def PieceNamed (piece : Piece) : Prop := ∀ node ∈ piece.nodes, node.Named

theorem pieceNamed_cons {node : Node} {nodes : List Node} {unclosed inner : Bool}
    (hnode : node.Named) (h : PieceNamed ⟨nodes, inner⟩) :
    PieceNamed ⟨node :: nodes, unclosed⟩ := by
  intro other hother
  obtain rfl | hother := List.mem_cons.mp hother
  · exact hnode
  · exact h other hother

theorem pieceNamed_nil (unclosed : Bool) : PieceNamed ⟨[], unclosed⟩ := fun _ h => nomatch h

/-- The attributes that are left of a tag have names. -/
theorem isName_of_tag {raw others : List RawAttribute} {spaces scope : Spaces}
    {attributes : List Attribute} (hraw : ∀ a ∈ raw, IsName a.name.local_.toList)
    (hdeclared : declareSpaces [] raw = .ok (spaces, others))
    (hchecked : checkAttributes scope [] others = .ok attributes) :
    ∀ a ∈ attributes, IsName a.name.toList := by
  intro a ha
  obtain ⟨b, hb, hname⟩ := exists_of_checkAttributes hchecked a ha
  rw [hname]
  exact hraw b (mem_of_declareSpaces hdeclared b hb)

/-- **An element** gives what is named well, if its content does. -/
theorem element_step {fuel : Nat} (hcontent : ∀ spaces title,
    Gives (content spaces title fuel) PieceNamed) (spaces : Spaces) :
    Gives (element spaces (fuel + 1)) PieceNamed := by
  have hnew : ∀ a ∈ ([] : List RawAttribute), IsName a.name.local_.toList :=
    fun _ h => absurd h List.not_mem_nil
  rw [element]
  refine .bind fun _ => .bind fun at_ => name_gives.bindOf fun title htitle => ?_
  split
  · exact .fail
  · refine .bind fun chars => (tag_gives _ hnew).bindOf fun ⟨raw, ending⟩ hraw => ?_
    dsimp only
    split
    · exact .pure (pieceNamed_nil _)
    · -- the name is that of the tag, and so are the attributes that are no declarations
      refine Gives.ofExcept.bindOf fun declared hdeclared => ?_
      refine Gives.ofExcept.bindOf fun attributes hchecked => .bind fun _ => ?_
      have hnames := isName_of_tag hraw hdeclared hchecked
      split
      · refine (hcontent _ title).bindOf fun inner hinner => .pure ?_
        exact pieceNamed_cons (.element htitle hnames hinner) (pieceNamed_nil false)
      · exact .pure (pieceNamed_cons (.element htitle hnames nofun) (pieceNamed_nil false))

/-- **What stands in an element** is named well, if the elements in it are and the rest is. -/
theorem content_step {fuel : Nat} (helement : ∀ spaces, Gives (element spaces fuel) PieceNamed)
    (hcontent : ∀ spaces title, Gives (content spaces title fuel) PieceNamed) (spaces : Spaces)
    (title : QualifiedName) : Gives (content spaces title (fuel + 1)) PieceNamed := by
  have hrest := hcontent spaces title
  rw [content]
  refine .bind fun chars => ?_
  split
  · exact .pure (pieceNamed_nil _)
  · -- a closing tag leaves nothing
    refine .bind fun at_ => .bind fun _ => .bind fun closing => .bind fun _ => .bind fun _ => ?_
    split
    · exact .pure (pieceNamed_nil _)
    · exact .fail
  · -- instructions and comments are passed over
    exact .bind fun _ => hrest
  · split
    · exact .bind fun _ => hrest
    · split
      · refine .bind fun _ => .bind fun data => hrest.bindOf fun after hafter => .pure ?_
        exact pieceNamed_cons .text hafter
      · exact .bind fun _ => .fail
  · exact .bind fun _ => .fail
  · -- an element comes before what follows it
    refine (helement spaces).bindOf fun first hfirst => ?_
    split
    · exact .pure hfirst
    · refine hrest.bindOf fun after hafter => .pure ?_
      exact List.forall_mem_append.mpr ⟨hfirst, hafter⟩
  · refine .bind fun start => .bind fun raw => ?_
    split
    · exact .bind fun _ => .fail
    · refine .bind fun plain => hrest.bindOf fun after hafter => .pure ?_
      exact pieceNamed_cons .text hafter

/-- **An element and its content** give what is named well. -/
theorem element_content_gives (fuel : Nat) :
    (∀ spaces, Gives (element spaces fuel) PieceNamed) ∧
      ∀ spaces title, Gives (content spaces title fuel) PieceNamed := by
  -- elements and contents call each other with less fuel, so both are proved at once
  induction fuel with
  | zero =>
    constructor
    · intro spaces
      rw [element]
      exact .pure (pieceNamed_nil _)
    · intro spaces title
      rw [content]
      exact .pure (pieceNamed_nil _)
  | succ fuel ih =>
    obtain ⟨helement, hcontent⟩ := ih
    exact ⟨element_step hcontent, content_step helement hcontent⟩

/-- **A document** gives nodes that are named well. -/
theorem document_gives : Gives document PieceNamed := by
  have hroot : ∀ (fuel : Nat) (begins : Bool),
      Gives (if begins then element [] fuel else pure ⟨[], false⟩) PieceNamed := by
    intro fuel begins
    split
    · exact (element_content_gives fuel).1 []
    · exact .pure fun _ h => nomatch h
  rw [document]
  refine .bind fun chars => .bind fun prolog => ?_
  split
  -- with a declaration, there is one part more
  on_goal 1 => refine .bind fun _ => ?_
  all_goals
    refine .bind fun _ => .bind fun _ => .bind fun typed => ?_
    split
    · exact .fail
    · refine (Gives.bind fun begins => hroot _ begins).bindOf fun root hnamed => ?_
      refine .bind fun _ => .bind fun rest => ?_
      split
      · exact .pure hnamed
      · exact .bind fun _ => .fail

end Read

/-- **A document that was read is named well.** -/
theorem proper_of_read {text : String} {document : Node} (h : read text = .ok document) :
    document.Proper := by
  obtain ⟨⟨root, reader⟩, hroot, h⟩ := exists_of_bind_eq_ok h
  dsimp only at h
  split at h
  · cases h
  · split at h
    · cases h
    · cases h
      have hnamed := Read.document_gives _ root reader hroot
      exact ⟨fun _ hsome => absurd hsome Bool.false_ne_true, hnamed⟩

end Xml

end Scenario
