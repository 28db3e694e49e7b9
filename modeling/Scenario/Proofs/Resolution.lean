import Scenario.Proofs.Pieces

/-!
# Resolution is one pass

Resolution of a text writes the values of its tokens into it and never looks at what it has written.
Resolution of a value has a path of its own for a string that is one token, and one for texts in
which no token can begin. All of them see the same tokens.

* `resolveText_eq`: a text is resolved piece by piece, whether or not it is taken apart.
* `resolveString_agrees`: a string that is one token has the text form of its resolved text.
* `NodeByNode`: what resolution makes of a value, for each kind of value.
* `resolution_single_pass`: **texts are resolved along their one split, and values node by node,**
  the names that are not known in the order in which they are met.
-/

namespace Scenario

namespace Placeholder

variable {lookup : Lookup}

/-- What is written for a piece of a text. -/
abbrev shown (lookup : Lookup) : Piece → List Char :=
  written lookup fun value => (display value).toList

/-! ### Texts -/

/-- **A text is resolved piece by piece,** also where it is not taken apart. -/
theorem resolveText_eq (text : String) : resolveText lookup text =
    ⟨String.ofList ((pieces text.toList).flatMap (shown lookup)),
      (pieces text.toList).filterMap (unknown? lookup)⟩ := by
  have heq := resolvePieces_eq lookup (fun value => (display value).toList) (pieces text.toList)
  rw [resolveText]
  split
  next => rw [heq]
  next hclosed =>
    have hplain := resolvePieces_of_not_hasOpening lookup (fun value => (display value).toList)
      (Bool.eq_false_iff.mpr hclosed)
    obtain ⟨hout, hmissing⟩ := Resolved.mk.inj (heq.symm.trans hplain)
    rw [hout, hmissing, String.ofList_toList]

/-! ### Strings -/

/-- A string that is one token of a known name. -/
theorem resolveString_known {body : List Char} {value : Json.Value} (hbody : IsBody body)
    (hvalue : lookup (nameOf body) = some value) :
    resolveString lookup (String.ofList (Piece.token body).spell) = ⟨value, []⟩ := by
  have hbare := bareReference?_eq_some_iff.mpr ⟨hbody, rfl⟩
  rw [resolveString, String.toList_ofList, hbare, Option.bind_some, hvalue]

/-- Any other string. -/
theorem resolveString_text {text : String} (h : ∀ body, IsBody body →
      text.toList = (Piece.token body).spell → lookup (nameOf body) = none) :
    resolveString lookup text =
      ⟨.string (resolveText lookup text).out, (resolveText lookup text).missing⟩ := by
  have hnone : ((bareReference? text.toList).bind fun body => lookup (nameOf body)) = none := by
    rw [Option.bind_eq_none_iff]
    intro body hbare
    obtain ⟨hbody, hspell⟩ := bareReference?_eq_some_iff.mp hbare
    exact h body hbody hspell
  rw [resolveString, hnone]

/-- A string is one token of a known name, or it is not. -/
theorem known_or_not (lookup : Lookup) (text : String) :
    (∃ body value, IsBody body ∧ text = String.ofList (Piece.token body).spell ∧
        lookup (nameOf body) = some value) ∨
      ∀ body, IsBody body → text.toList = (Piece.token body).spell →
        lookup (nameOf body) = none := by
  by_cases h : ∃ body, IsBody body ∧ text.toList = (Piece.token body).spell ∧
      lookup (nameOf body) ≠ none
  · obtain ⟨body, hbody, hspell, hknown⟩ := h
    obtain ⟨value, hvalue⟩ := Option.ne_none_iff_exists'.mp hknown
    exact .inl ⟨body, value, hbody, by rw [← hspell, String.ofList_toList], hvalue⟩
  · refine .inr fun body hbody hspell => ?_
    cases hvalue : lookup (nameOf body) with
    | none => rfl
    | some value =>
      have hknown : lookup (nameOf body) ≠ none := by
        rw [hvalue]
        exact Option.some_ne_none value
      exact absurd ⟨body, hbody, hspell, hknown⟩ h

/-- **The typed path agrees with the path of texts.** -/
theorem resolveString_agrees (lookup : Lookup) (text : String) :
    display (resolveString lookup text).out = (resolveText lookup text).out ∧
      (resolveString lookup text).missing = (resolveText lookup text).missing := by
  obtain ⟨body, value, hbody, rfl, hvalue⟩ | hunknown := known_or_not lookup text
  · have hshown : shown lookup (.token body) = (display value).toList := by
      rw [shown, written, hvalue]
    have hknown : unknown? lookup (.token body) = none := by
      rw [unknown?, hvalue]
      rfl
    rw [resolveString_known hbody hvalue, resolveText_eq, String.toList_ofList,
      pieces_spell_token hbody, List.flatMap_singleton, hshown, String.ofList_toList]
    exact ⟨rfl, by rw [List.filterMap_cons_none hknown, List.filterMap_nil]⟩
  · rw [resolveString_text hunknown]
    exact ⟨rfl, rfl⟩

/-! ### Values -/

theorem resolveItems_eq (lookup : Lookup) (items : List Json.Value) :
    resolveItems lookup items = ⟨items.map fun v => (resolveValue lookup v).out,
      items.flatMap fun v => (resolveValue lookup v).missing⟩ := by
  induction items with
  | nil => rw [resolveItems, List.map_nil, List.flatMap_nil]
  | cons v rest ih => rw [resolveItems, ih, List.map_cons, List.flatMap_cons]

theorem resolveMembers_eq (lookup : Lookup) (members : List (String × Json.Value)) :
    resolveMembers lookup members = ⟨members.map fun (k, v) => (k, (resolveValue lookup v).out),
      members.flatMap fun (_, v) => (resolveValue lookup v).missing⟩ := by
  induction members with
  | nil => rw [resolveMembers, List.map_nil, List.flatMap_nil]
  | cons member rest ih => rw [resolveMembers, ih, List.map_cons, List.flatMap_cons]

/-- **Resolution of a value, node by node.** A string that is one token of a known name becomes the
value itself, any other string its resolved text; lists keep their length and order, objects their
keys, and all other values are unchanged. -/
structure NodeByNode (lookup : Lookup) (resolve : Json.Value → Resolved Json.Value) : Prop where
  known : ∀ body value, IsBody body → lookup (nameOf body) = some value →
    resolve (.string (String.ofList (Piece.token body).spell)) = ⟨value, []⟩
  text : ∀ text : String, (∀ body, IsBody body → text.toList = (Piece.token body).spell →
      lookup (nameOf body) = none) →
    resolve (.string text) =
      ⟨.string (resolveText lookup text).out, (resolveText lookup text).missing⟩
  array : ∀ items, resolve (.array items) =
    ⟨.array (items.map fun v => (resolve v).out), items.flatMap fun v => (resolve v).missing⟩
  object : ∀ members, resolve (.object members) =
    ⟨.object (members.map fun (k, v) => (k, (resolve v).out)),
      members.flatMap fun (_, v) => (resolve v).missing⟩
  null : resolve .null = ⟨.null, []⟩
  bool : ∀ b, resolve (.bool b) = ⟨.bool b, []⟩
  number : ∀ n, resolve (.number n) = ⟨.number n, []⟩

theorem nodeByNode_resolveValue (lookup : Lookup) : NodeByNode lookup (resolveValue lookup) where
  known body value hbody hvalue := by
    rw [resolveValue]
    exact resolveString_known hbody hvalue
  text text hunknown := by
    rw [resolveValue]
    exact resolveString_text hunknown
  array items := by rw [resolveValue, resolveItems_eq]
  object members := by rw [resolveValue, resolveMembers_eq]
  null := rfl
  bool _ := rfl
  number _ := rfl

mutual

/-- The strings in a value in the order of traversal; the keys of objects are not among them. -/
def textsIn : Json.Value → List String
  | .string s => [s]
  | .array items => textsInItems items
  | .object members => textsInMembers members
  | _ => []

def textsInItems : List Json.Value → List String
  | [] => []
  | v :: rest => textsIn v ++ textsInItems rest

def textsInMembers : List (String × Json.Value) → List String
  | [] => []
  | (_, v) :: rest => textsIn v ++ textsInMembers rest

end

section Missing

variable (lookup : Lookup)

/-- The unknown names of a text, one for each occurrence. -/
def unknownNames (text : String) : List String :=
  (pieces text.toList).filterMap (unknown? lookup)

theorem missing_resolveText (text : String) :
    (resolveText lookup text).missing = unknownNames lookup text := by
  rw [resolveText_eq, unknownNames]

mutual

theorem missing_resolveValue :
    ∀ v, (resolveValue lookup v).missing = (textsIn v).flatMap (unknownNames lookup)
  | .string s => by
    rw [resolveValue, (resolveString_agrees lookup s).2, missing_resolveText, textsIn,
      List.flatMap_singleton]
  | .array items => by
    rw [resolveValue, textsIn]
    exact missing_resolveItems items
  | .object members => by
    rw [resolveValue, textsIn]
    exact missing_resolveMembers members
  | .null => rfl
  | .bool _ => rfl
  | .number _ => rfl

theorem missing_resolveItems :
    ∀ items, (resolveItems lookup items).missing =
      (textsInItems items).flatMap (unknownNames lookup)
  | [] => by rw [resolveItems, textsInItems, List.flatMap_nil]
  | v :: rest => by
    rw [resolveItems, textsInItems, List.flatMap_append, missing_resolveValue v,
      missing_resolveItems rest]

theorem missing_resolveMembers :
    ∀ members, (resolveMembers lookup members).missing =
      (textsInMembers members).flatMap (unknownNames lookup)
  | [] => by rw [resolveMembers, textsInMembers, List.flatMap_nil]
  | (k, v) :: rest => by
    rw [resolveMembers, textsInMembers, List.flatMap_append, missing_resolveValue v,
      missing_resolveMembers rest]

end

end Missing

/-! ### Single-pass resolution -/

/-- **Resolution is one pass over the tokens.** Every text has exactly one split into characters and
tokens, leftmost token first; its resolution is the pieces of that split in order, each token of a
known name replaced by the text form of its value and every other piece kept, and the unknown names
are those of the tokens in order. Values are resolved node by node. For a string, the value has the
text form and the unknown names that its text has, and the unknown names of a value are those of its
strings in the order of traversal. -/
theorem resolution_single_pass (lookup : Lookup) :
    (∀ text : String, ∃ ps, Splits text.toList ps ∧ (∀ qs, Splits text.toList qs → qs = ps) ∧
      resolveText lookup text =
        ⟨String.ofList (ps.flatMap (shown lookup)), ps.filterMap (unknown? lookup)⟩) ∧
    NodeByNode lookup (resolveValue lookup) ∧
    (∀ text : String,
      display (resolveValue lookup (.string text)).out = (resolveText lookup text).out ∧
        (resolveValue lookup (.string text)).missing = (resolveText lookup text).missing) ∧
    ∀ v, (resolveValue lookup v).missing = (textsIn v).flatMap (unknownNames lookup) := by
  refine ⟨fun text => ?_, nodeByNode_resolveValue lookup, fun text => ?_, ?_⟩
  · refine ⟨pieces text.toList, splits_pieces _, ?_, resolveText_eq text⟩
    intro qs hqs
    exact splits_iff.mp hqs
  · rw [resolveValue]
    exact resolveString_agrees lookup text
  · exact missing_resolveValue lookup

/-- Tokens that touch, hold an opening, are empty or stay open; a value that looks like a token. -/
example :
    let lookup : Lookup := fun name => if name = "a" then some (.string "$\x7bb\x7d") else none
    let r := resolveText lookup "$\x7b a \x7d$\x7b$\x7ba\x7d$\x7b\x7d$\x7ba"
    r.out = "$\x7bb\x7d$\x7b$\x7ba\x7d$\x7b\x7d$\x7ba" ∧ r.missing = ["$\x7ba"] := by
  decide +kernel

end Placeholder

end Scenario
