import Mathlib.Data.List.Basic
import Scenario.Proofs.Resolution

/-!
# Resolving twice

What a first resolution leaves is split as the text was: the unknown tokens are still tokens, and no
new one has come up, neither in a value nor across one of its ends. So a second resolution has
nothing to replace.

* `Inert`: the values of which this holds.
* `splits_shown`: the split of a resolved text, by induction on the split of the text. A character
  is the hard case: it must not begin a token with what the pieces after it have become.
* `resolveText_idempotent`: **a second resolution changes nothing** and meets the same unknown
  names.
-/

namespace Scenario

namespace Placeholder

/-- **A text that forms no token with what stands around it:** it is not empty, it does not hold the
two characters that a token begins with, and it neither begins with the second of them nor ends in
the first. -/
structure Inert (text : List Char) : Prop where
  ne_nil : text ≠ []
  opening : hasOpening text = false
  head : text.head? ≠ some '\x7b'
  last : text.getLast? ≠ some '$'

/-- The pieces that a piece becomes: the characters of the value for a token of a known name. -/
def resplit (lookup : Lookup) : Piece → List Piece
  | .char c => [.char c]
  | .token body =>
    match lookup (nameOf body) with
    | some value => (display value).toList.map .char
    | none => [.token body]

variable {lookup : Lookup}

theorem shown_known {body : List Char} {value : Json.Value}
    (hvalue : lookup (nameOf body) = some value) :
    shown lookup (.token body) = (display value).toList := by
  rw [shown, written, hvalue]

theorem shown_unknown {body : List Char} (hnone : lookup (nameOf body) = none) :
    shown lookup (.token body) = (Piece.token body).spell := by
  rw [shown, written, hnone]

theorem resplit_known {body : List Char} {value : Json.Value}
    (hvalue : lookup (nameOf body) = some value) :
    resplit lookup (.token body) = (display value).toList.map .char := by
  rw [resplit, hvalue]

theorem resplit_unknown {body : List Char} (hnone : lookup (nameOf body) = none) :
    resplit lookup (.token body) = [.token body] := by
  rw [resplit, hnone]

/-! ### The split of a resolved text -/

/-- A text in front that holds no opening, also not with the character after it, is taken character
by character. -/
theorem splits_chars {front more : List Char} {ps : List Piece}
    (hopening : ¬ ['$', '\x7b'] <:+: front) (hlast : front.getLast? ≠ some '$')
    (hmore : Splits more ps) : Splits (front ++ more) (front.map .char ++ ps) := by
  induction front with
  | nil => exact hmore
  | cons c rest ih =>
    -- an opening here would stand in the text in front, or across its end
    have hnone : ¬ Begins (c :: (rest ++ more)) := by
      intro hbegins
      obtain ⟨inner, htext, -, -⟩ := begins_iff.mp hbegins
      obtain ⟨rfl, htail⟩ := List.cons.inj htext
      cases rest with
      | nil => exact hlast rfl
      | cons d after =>
        obtain ⟨rfl, -⟩ := List.cons.inj htail
        exact hopening ⟨[], after, rfl⟩
    have hrest : ¬ ['$', '\x7b'] <:+: rest := fun h =>
      hopening (h.trans (List.suffix_cons c rest).isInfix)
    have hend : rest.getLast? ≠ some '$' := by
      intro h
      have hcons : (c :: rest).getLast? = some '$' := by
        rw [List.getLast?_cons, h, Option.getD_some]
      exact hlast hcons
    exact .char hnone (ih hrest hend)

/-- Without a closing brace there is nothing to replace. -/
theorem shown_of_notMem {text : List Char} {ps : List Piece} (h : Splits text ps)
    (hclosing : '\x7d' ∉ text) : ps.flatMap (shown lookup) = text := by
  induction h with
  | nil => rfl
  | token hbody _ ih =>
    refine absurd ?_ hclosing
    simp [Piece.spell]
  | @char c rest ps _ _ ih =>
    rw [List.flatMap_cons, ih fun hmem => hclosing (List.mem_cons_of_mem c hmem)]
    rfl

/-- A resolved text that begins with a closing brace does so if the text did. -/
theorem head_shown_closing {text : List Char} {ps : List Piece} (h : Splits text ps)
    (hhead : text.head? = some '\x7d') : (ps.flatMap (shown lookup)).head? = some '\x7d' := by
  cases h with
  | nil => cases hhead
  | token hbody hrest => exact absurd (Option.some.inj hhead) (by decide)
  | char hnone hrest => exact hhead

section Values

variable (hinert : ∀ name value, lookup name = some value → Inert (display value).toList)

include hinert

/-- A resolved text that begins with an opening brace has it from the text. -/
theorem head_shown {text : List Char} {ps : List Piece} (h : Splits text ps)
    (hhead : (ps.flatMap (shown lookup)).head? = some '\x7b') :
    ∃ rest more, text = '\x7b' :: rest ∧ Splits rest more ∧ ps = .char '\x7b' :: more := by
  cases h with
  | nil => cases hhead
  | @token body rest more hbody hrest =>
    rw [List.flatMap_cons] at hhead
    cases hvalue : lookup (nameOf body) with
    | none =>
      rw [shown_unknown hvalue] at hhead
      exact absurd (Option.some.inj hhead) (by decide)
    | some value =>
      -- the form of a value never begins with an opening brace
      have hform := hinert _ _ hvalue
      have hvalueHead := hform.head
      obtain ⟨d, after, hd⟩ := List.exists_cons_of_ne_nil hform.ne_nil
      rw [shown_known hvalue, hd] at hhead
      rw [hd] at hvalueHead
      exact absurd hhead hvalueHead
  | @char c rest more hnone hrest =>
    rw [List.flatMap_cons] at hhead
    obtain rfl : c = '\x7b' := Option.some.inj hhead
    exact ⟨rest, more, rfl, hrest, rfl⟩

/-- **No token comes up at a character** when the text after it is resolved. -/
theorem not_begins_shown {c : Char} {rest : List Char} {ps : List Piece}
    (hnone : ¬ Begins (c :: rest)) (hrest : Splits rest ps) :
    ¬ Begins (c :: ps.flatMap (shown lookup)) := by
  intro hbegins
  obtain ⟨inner, hshown, hhead, hclosing⟩ := begins_iff.mp hbegins
  obtain ⟨rfl, htail⟩ := List.cons.inj hshown
  -- the opening brace stands in the text, right behind the dollar sign
  obtain ⟨after, more, rfl, hafter, rfl⟩ := head_shown hinert hrest (by rw [htail]; rfl)
  obtain rfl : more.flatMap (shown lookup) = inner := (List.cons.inj htail).2
  -- so it opens no token for one of two reasons, and each of them remains
  by_cases hempty : after.head? = some '\x7d'
  · exact hhead (head_shown_closing hafter hempty)
  · have hopen : '\x7d' ∉ after := fun hmem => hnone (begins_iff.mpr ⟨after, rfl, hempty, hmem⟩)
    rw [shown_of_notMem hafter hopen] at hclosing
    exact hopen hclosing

/-- **The split of a resolved text:** the unknown tokens, and characters for all the rest. -/
theorem splits_shown {text : List Char} {ps : List Piece} (h : Splits text ps) :
    Splits (ps.flatMap (shown lookup)) (ps.flatMap (resplit lookup)) := by
  induction h with
  | nil => exact .nil
  | @token body rest ps hbody _ ih =>
    rw [List.flatMap_cons, List.flatMap_cons]
    cases hvalue : lookup (nameOf body) with
    | none =>
      rw [shown_unknown hvalue, resplit_unknown hvalue]
      exact .token hbody ih
    | some value =>
      have hform := hinert _ _ hvalue
      have hopening : ¬ ['$', '\x7b'] <:+: (display value).toList := by
        rw [← Text.occursIn_iff]
        exact Bool.eq_false_iff.mp hform.opening
      rw [shown_known hvalue, resplit_known hvalue]
      exact splits_chars hopening hform.last ih
  | char hnone hrest ih => exact .char (not_begins_shown hinert hnone hrest) ih

end Values

/-! ### The second resolution -/

/-- Resolved again, the pieces of a resolved piece are the resolved piece. -/
theorem shown_resplit (piece : Piece) :
    (resplit lookup piece).flatMap (shown lookup) = shown lookup piece := by
  cases piece with
  | char c => rfl
  | token body =>
    cases hvalue : lookup (nameOf body) with
    | none => rw [resplit_unknown hvalue, List.flatMap_singleton]
    | some value =>
      rw [resplit_known hvalue, shown_known hvalue, List.flatMap_map]
      exact List.flatMap_singleton' _

/-- They hold the unknown name that the piece has. -/
theorem unknown_resplit (piece : Piece) :
    (resplit lookup piece).filterMap (unknown? lookup) = (unknown? lookup piece).toList := by
  cases piece with
  | char c => rfl
  | token body =>
    cases hvalue : lookup (nameOf body) with
    | none => simp [resplit, unknown?, hvalue]
    | some value => simp [resplit, unknown?, hvalue, Function.comp_def]

/-- **A second resolution changes nothing.** When no known value is empty, holds the opening of a
token, begins with an opening brace or ends in a dollar sign, a resolved text resolves to itself,
and with the same unknown names in the same order. -/
theorem resolveText_idempotent (lookup : Lookup)
    (hinert : ∀ name value, lookup name = some value → Inert (display value).toList)
    (text : String) :
    resolveText lookup (resolveText lookup text).out = resolveText lookup text := by
  have hsplits := splits_shown hinert (splits_pieces text.toList)
  have hpieces := (splits_iff.mp hsplits).symm
  have hout : ((pieces text.toList).flatMap (resplit lookup)).flatMap (shown lookup) =
      (pieces text.toList).flatMap (shown lookup) := by
    rw [List.flatMap_assoc, funext shown_resplit]
  have hmissing : ((pieces text.toList).flatMap (resplit lookup)).filterMap (unknown? lookup) =
      (pieces text.toList).filterMap (unknown? lookup) := by
    rw [List.filterMap_flatMap, List.filterMap_eq_flatMap_toList, funext unknown_resplit]
  rw [resolveText_eq text, resolveText_eq, String.toList_ofList, hpieces, hout, hmissing]

/-- A value with braces and dollar signs inside, between tokens that stay and openings that are
never closed or have nothing between their braces. -/
theorem resolveText_idempotent_braces :
    let lookup : Lookup := fun name => if name = "a" then some (.string "\x7d$ \x7b") else none
    let text := "$$\x7ba\x7d\x7d$\x7b b$\x7ba\x7d$\x7b\x7d$\x7ba\x7d$\x7ba"
    (∀ name value, lookup name = some value → Inert (display value).toList) ∧
      resolveText lookup (resolveText lookup text).out = resolveText lookup text ∧
      (resolveText lookup text).out = "$\x7d$ \x7b\x7d$\x7b b$\x7ba\x7d$\x7b\x7d\x7d$ \x7b$\x7ba" ∧
      (resolveText lookup text).missing = ["b$\x7ba"] := by
  intro lookup text
  have hinert : ∀ name value, lookup name = some value → Inert (display value).toList := by
    intro name value hvalue
    obtain ⟨-, rfl⟩ : name = "a" ∧ Json.Value.string "\x7d$ \x7b" = value := by
      simpa [lookup] using hvalue
    exact ⟨by decide, by decide, by decide, by decide⟩
  exact ⟨hinert, resolveText_idempotent lookup hinert text, by decide +kernel, by decide +kernel⟩

end Placeholder

end Scenario
