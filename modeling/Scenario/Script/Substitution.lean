import Scenario.Placeholder
import Scenario.Script.Literal

/-!
# Placeholders in script text

Before a script is read, the placeholders in its text are replaced. What a placeholder becomes
depends on where it stands, so the text is first cut into segments:

* in **bare** text, a token becomes the literal of the value;
* a **literal** that is exactly one token loses its quotes: a string value is spliced in as raw
  text, any other value as its literal;
* in any other literal, a token becomes the escaped text form of the value. A single-quoted literal
  that changes is written with double quotes, because single quotes delimit one character;
* an **open** literal, one that never closes, stays as it is.

`spell_segments` says that the cut loses nothing.
-/

namespace Scenario

namespace Script

/-- A part of a script text. -/
inductive Segment where
  | bare (text : List Char)
  | literal (quote : Char) (body : List Char)
  | unclosed (text : List Char)
deriving DecidableEq, Repr

namespace Segment

/-- How a segment is written. -/
def spell : Segment → List Char
  | .bare text => text
  | .literal quote body => quote :: (body ++ [quote])
  | .unclosed text => text

end Segment

/-- Whether a character opens a literal. -/
def isQuote (c : Char) : Bool :=
  c = '\x22' || c = '\x27'

/-- The body of a literal and the text after its closing quote. A backslash hides the character
after it. -/
def splitLiteral? (quote : Char) : (escaped : Bool) → List Char → Option (List Char × List Char)
  | _, [] => none
  | true, c :: rest => (splitLiteral? quote false rest).map fun (body, after) => (c :: body, after)
  | false, c :: rest =>
    if c = '\\' then
      (splitLiteral? quote true rest).map fun (body, after) => (c :: body, after)
    else if c = quote then some ([], rest)
    else (splitLiteral? quote false rest).map fun (body, after) => (c :: body, after)

/-- A closed literal is its body, the quote and the text after it. -/
theorem eq_of_splitLiteral? {quote : Char} {escaped : Bool} {text body after : List Char}
    (h : splitLiteral? quote escaped text = some (body, after)) :
    text = body ++ quote :: after := by
  induction text generalizing escaped body with
  | nil => cases escaped <;> simp [splitLiteral?] at h
  | cons c rest ih =>
    cases escaped with
    -- the character after a backslash belongs to the body, whatever it is
    | true =>
      simp only [splitLiteral?, Option.map_eq_some_iff] at h
      obtain ⟨⟨b, a⟩, hb, heq⟩ := h
      simp only [Prod.mk.injEq] at heq
      obtain ⟨rfl, rfl⟩ := heq
      simp [← ih hb]
    | false =>
      simp only [splitLiteral?] at h
      -- a backslash, or the quote, or any other character
      split at h
      · simp only [Option.map_eq_some_iff] at h
        obtain ⟨⟨b, a⟩, hb, heq⟩ := h
        simp only [Prod.mk.injEq] at heq
        obtain ⟨rfl, rfl⟩ := heq
        simp [← ih hb]
      · split at h
        · next hq =>
          simp only [Option.some.injEq, Prod.mk.injEq] at h
          obtain ⟨rfl, rfl⟩ := h
          simp [hq]
        · simp only [Option.map_eq_some_iff] at h
          obtain ⟨⟨b, a⟩, hb, heq⟩ := h
          simp only [Prod.mk.injEq] at heq
          obtain ⟨rfl, rfl⟩ := heq
          simp [← ih hb]

/-- **The segments of a script text.** -/
def segments (text : List Char) : List Segment :=
  let before := text.takeWhile (! isQuote ·)
  match _hd : text.dropWhile (! isQuote ·) with
  | [] => [.bare before]
  | quote :: rest =>
    match _h : splitLiteral? quote false rest with
    | some (body, after) => .bare before :: .literal quote body :: segments after
    | none => [.bare before, .unclosed (quote :: rest)]
termination_by text.length
decreasing_by
  have h₁ := (List.dropWhile_suffix (l := text) (! isQuote ·)).length_le
  rw [_hd, eq_of_splitLiteral? _h] at h₁
  simp only [List.length_cons, List.length_append] at h₁
  omega

/-- Single quotes to double quotes: the body of a single-quoted literal as it reads between double
quotes. -/
def requote : List Char → List Char
  | [] => []
  | '\\' :: [] => ['\\']
  | '\\' :: c :: rest => if c = '\x27' then c :: requote rest else '\\' :: c :: requote rest
  | c :: rest => if c = '\x22' then '\\' :: c :: requote rest else c :: requote rest

/-- Whether a piece is a token of a known name. -/
def isKnownToken (lookup : Lookup) : Placeholder.Piece → Bool
  | .char _ => false
  | .token body => (lookup (Placeholder.nameOf body)).isSome

/-- A literal that is not exactly one token. -/
def resolveBody (lookup : Lookup) (quote : Char) (body : List Char) : Resolved (List Char) :=
  let pieces := Placeholder.pieces body
  let resolved := Placeholder.resolvePieces lookup
    (fun v => Literal.escape (Placeholder.display v).toList) pieces
  if quote = '\x27' && pieces.any (isKnownToken lookup) then
    ⟨(Segment.literal '\x22' (requote resolved.out)).spell, resolved.missing⟩
  else ⟨(Segment.literal quote resolved.out).spell, resolved.missing⟩

/-- Bare text. Without the beginning of a token it is not taken apart. -/
def resolveBare (lookup : Lookup) (text : List Char) : Resolved (List Char) :=
  if Placeholder.hasOpening text then
    Placeholder.resolvePieces lookup (fun v => (Literal.ofValue v).toList)
      (Placeholder.pieces text)
  else ⟨text, []⟩

/-- What becomes of a segment. -/
def Segment.resolve (lookup : Lookup) : Segment → Resolved (List Char)
  | .bare text => resolveBare lookup text
  | .literal quote body =>
    match Placeholder.bareReference? body with
    | some name =>
      match lookup (Placeholder.nameOf name) with
      | some (.string text) => ⟨text.toList, []⟩
      | some value => ⟨(Literal.ofValue value).toList, []⟩
      | none => ⟨(Segment.literal quote body).spell, [Placeholder.nameOf name]⟩
    | none => resolveBody lookup quote body
  | .unclosed text => ⟨text, []⟩

/-- The segments one after the other. -/
def resolveSegments (lookup : Lookup) : List Segment → Resolved (List Char)
  | [] => ⟨[], []⟩
  | segment :: rest =>
    let first := segment.resolve lookup
    let others := resolveSegments lookup rest
    ⟨first.out ++ others.out, first.missing ++ others.missing⟩

/-- **Substitution into a script text.** A text in which no token can begin is not cut. -/
def substitute (lookup : Lookup) (code : String) : Resolved String :=
  if Placeholder.hasOpening code.toList then
    let resolved := resolveSegments lookup (segments code.toList)
    ⟨String.ofList resolved.out, resolved.missing⟩
  else ⟨code, []⟩

/-- **Nothing is lost:** the segments, spelled one after the other, are the text. -/
theorem spell_segments (text : List Char) : (segments text).flatMap Segment.spell = text := by
  fun_induction segments text with
  | case1 text before hd =>
    have := List.takeWhile_append_dropWhile (p := (! isQuote ·)) (l := text)
    rw [hd, List.append_nil] at this
    simp only [List.flatMap_cons, List.flatMap_nil, Segment.spell, List.append_nil]
    exact this
  | case2 text before quote rest hd body after h ih =>
    have := List.takeWhile_append_dropWhile (p := (! isQuote ·)) (l := text)
    rw [hd, eq_of_splitLiteral? h] at this
    simp only [List.flatMap_cons, ih, Segment.spell]
    rw [← this]
    simp [before]
  | case3 text before quote rest hd h =>
    have := List.takeWhile_append_dropWhile (p := (! isQuote ·)) (l := text)
    rw [hd] at this
    simp only [List.flatMap_cons, List.flatMap_nil, Segment.spell, List.append_nil]
    exact this

end Script

end Scenario
