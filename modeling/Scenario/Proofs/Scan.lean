import Scenario.Proofs.Pieces
import Scenario.Proofs.Quotation

/-!
# The scan of a script text

A script text is cut at its quotes, and each part is taken apart at its tokens. `scan` is the
outcome of both: the characters and tokens of the whole text, in order. What substitution does to a
script can be said in terms of it alone.

* `segments_append`: the segments of two texts are those of each, but for the bare parts that meet,
  when the first text `endsOutside` any literal.
* `resolve_of_unknown`: a segment of whose tokens nothing is known stays as it is, quotes and
  escapes included.
* `substitute_eq`: a text that is not cut, because no token can begin in it, is not an exception.
* `substitute_append_of_pieces`: substitution goes text by text where the pieces do.
* `substitute_tokens`: **substitution touches known tokens only, and goes text by text** where no
  token lies across the joint.
-/

namespace Scenario

namespace Script

open Placeholder (Piece IsBody hasToken tokenName? nameOf Spans width)

/-! ### Cutting a text at its quotes -/

/-- A text without quotes. -/
abbrev Unquoted (text : List Char) : Prop :=
  ∀ c ∈ text, isQuote c = false

/-- A literal closes where it closes, whatever follows the text. -/
theorem splitLiteral?_append {quote : Char} (hquote : isQuote quote = true) {escaped : Bool}
    {text body after : List Char} (h : splitLiteral? quote escaped text = some (body, after))
    (more : List Char) :
    splitLiteral? quote escaped (text ++ more) = some (body, after ++ more) := by
  have hslash := ne_backslash_of_isQuote hquote
  obtain ⟨rfl, hcovered, hbit⟩ := (splitLiteral?_eq_some_iff hslash).mp h
  refine (splitLiteral?_eq_some_iff hslash).mpr ⟨?_, hcovered, hbit⟩
  rw [List.append_assoc, List.cons_append]

/-- A text without quotes is bare, or its first quote comes after a bare part. -/
theorem unquoted_or_first_quote (text : List Char) :
    Unquoted text ∨ ∃ before quote rest,
      text = before ++ quote :: rest ∧ Unquoted before ∧ isQuote quote = true := by
  by_cases h : Unquoted text
  · exact .inl h
  · have hsome : text.find? isQuote ≠ none := fun hnone =>
      h fun c hc => Bool.not_eq_true _ ▸ List.find?_eq_none.mp hnone c hc
    obtain ⟨quote, hquote⟩ := Option.ne_none_iff_exists'.mp hsome
    obtain ⟨hopens, before, rest, rfl, hbefore⟩ := List.find?_eq_some_iff_append.mp hquote
    exact .inr ⟨before, quote, rest, rfl, fun c hc => by simpa using hbefore c hc, hopens⟩

section Cuts

variable {before rest body after : List Char} {quote : Char}

theorem takeWhile_first_quote (rest : List Char) (hbefore : Unquoted before)
    (hquote : isQuote quote = true) :
    (before ++ quote :: rest).takeWhile (! isQuote ·) = before ∧
      (before ++ quote :: rest).dropWhile (! isQuote ·) = quote :: rest := by
  have hopen : ∀ c ∈ before, (! isQuote c) = true := fun c hc => by rw [hbefore c hc]; rfl
  rw [List.takeWhile_append_of_pos hopen, List.dropWhile_append_of_pos hopen]
  simp [hquote]

theorem segments_of_unquoted {text : List Char} (h : Unquoted text) :
    segments text = [.bare text] := by
  have hopen : ∀ c ∈ text, (! isQuote c) = true := fun c hc => by rw [h c hc]; rfl
  have htake : text.takeWhile (! isQuote ·) = text := by
    rw [← List.append_nil text, List.takeWhile_append_of_pos hopen]
    rfl
  have hdrop : text.dropWhile (! isQuote ·) = [] := by
    rw [← List.append_nil text, List.dropWhile_append_of_pos hopen]
    rfl
  rw [segments, htake]
  split
  next => rfl
  next hd => exact absurd (hdrop.symm.trans hd) (by simp)

theorem segments_of_literal (hbefore : Unquoted before) (hquote : isQuote quote = true)
    (hsplit : splitLiteral? quote false rest = some (body, after)) :
    segments (before ++ quote :: rest) =
      .bare before :: .literal quote body :: segments after := by
  obtain ⟨htake, hdrop⟩ := takeWhile_first_quote rest hbefore hquote
  rw [segments, htake]
  split
  next hd => exact absurd (hdrop.symm.trans hd) (by simp)
  next hd =>
    obtain ⟨rfl, rfl⟩ := List.cons.inj (hdrop.symm.trans hd)
    split
    next h =>
      obtain ⟨rfl, rfl⟩ := Prod.mk.inj (Option.some.inj (hsplit.symm.trans h))
      rfl
    next h => exact absurd (hsplit.symm.trans h) (by simp)

theorem segments_of_unclosed (hbefore : Unquoted before) (hquote : isQuote quote = true)
    (hsplit : splitLiteral? quote false rest = none) :
    segments (before ++ quote :: rest) = [.bare before, .unclosed (quote :: rest)] := by
  obtain ⟨htake, hdrop⟩ := takeWhile_first_quote rest hbefore hquote
  rw [segments, htake]
  split
  next hd => exact absurd (hdrop.symm.trans hd) (by simp)
  next hd =>
    obtain ⟨rfl, rfl⟩ := List.cons.inj (hdrop.symm.trans hd)
    split
    next h => exact absurd (hsplit.symm.trans h) (by simp)
    next => rfl

/-- Bare text in front joins the first bare part. -/
theorem segments_unquoted_append {front : List Char} (hfront : Unquoted front)
    (text : List Char) : ∃ first others,
      segments text = .bare first :: others ∧
        segments (front ++ text) = .bare (front ++ first) :: others := by
  have hjoin {first : List Char} (h : Unquoted first) : Unquoted (front ++ first) :=
    fun c hc => (List.mem_append.mp hc).elim (hfront c) (h c)
  obtain hall | ⟨first, quote, rest, rfl, hfirst, hquote⟩ := unquoted_or_first_quote text
  · exact ⟨text, [], segments_of_unquoted hall, segments_of_unquoted (hjoin hall)⟩
  · rw [← List.append_assoc]
    cases hsplit : splitLiteral? quote false rest with
    | some parts =>
      obtain ⟨body, after⟩ := parts
      exact ⟨first, _, segments_of_literal hfirst hquote hsplit,
        segments_of_literal (hjoin hfirst) hquote hsplit⟩
    | none =>
      exact ⟨first, _, segments_of_unclosed hfirst hquote hsplit,
        segments_of_unclosed (hjoin hfirst) hquote hsplit⟩

/-- The first segment is a bare part. -/
theorem segments_ne_nil (text : List Char) :
    ∃ first others, segments text = .bare first :: others := by
  obtain ⟨first, others, h, -⟩ := segments_unquoted_append (List.forall_mem_nil _) text
  exact ⟨first, others, h⟩

end Cuts

/-- Whether the scan of a script text ends outside any literal. -/
def endsOutside (text : List Char) : Bool :=
  match (segments text).getLast? with
  | some (.bare _) => true
  | _ => false

/-- **The segments of two texts, one after the other:** the last bare part of the first and the
first bare part of the second are one. -/
theorem segments_append {first : List Char} (hends : endsOutside first = true)
    (second : List Char) : ∃ init last before others,
      segments first = init ++ [.bare last] ∧ segments second = .bare before :: others ∧
        segments (first ++ second) = init ++ .bare (last ++ before) :: others := by
  -- the induction is on the text left after a literal
  induction hlength : first.length using Nat.strongRecOn generalizing first with
  | ind n ih =>
  obtain hall | ⟨bare, quote, rest, rfl, hbare, hquote⟩ := unquoted_or_first_quote first
  · obtain ⟨before, others, hsecond, hjoined⟩ := segments_unquoted_append hall second
    exact ⟨[], first, before, others, segments_of_unquoted hall, hsecond, hjoined⟩
  · cases hsplit : splitLiteral? quote false rest with
    | some parts =>
      obtain ⟨body, after⟩ := parts
      have hcut := segments_of_literal hbare hquote hsplit
      have hrest : rest = body ++ quote :: after := eq_of_splitLiteral? hsplit
      have hshorter : after.length < n := by
        rw [← hlength, hrest]
        simp only [List.length_append, List.length_cons]
        omega
      have hends' : endsOutside after = true := by
        obtain ⟨s, others, hafter⟩ := segments_ne_nil after
        rw [endsOutside, hcut, hafter] at hends
        rw [endsOutside, hafter]
        exact hends
      obtain ⟨init, last, before, others, hafter, hsecond, hjoined⟩ := ih _ hshorter hends' rfl
      refine ⟨.bare bare :: .literal quote body :: init, last, before, others, ?_, hsecond, ?_⟩
      · rw [hcut, hafter]
        rfl
      · rw [List.append_assoc, List.cons_append,
          segments_of_literal hbare hquote (splitLiteral?_append hquote hsplit second), hjoined]
        rfl
    | none =>
      rw [endsOutside, segments_of_unclosed hbare hquote hsplit] at hends
      exact absurd hends (by simp)

/-! ### Characters and tokens -/

/-- The pieces of a segment. The quotes of a literal are characters, so is all of an open one. -/
def Segment.pieces : Segment → List Piece
  | .bare text => Placeholder.pieces text
  | .literal quote body => .char quote :: (Placeholder.pieces body ++ [.char quote])
  | .unclosed text => text.map .char

/-- **The scan of a script text:** its characters and tokens. -/
def scan (text : List Char) : List Piece :=
  (segments text).flatMap Segment.pieces

theorem Segment.spell_pieces (segment : Segment) :
    segment.pieces.flatMap Piece.spell = segment.spell := by
  cases segment with
  | bare text => exact Placeholder.spell_pieces text
  | literal quote body =>
    rw [Segment.pieces, List.flatMap_cons, List.flatMap_append, Placeholder.spell_pieces]
    rfl
  | unclosed text =>
    rw [Segment.pieces, List.flatMap_map]
    exact List.flatMap_singleton' text

/-- Nothing is lost by the scan. -/
theorem spell_scan (text : List Char) : (scan text).flatMap Piece.spell = text := by
  rw [scan, List.flatMap_assoc, funext Segment.spell_pieces, spell_segments]

/-- A token of the scan stands in the text. -/
theorem part_of_mem_scan {text : List Char} {piece : Piece} (h : piece ∈ scan text) :
    piece.spell <:+: text := by
  have hpart := Placeholder.spell_infix h
  rwa [spell_scan] at hpart

/-! ### Tokens of which nothing is known -/

/-- Bare text is resolved piece by piece, also where it is not taken apart. -/
theorem resolveBare_eq (lookup : Lookup) (text : List Char) : resolveBare lookup text =
    Placeholder.resolvePieces lookup (fun v => (Literal.ofValue v).toList)
      (Placeholder.pieces text) := by
  rw [resolveBare]
  split
  next => rfl
  next hclosed =>
    rw [Placeholder.resolvePieces_of_not_hasOpening _ _ (Bool.eq_false_iff.mpr hclosed)]

/-- The body of a literal of whose tokens nothing is known. -/
theorem resolveBody_of_unknown {lookup : Lookup} {quote : Char} {body : List Char}
    (hunknown : ∀ name, .token name ∈ Placeholder.pieces body → lookup (nameOf name) = none) :
    resolveBody lookup quote body = ⟨(Segment.literal quote body).spell,
      (Placeholder.pieces body).filterMap tokenName?⟩ := by
  have hkeeps : (Placeholder.pieces body).any (isKnownToken lookup) = false := by
    rw [List.any_eq_false]
    intro piece hmem
    cases piece with
    | char c => exact Bool.false_ne_true
    | token name =>
      rw [isKnownToken, hunknown name hmem]
      exact Bool.false_ne_true
  simp only [resolveBody, Placeholder.resolvePieces_of_unknown _ _ hunknown, hkeeps, Bool.and_false,
    Bool.false_eq_true, if_false, Placeholder.spell_pieces]

/-- **A segment of whose tokens nothing is known stays as it is.** -/
theorem resolve_of_unknown {lookup : Lookup} {segment : Segment}
    (hunknown : ∀ body, .token body ∈ segment.pieces → lookup (nameOf body) = none) :
    segment.resolve lookup = ⟨segment.spell, segment.pieces.filterMap tokenName?⟩ := by
  cases segment with
  | bare text =>
    have htokens : ∀ body, .token body ∈ Placeholder.pieces text → lookup (nameOf body) = none :=
      hunknown
    rw [Segment.resolve, resolveBare_eq, Placeholder.resolvePieces_of_unknown _ _ htokens,
      Placeholder.spell_pieces]
    rfl
  | literal quote body =>
    have hbody : ∀ name, .token name ∈ Placeholder.pieces body → lookup (nameOf name) = none := by
      intro name hmem
      refine hunknown name ?_
      rw [Segment.pieces]
      exact List.mem_cons_of_mem _ (List.mem_append_left _ hmem)
    have hnames : (Segment.literal quote body).pieces.filterMap tokenName? =
        (Placeholder.pieces body).filterMap tokenName? := by
      rw [Segment.pieces, List.filterMap_cons_none rfl, List.filterMap_append]
      exact List.append_nil _
    rw [Segment.resolve, hnames]
    -- a literal that is nothing but a reference would give its quotes up for a value
    cases hbare : Placeholder.bareReference? body with
    | none => exact resolveBody_of_unknown hbody
    | some name =>
      obtain ⟨hname, rfl⟩ := Placeholder.bareReference?_eq_some_iff.mp hbare
      have hpieces := Placeholder.pieces_spell_token hname
      have hnone := hbody name (hpieces ▸ List.mem_singleton_self _)
      simp only [hnone, hpieces]
      rfl
  | unclosed text =>
    have hnames : (text.map Piece.char).filterMap tokenName? = [] := by
      rw [List.filterMap_map]
      exact List.filterMap_eq_nil_iff.mpr fun _ _ => rfl
    rw [Segment.resolve, Segment.pieces, hnames]
    rfl

/-- **A script of whose tokens nothing is known stays as it is.** -/
theorem resolveSegments_of_unknown {lookup : Lookup} {cut : List Segment}
    (hunknown : ∀ body, .token body ∈ cut.flatMap Segment.pieces → lookup (nameOf body) = none) :
    resolveSegments lookup cut =
      ⟨cut.flatMap Segment.spell, (cut.flatMap Segment.pieces).filterMap tokenName?⟩ := by
  induction cut with
  | nil => rfl
  | cons segment rest ih =>
    rw [List.flatMap_cons] at hunknown
    have hhere := resolve_of_unknown fun body hmem =>
      hunknown body (List.mem_append_left _ hmem)
    have hrest := ih fun body hmem => hunknown body (List.mem_append_right _ hmem)
    rw [resolveSegments, hhere, hrest, List.flatMap_cons, List.flatMap_cons,
      List.filterMap_append]

/-! ### Substitution into a whole text -/

/-- What the scan takes for a token is one. -/
theorem isBody_of_mem_scan {text body : List Char} (h : .token body ∈ scan text) : IsBody body := by
  obtain ⟨segment, -, hmem⟩ := List.mem_flatMap.mp h
  cases segment with
  | bare part => exact Placeholder.isBody_of_mem_pieces hmem
  | literal quote inner =>
    simp only [Segment.pieces, List.mem_cons, List.mem_append, reduceCtorEq, List.not_mem_nil,
      or_false, false_or] at hmem
    exact Placeholder.isBody_of_mem_pieces hmem
  | unclosed part => simp [Segment.pieces] at hmem

/-- A text without tokens has none in its scan. -/
theorem not_mem_scan {text : List Char} (h : hasToken text = false) (body : List Char) :
    .token body ∉ scan text := by
  intro hmem
  have hnone := Placeholder.token?_of_part h (part_of_mem_scan hmem)
  have hsome : Placeholder.token? (Piece.token body).spell = some (body, []) :=
    Placeholder.token?_eq_some_iff.mpr ⟨isBody_of_mem_scan hmem, (List.append_nil _).symm⟩
  exact absurd (hnone.symm.trans hsome) (by simp)

theorem resolveSegments_of_not_hasToken (lookup : Lookup) {text : List Char}
    (h : hasToken text = false) : resolveSegments lookup (segments text) = ⟨text, []⟩ := by
  have hnames : (scan text).filterMap tokenName? = [] := by
    rw [List.filterMap_eq_nil_iff]
    intro piece hmem
    cases piece with
    | char c => rfl
    | token body => exact absurd hmem (not_mem_scan h body)
  rw [resolveSegments_of_unknown fun body hmem => absurd hmem (not_mem_scan h body), spell_segments]
  exact congrArg _ hnames

/-- **Substitution goes segment by segment,** also for a text that is not cut. -/
theorem substitute_eq (lookup : Lookup) (code : String) : substitute lookup code =
    ⟨String.ofList (resolveSegments lookup (segments code.toList)).out,
      (resolveSegments lookup (segments code.toList)).missing⟩ := by
  rw [substitute]
  split
  next => rfl
  next hclosed =>
    have hplain := Placeholder.hasToken_of_not_hasOpening (Bool.eq_false_iff.mpr hclosed)
    rw [resolveSegments_of_not_hasToken lookup hplain, String.ofList_toList]

/-- **A text without tokens stays as it is,** whatever its quotes. -/
theorem substitute_eq_self (lookup : Lookup) {code : String} (h : hasToken code.toList = false) :
    substitute lookup code = ⟨code, []⟩ := by
  rw [substitute_eq, resolveSegments_of_not_hasToken lookup h, String.ofList_toList]

/-! ### Two texts, one after the other -/

theorem resolveSegments_append (lookup : Lookup) (first second : List Segment) :
    resolveSegments lookup (first ++ second) =
      ⟨(resolveSegments lookup first).out ++ (resolveSegments lookup second).out,
        (resolveSegments lookup first).missing ++ (resolveSegments lookup second).missing⟩ := by
  induction first with
  | nil => rfl
  | cons segment rest ih =>
    rw [List.cons_append, resolveSegments, ih, resolveSegments, List.append_assoc,
      List.append_assoc]

/-- Two bare parts that meet resolve apart when their pieces do. -/
theorem resolve_bare_append (lookup : Lookup) {first second : List Char}
    (hpieces : Placeholder.pieces (first ++ second) =
      Placeholder.pieces first ++ Placeholder.pieces second) :
    (Segment.bare (first ++ second)).resolve lookup =
      ⟨((Segment.bare first).resolve lookup).out ++ ((Segment.bare second).resolve lookup).out,
        ((Segment.bare first).resolve lookup).missing ++
          ((Segment.bare second).resolve lookup).missing⟩ := by
  simp only [Segment.resolve, resolveBare_eq, hpieces, Placeholder.resolvePieces_append]

/-- **Substitution goes text by text,** when the first text ends outside any literal and the pieces
of the bare parts that meet are those of each. -/
theorem substitute_append_of_pieces (lookup : Lookup) {first second : String}
    (hends : endsOutside first.toList = true)
    (hpieces : ∀ init last before others, segments first.toList = init ++ [.bare last] →
      segments second.toList = .bare before :: others →
      segments (first.toList ++ second.toList) = init ++ .bare (last ++ before) :: others →
        Placeholder.pieces (last ++ before) =
          Placeholder.pieces last ++ Placeholder.pieces before) :
    substitute lookup (first ++ second) =
      ⟨(substitute lookup first).out ++ (substitute lookup second).out,
        (substitute lookup first).missing ++ (substitute lookup second).missing⟩ := by
  obtain ⟨init, last, before, others, hfirst, hsecond, hjoined⟩ :=
    segments_append hends second.toList
  have hmeet := resolve_bare_append lookup (hpieces init last before others hfirst hsecond hjoined)
  simp only [substitute_eq, String.toList_append, hjoined, hfirst, hsecond, resolveSegments_append,
    resolveSegments, hmeet, List.append_nil, List.append_assoc, String.ofList_append,
    String.append_assoc]

/-- Where no token of the scan lies across the joint, the pieces of the bare parts that meet are
those of each. -/
theorem pieces_joint {first second last before : List Char} {init others : List Segment}
    (hspans : ¬ Spans (scan (first ++ second)) first.length)
    (hfirst : segments first = init ++ [.bare last])
    (hjoined : segments (first ++ second) = init ++ .bare (last ++ before) :: others) :
    Placeholder.pieces (last ++ before) =
      Placeholder.pieces last ++ Placeholder.pieces before := by
  refine Placeholder.pieces_append_of_not_spans fun hacross => hspans ?_
  have hscan : scan (first ++ second) = init.flatMap Segment.pieces ++
      Placeholder.pieces (last ++ before) ++ others.flatMap Segment.pieces := by
    rw [scan, hjoined, List.flatMap_append, List.flatMap_cons, List.append_assoc]
    rfl
  -- the bare part begins behind what the segments before it are spelled with
  have hlength : first.length = width (init.flatMap Segment.pieces) + last.length := by
    have hspell := spell_segments first
    rw [hfirst, List.flatMap_append, List.flatMap_singleton] at hspell
    rw [width, List.flatMap_assoc, funext Segment.spell_pieces, ← List.length_append]
    exact congrArg _ hspell.symm
  rw [hscan, hlength]
  exact hacross.within _ _

/-! ### Known tokens only -/

/-- **Substitution touches known tokens only.** The scan takes a script text apart without loss. A
text of whose tokens nothing is known stays as it is, whatever its quotes, escapes and open
literals. And substitution goes text by text, when the scan of the first text ends outside any
literal and no token of the two texts together lies across the place where they meet: their results
follow each other, and so do their unknown names. -/
theorem substitute_tokens (lookup : Lookup) :
    (∀ code : String, (scan code.toList).flatMap Piece.spell = code.toList ∧
      ∀ body, .token body ∈ scan code.toList → IsBody body) ∧
    (∀ code : String, (∀ body, .token body ∈ scan code.toList → lookup (nameOf body) = none) →
      substitute lookup code = ⟨code, (scan code.toList).filterMap tokenName?⟩) ∧
    ∀ first second : String, endsOutside first.toList = true →
      ¬ Spans (scan (first ++ second).toList) first.toList.length →
        substitute lookup (first ++ second) =
          ⟨(substitute lookup first).out ++ (substitute lookup second).out,
            (substitute lookup first).missing ++ (substitute lookup second).missing⟩ := by
  refine ⟨fun code => ⟨spell_scan _, fun body => isBody_of_mem_scan⟩, ?_, ?_⟩
  · intro code hunknown
    rw [substitute_eq, resolveSegments_of_unknown hunknown, spell_segments, String.ofList_toList]
    rfl
  · intro first second hends hspans
    rw [String.toList_append] at hspans
    refine substitute_append_of_pieces lookup hends ?_
    intro init last before others hfirst _ hjoined
    exact pieces_joint hspans hfirst hjoined

/-- Unknown tokens in literals of both kinds and in a literal that never closes; and two texts of
which the first leaves a token open that a quote of the second cuts short. -/
theorem substitute_tokens_cut :
    let lookup : Lookup := fun name => if name = "n" then some (.number (.integer 3)) else none
    let code := "let a = \x27it\\\x27s $\x7bx\x7d\x27 + \"$\x7by\x7d\"; $\x7bz\x7d \"$\x7bn\x7d"
    let first := "let b = \x27n$\x7bn\x7d\x27 + $\x7bn"
    let second := "\"\x7d$\x7bn\x7d\""
    (∀ body, .token body ∈ scan code.toList → lookup (nameOf body) = none) ∧
      substitute lookup code = ⟨code, ["x", "y", "z"]⟩ ∧
      endsOutside first.toList = true ∧
      ¬ Spans (scan (first ++ second).toList) first.toList.length ∧
      substitute lookup (first ++ second) =
        ⟨(substitute lookup first).out ++ (substitute lookup second).out,
          (substitute lookup first).missing ++ (substitute lookup second).missing⟩ := by
  intro lookup code first second
  obtain ⟨-, hkept, hjoined⟩ := substitute_tokens lookup
  have hscan : (scan code.toList).filterMap tokenName? = ["x", "y", "z"] := by decide +kernel
  have hunknown : ∀ body, .token body ∈ scan code.toList → lookup (nameOf body) = none := by
    intro body hmem
    have hname : nameOf body ∈ (scan code.toList).filterMap tokenName? :=
      List.mem_filterMap.mpr ⟨_, hmem, rfl⟩
    have hother : ∀ name ∈ ["x", "y", "z"], lookup name = none := by decide +kernel
    exact hother _ (hscan ▸ hname)
  have hends : endsOutside first.toList = true := by decide +kernel
  have hspans : ¬ Spans (scan (first ++ second).toList) first.toList.length := by decide +kernel
  have hcode := hkept code hunknown
  rw [hscan] at hcode
  exact ⟨hunknown, hcode, hends, hspans, hjoined first second hends hspans⟩

end Script

end Scenario
