import Scenario.Script.Substitution

/-!
# Values stay inside their literals

A value that is spliced into a string literal of a script is escaped, and a single-quoted literal
that takes a value is written between double quotes. Whether the literal still ends where it should
is a question of one bit: does a backslash hide the next character? `hides` computes that bit and
`Covered` says that no quote is met on the way while the bit is down.

* `splitLiteral?_eq_some_iff`: a literal ends at the first quote that no backslash hides.
* `escape_sealed`, `escape_sealed_behind`: an escaped text leaves the bit down and covers its
  quotes, also right behind a backslash if it begins with a character that the backslash can hide.
* `hides_requote`, `covered_requote`: the passage from single to double quotes keeps the bit and
  covers the quotes.
* `resolve_literal_sealed`: so a literal that takes values is written as one literal, which ends at
  its last character.
* `resolvePieces_ends_early`: a value that begins with a quote ends its literal right behind a
  backslash.
-/

namespace Scenario

namespace Script

open Placeholder (Piece pieces nameOf display)

/-! ### The escape bit -/

/-- Whether a backslash hides the character after a text. `escaped` says whether one hides the first
character of the text. -/
def hides : (escaped : Bool) → List Char → Bool
  | escaped, [] => escaped
  | true, _ :: rest => hides false rest
  | false, c :: rest => hides (c = '\\') rest

/-- Every quote of the text is hidden by a backslash. -/
def Covered (quote : Char) : (escaped : Bool) → List Char → Prop
  | _, [] => True
  | true, _ :: rest => Covered quote false rest
  | false, c :: rest => c ≠ quote ∧ Covered quote (c = '\\') rest

section Bit

variable {quote : Char} {escaped : Bool}

@[simp] theorem hides_nil : hides escaped [] = escaped := by
  cases escaped <;> rfl

@[simp] theorem hides_true_cons (c : Char) (rest : List Char) :
    hides true (c :: rest) = hides false rest := rfl

@[simp] theorem hides_false_cons (c : Char) (rest : List Char) :
    hides false (c :: rest) = hides (c = '\\') rest := rfl

@[simp] theorem covered_nil : Covered quote escaped [] := by
  cases escaped <;> trivial

@[simp] theorem covered_true_cons (c : Char) (rest : List Char) :
    Covered quote true (c :: rest) ↔ Covered quote false rest := Iff.rfl

@[simp] theorem covered_false_cons (c : Char) (rest : List Char) :
    Covered quote false (c :: rest) ↔ c ≠ quote ∧ Covered quote (c = '\\') rest := Iff.rfl

/-- The bit after two texts. -/
theorem hides_append (first second : List Char) :
    hides escaped (first ++ second) = hides (hides escaped first) second := by
  induction first generalizing escaped with
  | nil => rw [List.nil_append, hides_nil]
  | cons c rest ih => cases escaped <;> exact ih

/-- Two texts, one after the other, are covered when each is, the second from the bit that the first
leaves. -/
theorem covered_append (first second : List Char) :
    Covered quote escaped (first ++ second) ↔
      Covered quote escaped first ∧ Covered quote (hides escaped first) second := by
  induction first generalizing escaped with
  | nil => simp only [List.nil_append, covered_nil, hides_nil, true_and]
  | cons c rest ih =>
    cases escaped with
    | true => exact ih
    | false =>
      simp only [List.cons_append, covered_false_cons, hides_false_cons, and_assoc]
      exact and_congr_right fun _ => ih

/-- Without a backslash nothing is hidden. -/
theorem hides_of_notMem {text : List Char} (h : '\\' ∉ text) : hides false text = false := by
  induction text with
  | nil => rfl
  | cons c rest ih =>
    obtain ⟨hc, hrest⟩ := not_or.mp (mt List.mem_cons.mpr h)
    have hbit : decide (c = '\\') = false := decide_eq_false fun e => hc e.symm
    rw [hides_false_cons, hbit]
    exact ih hrest

/-- Without a quote there is nothing to cover. -/
theorem covered_of_notMem {text : List Char} (h : quote ∉ text) : Covered quote escaped text := by
  induction text generalizing escaped with
  | nil => exact covered_nil
  | cons c rest ih =>
    obtain ⟨hc, hrest⟩ := not_or.mp (mt List.mem_cons.mpr h)
    cases escaped with
    | true => exact ih hrest
    | false => exact ⟨fun e => hc e.symm, ih hrest⟩

/-- A text that ends in a character other than a backslash hides nothing. -/
theorem hides_concat {c : Char} (hc : c ≠ '\\') (text : List Char) :
    hides escaped (text ++ [c]) = false := by
  rw [hides_append]
  cases hides escaped text with
  | true => rfl
  | false => rw [hides_false_cons, decide_eq_false hc, hides_nil]

/-- What is read on, with a character before it. -/
theorem map_cons_eq_some_iff {c : Char} {split : Option (List Char × List Char)}
    {body after : List Char} : (split.map fun (b, a) => (c :: b, a)) = some (body, after) ↔
      ∃ more, body = c :: more ∧ split = some (more, after) := by
  simp only [Option.map_eq_some_iff, Prod.exists, Prod.mk.injEq]
  constructor
  · rintro ⟨more, tail, hsplit, rfl, rfl⟩
    exact ⟨more, rfl, hsplit⟩
  · rintro ⟨more, rfl, hsplit⟩
    exact ⟨more, after, hsplit, rfl, rfl⟩

/-- **Where a literal ends:** at the first quote that no backslash hides. -/
theorem splitLiteral?_eq_some_iff (hquote : quote ≠ '\\') {text body after : List Char} :
    splitLiteral? quote escaped text = some (body, after) ↔
      text = body ++ quote :: after ∧ Covered quote escaped body ∧ hides escaped body = false := by
  induction text generalizing escaped body with
  | nil => cases escaped <;> simp [splitLiteral?]
  | cons c rest ih =>
    -- a character that is hidden goes into the body whatever it is
    cases escaped with
    | true =>
      rw [splitLiteral?, map_cons_eq_some_iff]
      simp only [ih]
      cases body with
      | nil => simp
      | cons b more =>
        simp only [List.cons.injEq, List.cons_append, covered_true_cons, hides_true_cons]
        grind
    | false =>
      rw [splitLiteral?]
      -- of the others, a backslash hides the next one, and a quote ends the literal
      by_cases hslash : c = '\\'
      · rw [if_pos hslash, map_cons_eq_some_iff]
        simp only [ih]
        cases body with
        | nil => simp [hslash, hquote.symm]
        | cons b more =>
          simp only [List.cons.injEq, List.cons_append, covered_false_cons, hides_false_cons]
          grind
      · rw [if_neg hslash]
        by_cases hc : c = quote
        · rw [if_pos hc]
          cases body with
          | nil => simp [hc, eq_comm]
          | cons b more =>
            simp only [List.cons.injEq, List.cons_append, covered_false_cons, hides_false_cons]
            grind
        · rw [if_neg hc, map_cons_eq_some_iff]
          simp only [ih]
          cases body with
          | nil => simp [hc]
          | cons b more =>
            simp only [List.cons.injEq, List.cons_append, covered_false_cons, hides_false_cons]
            grind

end Bit

/-- A quotation mark is no backslash. -/
theorem ne_backslash_of_isQuote {quote : Char} (h : isQuote quote = true) : quote ≠ '\\' := by
  rintro rfl
  exact absurd h (by decide)

/-- What is known of a literal that the cut into segments finds. -/
theorem covered_of_mem_segments {text body : List Char} {quote : Char}
    (h : .literal quote body ∈ segments text) :
    isQuote quote = true ∧ Covered quote false body ∧ hides false body = false := by
  fun_induction segments text with
  | case1 text before hd => simp at h
  | case2 text before first rest hd inner after hsplit ih =>
    simp only [List.mem_cons, reduceCtorEq, false_or, Segment.literal.injEq] at h
    rcases h with ⟨rfl, rfl⟩ | h
    · have hopens : isQuote quote = true := by
        have hhead := List.head?_dropWhile_not (! isQuote ·) text
        rw [hd] at hhead
        simpa using hhead
      obtain ⟨-, hcovered, hbit⟩ :=
        (splitLiteral?_eq_some_iff (ne_backslash_of_isQuote hopens)).mp hsplit
      exact ⟨hopens, hcovered, hbit⟩
    · exact ih h
  | case3 text before first rest hd hsplit => simp at h

/-! ### Escaped text -/

theorem hexDigit_plain : ∀ n < 16, Json.hexDigit n ≠ '\\' ∧ Json.hexDigit n ≠ '\x22' := by
  decide

/-- The digits of a character number hold neither a backslash nor a quote. -/
theorem notMem_fourHex (n : Nat) : '\\' ∉ Json.fourHex n ∧ '\x22' ∉ Json.fourHex n := by
  have hdigit (d : Nat) : Json.hexDigit (d % 16) ≠ '\\' ∧ Json.hexDigit (d % 16) ≠ '\x22' :=
    hexDigit_plain _ (Nat.mod_lt _ (by decide))
  have h₁ := hdigit (n / 4096)
  have h₂ := hdigit (n / 256)
  have h₃ := hdigit (n / 16)
  have h₄ := hdigit n
  simp only [Json.fourHex, List.mem_cons, List.not_mem_nil, or_false, not_or]
  grind

/-- The two ways to escape a character: as itself, or as a backslash with a mark and plain digits.
The mark is a backslash or a quote only where the character is. -/
theorem encodeChar_cases (c : Char) :
    (Literal.encodeChar c = [c] ∧ c ≠ '\\' ∧ c ≠ '\x22') ∨
      ∃ mark digits, Literal.encodeChar c = '\\' :: mark :: digits ∧
        '\\' ∉ digits ∧ '\x22' ∉ digits ∧ (mark = '\\' ∨ mark = '\x22' → mark = c) := by
  have hletter {mark : Char} (h : Literal.encodeChar c = ['\\', mark])
      (hmark : mark = '\\' ∨ mark = '\x22' → mark = c) :
      ∃ mark digits, Literal.encodeChar c = '\\' :: mark :: digits ∧
        '\\' ∉ digits ∧ '\x22' ∉ digits ∧ (mark = '\\' ∨ mark = '\x22' → mark = c) :=
    ⟨mark, [], h, List.not_mem_nil, List.not_mem_nil, hmark⟩
  unfold Literal.encodeChar at hletter ⊢
  by_cases hslash : c = '\\'
  · exact .inr (hletter (if_pos hslash) fun _ => hslash.symm)
  by_cases hquote : c = '\x22'
  · exact .inr (hletter (by rw [if_neg hslash, if_pos hquote]) fun _ => hquote.symm)
  simp only [if_neg hslash, if_neg hquote] at hletter ⊢
  split
  · exact .inr ⟨'n', [], rfl, by decide, by decide, fun h => absurd h (by decide)⟩
  split
  · exact .inr ⟨'r', [], rfl, by decide, by decide, fun h => absurd h (by decide)⟩
  split
  · exact .inr ⟨'t', [], rfl, by decide, by decide, fun h => absurd h (by decide)⟩
  split
  · obtain ⟨hslashes, hquotes⟩ := notMem_fourHex c.toNat
    exact .inr ⟨'u', _, rfl, hslashes, hquotes, fun h => absurd h (by decide)⟩
  · exact .inl ⟨rfl, hslash, hquote⟩

/-- One escaped character leaves nothing hidden and no quote in the open. -/
theorem encodeChar_sealed (c : Char) :
    hides false (Literal.encodeChar c) = false ∧ Covered '\x22' false (Literal.encodeChar c) := by
  obtain ⟨h, hslash, hquote⟩ | ⟨mark, digits, h, hslash, hquote, -⟩ := encodeChar_cases c
  · rw [h]
    exact ⟨hides_concat hslash [], hquote, covered_nil⟩
  · have hbit : hides false digits = false := hides_of_notMem hslash
    have hcovered : Covered '\x22' false digits := covered_of_notMem hquote
    rw [h]
    exact ⟨hbit, by decide, hcovered⟩

/-- The same right behind a backslash, for a character that the backslash hides as a whole. -/
theorem encodeChar_sealed_behind {c : Char} (hslash : c ≠ '\\') (hquote : c ≠ '\x22') :
    hides true (Literal.encodeChar c) = false ∧ Covered '\x22' true (Literal.encodeChar c) := by
  obtain ⟨h, -, -⟩ | ⟨mark, digits, h, hslashes, hquotes, hmark⟩ := encodeChar_cases c
  · rw [h]
    exact ⟨rfl, trivial⟩
  · -- The backslash in front hides the one of the escape, so that the mark stands for itself.
    have hplain : mark ≠ '\\' ∧ mark ≠ '\x22' :=
      ⟨fun e => hslash ((hmark (.inl e)).symm.trans e),
        fun e => hquote ((hmark (.inr e)).symm.trans e)⟩
    have hbit : hides false (mark :: digits) = false :=
      hides_of_notMem (List.not_mem_cons_of_ne_of_not_mem hplain.1.symm hslashes)
    have hcovered : Covered '\x22' false (mark :: digits) :=
      covered_of_notMem (List.not_mem_cons_of_ne_of_not_mem hplain.2.symm hquotes)
    rw [h]
    exact ⟨hbit, hcovered⟩

/-- **Escaped text** leaves nothing hidden and no quote in the open. -/
theorem escape_sealed (text : List Char) :
    hides false (Literal.escape text) = false ∧ Covered '\x22' false (Literal.escape text) := by
  induction text with
  | nil => exact ⟨rfl, trivial⟩
  | cons c rest ih =>
    obtain ⟨hbit, hcovered⟩ := encodeChar_sealed c
    have hcut : Literal.escape (c :: rest) = Literal.encodeChar c ++ Literal.escape rest := rfl
    rw [hcut, hides_append, covered_append, hbit]
    exact ⟨ih.1, hcovered, ih.2⟩

/-- Whether a text may stand right behind a backslash: it begins with a character that is neither a
backslash nor a quote. -/
def standsBehind : List Char → Bool
  | [] => false
  | c :: _ => c ≠ '\\' && c ≠ '\x22'

/-- Escaped text right behind a backslash. -/
theorem escape_sealed_behind {text : List Char} (h : standsBehind text = true) :
    hides true (Literal.escape text) = false ∧ Covered '\x22' true (Literal.escape text) := by
  cases text with
  | nil => exact absurd h (by decide)
  | cons c rest =>
    obtain ⟨hslash, hquote⟩ : c ≠ '\\' ∧ c ≠ '\x22' := by simpa [standsBehind] using h
    obtain ⟨hbit, hcovered⟩ := encodeChar_sealed_behind hslash hquote
    have hcut : Literal.escape (c :: rest) = Literal.encodeChar c ++ Literal.escape rest := rfl
    rw [hcut, hides_append, covered_append, hbit]
    exact ⟨(escape_sealed rest).1, hcovered, (escape_sealed rest).2⟩

/-! ### From single to double quotes -/

/-- A character that begins no escape sequence is no backslash. -/
theorem ne_backslash_of_plain {c : Char} {rest : List Char}
    (hlast : c = '\\' → rest = [] → False)
    (hmore : ∀ (next : Char) (after : List Char), c = '\\' → rest = next :: after → False) :
    c ≠ '\\' := by
  intro hc
  cases rest with
  | nil => exact hlast hc rfl
  | cons next after => exact hmore next after hc rfl

/-- Between double quotes the body of a single-quoted literal hides what it hid. -/
theorem hides_requote (body : List Char) : hides false (requote body) = hides false body := by
  fun_induction requote body with
  | case1 => rfl
  | case2 => rfl
  | case3 rest ih => exact ih
  | case4 c rest _ ih => exact ih
  | case5 rest _ _ ih => exact ih
  | case6 c rest hlast hmore _ ih =>
    rw [hides_false_cons, hides_false_cons, decide_eq_false (ne_backslash_of_plain hlast hmore)]
    exact ih

/-- Between double quotes it has no quote in the open. -/
theorem covered_requote (body : List Char) : Covered '\x22' false (requote body) := by
  fun_induction requote body with
  | case1 => trivial
  | case2 => exact ⟨by decide, trivial⟩
  | case3 rest ih => exact ⟨by decide, ih⟩
  | case4 c rest _ ih => exact ⟨by decide, ih⟩
  | case5 rest _ _ ih => exact ⟨by decide, ih⟩
  | case6 c rest hlast hmore hquote ih =>
    rw [covered_false_cons, decide_eq_false (ne_backslash_of_plain hlast hmore)]
    exact ⟨hquote, ih⟩

/-! ### The body of a literal -/

/-- What a value is spliced into a literal as. -/
abbrev escapedForm (value : Json.Value) : List Char :=
  Literal.escape (display value).toList

/-- Whether a piece, once resolved, may stand right behind a backslash. -/
def pieceStandsBehind (lookup : Lookup) : Piece → Bool
  | .char _ => true
  | .token body =>
    match lookup (nameOf body) with
    | some value => standsBehind (display value).toList
    | none => true

/-- Whether each piece may stand where it stands. -/
def fits (lookup : Lookup) : (escaped : Bool) → List Piece → Bool
  | _, [] => true
  | escaped, piece :: rest =>
    (! escaped || pieceStandsBehind lookup piece) && fits lookup (hides escaped piece.spell) rest

section Body

variable {lookup : Lookup} {escaped : Bool}

/-- The brace that closes a token is never a backslash. -/
theorem hides_spell_token (body : List Char) : hides escaped (Piece.token body).spell = false := by
  have hcut : (Piece.token body).spell = ('$' :: '\x7b' :: body) ++ ['\x7d'] := rfl
  rw [hcut, hides_concat (by decide)]

/-- **One piece:** what it becomes leaves the bit where the piece left it, and covers the quotes the
piece covered. Only double quotes are covered where a value is put in. -/
theorem resolvePiece_sealed {piece : Piece}
    (hfits : escaped = true → pieceStandsBehind lookup piece = true) {quote : Char}
    (hquote : quote = '\x22' ∨ isKnownToken lookup piece = false) :
    hides escaped (Placeholder.resolvePiece lookup escapedForm piece).out =
        hides escaped piece.spell ∧
      (Covered quote escaped piece.spell →
        Covered quote escaped (Placeholder.resolvePiece lookup escapedForm piece).out) := by
  cases piece with
  | char c => exact ⟨rfl, id⟩
  | token body =>
    rw [Placeholder.resolvePiece]
    split
    next value hvalue =>
      have hdouble : quote = '\x22' := by
        refine hquote.resolve_right fun hknown => ?_
        rw [isKnownToken, hvalue] at hknown
        cases hknown
      -- behind a backslash, it takes a value that begins with a character the backslash can hide
      have hsealed : hides escaped (escapedForm value) = false ∧
          Covered '\x22' escaped (escapedForm value) := by
        cases escaped with
        | false => exact escape_sealed _
        | true =>
          have hstands := hfits rfl
          rw [pieceStandsBehind, hvalue] at hstands
          exact escape_sealed_behind hstands
      rw [hides_spell_token, hdouble]
      exact ⟨hsealed.1, fun _ => hsealed.2⟩
    next => exact ⟨rfl, id⟩

/-- **All pieces.** -/
theorem resolvePieces_sealed {ps : List Piece} (hfits : fits lookup escaped ps = true)
    (quote : Char) (hquote : quote = '\x22' ∨ ps.any (isKnownToken lookup) = false) :
    hides escaped (Placeholder.resolvePieces lookup escapedForm ps).out =
        hides escaped (ps.flatMap Piece.spell) ∧
      (Covered quote escaped (ps.flatMap Piece.spell) →
        Covered quote escaped (Placeholder.resolvePieces lookup escapedForm ps).out) := by
  induction ps generalizing escaped with
  | nil => exact ⟨rfl, id⟩
  | cons piece rest ih =>
    simp only [fits, Bool.and_eq_true, Bool.or_eq_true, Bool.not_eq_true'] at hfits
    have hhere : escaped = true → pieceStandsBehind lookup piece = true := fun hbit =>
      hfits.1.resolve_left (by rw [hbit]; exact Bool.noConfusion)
    simp only [List.any_cons, Bool.or_eq_false_iff] at hquote
    obtain ⟨hbit, hcover⟩ := resolvePiece_sealed hhere (hquote.imp_right And.left)
    obtain ⟨hbits, hcovers⟩ := ih hfits.2 (hquote.imp_right And.right)
    rw [Placeholder.resolvePieces, List.flatMap_cons, hides_append, hides_append, covered_append,
      covered_append, hbit]
    exact ⟨hbits, fun h => ⟨hcover h.1, hcovers h.2⟩⟩

end Body

/-! ### The literal as a whole -/

/-- The quote that a literal is written with: a single-quoted one that takes a value is written with
double quotes. -/
def writtenQuote (lookup : Lookup) (quote : Char) (body : List Char) : Char :=
  if quote = '\x27' && (pieces body).any (isKnownToken lookup) then '\x22' else quote

/-- **A literal stays one literal.** Take a literal of a script whose body is not exactly one
placeholder. Whatever the values are, what is written for it is one literal: read from its opening
quote, it closes at its last character, whatever text comes after. The one condition is on a token
right behind a backslash that hides it: its value has to begin with a character that is neither a
backslash nor a quote. -/
theorem resolve_literal_sealed (text : List Char) (quote : Char) (body : List Char)
    (hmem : .literal quote body ∈ segments text)
    (hmixed : Placeholder.bareReference? body = none) (lookup : Lookup)
    (hfits : fits lookup false (pieces body) = true) :
    ∃ inner, ((Segment.literal quote body).resolve lookup).out =
        (Segment.literal (writtenQuote lookup quote body) inner).spell ∧
      ∀ after, splitLiteral? (writtenQuote lookup quote body) false
        (inner ++ writtenQuote lookup quote body :: after) = some (inner, after) := by
  obtain ⟨hopens, hcovered, hbit⟩ := covered_of_mem_segments hmem
  have hspell : (pieces body).flatMap Piece.spell = body := Placeholder.spell_pieces body
  have hresolve : (Segment.literal quote body).resolve lookup = resolveBody lookup quote body := by
    rw [Segment.resolve, hmixed]
  rw [hresolve, resolveBody, writtenQuote]
  split
  next htakes =>
    -- single quotes become double quotes: only the bit has to be carried through the pieces
    obtain ⟨hkept, -⟩ := resolvePieces_sealed hfits '\x22' (.inl rfl)
    rw [hspell, hbit] at hkept
    refine ⟨_, rfl, fun after => (splitLiteral?_eq_some_iff (by decide)).mpr
      ⟨rfl, covered_requote _, ?_⟩⟩
    rw [hides_requote]
    exact hkept
  next hkeeps =>
    -- the quotes stay: they are double quotes, or no value is put in
    have hquote : quote = '\x22' ∨ (pieces body).any (isKnownToken lookup) = false := by
      simp only [isQuote, Bool.or_eq_true, decide_eq_true_eq] at hopens
      refine hopens.imp_right fun hsingle => ?_
      simpa [hsingle] using hkeeps
    obtain ⟨hkept, hcovers⟩ := resolvePieces_sealed hfits quote hquote
    rw [hspell] at hkept hcovers
    refine ⟨_, rfl, fun after => (splitLiteral?_eq_some_iff (ne_backslash_of_isQuote hopens)).mpr
      ⟨rfl, hcovers hcovered, ?_⟩⟩
    exact hkept.trans hbit

/-- Quotes of both kinds, a backslash at the end and a line break, in a single-quoted literal with
escapes of its own. -/
theorem resolve_literal_sealed_mixed :
    let lookup : Lookup := fun name =>
      if name = "who" then some (.string "\"; exit(1); //") else some (.string "'\n\\")
    let body := "it\\'s $\x7bwho\x7d: \\n$\x7bwhat\x7d".toList
    .literal '\x27' body ∈ segments ("let s = '".toList ++ body ++ "';".toList) ∧
      Placeholder.bareReference? body = none ∧ fits lookup false (pieces body) = true ∧
      ∃ inner, ((Segment.literal '\x27' body).resolve lookup).out =
          (Segment.literal '\x22' inner).spell ∧
        ∀ after, splitLiteral? '\x22' false (inner ++ '\x22' :: after) = some (inner, after) := by
  intro lookup body
  have hmem : .literal '\x27' body ∈ segments ("let s = '".toList ++ body ++ "';".toList) := by
    decide +kernel
  have hmixed : Placeholder.bareReference? body = none := by decide +kernel
  have hfits : fits lookup false (pieces body) = true := by decide +kernel
  have hquote : writtenQuote lookup '\x27' body = '\x22' := by decide +kernel
  have hsealed := resolve_literal_sealed _ '\x27' body hmem hmixed lookup hfits
  rw [hquote] at hsealed
  exact ⟨hmem, hmixed, hfits, hsealed⟩

/-- **A value behind a backslash can end its literal.** Where a backslash of the literal hides the
first character of a value that begins with a quote, it hides the backslash that was to escape the
quote. The literal ends at that quote, before the rest of the value is read. -/
theorem resolvePieces_ends_early {lookup : Lookup} {before after : List Piece} {body : List Char}
    (hfits : fits lookup false before = true)
    (hcovered : Covered '\x22' false (before.flatMap Piece.spell))
    (hhides : hides false (before.flatMap Piece.spell) = true)
    {value : Json.Value} (hvalue : lookup (nameOf body) = some value)
    {more : List Char} (hdisplay : (display value).toList = '\x22' :: more) :
    ∃ start, ∀ tail,
      splitLiteral? '\x22' false ((Placeholder.resolvePieces lookup escapedForm
        (before ++ .token body :: after)).out ++ tail) = some (start, Literal.escape more ++
          (Placeholder.resolvePieces lookup escapedForm after).out ++ tail) := by
  obtain ⟨hbit, hcovers⟩ := resolvePieces_sealed hfits '\x22' (.inl rfl)
  rw [hhides] at hbit
  generalize hfirst : (Placeholder.resolvePieces lookup escapedForm before).out = first
    at hbit hcovers
  have hvalue' : (Placeholder.resolvePiece lookup escapedForm (.token body)).out =
      '\\' :: '\x22' :: Literal.escape more := by
    rw [Placeholder.resolvePiece, hvalue]
    change Literal.escape (display value).toList = _
    rw [hdisplay]
    rfl
  -- the literal is read up to the backslash of the escaped quote, which is itself hidden
  have hstart : Covered '\x22' false (first ++ ['\\']) ∧ hides false (first ++ ['\\']) = false := by
    rw [covered_append, hides_append, hbit]
    exact ⟨⟨hcovers hcovered, trivial⟩, rfl⟩
  refine ⟨first ++ ['\\'], fun tail =>
    (splitLiteral?_eq_some_iff (by decide)).mpr ⟨?_, hstart⟩⟩
  rw [Placeholder.resolvePieces_append, hfirst, Placeholder.resolvePieces, hvalue']
  simp only [List.append_assoc, List.cons_append, List.nil_append]

/-- One character of a string ends it: `"a\$\x7bx\x7d"` with a quote for the value. -/
theorem literal_not_sealed :
    let lookup : Lookup := fun _ => some (.string "\"")
    let body := "a\\$\x7bx\x7d".toList
    .literal '\x22' body ∈ segments ("let s = \"".toList ++ body ++ "\";".toList) ∧
      Placeholder.bareReference? body = none ∧
      ((Segment.literal '\x22' body).resolve lookup).out = "\"a\\\\\"\"".toList ∧
      splitLiteral? '\x22' false "a\\\\\"\"".toList = some ("a\\\\".toList, ['\x22']) := by
  decide +kernel

end Script

end Scenario
