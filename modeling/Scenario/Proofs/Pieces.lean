import Scenario.Placeholder

/-!
# Pieces of a text

`pieces` walks over a text. `Splits` says what it finds without a walk: a token wherever one begins,
a character for itself everywhere else.

* `splits_iff`: every text splits in exactly one way, which is the one of `pieces`.
* `bareReference?_eq_some_iff`: when a text is one token.
* `pieces_append`: the pieces of two texts are the pieces of each, when the first leaves no token
  open.
* `pieces_append_of_not_spans`: the same, when no token of the two texts together lies across the
  place where they meet.
* `pieces_of_part`: a text without tokens is made of characters, and so is every part of it.
* `resolvePieces_eq`: resolution writes piece by piece, and collects the unknown names in order.
-/

namespace Scenario

namespace Placeholder

/-! ### Tokens -/

/-- What may stand between the braces of a token: at least one character, and no closing brace. -/
def IsBody (body : List Char) : Prop :=
  body ≠ [] ∧ '\x7d' ∉ body

/-- A token stands at the beginning of the text. -/
def Begins (text : List Char) : Prop :=
  ∃ body rest, IsBody body ∧ text = (Piece.token body).spell ++ rest

theorem not_isClosing_of_mem {body : List Char} (hbody : '\x7d' ∉ body) :
    ∀ c ∈ body, (! isClosing c) = true := by
  intro c hc
  rw [isClosing, Bool.not_eq_true', decide_eq_false_iff_not]
  exact fun e => hbody (e ▸ hc)

/-- A token that is closed, or has nothing between its braces. -/
theorem token?_closed {body : List Char} (hbody : '\x7d' ∉ body) (after : List Char) :
    token? ('$' :: '\x7b' :: (body ++ '\x7d' :: after)) =
      if body.isEmpty then none else some (body, after) := by
  have hopen := not_isClosing_of_mem hbody
  have htake : (body ++ '\x7d' :: after).takeWhile (! isClosing ·) = body := by
    rw [List.takeWhile_append_of_pos hopen]
    exact List.append_nil body
  have hdrop : (body ++ '\x7d' :: after).dropWhile (! isClosing ·) = '\x7d' :: after := by
    rw [List.dropWhile_append_of_pos hopen]
    rfl
  simp only [token?, htake, hdrop]

/-- What is found between the braces of a token. -/
theorem isBody_of_token? {text body rest : List Char} (h : token? text = some (body, rest)) :
    IsBody body := by
  unfold token? at h
  split at h
  next inner =>
    dsimp only at h
    split at h
    · exact absurd h (by simp)
    · split at h
      · exact absurd h (by simp)
      next hne =>
        obtain ⟨rfl, -⟩ := Prod.mk.inj (Option.some.inj h)
        refine ⟨fun hnil => hne (by rw [hnil]; rfl), fun hmem => ?_⟩
        have hopen := List.all_eq_true.mp (List.all_takeWhile (p := (! isClosing ·)) (l := inner))
        exact absurd (hopen _ hmem) (by decide)
  next => exact absurd h (by simp)

/-- **Where a token begins, it is found.** -/
theorem token?_eq_some_iff {text body rest : List Char} :
    token? text = some (body, rest) ↔ IsBody body ∧ text = (Piece.token body).spell ++ rest := by
  constructor
  · intro h
    exact ⟨isBody_of_token? h, eq_spell_of_token? h⟩
  · rintro ⟨⟨hne, hbody⟩, rfl⟩
    have hspell : (Piece.token body).spell ++ rest = '$' :: '\x7b' :: (body ++ '\x7d' :: rest) := by
      simp [Piece.spell]
    rw [hspell, token?_closed hbody, List.isEmpty_eq_false_iff.mpr hne]
    rfl

theorem token?_eq_none_iff {text : List Char} : token? text = none ↔ ¬ Begins text := by
  rw [Option.eq_none_iff_forall_ne_some]
  constructor
  · rintro h ⟨body, rest, htoken⟩
    exact h (body, rest) (token?_eq_some_iff.mpr htoken)
  · rintro h ⟨body, rest⟩ htoken
    exact h ⟨body, rest, token?_eq_some_iff.mp htoken⟩

/-- **Where a token begins:** behind its two opening characters comes a closing brace, but not right
away. -/
theorem begins_iff {text : List Char} : Begins text ↔
    ∃ inner, text = '$' :: '\x7b' :: inner ∧ inner.head? ≠ some '\x7d' ∧ '\x7d' ∈ inner := by
  constructor
  · rintro ⟨body, rest, ⟨hne, hbody⟩, rfl⟩
    obtain ⟨c, more, rfl⟩ := List.exists_cons_of_ne_nil hne
    refine ⟨c :: more ++ '\x7d' :: rest, by simp [Piece.spell], ?_, by simp⟩
    intro hhead
    have hc : c = '\x7d' := Option.some.inj hhead
    exact hbody (hc ▸ List.mem_cons_self)
  · rintro ⟨inner, rfl, hhead, hmem⟩
    obtain ⟨body, rest, rfl, hbody⟩ := List.eq_append_cons_of_mem hmem
    refine ⟨body, rest, ⟨?_, hbody⟩, by simp [Piece.spell]⟩
    rintro rfl
    exact hhead rfl

/-- A token stays the token whatever follows the text. -/
theorem token?_extend {text body rest : List Char} (h : token? text = some (body, rest))
    (more : List Char) : token? (text ++ more) = some (body, rest ++ more) := by
  obtain ⟨hbody, rfl⟩ := token?_eq_some_iff.mp h
  exact token?_eq_some_iff.mpr ⟨hbody, List.append_assoc ..⟩

/-- What comes after a token is a suffix of the text. -/
theorem suffix_of_token? {text body rest : List Char} (h : token? text = some (body, rest)) :
    rest <:+ text :=
  ⟨_, (eq_spell_of_token? h).symm⟩

/-- A text that does not begin with the two characters of a token's opening has no token there. -/
theorem token?_of_not_opening {text : List Char} (h : ∀ inner, text ≠ '$' :: '\x7b' :: inner) :
    token? text = none := by
  refine token?_eq_none_iff.mpr fun ⟨body, rest, _, htext⟩ => ?_
  exact h (body ++ ['\x7d'] ++ rest) htext

theorem pieces_of_token {c : Char} {rest body after : List Char}
    (h : token? (c :: rest) = some (body, after)) :
    pieces (c :: rest) = .token body :: pieces after := by
  rw [pieces]
  split
  next body' after' h' =>
    obtain ⟨rfl, rfl⟩ := Prod.mk.inj (Option.some.inj (h.symm.trans h'))
    rfl
  next h' => exact absurd (h.symm.trans h') (by simp)

theorem pieces_of_no_token {c : Char} {rest : List Char} (h : token? (c :: rest) = none) :
    pieces (c :: rest) = .char c :: pieces rest := by
  rw [pieces]
  split
  next body' after' h' => exact absurd (h.symm.trans h') (by simp)
  next => rfl

/-! ### The split of a text -/

/-- **How a text splits, leftmost token first:** where a token begins it is taken as a whole, and a
character is taken for itself only where none begins. -/
inductive Splits : List Char → List Piece → Prop where
  | nil : Splits [] []
  | token {body rest : List Char} {ps : List Piece} :
      IsBody body → Splits rest ps → Splits ((Piece.token body).spell ++ rest) (.token body :: ps)
  | char {c : Char} {rest : List Char} {ps : List Piece} :
      ¬ Begins (c :: rest) → Splits rest ps → Splits (c :: rest) (.char c :: ps)

/-- **The split is unique,** and the pieces of the text are it. -/
theorem splits_iff {text : List Char} {ps : List Piece} : Splits text ps ↔ ps = pieces text := by
  constructor
  · intro h
    induction h with
    | nil => rw [pieces_nil]
    | @token body rest ps hbody _ ih =>
      have htoken : token? ((Piece.token body).spell ++ rest) = some (body, rest) :=
        token?_eq_some_iff.mpr ⟨hbody, rfl⟩
      rw [ih]
      exact (pieces_of_token htoken).symm
    | char hnone _ ih => rw [ih, pieces_of_no_token (token?_eq_none_iff.mpr hnone)]
  · rintro rfl
    fun_induction pieces text with
    | case1 => exact .nil
    | case2 c rest body after htoken ih =>
      obtain ⟨hbody, hspell⟩ := token?_eq_some_iff.mp htoken
      rw [hspell]
      exact .token hbody ih
    | case3 c rest hnone ih => exact .char (token?_eq_none_iff.mp hnone) ih

theorem splits_pieces (text : List Char) : Splits text (pieces text) :=
  splits_iff.mpr rfl

/-- What is taken for a token is one. -/
theorem isBody_of_mem_pieces {text body : List Char} (h : .token body ∈ pieces text) :
    IsBody body := by
  have hsplits := splits_pieces text
  generalize pieces text = ps at h hsplits
  induction hsplits with
  | nil => exact absurd h List.not_mem_nil
  | token hbody _ ih =>
    obtain heq | hrest := List.mem_cons.mp h
    · exact Piece.token.inj heq ▸ hbody
    · exact ih hrest
  | char _ _ ih =>
    obtain heq | hrest := List.mem_cons.mp h
    · cases heq
    · exact ih hrest

/-- A text that is one token. -/
theorem pieces_spell_token {body : List Char} (hbody : IsBody body) :
    pieces (Piece.token body).spell = [.token body] := by
  have hsplits := Splits.token hbody .nil
  rw [List.append_nil] at hsplits
  exact (splits_iff.mp hsplits).symm

/-- **What counts as one token.** -/
theorem bareReference?_eq_some_iff {text body : List Char} :
    bareReference? text = some body ↔ IsBody body ∧ text = (Piece.token body).spell := by
  have htoken : token? text = some (body, []) ↔ IsBody body ∧ text = (Piece.token body).spell := by
    rw [token?_eq_some_iff, List.append_nil]
  rw [← htoken, bareReference?]
  split
  next found h => simp [h]
  next h => exact ⟨fun hnone => absurd hnone (by simp), fun hsome => absurd hsome (h body)⟩

/-! ### Two texts that leave no token open -/

/-- Whether a text begins with a token that it does not close. -/
def opensOnly : List Char → Bool
  | '$' :: '\x7b' :: rest => rest.all (! isClosing ·)
  | _ => false

/-- Whether a text holds a token that it begins and does not close. -/
def leavesOpen : List Char → Bool
  | [] => false
  | c :: rest => opensOnly (c :: rest) || leavesOpen rest

/-- No token begins with the last character of one text and the first of the next. -/
def Apart (first second : List Char) : Prop :=
  first.getLast? = some '$' → second.head? ≠ some '\x7b'

theorem leavesOpen_suffix {tail text : List Char} (h : leavesOpen text = false)
    (htail : tail <:+ text) : leavesOpen tail = false := by
  obtain ⟨front, rfl⟩ := htail
  induction front with
  | nil => exact h
  | cons c rest ih => exact ih (Bool.or_eq_false_iff.mp h).2

theorem Apart.suffix {tail text second : List Char} (h : Apart text second)
    (htail : tail <:+ text) : Apart tail second := by
  obtain ⟨front, rfl⟩ := htail
  intro hlast
  exact h (by rw [List.getLast?_append, hlast]; rfl)

/-- The token at the beginning of a text is the same whatever follows the text. -/
theorem token?_append {text : List Char} (hne : text ≠ []) (hopen : opensOnly text = false)
    {more : List Char} (hapart : Apart text more) :
    token? (text ++ more) = (token? text).map fun (body, rest) => (body, rest ++ more) := by
  by_cases hbegins : ∃ inner, text = '$' :: '\x7b' :: inner
  · obtain ⟨inner, rfl⟩ := hbegins
    have hcloses : '\x7d' ∈ inner := by
      obtain ⟨c, hc, hbrace⟩ := List.all_eq_false.mp hopen
      have hclosing : c = '\x7d' := by simpa [isClosing] using hbrace
      exact hclosing ▸ hc
    obtain ⟨body, after, rfl, hbody⟩ := List.eq_append_cons_of_mem hcloses
    rw [token?_closed hbody, List.cons_append, List.cons_append, List.append_assoc,
      List.cons_append, token?_closed hbody]
    cases body <;> rfl
  · -- no token begins in the text, and none begins across the joint
    have hhere : ∀ inner, text ≠ '$' :: '\x7b' :: inner := fun inner h => hbegins ⟨inner, h⟩
    have hacross : ∀ inner, text ++ more ≠ '$' :: '\x7b' :: inner := by
      intro inner hjoined
      rcases text with _ | ⟨c, _ | ⟨d, rest⟩⟩
      · exact hne rfl
      · obtain ⟨rfl, rfl⟩ := List.cons.inj hjoined
        exact hapart rfl rfl
      · simp only [List.cons_append, List.cons.injEq] at hjoined
        obtain ⟨rfl, rfl, -⟩ := hjoined
        exact hhere rest rfl
    rw [token?_of_not_opening hhere, token?_of_not_opening hacross]
    rfl

/-- **The pieces of two texts, one after the other.** -/
theorem pieces_append {first second : List Char} (hopen : leavesOpen first = false)
    (hapart : Apart first second) : pieces (first ++ second) = pieces first ++ pieces second := by
  fun_induction pieces first with
  | case1 => rfl
  | case2 c rest body after h ih =>
    have htoken := token?_append (List.cons_ne_nil c rest) (Bool.or_eq_false_iff.mp hopen).1 hapart
    rw [h, Option.map_some] at htoken
    have hsuffix := suffix_of_token? h
    rw [List.cons_append] at htoken ⊢
    rw [pieces_of_token htoken,
      ih (leavesOpen_suffix hopen hsuffix) (hapart.suffix hsuffix), List.cons_append]
  | case3 c rest h ih =>
    have htoken := token?_append (List.cons_ne_nil c rest) (Bool.or_eq_false_iff.mp hopen).1 hapart
    rw [h, Option.map_none] at htoken
    have hsuffix := List.suffix_cons c rest
    rw [List.cons_append] at htoken ⊢
    rw [pieces_of_no_token htoken,
      ih (leavesOpen_suffix hopen hsuffix) (hapart.suffix hsuffix), List.cons_append]

/-! ### Two texts with no token across -/

/-- How many characters some pieces are spelled with. -/
def width (ps : List Piece) : Nat :=
  (ps.flatMap Piece.spell).length

/-- **A token lies across a place:** it begins before the place and ends behind it. -/
def Spans (ps : List Piece) (place : Nat) : Prop :=
  ∃ before body after, ps = before ++ .token body :: after ∧
    width before < place ∧ place < width (before ++ [.token body])

theorem width_append (first second : List Piece) :
    width (first ++ second) = width first + width second := by
  rw [width, List.flatMap_append, List.length_append]
  rfl

/-- What lies across a place lies across it with more pieces around. -/
theorem Spans.within {ps : List Piece} {place : Nat} (h : Spans ps place)
    (before after : List Piece) : Spans (before ++ ps ++ after) (width before + place) := by
  obtain ⟨first, body, last, rfl, hbegins, hends⟩ := h
  refine ⟨before ++ first, body, last ++ after, by simp, ?_, ?_⟩
  · rw [width_append]
    omega
  · rw [List.append_assoc, width_append before]
    omega

theorem not_spans_nil (place : Nat) : ¬ Spans [] place := by
  rintro ⟨before, body, after, hnil, -⟩
  exact List.append_ne_nil_of_right_ne_nil before (List.cons_ne_nil _ after) hnil.symm

/-- What lies across a place is the first token, or comes behind the first piece. -/
theorem spans_cons {piece : Piece} {ps : List Piece} {place : Nat} : Spans (piece :: ps) place ↔
    ((∃ body, piece = .token body) ∧ 0 < place ∧ place < width [piece]) ∨
      (width [piece] ≤ place ∧ Spans ps (place - width [piece])) := by
  constructor
  · rintro ⟨before, body, after, hcut, hbegins, hends⟩
    cases before with
    | nil =>
      obtain ⟨rfl, rfl⟩ := List.cons.inj hcut
      exact .inl ⟨⟨body, rfl⟩, hbegins, hends⟩
    | cons first before =>
      obtain ⟨rfl, rfl⟩ := List.cons.inj hcut
      rw [← List.singleton_append, width_append] at hbegins
      rw [← List.singleton_append, List.append_assoc, width_append] at hends
      exact .inr ⟨by omega, before, body, after, rfl, by omega, by omega⟩
  · rintro (⟨⟨body, rfl⟩, hbegins, hends⟩ | ⟨hbefore, hspans⟩)
    · exact ⟨[], body, ps, rfl, hbegins, hends⟩
    · have hmore := hspans.within [piece] []
      rwa [List.append_nil, Nat.add_sub_cancel' hbefore] at hmore

/-- Whether a token lies across a place can be computed. -/
instance decidableSpans : (ps : List Piece) → (place : Nat) → Decidable (Spans ps place)
  | [], place => isFalse (not_spans_nil place)
  | .char c :: ps, place =>
    have := decidableSpans ps (place - width [.char c])
    decidable_of_iff (width [.char c] ≤ place ∧ Spans ps (place - width [.char c])) <|
      by simp [spans_cons]
  | .token body :: ps, place =>
    have := decidableSpans ps (place - width [.token body])
    decidable_of_iff ((0 < place ∧ place < width [.token body]) ∨
      (width [.token body] ≤ place ∧ Spans ps (place - width [.token body]))) <|
      by simp [spans_cons]

/-- **The pieces of two texts, one after the other,** when no token lies across the place where they
meet. -/
theorem pieces_append_of_not_spans {first second : List Char}
    (h : ¬ Spans (pieces (first ++ second)) first.length) :
    pieces (first ++ second) = pieces first ++ pieces second := by
  fun_induction pieces first with
  | case1 => rfl
  | case2 c rest body after htoken ih =>
    have hjoined : token? (c :: (rest ++ second)) = some (body, after ++ second) :=
      token?_extend htoken second
    have hlength : (c :: rest).length = width [.token body] + after.length := by
      rw [eq_spell_of_token? htoken, List.length_append, width, List.flatMap_singleton]
    rw [List.cons_append, pieces_of_token hjoined] at h ⊢
    rw [ih, List.cons_append]
    -- a token across the joint behind this one lies across it in the whole text
    intro hspans
    have hmore := hspans.within [.token body] []
    rw [List.append_nil, ← hlength] at hmore
    exact h hmore
  | case3 c rest hnone ih =>
    have hjoined : token? (c :: (rest ++ second)) = none := by
      rw [Option.eq_none_iff_forall_ne_some]
      rintro ⟨body, after⟩ htoken
      have hspell := eq_spell_of_token? htoken
      -- the token ends in the second text, or it would stand in the first one already
      by_cases hends : (c :: rest).length < (Piece.token body).spell.length
      · refine h ⟨[], body, pieces after, ?_, ?_, ?_⟩
        · exact pieces_of_token htoken
        · exact Nat.succ_pos _
        · rw [List.nil_append, width, List.flatMap_singleton]
          exact hends
      · have htoken' : (Piece.token body).spell <+: (c :: rest) ++ second := ⟨after, hspell.symm⟩
        have hfirst : c :: rest <+: (c :: rest) ++ second := List.prefix_append ..
        have hprefix : (Piece.token body).spell <+: c :: rest :=
          List.prefix_of_prefix_length_le htoken' hfirst (by omega)
        obtain ⟨more, hmore⟩ := hprefix
        have hbody := isBody_of_token? htoken
        exact token?_eq_none_iff.mp hnone ⟨body, more, hbody, hmore.symm⟩
    rw [List.cons_append, pieces_of_no_token hjoined] at h ⊢
    rw [ih, List.cons_append]
    intro hspans
    have hmore := hspans.within [.char c] []
    have hlength : (c :: rest).length = width [.char c] + rest.length := Nat.add_comm ..
    rw [List.append_nil, ← hlength] at hmore
    exact h hmore

/-! ### Texts without tokens -/

/-- Where a text holds no token, none begins anywhere in it. -/
theorem token?_of_not_hasToken {text tail : List Char} (h : hasToken text = false)
    (htail : tail <:+ text) : token? tail = none := by
  fun_induction pieces text with
  | case1 =>
    rw [List.suffix_nil.mp htail]
    rfl
  | case2 c rest body after htoken ih =>
    rw [hasToken, pieces_of_token htoken] at h
    exact absurd h (by simp)
  | case3 c rest htoken ih =>
    rw [hasToken, pieces_of_no_token htoken] at h
    obtain rfl | hrest := List.suffix_cons_iff.mp htail
    · exact htoken
    · exact ih h hrest

/-- Where a text holds no token, no part of it begins with one. -/
theorem token?_of_part {text part : List Char} (h : hasToken text = false)
    (hpart : part <:+: text) : token? part = none := by
  refine Option.eq_none_iff_forall_ne_some.mpr fun ⟨body, after⟩ htoken => ?_
  obtain ⟨front, back, htext⟩ := hpart
  -- the token would stand in the whole text as well
  have hwhole := token?_extend htoken back
  have hsuffix : part ++ back <:+ text := ⟨front, by rw [← htext, List.append_assoc]⟩
  rw [token?_of_not_hasToken h hsuffix] at hwhole
  exact absurd hwhole (by simp)

/-- A part of a text without tokens is made of characters alone. -/
theorem pieces_of_part {text part : List Char} (h : hasToken text = false)
    (hpart : part <:+: text) : pieces part = part.map Piece.char := by
  induction part with
  | nil => exact pieces_nil
  | cons c rest ih =>
    have hrest : rest <:+: text := (List.suffix_cons c rest).isInfix.trans hpart
    rw [pieces_of_no_token (token?_of_part h hpart), ih hrest, List.map_cons]

/-- What a piece is spelled as stands in what all are spelled as. -/
theorem spell_infix {ps : List Piece} {piece : Piece} (h : piece ∈ ps) :
    piece.spell <:+: ps.flatMap Piece.spell :=
  List.infix_of_mem_flatten (List.mem_map_of_mem h)

/-- A token that is found in a text stands in it. -/
theorem part_of_mem_pieces {text : List Char} {piece : Piece} (h : piece ∈ pieces text) :
    piece.spell <:+: text := by
  have hpart := spell_infix h
  rwa [spell_pieces] at hpart

/-- Where the two characters of an opening are missing, there is no token. -/
theorem hasToken_of_not_hasOpening {text : List Char} (h : hasOpening text = false) :
    hasToken text = false := by
  rw [hasToken, List.any_eq_false]
  intro piece hmem htoken
  cases piece with
  | char c => exact absurd htoken Bool.false_ne_true
  | token body =>
    have hopening : ['$', '\x7b'] <:+: text :=
      List.IsInfix.trans ⟨[], body ++ ['\x7d'], rfl⟩ (part_of_mem_pieces hmem)
    rw [hasOpening, Text.occursIn_iff.mpr hopening] at h
    exact Bool.false_ne_true h.symm

theorem pieces_of_not_hasOpening {text : List Char} (h : hasOpening text = false) :
    pieces text = text.map Piece.char :=
  pieces_of_part (hasToken_of_not_hasOpening h) List.infix_rfl

/-! ### Resolution -/

section Resolution

variable (lookup : Lookup) (write : Json.Value → List Char)

/-- What is written for a piece: the value of a known name, and everything else as it stands. -/
def written : Piece → List Char
  | .char c => [c]
  | .token body =>
    match lookup (nameOf body) with
    | some value => write value
    | none => (Piece.token body).spell

/-- The name in a token. -/
def tokenName? : Piece → Option String
  | .char _ => none
  | .token body => some (nameOf body)

/-- The name in a token of which nothing is known. -/
def unknown? : Piece → Option String
  | .char _ => none
  | .token body => if (lookup (nameOf body)).isNone then some (nameOf body) else none

/-- **Resolution goes piece by piece,** and the unknown names come in the order of the pieces. -/
theorem resolvePieces_eq (ps : List Piece) : resolvePieces lookup write ps =
    ⟨ps.flatMap (written lookup write), ps.filterMap (unknown? lookup)⟩ := by
  induction ps with
  | nil => rfl
  | cons piece rest ih =>
    rw [resolvePieces, ih, List.flatMap_cons]
    cases piece with
    | char c => rfl
    | token body =>
      cases hvalue : lookup (nameOf body) with
      | some value => simp [resolvePiece, written, unknown?, hvalue]
      | none => simp [resolvePiece, written, unknown?, hvalue]

/-- **Where nothing is known of the tokens,** the pieces resolve to what they are spelled as. -/
theorem resolvePieces_of_unknown {ps : List Piece}
    (hunknown : ∀ body, .token body ∈ ps → lookup (nameOf body) = none) :
    resolvePieces lookup write ps = ⟨ps.flatMap Piece.spell, ps.filterMap tokenName?⟩ := by
  induction ps with
  | nil => rfl
  | cons piece rest ih =>
    have hrest := ih fun body hbody => hunknown body (List.mem_cons_of_mem piece hbody)
    rw [resolvePieces, hrest, List.flatMap_cons]
    cases piece with
    | char c => rfl
    | token body =>
      have hnone := hunknown body List.mem_cons_self
      rw [resolvePiece, hnone]
      rfl

/-- Characters alone resolve to themselves. -/
theorem resolvePieces_char (text : List Char) :
    resolvePieces lookup write (text.map Piece.char) = ⟨text, []⟩ := by
  induction text with
  | nil => rfl
  | cons c rest ih =>
    rw [List.map_cons, resolvePieces, ih]
    rfl

/-- Without an opening there is nothing to resolve. -/
theorem resolvePieces_of_not_hasOpening {text : List Char} (h : hasOpening text = false) :
    resolvePieces lookup write (pieces text) = ⟨text, []⟩ := by
  rw [pieces_of_not_hasOpening h, resolvePieces_char]

end Resolution

end Placeholder

end Scenario
