import Mathlib.Data.List.TakeDrop
import Scenario.Json.Reader
import Scenario.Proofs.Digits
import Scenario.Proofs.Traversal

/-!
# Where the strings of a JSON text stand

A quote opens a string and the next quote closes it, unless a backslash hides it. That much can be
seen without reading the text: `Mode.next` keeps track of it character by character. The reader sees
it in the same way.

* `Walk` — from one place of a text to a later one, with the modes of both; what is passed outside
  of strings is plain.
* `walk_readString`, `walk_readUnsigned`, `Walks.succ` — each part of the reader makes such a walk;
  for values, lists and objects by induction on the fuel.
* `walk_of_read` — **the reader passes a whole text, and meets no capital letter outside of its
  strings** but the one of an exponent.
* `not_isAllBlank_of_read` — nor does it take blanks for a value.
-/

namespace Scenario

namespace Json

/-- Where a character of a JSON text stands: outside of strings, in a string, or behind a backslash
in a string. -/
inductive Mode where
  | outside
  | inside
  | escaped
deriving DecidableEq, Repr

/-- Where the character after a character stands. -/
def Mode.next : Mode → Char → Mode
  | .outside, c => if c = '\x22' then .inside else .outside
  | .inside, c => if c = '\x22' then .outside else if c = '\\' then .escaped else .inside
  | .escaped, _ => .inside

/-- Whether a character is no capital letter, that of an exponent apart. -/
def isPlain (c : Char) : Bool :=
  ! c.isUpper || c = 'E'

/-! ### Walks -/

/-- **A walk through a text,** from a place to a later one. Outside of strings it meets plain
characters only. -/
inductive Walk : Mode → List Char → Mode → List Char → Prop where
  | done {mode : Mode} {text : List Char} : Walk mode text mode text
  | step {mode mode' : Mode} {c : Char} {text rest : List Char} :
      (mode = .outside → isPlain c = true) → Walk (mode.next c) text mode' rest →
        Walk mode (c :: text) mode' rest

namespace Walk

variable {mode₁ mode₂ mode₃ : Mode} {text₁ text₂ text₃ rest taken : List Char} {c : Char}

theorem trans (h : Walk mode₁ text₁ mode₂ text₂) (h' : Walk mode₂ text₂ mode₃ text₃) :
    Walk mode₁ text₁ mode₃ text₃ := by
  induction h with
  | done => exact h'
  | step hplain _ ih => exact .step hplain (ih h')

/-- A character outside of strings. -/
theorem one (hquote : c ≠ '\x22') (hplain : isPlain c = true) :
    Walk .outside (c :: rest) .outside rest := by
  refine .step (fun _ => hplain) ?_
  rw [Mode.next, if_neg hquote]
  exact .done

/-- Characters outside of strings. -/
theorem unquoted (h : ∀ c ∈ taken, c ≠ '\x22' ∧ isPlain c = true) :
    Walk .outside (taken ++ rest) .outside rest := by
  induction taken with
  | nil => exact .done
  | cons c more ih =>
    obtain ⟨hquote, hplain⟩ := h c List.mem_cons_self
    exact (one hquote hplain).trans (ih fun d hd => h d (List.mem_cons_of_mem c hd))

/-- The quote that opens a string. -/
theorem opening : Walk .outside ('\x22' :: rest) .inside rest :=
  .step (fun _ => rfl) .done

/-- The quote that closes a string. -/
theorem closing : Walk .inside ('\x22' :: rest) .outside rest :=
  .step Mode.noConfusion .done

/-- A character of a string that stands for itself. -/
theorem within (hquote : c ≠ '\x22') (hslash : c ≠ '\\') :
    Walk .inside (c :: rest) .inside rest := by
  refine .step Mode.noConfusion ?_
  rw [Mode.next, if_neg hquote, if_neg hslash]
  exact .done

/-- A backslash and the character that it hides. -/
theorem hidden : Walk .inside ('\\' :: c :: rest) .inside rest :=
  .step Mode.noConfusion (.step Mode.noConfusion .done)

end Walk

/-- A reader whose value is changed reads as far as it did. -/
theorem ok_of_map_fst {α β : Type} {x : Except Failure (α × List Char)} {f : α → β} {b : β}
    {rest : List Char} (h : x.map (fun r => (f r.1, r.2)) = .ok (b, rest)) :
    ∃ a, x = .ok (a, rest) := by
  obtain ⟨⟨a, left⟩, hx, heq⟩ := exists_of_map_eq_ok h
  obtain ⟨-, rfl⟩ := Prod.mk.inj heq
  exact ⟨a, hx⟩

theorem failAt_ne_ok {α : Type} {cause : Cause} {left : List Char} {a : α} :
    failAt cause left ≠ .ok a :=
  fun h => by cases h

theorem failBefore_ne_ok {α : Type} {cause : Cause} {left : List Char} {a : α} :
    failBefore cause left ≠ .ok a :=
  fun h => by cases h

/-! ### Blanks, words and numbers -/

theorem walk_skipBlanks (text : List Char) : Walk .outside text .outside (skipBlanks text) := by
  induction text with
  | nil => exact .done
  | cons c rest ih =>
    rw [skipBlanks]
    split
    next hblank =>
      simp only [Bool.or_eq_true, decide_eq_true_eq] at hblank
      refine Walk.trans (.one ?_ ?_) ih <;> rcases hblank with ((rfl | rfl) | rfl) | rfl <;> decide
    next => exact .done

theorem walk_readWord {value v : Value} {word text rest : List Char}
    (hword : ∀ c ∈ word, c ≠ '\x22' ∧ isPlain c = true)
    (h : readWord value word text = .ok (v, rest)) : Walk .outside text .outside rest := by
  induction word generalizing text with
  | nil =>
    obtain ⟨-, rfl⟩ := Prod.mk.inj (Except.ok.inj h)
    exact .done
  | cons w word ih =>
    cases text with
    | nil => exact absurd h failBefore_ne_ok
    | cons c text =>
      rw [readWord] at h
      split at h
      next hc =>
        obtain ⟨hquote, hplain⟩ := hword w List.mem_cons_self
        have hrest := ih (fun d hd => hword d (List.mem_cons_of_mem w hd)) h
        exact Walk.trans (.one (hc ▸ hquote) (hc ▸ hplain)) hrest
      next => cases h

theorem plain_of_isDigit {c : Char} (h : c.isDigit = true) : c ≠ '\x22' ∧ isPlain c = true := by
  have hupper : c.isUpper = decide (c.val ≥ 'A'.val ∧ c.val ≤ 'Z'.val) := rfl
  rw [isPlain, hupper]
  refine ⟨fun hc => absurd (hc ▸ h) (by decide), ?_⟩
  simp only [Char.isDigit, Bool.and_eq_true, decide_eq_true_eq, ge_iff_le,
    UInt32.le_iff_toNat_le] at h ⊢
  grind

theorem walk_digits {text : List Char} :
    Walk .outside text .outside (text.dropWhile Char.isDigit) := by
  have hcut := List.takeWhile_append_dropWhile (p := Char.isDigit) (l := text)
  have htaken : ∀ c ∈ text.takeWhile Char.isDigit, c ≠ '\x22' ∧ isPlain c = true := by
    intro c hc
    have hdigits := List.all_eq_true.mp (List.all_takeWhile (p := Char.isDigit) (l := text))
    exact plain_of_isDigit (hdigits c hc)
  have hwalk : Walk .outside (text.takeWhile Char.isDigit ++ text.dropWhile Char.isDigit) .outside
      (text.dropWhile Char.isDigit) := .unquoted htaken
  rwa [hcut] at hwalk

theorem walk_takeSignificand (significand count : Nat) (text : List Char) :
    Walk .outside text .outside (takeSignificand significand count text).2.2 := by
  induction text generalizing significand count with
  | nil => exact .done
  | cons c rest ih =>
    rw [takeSignificand]
    split
    next hdigit =>
      dsimp only
      split
      next =>
        obtain ⟨hquote, hplain⟩ := plain_of_isDigit hdigit
        exact Walk.trans (.one hquote hplain) (ih _ _)
      next => exact .done
    next => exact .done

section Number

variable {negative : Bool} {significand dropped : Nat} {n : Number} {text rest : List Char}

theorem rest_of_finishNumber {exponent : Int} {left : List Char}
    (h : finishNumber negative significand exponent left = .ok (n, rest)) : rest = left := by
  rw [finishNumber] at h
  split at h
  next => exact (Prod.mk.inj (Except.ok.inj h)).2.symm
  next => exact absurd h failBefore_ne_ok

theorem walk_readExponent {start : Int}
    (h : readExponent negative significand start text = .ok (n, rest)) :
    Walk .outside text .outside rest := by
  unfold readExponent at h
  extract_lets source at h
  split at h
  next signed down digits hsigned =>
    -- the sign, if there is one
    have hsign : Walk .outside text .outside digits := by
      subst source
      split at hsigned <;> obtain ⟨-, rfl⟩ := Prod.mk.inj hsigned
      · exact .one (by decide) (by decide)
      · exact .one (by decide) (by decide)
      · exact .done
    refine hsign.trans ?_
    split at h
    next => exact absurd h failBefore_ne_ok
    next c after =>
      split at h
      next => cases h
      next =>
        rw [List.span_eq_takeWhile_dropWhile] at h
        dsimp only at h
        -- an exponent too large to be counted is read as far as any other
        have hrest : rest = (c :: after).dropWhile Char.isDigit := by
          split at h
          · split at h
            · exact absurd h failBefore_ne_ok
            · exact (Prod.mk.inj (Except.ok.inj h)).2.symm
          · exact rest_of_finishNumber h
        rw [hrest]
        exact walk_digits

theorem walk_readAfterFraction {exponent : Int}
    (h : readAfterFraction negative significand exponent text = .ok (n, rest)) :
    Walk .outside text .outside rest := by
  unfold readAfterFraction at h
  split at h
  · exact Walk.trans (.one (by decide) (by decide)) (walk_readExponent h)
  · exact Walk.trans (.one (by decide) (by decide)) (walk_readExponent h)
  · rw [rest_of_finishNumber h]
    exact .done

theorem walk_readFraction {before : Int}
    (h : readFraction negative significand before text = .ok (n, rest)) :
    Walk .outside text .outside rest := by
  have hdigits := walk_takeSignificand significand 0 text
  unfold readFraction at h
  dsimp only at h
  -- first the digits that count, then those that are passed over, then an exponent
  generalize takeSignificand significand 0 text = taken at h hdigits
  obtain ⟨significand', count, left⟩ := taken
  refine hdigits.trans ?_
  dsimp only at h ⊢
  split at h
  next c after =>
    split at h
    · exact walk_digits.trans (walk_readAfterFraction h)
    · split at h
      · exact absurd h failAt_ne_ok
      · exact walk_readAfterFraction h
  next =>
    split at h
    · exact absurd h failAt_ne_ok
    · exact walk_readAfterFraction h

theorem walk_readAfterWhole
    (h : readAfterWhole negative significand dropped text = .ok (n, rest)) :
    Walk .outside text .outside rest := by
  unfold readAfterWhole at h
  split at h
  · exact Walk.trans (.one (by decide) (by decide)) (walk_readFraction h)
  · exact Walk.trans (.one (by decide) (by decide)) (walk_readExponent h)
  · exact Walk.trans (.one (by decide) (by decide)) (walk_readExponent h)
  · have hrest : rest = text := by
      split at h
      · exact rest_of_finishNumber h
      · split at h
        · exact (Prod.mk.inj (Except.ok.inj h)).2.symm
        · split at h <;> exact (Prod.mk.inj (Except.ok.inj h)).2.symm
    rw [hrest]
    exact .done

/-- **A number** is passed. -/
theorem walk_readUnsigned (h : readUnsigned negative text = .ok (n, rest)) :
    Walk .outside text .outside rest := by
  unfold readUnsigned at h
  -- a zero stands alone, and other digits are taken together
  split at h
  next => exact absurd h failBefore_ne_ok
  next c after =>
    split at h
    next hzero =>
      have hhere : Walk .outside (c :: after) .outside after := by
        rw [hzero]
        exact .one (by decide) (by decide)
      refine hhere.trans ?_
      split at h
      · split at h
        · exact absurd h failAt_ne_ok
        · exact walk_readAfterWhole h
      · exact walk_readAfterWhole h
    next =>
      split at h
      next =>
        have hdigits := walk_takeSignificand 0 0 (c :: after)
        dsimp only at h
        generalize takeSignificand 0 0 (c :: after) = taken at h hdigits
        obtain ⟨significand', count, left⟩ := taken
        dsimp only at h hdigits
        rw [List.span_eq_takeWhile_dropWhile] at h
        exact hdigits.trans (walk_digits.trans (walk_readAfterWhole h))
      next => cases h

end Number

/-! ### Strings -/

theorem hexValue?_mark : hexValue? '\x22' = none ∧ hexValue? '\\' = none := by
  decide

/-- A hexadecimal digit is no mark of a string. -/
theorem ne_mark_of_hexValue? {c : Char} {value : Nat} (h : hexValue? c = some value) :
    c ≠ '\x22' ∧ c ≠ '\\' := by
  constructor
  · rintro rfl
    exact absurd (hexValue?_mark.1.symm.trans h) (by simp)
  · rintro rfl
    exact absurd (hexValue?_mark.2.symm.trans h) (by simp)

theorem walk_readFourHex {text rest : List Char} {value : Nat}
    (h : readFourHex text = .ok (value, rest)) : Walk .inside text .inside rest := by
  unfold readFourHex at h
  dsimp only at h
  split at h
  next a b c d more =>
    split at h
    next ha hb hc hd =>
      have hdigit {c : Char} {value : Nat} {rest : List Char} (h : hexValue? c = some value) :
          Walk .inside (c :: rest) .inside rest :=
        .within (ne_mark_of_hexValue? h).1 (ne_mark_of_hexValue? h).2
      obtain ⟨-, rfl⟩ := Prod.mk.inj (Except.ok.inj h)
      exact (hdigit ha).trans ((hdigit hb).trans ((hdigit hc).trans (hdigit hd)))
    next => cases h
  next => split at h <;> cases h

/-- What comes behind `\u` in a string. -/
theorem walk_readUnicodeEscape {text rest : List Char} {c : Char}
    (h : readUnicodeEscape text = .ok (c, rest)) : Walk .inside text .inside rest := by
  unfold readUnicodeEscape at h
  dsimp only at h
  obtain ⟨⟨first, more⟩, hfirst, h⟩ := exists_of_bind_eq_ok h
  refine (walk_readFourHex hfirst).trans ?_
  dsimp only at h
  -- half of a pair, a character, or half of a pair before the other half
  split at h
  · exact absurd h failBefore_ne_ok
  split at h
  · obtain ⟨-, rfl⟩ := Prod.mk.inj (Except.ok.inj h)
    exact .done
  split at h
  · exact absurd h failBefore_ne_ok
  · exact absurd h failBefore_ne_ok
  · obtain ⟨⟨second, after⟩, hsecond, h⟩ := exists_of_bind_eq_ok h
    refine Walk.hidden.trans ((walk_readFourHex hsecond).trans ?_)
    dsimp only at h
    split at h
    · exact absurd h failBefore_ne_ok
    · obtain ⟨-, rfl⟩ := Prod.mk.inj (Except.ok.inj h)
      exact .done
  · cases h
  · cases h

theorem walk_readStringBody {fuel : Nat} {acc text rest : List Char} {s : String}
    (h : readStringBody fuel acc text = .ok (s, rest)) : Walk .inside text .outside rest := by
  induction fuel generalizing acc text with
  | zero => exact absurd h failBefore_ne_ok
  | succ fuel ih =>
    cases text with
    | nil =>
      unfold readStringBody at h
      exact absurd h failBefore_ne_ok
    | cons c after =>
      unfold readStringBody at h
      dsimp only at h
      -- a quote, a backslash, a control character or any other one
      split at h
      next hquote =>
        obtain ⟨-, rfl⟩ := Prod.mk.inj (Except.ok.inj h)
        rw [hquote]
        exact .closing
      next hquote =>
        split at h
        next hslash =>
          rw [hslash]
          split at h
          · exact absurd h failBefore_ne_ok
          · obtain ⟨⟨d, left⟩, hescape, h⟩ := exists_of_bind_eq_ok h
            exact Walk.hidden.trans ((walk_readUnicodeEscape hescape).trans (ih h))
          · split at h
            · exact Walk.hidden.trans (ih h)
            · cases h
        next hslash =>
          split at h
          · cases h
          · exact Walk.trans (.within hquote hslash) (ih h)

/-- **A string** is passed up to its closing quote. -/
theorem walk_readString {text rest : List Char} {s : String}
    (h : readString text = .ok (s, rest)) : Walk .inside text .outside rest :=
  walk_readStringBody h

/-! ### Values -/

/-- **Each part of the reader walks through what it reads.** A member begins behind the quote that
opens its key. -/
structure Walks (fuel : Nat) : Prop where
  value : ∀ {depth : Nat} {text rest : List Char} {v : Value},
    readValue fuel depth text = .ok (v, rest) → Walk .outside text .outside rest
  items : ∀ {depth : Nat} {first : Bool} {text rest : List Char} {vs : List Value},
    readItems fuel depth first text = .ok (vs, rest) → Walk .outside text .outside rest
  members : ∀ {depth : Nat} {first : Bool} {text rest : List Char} {ms : List (String × Value)},
    readMembers fuel depth first text = .ok (ms, rest) → Walk .outside text .outside rest
  member : ∀ {depth : Nat} {text rest : List Char} {ms : List (String × Value)},
    readMember fuel depth text = .ok (ms, rest) → Walk .inside text .outside rest

section Step

variable {fuel depth : Nat} {first : Bool} {text rest : List Char}

theorem walk_readValue (hwalks : Walks fuel) {v : Value}
    (h : readValue (fuel + 1) depth text = .ok (v, rest)) : Walk .outside text .outside rest := by
  have hskip := walk_skipBlanks text
  unfold readValue at h
  dsimp only at h
  -- by the first character that is no blank, in the order in which it is looked at
  split at h
  next => exact absurd h failAt_ne_ok
  next c after hblanks =>
    rw [hblanks] at hskip
    refine hskip.trans ?_
    split at h
    next hc =>
      rw [hc]
      exact Walk.trans (.one (by decide) (by decide)) (walk_readWord (by simp [isPlain]) h)
    split at h
    next hc =>
      rw [hc]
      exact Walk.trans (.one (by decide) (by decide)) (walk_readWord (by simp [isPlain]) h)
    split at h
    next hc =>
      rw [hc]
      exact Walk.trans (.one (by decide) (by decide)) (walk_readWord (by simp [isPlain]) h)
    split at h
    next hc =>
      rw [hc]
      obtain ⟨n, hn⟩ := ok_of_map_fst h
      exact Walk.trans (.one (by decide) (by decide)) (walk_readUnsigned hn)
    split at h
    next =>
      obtain ⟨n, hn⟩ := ok_of_map_fst h
      exact walk_readUnsigned hn
    split at h
    next hc =>
      rw [hc]
      obtain ⟨s, hs⟩ := ok_of_map_fst h
      exact Walk.opening.trans (walk_readString hs)
    split at h
    next hc =>
      split at h
      · exact absurd h failAt_ne_ok
      · rw [hc]
        obtain ⟨vs, hvs⟩ := ok_of_map_fst h
        exact Walk.trans (.one (by decide) (by decide)) (hwalks.items hvs)
    split at h
    next hc =>
      split at h
      · exact absurd h failAt_ne_ok
      · rw [hc]
        obtain ⟨ms, hms⟩ := ok_of_map_fst h
        exact Walk.trans (.one (by decide) (by decide)) (hwalks.members hms)
    exact absurd h failAt_ne_ok

/-- An item and the items after it. -/
theorem walk_item (hwalks : Walks fuel) {vs : List Value}
    (h : (do
      let (v, rest) ← readValue fuel depth text
      let (vs, rest) ← readItems fuel depth false rest
      pure (v :: vs, rest) : Except Failure (List Value × List Char)) = .ok (vs, rest)) :
    Walk .outside text .outside rest := by
  obtain ⟨⟨v, left⟩, hv, h⟩ := exists_of_bind_eq_ok h
  obtain ⟨⟨more, left'⟩, hmore, h⟩ := exists_of_bind_eq_ok h
  obtain ⟨-, rfl⟩ := Prod.mk.inj (Except.ok.inj h)
  exact (hwalks.value hv).trans (hwalks.items hmore)

theorem walk_readItems (hwalks : Walks fuel) {vs : List Value}
    (h : readItems (fuel + 1) depth first text = .ok (vs, rest)) :
    Walk .outside text .outside rest := by
  have hskip := walk_skipBlanks text
  unfold readItems at h
  dsimp only at h
  -- the closing bracket, a first item, or a comma and a further one
  split at h
  next => exact absurd h failAt_ne_ok
  next c after hblanks =>
    rw [hblanks] at hskip
    refine hskip.trans ?_
    split at h
    next hc =>
      obtain ⟨-, rfl⟩ := Prod.mk.inj (Except.ok.inj h)
      rw [hc]
      exact .one (by decide) (by decide)
    split at h
    next => exact walk_item hwalks h
    split at h
    next hc =>
      rw [hc]
      refine Walk.trans (.one (by decide) (by decide)) ((walk_skipBlanks after).trans ?_)
      split at h
      · exact absurd h failAt_ne_ok
      · exact absurd h failAt_ne_ok
      · exact walk_item hwalks h
    exact absurd h failAt_ne_ok

theorem walk_readMembers (hwalks : Walks fuel) {ms : List (String × Value)}
    (h : readMembers (fuel + 1) depth first text = .ok (ms, rest)) :
    Walk .outside text .outside rest := by
  have hskip := walk_skipBlanks text
  unfold readMembers at h
  dsimp only at h
  -- the closing brace, a first member, or a comma and a further one
  split at h
  next => exact absurd h failAt_ne_ok
  next c after hblanks =>
    rw [hblanks] at hskip
    refine hskip.trans ?_
    split at h
    next hc =>
      obtain ⟨-, rfl⟩ := Prod.mk.inj (Except.ok.inj h)
      rw [hc]
      exact .one (by decide) (by decide)
    split at h
    next =>
      split at h
      next hc =>
        rw [hc]
        exact Walk.opening.trans (hwalks.member h)
      next => exact absurd h failAt_ne_ok
    split at h
    next hc =>
      have hmore := walk_skipBlanks after
      rw [hc]
      refine Walk.trans (.one (by decide) (by decide)) ?_
      split at h
      next => exact absurd h failAt_ne_ok
      next d more hblanks' =>
        rw [hblanks'] at hmore
        refine hmore.trans ?_
        split at h
        next hd =>
          rw [hd]
          exact Walk.opening.trans (hwalks.member h)
        split at h <;> exact absurd h failAt_ne_ok
    exact absurd h failAt_ne_ok

theorem walk_readMember (hwalks : Walks fuel) {ms : List (String × Value)}
    (h : readMember (fuel + 1) depth text = .ok (ms, rest)) : Walk .inside text .outside rest := by
  unfold readMember at h
  obtain ⟨⟨key, left⟩, hkey, h⟩ := exists_of_bind_eq_ok h
  refine (walk_readString hkey).trans ?_
  have hskip := walk_skipBlanks left
  dsimp only at h
  split at h
  next => exact absurd h failAt_ne_ok
  next more hblanks =>
    rw [hblanks] at hskip
    obtain ⟨⟨v, left'⟩, hv, h⟩ := exists_of_bind_eq_ok h
    obtain ⟨⟨others, left''⟩, hothers, h⟩ := exists_of_bind_eq_ok h
    obtain ⟨-, rfl⟩ := Prod.mk.inj (Except.ok.inj h)
    have hcolon : Walk .outside (':' :: more) .outside more := .one (by decide) (by decide)
    exact hskip.trans (hcolon.trans ((hwalks.value hv).trans (hwalks.members hothers)))
  next => exact absurd h failAt_ne_ok

end Step

/-- **The reader walks through what it reads,** with any fuel. -/
theorem walks (fuel : Nat) : Walks fuel := by
  induction fuel with
  | zero =>
    refine ⟨fun h => ?_, fun h => ?_, fun h => ?_, fun h => ?_⟩
    · unfold readValue at h
      exact absurd h failBefore_ne_ok
    · unfold readItems at h
      exact absurd h failBefore_ne_ok
    · unfold readMembers at h
      exact absurd h failBefore_ne_ok
    · unfold readMember at h
      exact absurd h failBefore_ne_ok
  | succ fuel ih =>
    exact ⟨walk_readValue ih, walk_readItems ih, walk_readMembers ih, walk_readMember ih⟩

/-! ### Whole texts -/

/-- **A text that can be read is passed as a whole.** It holds no capital letters outside of its
strings, those of exponents apart. -/
theorem walk_of_read {text : String} {v : Value} (h : read text = .ok v) :
    Walk .outside text.toList .outside [] := by
  unfold read at h
  obtain ⟨⟨v', rest⟩, hv, h⟩ := exists_of_bind_eq_ok h
  have hblanks := walk_skipBlanks rest
  dsimp only at h
  split at h
  next hnil =>
    rw [hnil] at hblanks
    exact ((walks _).value hv).trans hblanks
  next => exact absurd h failAt_ne_ok

theorem suffix_skipBlanks (text : List Char) : skipBlanks text <:+ text := by
  induction text with
  | nil => exact List.suffix_rfl
  | cons c rest ih =>
    rw [skipBlanks]
    split
    · exact ih.trans (List.suffix_cons c rest)
    · exact List.suffix_rfl

/-- No value begins with a blank. -/
theorem readValue_ne_ok {fuel depth : Nat} {text after : List Char} {c : Char}
    (hskip : skipBlanks text = c :: after) (hblank : Text.isBlank c = true)
    (r : Value × List Char) : readValue fuel depth text ≠ .ok r := by
  intro h
  cases fuel with
  | zero =>
    unfold readValue at h
    exact failBefore_ne_ok h
  | succ fuel =>
    -- a blank is none of the characters that a value begins with
    have hne {d : Char} (hd : Text.isBlank d = false) : c ≠ d := by
      rintro rfl
      exact Bool.false_ne_true (hd.symm.trans hblank)
    unfold readValue at h
    simp only [hskip, hne (by decide : Text.isBlank 'n' = false),
      hne (by decide : Text.isBlank 't' = false), hne (by decide : Text.isBlank 'f' = false),
      hne (by decide : Text.isBlank '-' = false), Text.not_isDigit_of_isBlank hblank,
      hne (by decide : Text.isBlank '\x22' = false), hne (by decide : Text.isBlank '[' = false),
      hne (by decide : Text.isBlank '\x7b' = false), if_false, Bool.false_eq_true] at h
    exact failAt_ne_ok h

/-- **Blanks alone are no value.** -/
theorem not_isAllBlank_of_read {text : String} {v : Value} (h : read text = .ok v) :
    Text.isAllBlank text = false := by
  rw [Text.isAllBlank, Bool.eq_false_iff]
  intro hall
  have hblank := List.all_eq_true.mp hall
  unfold read at h
  obtain ⟨⟨v', rest⟩, hv, -⟩ := exists_of_bind_eq_ok h
  cases hskip : skipBlanks text.toList with
  | nil =>
    unfold readValue at hv
    simp only [hskip] at hv
    exact failAt_ne_ok hv
  | cons c after =>
    have hmem : c ∈ text.toList := (suffix_skipBlanks _).subset (hskip ▸ List.mem_cons_self)
    exact readValue_ne_ok hskip (hblank c hmem) _ hv

end Json

end Scenario
