import Scenario.Condition
import Scenario.Proofs.Json.Strings

/-!
# The text form of a condition

In the text of a condition the words `None`, `True` and `False` stand for those of JSON. They are
replaced before the text is read, and without regard to what is a string. `respell` is the reading
in which only words outside of strings count; `quotesWord` finds the words inside.

* `word_induction`: a text is made of words and of characters at which none begins.
* `Respelling.replaceWords_eq`: **a text with some of its words replaced is read as the text is,**
  for the words that are left stand where they stood and no new one comes up.
* `replaceWords_eq_respell_iff`: the two readings differ exactly where a string holds a word.
* `respell_eq_self`: a JSON text holds no word outside of its strings.
* `ofField_text`: so the words outside of strings mean what they stand for, and the text form of a
  condition means what its object means, when no string holds a word.
* `ofField_quoted`: a string that is a word is changed.
-/

namespace Scenario

namespace Condition

open Pattern (isWordChar)
open Json (Mode Walk isPlain)

/-! ### Words -/

/-- **What a word and its replacement are made of:** letters, with a capital first and with a small
letter first. -/
structure Spelled (word replacement : List Char) : Prop where
  letters : ∀ c ∈ word, isWordChar c = true ∧ c ≠ '\x22'
  letters' : ∀ c ∈ replacement, isWordChar c = true
  capital : ∀ c ∈ word.head?, isPlain c = false ∧ Text.isBlank c = false
  small : ∀ c ∈ replacement.head?, isPlain c = true ∧ Text.isBlank c = false
  ne_nil : word ≠ []
  ne_nil' : replacement ≠ []

theorem spelled_of_mem_words {word replacement : List Char} (h : (word, replacement) ∈ words) :
    Spelled word replacement := by
  simp only [words, List.mem_cons, Prod.mk.injEq, List.not_mem_nil, or_false] at h
  rcases h with ⟨rfl, rfl⟩ | ⟨rfl, rfl⟩ | ⟨rfl, rfl⟩
  all_goals constructor <;> simp [isPlain, isWordChar, Text.isBlank]

/-- **Where a word stands:** at the beginning of the text, with no letter behind it. -/
theorem wordAt?_eq_some_iff {text word replacement : List Char} :
    wordAt? text = some (word, replacement) ↔ (word, replacement) ∈ words ∧
      ∃ after, text = word ++ after ∧ after.head?.any isWordChar = false := by
  constructor
  · intro h
    have hmem := List.mem_of_find?_eq_some h
    have hends := List.find?_some h
    dsimp only at hends
    split at hends
    next after hafter =>
      exact ⟨hmem, after, Text.after?_eq_some_iff.mp hafter, Bool.not_eq_true' _ ▸ hends⟩
    next => exact absurd hends Bool.false_ne_true
  · rintro ⟨hmem, after, rfl, hends⟩
    simp only [words, List.mem_cons, Prod.mk.injEq, List.not_mem_nil, or_false] at hmem
    rcases hmem with ⟨rfl, rfl⟩ | ⟨rfl, rfl⟩ | ⟨rfl, rfl⟩
    · simp [wordAt?, words, Text.after?, hends]
    · simp [wordAt?, words, Text.after?, hends]
    · simp [wordAt?, words, Text.after?, hends]

/-- A word that begins with a given character. -/
theorem wordAt?_cons_eq_some {c : Char} {rest word replacement : List Char}
    (h : wordAt? (c :: rest) = some (word, replacement)) :
    ∃ more after, word = c :: more ∧ rest = more ++ after ∧ (word, replacement) ∈ words ∧
      after.head?.any isWordChar = false := by
  obtain ⟨hmem, after, htext, hends⟩ := wordAt?_eq_some_iff.mp h
  obtain ⟨d, more, rfl⟩ := List.exists_cons_of_ne_nil (spelled_of_mem_words hmem).ne_nil
  rw [List.cons_append] at htext
  obtain ⟨rfl, rfl⟩ := List.cons.inj htext
  exact ⟨more, after, rfl, rfl, hmem, hends⟩

/-- No word begins with a plain character. -/
theorem wordAt?_of_plain {c : Char} (h : isPlain c = true) (rest : List Char) :
    wordAt? (c :: rest) = none := by
  refine Option.eq_none_iff_forall_ne_some.mpr fun ⟨word, replacement⟩ hword => ?_
  obtain ⟨more, after, rfl, -, hmem, -⟩ := wordAt?_cons_eq_some hword
  have hcapital := (spelled_of_mem_words hmem).capital c rfl
  exact Bool.false_ne_true (hcapital.1.symm.trans h)

/-- The word at the beginning of a text is its first run of letters. -/
theorem wordAt?_eq_some_iff_takeWhile {text word replacement : List Char} :
    wordAt? text = some (word, replacement) ↔
      (word, replacement) ∈ words ∧ text.takeWhile isWordChar = word := by
  rw [wordAt?_eq_some_iff]
  refine and_congr_right fun hmem => ?_
  constructor
  · rintro ⟨after, rfl, hends⟩
    have hletters : ∀ c ∈ word, isWordChar c = true := fun c hc =>
      ((spelled_of_mem_words hmem).letters c hc).1
    rw [List.takeWhile_append_of_pos hletters]
    -- what follows the word is no letter, so the run of letters ends there
    cases after with
    | nil => exact List.append_nil word
    | cons d more =>
      have hd : ¬ isWordChar d = true := Bool.eq_false_iff.mp hends
      rw [List.takeWhile_cons_of_neg hd, List.append_nil]
  · rintro rfl
    refine ⟨text.dropWhile isWordChar, List.takeWhile_append_dropWhile.symm, ?_⟩
    -- what is left behind the run of letters begins with none
    have hends := List.head?_dropWhile_not isWordChar text
    cases hafter : (text.dropWhile isWordChar).head? with
    | none => rfl
    | some d =>
      rw [hafter] at hends
      exact hends

/-- **A text is made of words and of characters at which none begins.** A word may also be taken
letter by letter. -/
theorem word_induction {motive : Bool → List Char → Prop} (nil : ∀ inWord, motive inWord [])
    (word : ∀ word replacement after, (word, replacement) ∈ words →
      after.head?.any isWordChar = false → motive true after → motive true (word.tail ++ after) →
        motive false (word ++ after))
    (char : ∀ inWord c rest, inWord = true ∨ wordAt? (c :: rest) = none →
      motive (isWordChar c) rest → motive inWord (c :: rest))
    (inWord : Bool) (text : List Char) : motive inWord text := by
  induction hlength : text.length using Nat.strongRecOn generalizing inWord text with
  | ind n ih =>
  cases text with
  | nil => exact nil inWord
  | cons c rest =>
    have hlt : rest.length < n := by
      rw [← hlength]
      exact Nat.lt_succ_self _
    have hrest : motive (isWordChar c) rest := ih _ hlt _ _ rfl
    -- where a word begins, the text behind all of it is shorter, too
    by_cases hkept : inWord = true ∨ wordAt? (c :: rest) = none
    · exact char inWord c rest hkept hrest
    · obtain ⟨hin, hfound⟩ := not_or.mp hkept
      obtain ⟨⟨first, replacement⟩, hword⟩ := Option.ne_none_iff_exists'.mp hfound
      obtain ⟨more, after, rfl, rfl, hmem, hends⟩ := wordAt?_cons_eq_some hword
      have hshorter : after.length < n := by
        rw [List.length_append] at hlt
        omega
      rw [((spelled_of_mem_words hmem).letters c List.mem_cons_self).1] at hrest
      rw [Bool.not_eq_true] at hin
      rw [hin]
      exact word _ _ after hmem hends (ih _ hshorter _ _ rfl) hrest

/-! ### Replacing all words -/

section Replace

variable {word replacement after : List Char}

theorem replaceWords_skip (skipped rest : List Char) :
    replaceWords true skipped.length (skipped ++ rest) = replaceWords true 0 rest := by
  induction skipped with
  | nil => rfl
  | cons c more ih => exact ih

theorem replaceWords_word (hmem : (word, replacement) ∈ words)
    (hends : after.head?.any isWordChar = false) :
    replaceWords false 0 (word ++ after) = replacement ++ replaceWords true 0 after := by
  have hword := wordAt?_eq_some_iff.mpr ⟨hmem, after, rfl, hends⟩
  obtain ⟨c, more, rfl⟩ := List.exists_cons_of_ne_nil (spelled_of_mem_words hmem).ne_nil
  rw [List.cons_append] at hword ⊢
  rw [replaceWords, if_neg Bool.false_ne_true, hword]
  exact congrArg _ (replaceWords_skip more after)

theorem replaceWords_char {inWord : Bool} {c : Char} {rest : List Char}
    (h : inWord = true ∨ wordAt? (c :: rest) = none) :
    replaceWords inWord 0 (c :: rest) = c :: replaceWords (isWordChar c) 0 rest := by
  have hnone : (if inWord = true then none else wordAt? (c :: rest)) = none := by
    rcases h with rfl | h
    · rfl
    · rw [h, ite_self]
  rw [replaceWords, hnone]

/-- Behind a letter, letters stay. -/
theorem replaceWords_letters {letters : List Char}
    (hletters : ∀ c ∈ letters, isWordChar c = true) (rest : List Char) :
    replaceWords true 0 (letters ++ rest) = letters ++ replaceWords true 0 rest := by
  induction letters with
  | nil => rfl
  | cons c more ih =>
    have hc := hletters c List.mem_cons_self
    have hmore := ih fun d hd => hletters d (List.mem_cons_of_mem c hd)
    rw [List.cons_append, replaceWords_char (.inl rfl), hc, hmore, List.cons_append]

end Replace

/-! ### Replacing some words -/

/-- **A text with some of its words replaced.** As for `replaceWords`, the text may begin within a
word. -/
inductive Respelling : Bool → List Char → List Char → Prop where
  | nil {inWord : Bool} : Respelling inWord [] []
  | word {word replacement after out : List Char} :
      (word, replacement) ∈ words → after.head?.any isWordChar = false →
        Respelling true after out → Respelling false (word ++ after) (replacement ++ out)
  | char {inWord : Bool} {c : Char} {rest out : List Char} :
      Respelling (isWordChar c) rest out → Respelling inWord (c :: rest) (c :: out)

namespace Respelling

variable {inWord : Bool} {text out : List Char}

/-- Behind a letter, the run of letters stays. -/
theorem takeWhile_eq (h : Respelling inWord text out) (hin : inWord = true) :
    out.takeWhile isWordChar = text.takeWhile isWordChar := by
  induction h with
  | nil => rfl
  | word => exact absurd hin Bool.false_ne_true
  | char _ ih =>
    rw [List.takeWhile_cons, List.takeWhile_cons]
    split
    next hc => rw [ih hc]
    next => rfl

/-- **A word begins where one began,** and it is the same. -/
theorem wordAt?_eq {c : Char} (h : Respelling (isWordChar c) text out) :
    wordAt? (c :: out) = wordAt? (c :: text) := by
  have hrun : (c :: out).takeWhile isWordChar = (c :: text).takeWhile isWordChar :=
    takeWhile_eq (.char h) rfl
  ext ⟨word, replacement⟩
  rw [wordAt?_eq_some_iff_takeWhile, wordAt?_eq_some_iff_takeWhile, hrun]

/-- **Replacing some words first makes no difference** when all of them are replaced. -/
theorem replaceWords_eq (h : Respelling inWord text out) :
    replaceWords inWord 0 out = replaceWords inWord 0 text := by
  induction h with
  | nil => rfl
  | @word word replacement after out hmem hends _ ih =>
    -- what the word has become is made of letters, and no word
    have hpair := spelled_of_mem_words hmem
    obtain ⟨c, more, rfl⟩ := List.exists_cons_of_ne_nil hpair.ne_nil'
    have hhead := wordAt?_of_plain (hpair.small c rfl).1 (more ++ out)
    have hmore : ∀ d ∈ more, isWordChar d = true := fun d hd =>
      hpair.letters' d (List.mem_cons_of_mem c hd)
    rw [replaceWords_word hmem hends, List.cons_append, replaceWords_char (.inr hhead),
      hpair.letters' c List.mem_cons_self, replaceWords_letters hmore, ih, List.cons_append]
  | @char inWord c rest out hrest ih =>
    by_cases hkept : inWord = true ∨ wordAt? (c :: rest) = none
    · have hkept' : inWord = true ∨ wordAt? (c :: out) = none := by rwa [hrest.wordAt?_eq]
      rw [replaceWords_char hkept, replaceWords_char hkept', ih]
    · -- a word that has been kept is replaced in both texts
      obtain ⟨hin, hfound⟩ := not_or.mp hkept
      obtain ⟨⟨word, replacement⟩, hword⟩ := Option.ne_none_iff_exists'.mp hfound
      have hword' := hrest.wordAt?_eq.trans hword
      obtain ⟨more, after, rfl, rfl, hmem, hends⟩ := wordAt?_cons_eq_some hword
      obtain ⟨more', after', hsame, rfl, -, hends'⟩ := wordAt?_cons_eq_some hword'
      obtain rfl := (List.cons.inj hsame).2
      have hpair := spelled_of_mem_words hmem
      have hmore : ∀ e ∈ more, isWordChar e = true := fun e he =>
        (hpair.letters e (List.mem_cons_of_mem c he)).1
      rw [(hpair.letters c List.mem_cons_self).1, replaceWords_letters hmore,
        replaceWords_letters hmore, List.append_cancel_left_eq] at ih
      rw [Bool.not_eq_true] at hin
      rw [hin, ← List.cons_append, ← List.cons_append, replaceWords_word hmem hends,
        replaceWords_word hmem hends', ih]

/-- Blanks are neither added nor taken away. -/
theorem all_isBlank (h : Respelling inWord text out) :
    out.all Text.isBlank = text.all Text.isBlank := by
  induction h with
  | nil => rfl
  | word hmem _ _ _ =>
    have hpair := spelled_of_mem_words hmem
    obtain ⟨c, more, rfl⟩ := List.exists_cons_of_ne_nil hpair.ne_nil
    obtain ⟨d, more', rfl⟩ := List.exists_cons_of_ne_nil hpair.ne_nil'
    rw [List.cons_append, List.cons_append, List.all_cons, List.all_cons, (hpair.capital c rfl).2,
      (hpair.small d rfl).2, Bool.false_and, Bool.false_and]
  | char _ ih => rw [List.all_cons, List.all_cons, ih]

end Respelling

/-! ### Replacing words outside of strings -/

/-- The text with the words outside of its strings replaced; `mode` says where the text begins,
`inWord` and `skip` are as for `replaceWords`. -/
def respell (mode : Mode) (inWord : Bool) (skip : Nat) : List Char → List Char
  | [] => []
  | c :: rest =>
    match skip with
    | n + 1 => respell (mode.next c) true n rest
    | 0 =>
      match if inWord || mode ≠ .outside then none else wordAt? (c :: rest) with
      | some (word, replacement) =>
        replacement ++ respell (mode.next c) true (word.length - 1) rest
      | none => c :: respell (mode.next c) (isWordChar c) 0 rest

/-- Whether a word stands in one of the strings of a text. -/
def quotesWord (mode : Mode) (inWord : Bool) : List Char → Bool
  | [] => false
  | c :: rest =>
    (mode ≠ .outside && !inWord && (wordAt? (c :: rest)).isSome) ||
      quotesWord (mode.next c) (isWordChar c) rest

section Respell

variable {mode : Mode} {word replacement after : List Char}

theorem next_outside {c : Char} (h : c ≠ '\x22') : Mode.next .outside c = .outside := by
  rw [Mode.next, if_neg h]

theorem respell_skip {skipped : List Char} (hskipped : ∀ c ∈ skipped, c ≠ '\x22')
    (rest : List Char) :
    respell .outside true skipped.length (skipped ++ rest) = respell .outside true 0 rest := by
  induction skipped with
  | nil => rfl
  | cons c more ih =>
    have hmore := ih fun d hd => hskipped d (List.mem_cons_of_mem c hd)
    rw [List.length_cons, List.cons_append, respell, next_outside (hskipped c List.mem_cons_self)]
    exact hmore

theorem respell_word (hmem : (word, replacement) ∈ words)
    (hends : after.head?.any isWordChar = false) :
    respell .outside false 0 (word ++ after) = replacement ++ respell .outside true 0 after := by
  have hword := wordAt?_eq_some_iff.mpr ⟨hmem, after, rfl, hends⟩
  have hpair := spelled_of_mem_words hmem
  obtain ⟨c, more, rfl⟩ := List.exists_cons_of_ne_nil hpair.ne_nil
  have hmore : ∀ d ∈ more, d ≠ '\x22' := fun d hd =>
    (hpair.letters d (List.mem_cons_of_mem c hd)).2
  rw [List.cons_append] at hword ⊢
  rw [respell, if_neg (by decide), hword, next_outside (hpair.letters c List.mem_cons_self).2]
  exact congrArg _ (respell_skip hmore after)

theorem respell_char {inWord : Bool} {c : Char} {rest : List Char}
    (h : mode ≠ .outside ∨ inWord = true ∨ wordAt? (c :: rest) = none) :
    respell mode inWord 0 (c :: rest) =
      c :: respell (mode.next c) (isWordChar c) 0 rest := by
  have hnone : (if (inWord || mode ≠ .outside) = true then none else wordAt? (c :: rest)) =
      none := by
    rcases h with h | rfl | h
    · rw [decide_eq_true h, Bool.or_true, if_pos rfl]
    · rfl
    · rw [h, ite_self]
  rw [respell, hnone]

theorem quotesWord_letters {letters : List Char}
    (hletters : ∀ c ∈ letters, isWordChar c = true ∧ c ≠ '\x22') (rest : List Char) :
    quotesWord .outside true (letters ++ rest) = quotesWord .outside true rest := by
  induction letters with
  | nil => rfl
  | cons c more ih =>
    obtain ⟨hc, hquote⟩ := hletters c List.mem_cons_self
    have hmore := ih fun d hd => hletters d (List.mem_cons_of_mem c hd)
    rw [List.cons_append, quotesWord, next_outside hquote, hc, hmore]
    rfl

/-- A word outside of strings is passed. -/
theorem quotesWord_word (hmem : (word, replacement) ∈ words) :
    quotesWord .outside false (word ++ after) = quotesWord .outside true after := by
  have hpair := spelled_of_mem_words hmem
  obtain ⟨c, more, rfl⟩ := List.exists_cons_of_ne_nil hpair.ne_nil
  obtain ⟨hc, hquote⟩ := hpair.letters c List.mem_cons_self
  have hmore := quotesWord_letters (fun d hd => hpair.letters d (List.mem_cons_of_mem c hd)) after
  rw [List.cons_append, quotesWord, next_outside hquote, hc, hmore]
  rfl

theorem quotesWord_char {inWord : Bool} {c : Char} {rest : List Char}
    (h : inWord = true ∨ wordAt? (c :: rest) = none) :
    quotesWord mode inWord (c :: rest) = quotesWord (mode.next c) (isWordChar c) rest := by
  rw [quotesWord]
  rcases h with rfl | h
  · rw [Bool.not_true, Bool.and_false, Bool.false_and, Bool.false_or]
  · rw [h, Option.isSome_none, Bool.and_false, Bool.false_or]

/-- **The two readings differ exactly where a string holds a word.** -/
theorem replaceWords_eq_respell_iff (mode : Mode) (inWord : Bool) (text : List Char) :
    replaceWords inWord 0 text = respell mode inWord 0 text ↔
      quotesWord mode inWord text = false := by
  induction inWord, text using word_induction generalizing mode with
  | nil inWord => exact iff_of_true rfl rfl
  | word word replacement after hmem hends ih _ =>
    by_cases hmode : mode = .outside
    · rw [hmode, replaceWords_word hmem hends, respell_word hmem hends, quotesWord_word hmem,
        List.append_cancel_left_eq]
      exact ih .outside
    · -- in a string the word is replaced by one reading and kept by the other
      have hword := wordAt?_eq_some_iff.mpr ⟨hmem, after, rfl, hends⟩
      have hpair := spelled_of_mem_words hmem
      obtain ⟨c, more, rfl⟩ := List.exists_cons_of_ne_nil hpair.ne_nil
      obtain ⟨d, more', rfl⟩ := List.exists_cons_of_ne_nil hpair.ne_nil'
      have hdiffer : d ≠ c := by
        rintro rfl
        exact Bool.false_ne_true ((hpair.capital d rfl).1.symm.trans (hpair.small d rfl).1)
      rw [replaceWords_word hmem hends, List.cons_append, List.cons_append,
        respell_char (.inl hmode)]
      refine iff_of_false (fun heq => hdiffer (List.cons.inj heq).1) ?_
      rw [List.cons_append] at hword
      rw [quotesWord, hword, decide_eq_true hmode]
      exact Bool.noConfusion
  | char inWord c rest h ih =>
    rw [replaceWords_char h, respell_char (.inr h), quotesWord_char h, List.cons_inj_right]
    exact ih (mode.next c)

/-- Replacing the words outside of strings is replacing some words. -/
theorem respelling_respell (mode : Mode) (inWord : Bool) (text : List Char) :
    Respelling inWord text (respell mode inWord 0 text) := by
  induction inWord, text using word_induction generalizing mode with
  | nil inWord => exact .nil
  | word word replacement after hmem hends ih ih' =>
    by_cases hmode : mode = .outside
    · rw [hmode, respell_word hmem hends]
      exact .word hmem hends (ih .outside)
    · have hpair := spelled_of_mem_words hmem
      obtain ⟨c, more, rfl⟩ := List.exists_cons_of_ne_nil hpair.ne_nil
      have hc := (hpair.letters c List.mem_cons_self).1
      -- in a string the word is kept, letter by letter
      rw [List.cons_append, respell_char (.inl hmode)]
      refine .char ?_
      rw [hc]
      exact ih' _
  | char inWord c rest h ih =>
    rw [respell_char (.inr h)]
    exact .char (ih _)

/-- **A JSON text holds no word outside of its strings.** -/
theorem respell_eq_self {mode mode' : Mode} {text rest : List Char}
    (h : Walk mode text mode' rest) (hrest : rest = []) (inWord : Bool) :
    respell mode inWord 0 text = text := by
  induction h generalizing inWord with
  | done => rw [hrest, respell]
  | @step mode mode' c text rest hplain _ ih =>
    have hnone : mode ≠ .outside ∨ inWord = true ∨ wordAt? (c :: text) = none := by
      -- a plain character begins no word, and in a string none is looked for
      by_cases hmode : mode = .outside
      · exact .inr (.inr (wordAt?_of_plain (hplain hmode) text))
      · exact .inl hmode
    rw [respell_char hnone, ih hrest]

end Respell

/-! ### Conditions -/

/-- The text with the words outside of its strings replaced. -/
def respelled (text : String) : String :=
  String.ofList (respell .outside false 0 text.toList)

theorem read_of_ofText {text : String} {v : Json.Value} (h : Json.Value.ofText text = .ok v) :
    ∃ raw, Json.read text = .ok raw := by
  obtain ⟨raw, hraw, -⟩ := exists_of_map_eq_ok h
  exact ⟨raw, hraw⟩

/-- A JSON text is respelled as it is. -/
theorem respelled_eq_self {text : String} {v : Json.Value}
    (h : Json.Value.ofText text = .ok v) : respelled text = text := by
  obtain ⟨raw, hraw⟩ := read_of_ofText h
  rw [respelled, respell_eq_self (Json.walk_of_read hraw) rfl, String.ofList_toList]

/-- Only what is declared counts. -/
theorem ofField_congr {field field' : Option Json.Value} (h : declared field = declared field') :
    ofField field = ofField field' := by
  rw [ofField, ofField, h]

theorem declared_text (text : String) : declared (some (.string text)) =
    if Text.isAllBlank text then misconfigured .conditionMissing else readText text := rfl

theorem respelling_respelled (text : String) :
    Respelling false text.toList (respelled text).toList := by
  rw [respelled, String.toList_ofList]
  exact respelling_respell .outside false text.toList

theorem isAllBlank_respelled (text : String) :
    Text.isAllBlank (respelled text) = Text.isAllBlank text :=
  (respelling_respelled text).all_isBlank

theorem readText_respelled (text : String) : readText (respelled text) = readText text := by
  rw [readText, readText, (respelling_respelled text).replaceWords_eq]

/-- An object that the respelled text is read as is what the text declares, when no string of the
text holds a word. -/
theorem declared_of_respelled {text : String} {members : List (String × Json.Value)}
    (hquoted : quotesWord .outside false text.toList = false)
    (h : Json.Value.ofText (respelled text) = .ok (.object members)) :
    declared (some (.string text)) = .ok (.object members) := by
  obtain ⟨raw, hraw⟩ := read_of_ofText h
  have hblank := Json.not_isAllBlank_of_read hraw
  have hplain : String.ofList (replaceWords false 0 text.toList) = respelled text := by
    rw [respelled, (replaceWords_eq_respell_iff _ _ _).mpr hquoted]
  rw [isAllBlank_respelled] at hblank
  rw [declared_text, hblank, if_neg Bool.false_ne_true, readText]
  simp only [hplain, h]

/-- **The text form of a condition means what its object means.** The words outside of the strings
are as good as those of JSON, in every text. When no string of a text holds one of the words, and
the text is read as an object, then it gives the outcome that the object gives; so does a text that
is read as an object after the words outside of its strings are replaced. -/
theorem ofField_text (text : String) :
    ofField (some (.string text)) = ofField (some (.string (respelled text))) ∧
    (quotesWord .outside false text.toList = false → ∀ members,
      Json.Value.ofText text = .ok (.object members) →
        ofField (some (.string text)) = ofField (some (.object members))) ∧
    (quotesWord .outside false text.toList = false → ∀ members,
      Json.Value.ofText (respelled text) = .ok (.object members) →
        ofField (some (.string text)) = ofField (some (.object members))) := by
  refine ⟨?_, ?_, ?_⟩
  · refine ofField_congr ?_
    rw [declared_text, declared_text, isAllBlank_respelled, readText_respelled]
  · intro hquoted members h
    rw [← respelled_eq_self h] at h
    exact ofField_congr (declared_of_respelled hquoted h)
  · intro hquoted members h
    exact ofField_congr (declared_of_respelled hquoted h)

/-- The members of the object that a text is read as. -/
def membersOf? (text : String) : Option (List (String × Json.Value)) :=
  match Json.Value.ofText text with
  | .ok (.object members) => some members
  | _ => none

theorem ofText_of_membersOf? {text : String} {members : List (String × Json.Value)}
    (h : membersOf? text = some members) : Json.Value.ofText text = .ok (.object members) := by
  rw [membersOf?] at h
  split at h
  next hread =>
    rw [hread]
    exact congrArg _ (congrArg _ (Option.some.inj h))
  next => cases h

/-- Words of both spellings outside of strings, and strings that hold a word only as a part or
behind an escape. -/
theorem ofField_text_spelled :
    let text := "\x7b\"value\": [None, True, null], \"operation\": \"eq\", \"desc\": \"Nonesuch " ++
      "\\\"xTrue\\\" \\nNone \\u004eone\", \"except_value\": \x7b\"False_\": False\x7d\x7d"
    quotesWord .outside false text.toList = false ∧
      quotesWord .outside false (respelled text).toList = false ∧
      ofField (some (.string text)) = ofField (some (.string (respelled text))) ∧
      ∃ members, Json.Value.ofText (respelled text) = .ok (.object members) ∧
        ofField (some (.string text)) = ofField (some (.object members)) ∧
        ofField (some (.string (respelled text))) = ofField (some (.object members)) := by
  intro text
  have hquoted : quotesWord .outside false text.toList = false := by decide +kernel
  have hquoted' : quotesWord .outside false (respelled text).toList = false := by decide +kernel
  have hisSome : (membersOf? (respelled text)).isSome = true := by decide +kernel
  obtain ⟨members, hmembers⟩ := Option.isSome_iff_exists.mp hisSome
  have hread := ofText_of_membersOf? hmembers
  obtain ⟨hsame, -, hobject⟩ := ofField_text text
  obtain ⟨-, hobject', -⟩ := ofField_text (respelled text)
  exact ⟨hquoted, hquoted', hsame, members, hread, hobject hquoted members hread,
    hobject' hquoted' members hread⟩

/-- **A string that is a word is changed:** the value `"None"` becomes `"null"`, though the text is
JSON and its object has the value `"None"`. -/
theorem ofField_quoted :
    let text := "\x7b\"value\": \"None\", \"operation\": \"eq\"\x7d"
    let valueOf := fun field => (ofField (some field)).toOption.bind (·.value.asString?)
    ∃ members, Json.Value.ofText text = .ok (.object members) ∧
      valueOf (.string text) = some "null" ∧ valueOf (.object members) = some "None" ∧
      ofField (some (.string text)) ≠ ofField (some (.object members)) := by
  intro text valueOf
  have htext : valueOf (.string text) = some "null" := by decide +kernel
  have hread : ((membersOf? text).bind fun members => valueOf (.object members)) = some "None" := by
    decide +kernel
  obtain ⟨members, hmembers, hobject⟩ := Option.bind_eq_some_iff.mp hread
  refine ⟨members, ofText_of_membersOf? hmembers, htext, hobject, fun heq => ?_⟩
  have hsame := congrArg (fun outcome => outcome.toOption.bind (·.value.asString?)) heq
  exact absurd (htext.symm.trans (hsame.trans hobject)) (by decide)

end Condition

end Scenario
