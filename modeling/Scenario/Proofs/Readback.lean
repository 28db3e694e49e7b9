import Scenario.Proofs.Json.Printer
import Scenario.Proofs.Scan

/-!
# Script literals read back

A literal is written into a script so that the script reads the value that was meant. `Reader` is a
reader of the grammar of literals, written from the grammar alone: it knows nothing of how literals
are produced.

* `Reader.readElements_between` — elements between two brackets, with a comma and a blank between
  two of them; one lemma for lists and objects.
* `Reader.readValue_ofValue` — the induction over values. A text is read up to the end of the value,
  whatever stands behind it, as long as no number could go on there.
* `Cuts` — the literals that the scan of a script finds in a text. `cuts_ofValue`: in the literal of
  a value these are its strings and its keys, each of which ends where it was made to end.
* `read_ofValue` — both, for every value whose numbers are integers of 64 bits.
-/

namespace Scenario

/-! ### What is in a value -/

namespace Json.Value

mutual

/-- The numbers in a value, at any depth. -/
def numbers : Value → List Number
  | .number n => [n]
  | .array items => numbersOfItems items
  | .object members => numbersOfMembers members
  | _ => []

def numbersOfItems : List Value → List Number
  | [] => []
  | v :: rest => numbers v ++ numbersOfItems rest

def numbersOfMembers : List (String × Value) → List Number
  | [] => []
  | (_, v) :: rest => numbers v ++ numbersOfMembers rest

end

mutual

/-- The strings in a value, at any depth, and the keys of its objects, each before its value. -/
def strings : Value → List String
  | .string s => [s]
  | .array items => stringsOfItems items
  | .object members => stringsOfMembers members
  | _ => []

def stringsOfItems : List Value → List String
  | [] => []
  | v :: rest => strings v ++ stringsOfItems rest

def stringsOfMembers : List (String × Value) → List String
  | [] => []
  | (k, v) :: rest => k :: strings v ++ stringsOfMembers rest

end

theorem numbers_array (items : List Value) : (array items).numbers = items.flatMap numbers := by
  rw [numbers]
  induction items with
  | nil => rfl
  | cons v rest ih => rw [numbersOfItems, ih, List.flatMap_cons]

theorem numbers_object (members : List (String × Value)) :
    (object members).numbers = members.flatMap fun m => m.2.numbers := by
  rw [numbers]
  induction members with
  | nil => rfl
  | cons m rest ih => rw [numbersOfMembers, ih, List.flatMap_cons]

theorem strings_array (items : List Value) : (array items).strings = items.flatMap strings := by
  rw [strings]
  induction items with
  | nil => rfl
  | cons v rest ih => rw [stringsOfItems, ih, List.flatMap_cons]

theorem strings_object (members : List (String × Value)) :
    (object members).strings = members.flatMap fun m => m.1 :: m.2.strings := by
  rw [strings]
  induction members with
  | nil => rfl
  | cons m rest ih => rw [stringsOfMembers, ih, List.flatMap_cons]

end Json.Value

/-- A number that is a signed integer of 64 bits. -/
def Json.Number.IsWord (n : Json.Number) : Prop :=
  ∃ k : Int, n = .integer k ∧ -2 ^ 63 ≤ k ∧ k < 2 ^ 63

namespace Script

namespace Literal

open Json (Value)

/-! ### A reader of literals -/

namespace Reader

/-- The character that a mark stands for behind a backslash. -/
def marked? : Char → Option Char
  | '\\' => some '\\'
  | '\x22' => some '\x22'
  | 'n' => some '\n'
  | 'r' => some '\r'
  | 't' => some '\t'
  | _ => none

/-- The character with a number. -/
def charOf? (n : Nat) : Option Char :=
  if n.isValidChar then some (Char.ofNat n) else none

/-- One character of a string. A quote, a control character and an unknown escape are none. -/
def readChar : List Char → Option (Char × List Char)
  | [] => none
  | c :: rest =>
    if c = '\\' then
      match rest with
      | [] => none
      | mark :: rest =>
        if mark = 'u' then
          match Json.readFourHex rest with
          | .ok (n, rest) => (charOf? n).map (·, rest)
          | .error _ => none
        else (marked? mark).map (·, rest)
    else if c = '\x22' || isControl c then none
    else some (c, rest)

/-- The characters of a string up to its closing quote, of which there are fewer than `fuel`. -/
def readBody : (fuel : Nat) → List Char → Option (List Char × List Char)
  | 0, _ => none
  | fuel + 1, text =>
    if text.head? = some '\x22' then some ([], text.tail)
    else do
      let (c, rest) ← readChar text
      let (body, rest) ← readBody fuel rest
      some (c :: body, rest)

/-- A string between double quotes. -/
def readString : List Char → Option (String × List Char)
  | [] => none
  | c :: rest =>
    if c = '\x22' then
      (readBody rest.length rest).map fun (body, rest) => (String.ofList body, rest)
    else none

/-- The longest beginning of a text that is a minus sign, or none, and digits. -/
def numeral : List Char → List Char
  | '-' :: rest => '-' :: rest.takeWhile Char.isDigit
  | text => text.takeWhile Char.isDigit

/-- An integer. -/
def readInteger (text : List Char) : Option (Int × List Char) :=
  (Text.integer? (numeral text)).map (·, text.drop (numeral text).length)

section Lists

variable {α : Type} (read : List Char → Option (α × List Char)) (closing : Char)

/-- More elements, each behind a comma and a blank, up to a closing character. -/
def readMore : (fuel : Nat) → List Char → Option (List α × List Char)
  | 0, _ => none
  | fuel + 1, text =>
    match text with
    | ',' :: ' ' :: rest => do
      let (x, rest) ← read rest
      let (xs, rest) ← readMore fuel rest
      some (x :: xs, rest)
    | c :: rest => if c = closing then some ([], rest) else none
    | [] => none

/-- Elements up to a closing character, with a comma and a blank between two of them. -/
def readElements (text : List Char) : Option (List α × List Char) :=
  if text.head? = some closing then some ([], text.tail)
  else do
    let (x, rest) ← read text
    let (xs, rest) ← readMore read closing rest.length rest
    some (x :: xs, rest)

end Lists

/-- A member of an object: a key, a colon and a blank, and a value. -/
def readMember (read : List Char → Option (Value × List Char)) (text : List Char) :
    Option ((String × Value) × List Char) := do
  match ← readString text with
  | (key, ':' :: ' ' :: rest) =>
    let (v, rest) ← read rest
    some ((key, v), rest)
  | _ => none

/-- A value that is nested less than `depth` deep. The members of an object keep their order. -/
def readValue : (depth : Nat) → List Char → Option (Value × List Char)
  | 0, _ => none
  | depth + 1, text =>
    match text with
    | '(' :: ')' :: rest => some (.null, rest)
    | 't' :: 'r' :: 'u' :: 'e' :: rest => some (.bool true, rest)
    | 'f' :: 'a' :: 'l' :: 's' :: 'e' :: rest => some (.bool false, rest)
    | '[' :: rest =>
      (readElements (readValue depth) ']' rest).map fun (items, rest) => (.array items, rest)
    | '#' :: '\x7b' :: rest =>
      (readElements (readMember (readValue depth)) '\x7d' rest).map fun (members, rest) =>
        (.object members, rest)
    | '\x22' :: rest => (readString ('\x22' :: rest)).map fun (s, rest) => (.string s, rest)
    | text => (readInteger text).map fun (n, rest) => (.number (.integer n), rest)

/-- **Reading a literal:** the value that a text begins with, and the text behind it. -/
def read (text : List Char) : Option (Value × List Char) :=
  readValue (text.length + 1) text

end Reader

/-! ### Strings -/

namespace Reader

theorem charOf?_toNat (c : Char) : charOf? c.toNat = some c := by
  have hvalid : c.toNat.isValidChar := c.valid
  rw [charOf?, if_pos hvalid, Char.ofNat_toNat]

/-- A mark behind a backslash. -/
theorem readChar_marked {mark c : Char} (h : marked? mark = some c) (rest : List Char) :
    readChar ('\\' :: mark :: rest) = some (c, rest) := by
  have hunicode : mark ≠ 'u' := by
    rintro rfl
    simp [marked?] at h
  simp [readChar, hunicode, h]

/-- **A character reads back,** escaped or not. -/
theorem readChar_encodeChar (c : Char) (rest : List Char) :
    readChar (encodeChar c ++ rest) = some (c, rest) := by
  unfold encodeChar
  repeat' split
  -- the characters that a mark stands for
  iterate 5
    subst c
    exact readChar_marked rfl rest
  next hcontrol =>
    have hunit : c.toNat < 65536 := by
      simp only [isControl, Bool.or_eq_true, Bool.and_eq_true, decide_eq_true_eq] at hcontrol
      omega
    simp [readChar, Json.readFourHex_fourHex hunit, charOf?_toNat]
  next hslash hquote _ _ _ hplain =>
    simp [readChar, hslash, hquote, hplain]

/-- What stands for a character does not close the string. -/
theorem head?_encodeChar (c : Char) (rest : List Char) :
    (encodeChar c ++ rest).head? ≠ some '\x22' := by
  obtain ⟨h, -, hquote⟩ | ⟨mark, digits, h, -⟩ := encodeChar_cases c
  · rw [h]
    exact fun hhead => hquote (Option.some.inj hhead)
  · rw [h]
    exact fun hhead => absurd (Option.some.inj hhead) (by decide)

theorem readBody_escape {fuel : Nat} (chars rest : List Char) (hfuel : chars.length < fuel) :
    readBody fuel (escape chars ++ '\x22' :: rest) = some (chars, rest) := by
  induction chars generalizing fuel with
  | nil =>
    obtain ⟨fuel, rfl⟩ := Nat.exists_eq_succ_of_ne_zero (Nat.ne_of_gt hfuel)
    rfl
  | cons c chars ih =>
    obtain ⟨fuel, rfl⟩ := Nat.exists_eq_succ_of_ne_zero (Nat.ne_of_gt (Nat.zero_lt_of_lt hfuel))
    have hcut : escape (c :: chars) ++ '\x22' :: rest =
        encodeChar c ++ (escape chars ++ '\x22' :: rest) := List.append_assoc _ _ _
    rw [hcut, readBody, if_neg (head?_encodeChar c _), readChar_encodeChar]
    simp [ih (Nat.lt_of_succ_lt_succ hfuel)]

theorem length_le_escape (chars : List Char) : chars.length ≤ (escape chars).length := by
  induction chars with
  | nil => exact Nat.le_refl 0
  | cons c chars ih =>
    have hne : encodeChar c ≠ [] := by
      rcases encodeChar_cases c with ⟨h, -⟩ | ⟨_, _, h, -⟩ <;> rw [h] <;> exact List.cons_ne_nil _ _
    have hlength := List.length_pos_iff.mpr hne
    simp only [escape, List.flatMap_cons, List.length_append, List.length_cons] at ih ⊢
    omega

end Reader

theorem toList_quote (s : String) :
    (quote s).toList = '\x22' :: (escape s.toList ++ ['\x22']) := by
  simp [quote]

/-- **A string reads back,** and ends at its closing quote. -/
theorem Reader.readString_quote (s : String) (rest : List Char) :
    readString ((quote s).toList ++ rest) = some (s, rest) := by
  have hlength := length_le_escape s.toList
  rw [toList_quote, List.cons_append, List.append_assoc]
  simp only [readString, if_true, List.singleton_append]
  rw [readBody_escape _ _ (by simp only [List.length_append, List.length_cons]; omega)]
  simp

/-! ### Integers -/

/-- A text that does not go on with a digit. -/
def Ends (text : List Char) : Prop := ∀ c ∈ text.head?, c.isDigit = false

theorem ends_nil : Ends [] := by rintro _ ⟨⟩

theorem ends_cons {c : Char} (h : c.isDigit = false) (rest : List Char) : Ends (c :: rest) := by
  rintro _ ⟨⟩
  exact h

namespace Reader

theorem numeral_toString (k : Int) {rest : List Char} (hrest : Ends rest) :
    numeral ((toString k).toList ++ rest) = (toString k).toList := by
  have hdigits : (Nat.toDigits 10 k.natAbs ++ rest).takeWhile Char.isDigit =
      Nat.toDigits 10 k.natAbs :=
    (Binary64.takeWhile_run (List.all_eq_true.mp (Text.all_isDigit_toDigits k.natAbs)) hrest).1
  rw [Text.toList_toString]
  split
  · obtain ⟨c, digits, hcons, hdigit⟩ := Text.head_toDigits k.natAbs
    rw [hcons, List.cons_append] at hdigits ⊢
    have hminus : c ≠ '-' := by
      rintro rfl
      exact absurd hdigit (by decide)
    simp [numeral, hminus, hdigits]
  · rw [List.cons_append, numeral, hdigits]

/-- **An integer of 64 bits reads back.** -/
theorem readInteger_toString {k : Int} (hlow : -2 ^ 63 ≤ k) (hhigh : k < 2 ^ 63)
    {rest : List Char} (hrest : Ends rest) :
    readInteger ((toString k).toList ++ rest) = some (k, rest) := by
  rw [readInteger, numeral_toString k hrest, Text.integer?_toString hlow hhigh, Option.map_some,
    List.drop_left]

end Reader

/-! ### Elements between brackets -/

section Elements

variable {α : Type} {f : α → List Char} {closing : Char}

/-- Elements with a comma and a blank between two of them. -/
def between (f : α → List Char) (xs : List α) : List Char := [',', ' '].intercalate (xs.map f)

/-- Elements, each behind a comma and a blank. -/
def behind (f : α → List Char) (xs : List α) : List Char := xs.flatMap fun x => ',' :: ' ' :: f x

theorem between_cons (x : α) (xs : List α) : between f (x :: xs) = f x ++ behind f xs := by
  induction xs generalizing x with
  | nil => simp [between, behind]
  | cons y xs ih =>
    have hnext := ih y
    unfold between at hnext ⊢
    rw [List.map_cons, List.map_cons, List.intercalate_cons_cons, ← List.map_cons, hnext]
    simp [behind]

/-- What stands behind an element goes on with a comma or with the bracket. -/
theorem ends_behind (hclosing : closing.isDigit = false) (xs : List α) (rest : List Char) :
    Ends (behind f xs ++ closing :: rest) := by
  cases xs with
  | nil => exact ends_cons hclosing rest
  | cons x xs => exact ends_cons (by decide) _

variable {read : List Char → Option (α × List Char)}

theorem readMore_behind (hcomma : closing ≠ ',') (hclosing : closing.isDigit = false)
    {xs : List α} (hread : ∀ x ∈ xs, ∀ rest, Ends rest → read (f x ++ rest) = some (x, rest))
    {fuel : Nat} (hfuel : xs.length < fuel) (rest : List Char) :
    Reader.readMore read closing fuel (behind f xs ++ closing :: rest) = some (xs, rest) := by
  induction xs generalizing fuel with
  | nil =>
    obtain ⟨fuel, rfl⟩ := Nat.exists_eq_succ_of_ne_zero (Nat.ne_of_gt hfuel)
    simp [behind, Reader.readMore, hcomma]
  | cons x xs ih =>
    obtain ⟨fuel, rfl⟩ := Nat.exists_eq_succ_of_ne_zero (Nat.ne_of_gt (Nat.zero_lt_of_lt hfuel))
    obtain ⟨hx, hxs⟩ := List.forall_mem_cons.mp hread
    have hcut : behind f (x :: xs) ++ closing :: rest =
        ',' :: ' ' :: (f x ++ (behind f xs ++ closing :: rest)) := by simp [behind]
    have hmore := ih hxs (Nat.lt_of_succ_lt_succ hfuel)
    simp [hcut, Reader.readMore, hx _ (ends_behind hclosing xs rest), hmore]

theorem length_le_behind (xs : List α) : xs.length ≤ (behind f xs).length := by
  induction xs with
  | nil => exact Nat.le_refl 0
  | cons x xs ih =>
    simp only [behind, List.flatMap_cons, List.length_append, List.length_cons] at ih ⊢
    omega

/-- **Elements read back** if each of them does and none begins with the closing bracket. -/
theorem readElements_between (hcomma : closing ≠ ',') (hclosing : closing.isDigit = false)
    (hnone : ∀ text, read (closing :: text) = none) {xs : List α}
    (hread : ∀ x ∈ xs, ∀ rest, Ends rest → read (f x ++ rest) = some (x, rest))
    (rest : List Char) :
    Reader.readElements read closing (between f xs ++ closing :: rest) = some (xs, rest) := by
  cases xs with
  | nil => simp [between, Reader.readElements]
  | cons x xs =>
    obtain ⟨hx, hxs⟩ := List.forall_mem_cons.mp hread
    have hfirst := hx _ (ends_behind (f := f) hclosing xs rest)
    -- nothing can be read where the closing bracket stands, so the list does not end here
    have hlead : (f x ++ (behind f xs ++ closing :: rest)).head? ≠ some closing := by
      intro hhead
      obtain ⟨text, htext⟩ := List.head?_eq_some_iff.mp hhead
      rw [htext, hnone] at hfirst
      cases hfirst
    have hfuel : xs.length < (behind f xs ++ closing :: rest).length := by
      have := length_le_behind (f := f) xs
      simp only [List.length_append, List.length_cons]
      omega
    have hmore := readMore_behind hcomma hclosing hxs hfuel rest
    rw [between_cons, List.append_assoc, Reader.readElements, if_neg hlead, hfirst]
    simp only [Option.bind_eq_bind, Option.bind_some, hmore]

/-- An element is not longer than the whole. -/
theorem length_le_between {xs : List α} {x : α} (h : x ∈ xs) :
    (f x).length ≤ (between f xs).length := by
  have hlength : ∀ xs, x ∈ xs → (f x).length ≤ (behind f xs).length := by
    intro xs hmem
    obtain ⟨before, after, rfl⟩ := List.append_of_mem hmem
    simp only [behind, List.flatMap_append, List.flatMap_cons, List.length_append, List.length_cons]
    omega
  cases xs with
  | nil => exact absurd h List.not_mem_nil
  | cons y xs =>
    rw [between_cons, List.length_append]
    rcases List.mem_cons.mp h with rfl | hmem
    · omega
    · have := hlength xs hmem
      omega

end Elements

/-! ### Values -/

/-- A member as it is written. -/
def memberText (member : String × Value) : List Char :=
  (quote member.1).toList ++ ':' :: ' ' :: (ofValue member.2).toList

theorem toList_ofValue_array (items : List Value) :
    (ofValue (.array items)).toList =
      '[' :: (between (fun v => (ofValue v).toList) items ++ [']']) := by
  have hitems : ofItems items = items.map ofValue := by
    induction items with
    | nil => rfl
    | cons v items ih => rw [ofItems, ih, List.map_cons]
  simp [ofValue, hitems, between, String.toList_intercalate, Function.comp_def]

theorem toList_ofValue_object (members : List (String × Value)) :
    (ofValue (.object members)).toList =
      '#' :: '\x7b' :: (between memberText members ++ ['\x7d']) := by
  have hmembers : (ofMembers members).map String.toList = members.map memberText := by
    induction members with
    | nil => rfl
    | cons member members ih =>
      rw [ofMembers, List.map_cons, ih, List.map_cons]
      simp [memberText]
  simp [ofValue, hmembers, between, String.toList_intercalate]

theorem ofValue_word {n : Json.Number} (h : n.IsWord) :
    ∃ k : Int, n = .integer k ∧ ofValue (.number n) = toString k ∧ -2 ^ 63 ≤ k ∧ k < 2 ^ 63 := by
  obtain ⟨k, rfl, hlow, hhigh⟩ := h
  refine ⟨k, rfl, ?_, hlow, hhigh⟩
  rw [ofValue, number, Json.Number.toInt64?, if_pos hhigh]

theorem toString_lead (k : Int) :
    ∃ c text, (toString k).toList = c :: text ∧ (c.isDigit = true ∨ c = '-') := by
  rw [Text.toList_toString]
  split
  · obtain ⟨c, text, hcons, hdigit⟩ := Text.head_toDigits k.natAbs
    exact ⟨c, text, hcons, .inl hdigit⟩
  · exact ⟨'-', _, rfl, .inr rfl⟩

namespace Reader

/-- A closing bracket begins no value. -/
theorem readValue_bracket (depth : Nat) (text : List Char) :
    readValue depth (']' :: text) = none := by
  cases depth <;> rfl

/-- A closing brace begins no member. -/
theorem readMember_brace (read : List Char → Option (Value × List Char)) (text : List Char) :
    readMember read ('\x7d' :: text) = none := rfl

/-- What begins with a digit or a minus sign is an integer. -/
theorem readValue_integer (depth : Nat) {c : Char} (hc : c.isDigit = true ∨ c = '-')
    (text : List Char) : readValue (depth + 1) (c :: text) =
      (readInteger (c :: text)).map fun (n, rest) => (.number (.integer n), rest) := by
  -- each of the other beginnings is a character of another kind
  have hother : ∀ d : Char, ¬ (d.isDigit = true ∨ d = '-') → ∀ text', c :: text = d :: text' →
      False := by
    intro d hd text' h
    exact hd ((List.cons.inj h).1 ▸ hc)
  rw [readValue]
  all_goals exact fun rest => hother _ (by decide) _

/-- A member reads back if its value does. -/
theorem readMember_memberText {read : List Char → Option (Value × List Char)}
    {member : String × Value} {rest : List Char}
    (h : read ((ofValue member.2).toList ++ rest) = some (member.2, rest)) :
    readMember read (memberText member ++ rest) = some (member, rest) := by
  rw [memberText, List.append_assoc]
  simp [readMember, readString_quote, h]

/-- **The literal of a value reads back** and ends where it ends, as long as no number could go on
there. -/
theorem readValue_ofValue (v : Value) (hv : ∀ n ∈ v.numbers, n.IsWord) {depth : Nat}
    (hdepth : (ofValue v).toList.length < depth) {rest : List Char} (hrest : Ends rest) :
    readValue depth ((ofValue v).toList ++ rest) = some (v, rest) := by
  induction v using Value.inductionOn generalizing depth rest <;>
    obtain ⟨depth, rfl⟩ := Nat.exists_eq_add_one_of_ne_zero (Nat.ne_zero_of_lt hdepth)
  case hnull => rfl
  case hbool b => cases b <;> rfl
  case hnumber n =>
    obtain ⟨k, rfl, htext, hlow, hhigh⟩ := ofValue_word (hv n (List.mem_singleton_self n))
    obtain ⟨c, text, hcons, hlead⟩ := toString_lead k
    have hread := readInteger_toString hlow hhigh hrest
    rw [htext]
    rw [hcons, List.cons_append] at hread ⊢
    rw [readValue_integer depth hlead, hread, Option.map_some]
  case hstring s =>
    have hread := readString_quote s rest
    rw [ofValue]
    rw [toList_quote, List.cons_append] at hread ⊢
    rw [readValue, hread, Option.map_some]
  case harray items ih =>
    rw [Value.numbers_array] at hv
    rw [toList_ofValue_array] at hdepth ⊢
    -- the text of an item is shorter than that of its array, so one level less is enough for it
    have hitems : ∀ v ∈ items, ∀ rest, Ends rest →
        readValue depth ((ofValue v).toList ++ rest) = some (v, rest) := by
      intro v hmem rest hrest
      have hlength := length_le_between (f := fun v => (ofValue v).toList) hmem
      refine ih v hmem (fun n hn => hv n (List.mem_flatMap.mpr ⟨v, hmem, hn⟩)) ?_ hrest
      simp only [List.length_cons, List.length_append] at hdepth
      omega
    have hread := readElements_between (by decide) (by decide)
      (readValue_bracket depth) hitems rest
    simp [readValue, hread]
  case hobject members ih =>
    rw [Value.numbers_object] at hv
    rw [toList_ofValue_object] at hdepth ⊢
    -- so it is for the members of an object
    have hmembers : ∀ member ∈ members, ∀ rest, Ends rest →
        readMember (readValue depth) (memberText member ++ rest) = some (member, rest) := by
      intro member hmem rest hrest
      have hlength := length_le_between (f := memberText) hmem
      refine readMember_memberText (ih member hmem
        (fun n hn => hv n (List.mem_flatMap.mpr ⟨member, hmem, hn⟩)) ?_ hrest)
      have hvalue : (ofValue member.2).toList.length < (memberText member).length := by
        simp only [memberText, List.length_append, List.length_cons]
        omega
      simp only [List.length_cons, List.length_append] at hdepth
      omega
    have hread := readElements_between (by decide) (by decide)
      (readMember_brace (readValue depth)) hmembers rest
    simp [readValue, hread]

end Reader

/-! ### The literals in a text -/

/-- The closed and the open literals that the scan of a script finds. -/
def literals (text : List Char) : List Segment :=
  (segments text).filter fun
    | .bare _ => false
    | _ => true

/-- **What the scan finds in a text,** whatever comes after it. -/
def Cuts (text : List Char) (found : List Segment) : Prop :=
  ∀ rest, literals (text ++ rest) = found ++ literals rest

namespace Cuts

variable {first second : List Char} {found others : List Segment}

protected theorem append (h : Cuts first found) (h' : Cuts second others) :
    Cuts (first ++ second) (found ++ others) := by
  intro rest
  rw [List.append_assoc, h, h', List.append_assoc]

theorem unquoted {text : List Char} (h : Unquoted text) : Cuts text [] := by
  intro rest
  obtain ⟨before, others, hrest, hjoined⟩ := segments_unquoted_append h rest
  rw [literals, literals, hrest, hjoined]
  rfl

theorem plain {text : List Char} (h : text.any isQuote = false) : Cuts text [] :=
  unquoted fun c hc => Bool.eq_false_iff.mpr (List.any_eq_false.mp h c hc)

/-- Where an emitted string ends. -/
theorem splitLiteral?_escape (text after : List Char) :
    splitLiteral? '\x22' false (escape text ++ '\x22' :: after) = some (escape text, after) := by
  obtain ⟨hbit, hcovered⟩ := escape_sealed text
  exact (splitLiteral?_eq_some_iff (by decide)).mpr ⟨rfl, hcovered, hbit⟩

/-- In an emitted string the scan finds that string. -/
theorem quote (s : String) :
    Cuts (Literal.quote s).toList [.literal '\x22' (escape s.toList)] := by
  intro rest
  have hcut := segments_of_literal (List.forall_mem_nil _) (by decide)
    (splitLiteral?_escape s.toList rest)
  rw [toList_quote, List.cons_append, List.append_assoc, List.singleton_append, literals,
    ← List.nil_append ('\x22' :: _), hcut]
  rfl

protected theorem between {α : Type} {f : α → List Char} {g : α → List Segment} {xs : List α}
    (h : ∀ x ∈ xs, Cuts (f x) (g x)) : Cuts (between f xs) (xs.flatMap g) := by
  have hbehind : ∀ xs, (∀ x ∈ xs, Cuts (f x) (g x)) → Cuts (behind f xs) (xs.flatMap g) := by
    intro xs h
    induction xs with
    | nil => exact unquoted (List.forall_mem_nil _)
    | cons x xs ih =>
      obtain ⟨hx, hxs⟩ := List.forall_mem_cons.mp h
      have hcomma : Cuts [',', ' '] [] := plain (by decide)
      exact (hcomma.append hx).append (ih hxs)
  cases xs with
  | nil => exact unquoted (List.forall_mem_nil _)
  | cons x xs =>
    obtain ⟨hx, hxs⟩ := List.forall_mem_cons.mp h
    rw [between_cons, List.flatMap_cons]
    exact hx.append (hbehind xs hxs)

end Cuts

/-- A digit is no quotation mark. -/
theorem isQuote_of_isDigit {c : Char} (h : c.isDigit = true) : isQuote c = false := by
  rw [isQuote, Bool.or_eq_false_iff]
  constructor <;> refine decide_eq_false ?_ <;> rintro rfl <;> exact absurd h (by decide)

/-- A string as a segment of a script. -/
def asSegment (s : String) : Segment := .literal '\x22' (escape s.toList)

/-- **In the literal of a value** the scan finds its strings and its keys. -/
theorem cuts_ofValue (v : Value) (hv : ∀ n ∈ v.numbers, n.IsWord) :
    Cuts (ofValue v).toList (v.strings.map asSegment) := by
  induction v using Value.inductionOn with
  | hnull => exact .plain (by decide)
  | hbool b => cases b <;> exact .plain (by decide)
  | hnumber n =>
    obtain ⟨k, rfl, htext, -⟩ := ofValue_word (hv n (List.mem_singleton_self n))
    rw [htext]
    refine .unquoted fun c hc => ?_
    rcases Json.Number.numeral_of_toString k c hc with hdigit | rfl
    · exact isQuote_of_isDigit hdigit
    · rfl
  | hstring s => exact .quote s
  | harray items ih =>
    rw [Value.numbers_array] at hv
    rw [toList_ofValue_array, Value.strings_array, List.map_flatMap]
    have hitems : Cuts (between (fun v => (ofValue v).toList) items)
        (items.flatMap fun v => v.strings.map asSegment) :=
      .between fun v hmem => ih v hmem fun n hn => hv n (List.mem_flatMap.mpr ⟨v, hmem, hn⟩)
    have hopen : Cuts ['['] [] := .plain (by decide)
    have hclose : Cuts [']'] [] := .plain (by decide)
    simpa using hopen.append (hitems.append hclose)
  | hobject members ih =>
    rw [Value.numbers_object] at hv
    rw [toList_ofValue_object, Value.strings_object, List.map_flatMap]
    have hmembers : Cuts (between memberText members)
        (members.flatMap fun m => (m.1 :: m.2.strings).map asSegment) := by
      refine .between fun m hmem => ?_
      have hcolon : Cuts [':', ' '] [] := .plain (by decide)
      have hvalue := ih m hmem fun n hn => hv n (List.mem_flatMap.mpr ⟨m, hmem, hn⟩)
      exact (Cuts.quote m.1).append (hcolon.append hvalue)
    have hopen : Cuts ['#', '\x7b'] [] := .plain (by decide)
    have hclose : Cuts ['\x7d'] [] := .plain (by decide)
    simpa using hopen.append (hmembers.append hclose)

/-- **Script literals read back.** A reader of the grammar of literals reads the literal of a value
whose numbers, at any depth, are integers of 64 bits as exactly that value, and nothing of the text
is left. The scan of a script takes each string and each key in it, whatever its characters are, for
a literal that ends where it was made to end, and finds no other literals. -/
theorem read_ofValue (v : Value) (hv : ∀ n ∈ v.numbers, n.IsWord) :
    Reader.read (ofValue v).toList = some (v, []) ∧
    literals (ofValue v).toList = v.strings.map asSegment ∧
    ∀ s : String, (quote s).toList = '\x22' :: (escape s.toList ++ ['\x22']) ∧
      ∀ after, splitLiteral? '\x22' false (escape s.toList ++ '\x22' :: after) =
        some (escape s.toList, after) := by
  refine ⟨?_, ?_, fun s => ⟨toList_quote s, fun after => Cuts.splitLiteral?_escape s.toList after⟩⟩
  · have hread := Reader.readValue_ofValue v hv (Nat.lt_succ_self _) ends_nil
    rwa [List.append_nil] at hread
  · have hcuts := cuts_ofValue v hv []
    rwa [List.append_nil, show literals [] = [] by
      rw [literals, segments_of_unquoted (List.forall_mem_nil _)]; rfl, List.append_nil] at hcuts

/-- Quotes, backslashes and control characters in contents and keys, an empty list and an empty
object, and the integers at both ends of the range. -/
theorem read_ofValue_nested :
    let v : Value := .object [("a\"\\", .array [.null, .number (.integer (-9223372036854775808)),
      .array [], .string "\\\"\n\u007f\u2028]\x7d, "]),
      ("\u0001", .object [("", .number (.integer 9223372036854775807)), ("t", .bool true),
        ("u", .object [])])]
    (∀ n ∈ v.numbers, n.IsWord) ∧
      Reader.read (ofValue v).toList = some (v, []) ∧
      literals (ofValue v).toList = v.strings.map asSegment := by
  intro v
  have hv : ∀ n ∈ v.numbers, n.IsWord := by
    intro n hn
    have hlist : v.numbers = [.integer (-9223372036854775808), .integer 9223372036854775807] := rfl
    rw [hlist, List.mem_cons, List.mem_singleton] at hn
    rcases hn with rfl | rfl
    · exact ⟨_, rfl, by decide, by decide⟩
    · exact ⟨_, rfl, by decide, by decide⟩
  obtain ⟨hread, hliterals, -⟩ := read_ofValue v hv
  exact ⟨hv, hread, hliterals⟩

end Literal

end Script

end Scenario
