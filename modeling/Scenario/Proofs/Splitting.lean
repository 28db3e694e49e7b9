import Mathlib.Data.List.DropRight
import Mathlib.Data.List.TakeDrop
import Scenario.Text.Blank

/-!
# Cutting texts

What the cuts of a text give.

* `Text.splitOnChar_eq_splitOn` — the parts between separators; `Text.intercalate_split` puts them
  together again, `Text.splitOnChar_intercalate` and `Text.splitOnChar_led` read them off a text
  that was put together from them.
* `Text.splitOnce?_eq_some_iff` — the text before and after the first separator.
* `Text.trim_eq_self_iff` — the texts that no blank is cut off from.
-/

namespace Scenario

namespace Text

variable {separator : Char} {text : List Char} {parts : List (List Char)}

/-! ### All parts -/

theorem splitOnChar_eq_splitOn (separator : Char) (text : List Char) :
    splitOnChar separator text = text.splitOn separator := by
  induction text with
  | nil => rfl
  | cons c rest ih =>
    rw [splitOnChar, List.splitOn_cons_eq_if_modifyHead, ih]
    by_cases hc : c = separator
    · rw [if_pos hc, if_pos (beq_iff_eq.mpr hc)]
    · rw [if_neg hc, if_neg (mt beq_iff_eq.mp hc)]
      cases hparts : rest.splitOn separator with
      | nil => exact absurd hparts (List.splitOn_ne_nil separator rest)
      | cons part parts => rfl

theorem intercalate_splitOnChar (separator : Char) (text : List Char) :
    [separator].intercalate (splitOnChar separator text) = text := by
  rw [splitOnChar_eq_splitOn]
  exact List.intercalate_splitOn separator

/-- **The parts of a text,** with a separator between any two of them, make it up. -/
theorem intercalate_split (separator : Char) (text : String) :
    (String.singleton separator).intercalate (split separator text) = text := by
  have hlists : (split separator text).map String.toList = splitOnChar separator text.toList := by
    rw [split, List.map_map]
    exact (List.map_congr_left fun part _ => String.toList_ofList).trans (List.map_id _)
  rw [← String.toList_inj, String.toList_intercalate, hlists, String.toList_singleton]
  exact intercalate_splitOnChar separator text.toList

/-- Parts that hold no separator are cut where they were put together. -/
theorem splitOnChar_intercalate (hfree : ∀ part ∈ parts, separator ∉ part) (hparts : parts ≠ []) :
    splitOnChar separator ([separator].intercalate parts) = parts := by
  rw [splitOnChar_eq_splitOn]
  exact List.splitOn_intercalate separator hfree hparts

/-- Parts with a separator before each of them. -/
theorem splitOnChar_led (hfree : ∀ part ∈ parts, separator ∉ part) :
    splitOnChar separator (parts.flatMap (separator :: ·)) = [] :: parts := by
  have hled : parts.flatMap (separator :: ·) = [separator].intercalate ([] :: parts) := by
    clear hfree
    cases parts with
    | nil => rfl
    | cons part rest =>
      rw [List.intercalate_cons_cons, List.flatMap_cons]
      induction rest generalizing part with
      | nil => simp [List.intercalate]
      | cons next rest ih =>
        rw [List.flatMap_cons, List.intercalate_cons_cons, ih]
        simp
  rw [hled]
  refine splitOnChar_intercalate (fun part hpart => ?_) (List.cons_ne_nil _ _)
  obtain rfl | hpart := List.mem_cons.mp hpart
  · exact List.not_mem_nil
  · exact hfree part hpart

/-! ### The first cut -/

theorem splitOnce?_of_eq {text before after : String}
    (htext : text.toList = before.toList ++ separator :: after.toList)
    (hbefore : separator ∉ before.toList) :
    splitOnce? separator text = some (before, after) := by
  have hpass : ∀ c ∈ before.toList, decide (c ≠ separator) = true := fun c hc =>
    decide_eq_true fun heq => hbefore (heq ▸ hc)
  have htake : (separator :: after.toList).takeWhile (· ≠ separator) = [] :=
    List.takeWhile_cons_of_neg (by simp)
  have hdrop : (separator :: after.toList).dropWhile (· ≠ separator) = separator :: after.toList :=
    List.dropWhile_cons_of_neg (by simp)
  rw [splitOnce?, List.span_eq_takeWhile_dropWhile, htext, List.takeWhile_append_of_pos hpass,
    List.dropWhile_append_of_pos hpass, htake, hdrop]
  simp only [List.append_nil, String.ofList_toList]

theorem splitOnce?_of_notMem {text : String} (h : separator ∉ text.toList) :
    splitOnce? separator text = none := by
  have hpass : ∀ c ∈ text.toList, decide (c ≠ separator) = true := fun c hc =>
    decide_eq_true fun heq => h (heq ▸ hc)
  rw [splitOnce?, List.span_eq_takeWhile_dropWhile, List.dropWhile_eq_nil_iff.mpr hpass]

theorem exists_splitOnce? {text : String} (h : separator ∈ text.toList) :
    ∃ before after, splitOnce? separator text = some (before, after) ∧
      text.toList = before.toList ++ separator :: after.toList ∧ separator ∉ before.toList := by
  obtain ⟨front, back, htext, hfront⟩ := List.eq_append_cons_of_mem h
  rw [← String.toList_ofList (l := front)] at htext hfront
  rw [← String.toList_ofList (l := back)] at htext
  exact ⟨_, _, splitOnce?_of_eq htext hfront, htext, hfront⟩

/-- **The first separator** cuts a text in two. -/
theorem splitOnce?_eq_some_iff {text before after : String} :
    splitOnce? separator text = some (before, after) ↔
      text.toList = before.toList ++ separator :: after.toList ∧ separator ∉ before.toList := by
  refine ⟨fun h => ?_, fun ⟨htext, hbefore⟩ => splitOnce?_of_eq htext hbefore⟩
  by_cases hmem : separator ∈ text.toList
  · obtain ⟨front, back, hcut, htext⟩ := exists_splitOnce? hmem
    rw [hcut] at h
    cases h
    exact htext
  · rw [splitOnce?_of_notMem hmem] at h
    cases h

/-! ### Blanks at the ends -/

/-- A character that is not cut stays, whatever is cut behind it. -/
theorem trimEndList_cons {p : Char → Bool} {c : Char} (hc : p c = false) (body : List Char) :
    trimEndList p (c :: body) = c :: trimEndList p body := by
  have hlast : [c].dropWhile p = [c] := List.dropWhile_cons_of_neg (by simp [hc])
  rw [trimEndList, trimEndList, List.reverse_cons, List.dropWhile_append, hlast]
  split
  · next hnone => rw [List.isEmpty_iff.mp hnone]; rfl
  · rw [List.reverse_append]; rfl

/-- So do several. -/
theorem trimEndList_append {p : Char → Bool} {front : List Char} (h : ∀ c ∈ front, p c = false)
    (body : List Char) : trimEndList p (front ++ body) = front ++ trimEndList p body := by
  induction front with
  | nil => rfl
  | cons c front ih =>
    obtain ⟨hc, hfront⟩ := List.forall_mem_cons.mp h
    rw [List.cons_append, trimEndList_cons hc, ih hfront]
    rfl

/-- Leading blanks are cut up to the first other character. -/
theorem toList_trim_led {text : String} {blanks body : List Char} {c : Char}
    (htext : text.toList = blanks ++ c :: body) (hblanks : blanks.all isBlank = true)
    (hc : isBlank c = false) : (trim text).toList = c :: trimEndList isBlank body := by
  have hstart : trimStartList isBlank text.toList = c :: body := by
    rw [htext, trimStartList, List.dropWhile_append_of_pos (List.all_eq_true.mp hblanks)]
    exact List.dropWhile_cons_of_neg (by simp [hc])
  rw [trim, String.toList_ofList, trimList, hstart, trimEndList_cons hc]

/-- A text whose last character stays is not cut at its end. -/
theorem trimEndList_eq_self {p : Char → Bool} (hlast : ∀ c ∈ text.getLast?, p c = false) :
    trimEndList p text = text := by
  refine List.rdropWhile_eq_self_iff.mpr fun hne => ?_
  simp [hlast _ (List.getLast?_eq_some_getLast hne)]

/-- **What is not cut:** a text that begins and ends with no blank. -/
theorem trim_eq_self_iff {text : String} : trim text = text ↔
    (∀ c ∈ text.toList.head?, isBlank c = false) ∧
      ∀ c ∈ text.toList.getLast?, isBlank c = false := by
  constructor
  · intro h
    have hlist : trimEndList isBlank (text.toList.dropWhile isBlank) = text.toList := by
      have hlists := congrArg String.toList h
      rwa [trim, String.toList_ofList] at hlists
    -- neither of the two cuts can take a character away
    have hdrop : text.toList.dropWhile isBlank = text.toList := by
      have hsuffix := List.dropWhile_suffix isBlank (l := text.toList)
      have hprefix := List.rdropWhile_prefix isBlank (text.toList.dropWhile isBlank)
      refine hsuffix.eq_of_length (Nat.le_antisymm hsuffix.length_le ?_)
      exact (congrArg List.length hlist.symm).trans_le hprefix.length_le
    rw [hdrop] at hlist
    constructor
    · intro c hc
      obtain ⟨rest, hrest⟩ := List.head?_eq_some_iff.mp hc
      have hlength : 0 < text.toList.length := by simp [hrest]
      have hkept := List.dropWhile_eq_self_iff.mp hdrop hlength
      simpa [hrest] using hkept
    · intro c hc
      obtain ⟨rest, hrest⟩ := List.getLast?_eq_some_iff.mp hc
      have hne : text.toList ≠ [] := by simp [hrest]
      have hkept := List.rdropWhile_eq_self_iff.mp hlist hne
      simpa [hrest] using hkept
  · rintro ⟨hfirst, hlast⟩
    have hstart : trimStartList isBlank text.toList = text.toList := by
      refine List.dropWhile_eq_self_iff.mpr fun hlength => ?_
      simp [hfirst _ (List.head?_eq_getElem? ▸ List.getElem?_eq_getElem hlength)]
    rw [trim, trimList, hstart, trimEndList_eq_self hlast, String.ofList_toList]

end Text

end Scenario
