import Mathlib.Data.List.Induction
import Mathlib.Data.List.Sort
import Scenario.Proofs.KeyOrder
import Scenario.Summary

/-!
# Folding a trace

Folding gives the key of each root the lines below it. The roots are folded one after the other into
one trace, so a root can come upon lines that an earlier one has put there.

* `keysBeneath` — the keys below all roots of a key, each once and in order.
* `Folds` — what folding a trace should come to.
* `Clear` — two roots that are not in each other's way: the later one does not read what the earlier
  one has written, and if they share a key, their keys below stand in order.
* `foldLogs_clear` — **if no root is in the way of a later one,** the fold is what it should be.
* `foldLogs_reread` — a root that is in the way; `foldLogs_clear_iff` — where lines tell whose they
  are, no such root gives a fold that is what it should be.
-/

namespace Scenario

/-! ### Keys in order -/

namespace Keyed

variable {α : Type} {key : String} {pairs : List (String × α)}

theorem keys_ofList_ascending (pairs : List (String × α)) :
    (keys (ofList pairs)).Pairwise (· < ·) :=
  List.pairwise_map.mpr (ofList_ascending pairs)

/-- A collection of pairs has their keys. -/
theorem mem_keys_ofList : key ∈ keys (ofList pairs) ↔ ∃ value, (key, value) ∈ pairs := by
  rw [keys, List.mem_map]
  constructor
  · rintro ⟨entry, hentry, rfl⟩
    exact ⟨entry.2, (mem_of_mem_extend hentry).resolve_left List.not_mem_nil⟩
  · rintro ⟨value, hvalue⟩
    obtain ⟨v, hv, -⟩ := exists_find?_ofList hvalue
    exact ⟨_, mem_of_find?_eq_some hv, rfl⟩

end Keyed

/-! ### The keys below -/

section

variable {key below : String} {root : StepResult} {results before : List StepResult}

theorem mem_keysBelow : below ∈ keysBelow root ↔
    below ≠ root.key ∧ ∃ r ∈ StepResult.flattenAll root.children, r.key = below := by
  simp only [keysBelow, Keyed.mem_keys_ofList, List.mem_map, Prod.mk.injEq, List.mem_filter, ne_eq,
    decide_eq_true_eq]
  grind

theorem keysBelow_ascending (root : StepResult) : (keysBelow root).Pairwise (· < ·) :=
  Keyed.keys_ofList_ascending _

/-- The distinct keys below the roots of a key other than it, ascending. -/
def keysBeneath (key : String) (results : List StepResult) : List String :=
  let below := (results.filter fun root => root.key = key).flatMap keysBelow
  Keyed.keys (Keyed.ofList (below.map fun key => (key, ())))

theorem keysBeneath_ascending (key : String) (results : List StepResult) :
    (keysBeneath key results).Pairwise (· < ·) :=
  Keyed.keys_ofList_ascending _

theorem mem_keysBeneath : below ∈ keysBeneath key results ↔
    ∃ root ∈ results, root.key = key ∧ below ∈ keysBelow root := by
  simp only [keysBeneath, Keyed.mem_keys_ofList, List.mem_map, Prod.mk.injEq, List.mem_flatMap,
    List.mem_filter, decide_eq_true_eq]
  grind

/-- A further root of another key adds nothing. -/
theorem keysBeneath_append_of_ne (h : root.key ≠ key) :
    keysBeneath key (before ++ [root]) = keysBeneath key before := by
  simp [keysBeneath, List.filter_append, h]

end

/-! ### Folds -/

section

variable {α : Type}

/-- **What folding a trace should come to:** every root's key has its own lines and those of the
distinct keys below its roots, in order; the other keys keep their lines. -/
structure Folds (results : List StepResult) (logs folded : Keyed (List α)) : Prop where
  /-- The keys below are those of the results at whatever depth below a root of the key, -/
  rooted : ∀ root ∈ results, ∃ below : List String, below.Pairwise (· < ·) ∧
    (∀ key, key ∈ below ↔ key ≠ root.key ∧ ∃ other ∈ results, other.key = root.key ∧
      ∃ r ∈ StepResult.flattenAll other.children, r.key = key) ∧
    Keyed.find? root.key folded = some (linesOf logs root.key ++ below.flatMap (linesOf logs))
  unrooted : ∀ key, (∀ root ∈ results, root.key ≠ key) →
    Keyed.find? key folded = Keyed.find? key logs

/-- **Two roots that are not in each other's way:** the later one does not read lines that the
earlier one has added, and if they share a key, the keys with lines below the one come before those
below the other. -/
structure Clear (logs : Keyed (List α)) (earlier later : StepResult) : Prop where
  unread : earlier.key ∈ keysBelow later → ∀ key ∈ keysBelow earlier, linesOf logs key = []
  inOrder : earlier.key = later.key → ∀ a ∈ keysBelow earlier, ∀ b ∈ keysBelow later,
    linesOf logs a ≠ [] → linesOf logs b ≠ [] → a < b

instance [DecidableEq α] (logs : Keyed (List α)) (earlier later : StepResult) :
    Decidable (Clear logs earlier later) :=
  decidable_of_iff
    ((earlier.key ∈ keysBelow later → ∀ key ∈ keysBelow earlier, linesOf logs key = []) ∧
      (earlier.key = later.key → ∀ a ∈ keysBelow earlier, ∀ b ∈ keysBelow later,
        linesOf logs a ≠ [] → linesOf logs b ≠ [] → a < b))
    ⟨fun h => ⟨h.1, h.2⟩, fun h => ⟨h.unread, h.inOrder⟩⟩

variable {logs : Keyed (List α)} {results before : List StepResult} {root : StepResult}
  {key : String}

theorem linesOf_foldRoot_self : linesOf (foldRoot logs root) root.key =
    linesOf logs root.key ++ (keysBelow root).flatMap (linesOf logs) := by
  rw [linesOf, foldRoot, Keyed.find?_insert, if_pos rfl, Option.getD_some]

theorem find?_foldRoot_of_ne (h : root.key ≠ key) :
    Keyed.find? key (foldRoot logs root) = Keyed.find? key logs := by
  rw [foldRoot, Keyed.find?_insert, if_neg h]

theorem foldLogs_append_singleton :
    foldLogs (before ++ [root]) logs = foldRoot (foldLogs before logs) root :=
  List.foldl_concat ..

/-- A key that no root has is not written. -/
theorem find?_foldLogs_of_ne (h : ∀ root ∈ results, root.key ≠ key) :
    Keyed.find? key (foldLogs results logs) = Keyed.find? key logs := by
  induction results generalizing logs with
  | nil => rfl
  | cons root rest ih =>
    obtain ⟨hroot, hrest⟩ := List.forall_mem_cons.mp h
    exact (ih hrest).trans (find?_foldRoot_of_ne hroot)

/-- The key of a root is written. -/
theorem find?_foldLogs_of_mem (h : root ∈ results) :
    Keyed.find? root.key (foldLogs results logs) =
      some (linesOf (foldLogs results logs) root.key) := by
  induction results using List.reverseRecOn with
  | nil => exact absurd h List.not_mem_nil
  | append_singleton before last ih =>
    rw [foldLogs_append_singleton]
    by_cases hkey : last.key = root.key
    · rw [← hkey, linesOf_foldRoot_self, foldRoot, Keyed.find?_insert, if_pos rfl]
    · have hbefore : root ∈ before := (List.mem_append.mp h).resolve_right fun hlast =>
        hkey (List.mem_singleton.mp hlast ▸ rfl)
      rw [linesOf, find?_foldRoot_of_ne hkey]
      exact ih hbefore

/-- Keys without lines do not count. -/
theorem flatMap_linesOf_filter (keys : List String) : keys.flatMap (linesOf logs) =
    (keys.filter fun key => linesOf logs key ≠ []).flatMap (linesOf logs) := by
  induction keys with
  | nil => rfl
  | cons key rest ih =>
    by_cases hkey : linesOf logs key = [] <;> simp [hkey, ih]

/-- **A further root of a key** adds its lines behind those of the earlier ones, if these are not in
its way. -/
theorem flatMap_keysBeneath_append (hclear : ∀ earlier ∈ before, Clear logs earlier root) :
    (keysBeneath root.key (before ++ [root])).flatMap (linesOf logs) =
      (keysBeneath root.key before).flatMap (linesOf logs) ++
        (keysBelow root).flatMap (linesOf logs) := by
  rw [flatMap_linesOf_filter, flatMap_linesOf_filter (keysBeneath root.key before),
    flatMap_linesOf_filter (keysBelow root), ← List.flatMap_append]
  refine congrArg (List.flatMap (linesOf logs)) ?_
  refine ((keysBeneath_ascending ..).filter _).eq_of_mem_iff (List.pairwise_append.mpr
    ⟨(keysBeneath_ascending ..).filter _, (keysBelow_ascending root).filter _, ?_⟩) fun key => ?_
  · intro a ha b hb
    obtain ⟨ha, halines⟩ := List.mem_filter.mp ha
    obtain ⟨hb, hblines⟩ := List.mem_filter.mp hb
    obtain ⟨earlier, hearlier, hkey, ha⟩ := mem_keysBeneath.mp ha
    exact (hclear earlier hearlier).inOrder hkey a ha b hb (by simpa using halines)
      (by simpa using hblines)
  · simp only [List.mem_append, List.mem_filter, mem_keysBeneath]
    grind

/-- **The lines of a key** after folding, if no root is in the way of a later one. -/
theorem linesOf_foldLogs (hclear : results.Pairwise (Clear logs)) (key : String) :
    linesOf (foldLogs results logs) key =
      linesOf logs key ++ (keysBeneath key results).flatMap (linesOf logs) := by
  induction results using List.reverseRecOn generalizing key with
  | nil => exact (List.append_nil _).symm
  | append_singleton before root ih =>
    obtain ⟨hbefore, -, hroot⟩ := List.pairwise_append.mp hclear
    have hroot : ∀ earlier ∈ before, Clear logs earlier root :=
      fun earlier hearlier => hroot earlier hearlier root (List.mem_singleton.mpr rfl)
    rw [foldLogs_append_singleton]
    by_cases hkey : root.key = key
    · subst hkey
      -- what is read below the root is as it was before any root was folded
      have hread : ∀ k ∈ keysBelow root, linesOf (foldLogs before logs) k = linesOf logs k := by
        intro k hk
        rw [ih hbefore, List.append_right_eq_self, List.flatMap_eq_nil_iff]
        intro below hbelow
        obtain ⟨earlier, hearlier, rfl, hmem⟩ := mem_keysBeneath.mp hbelow
        exact (hroot earlier hearlier).unread hk below hmem
      rw [linesOf_foldRoot_self, ih hbefore, List.flatMap_congr hread,
        flatMap_keysBeneath_append hroot, List.append_assoc]
    · rw [linesOf, find?_foldRoot_of_ne hkey, keysBeneath_append_of_ne hkey]
      exact ih hbefore key

/-- The keys below the roots of a key are those beneath it. -/
theorem mem_keysBeneath_key {root : StepResult} : key ∈ keysBeneath root.key results ↔
    key ≠ root.key ∧ ∃ other ∈ results, other.key = root.key ∧
      ∃ r ∈ StepResult.flattenAll other.children, r.key = key := by
  simp only [mem_keysBeneath, mem_keysBelow]
  grind

theorem Folds.find?_eq {folded : Keyed (List α)} (h : Folds results logs folded)
    (hroot : root ∈ results) : Keyed.find? root.key folded =
      some (linesOf logs root.key ++ (keysBeneath root.key results).flatMap (linesOf logs)) := by
  obtain ⟨below, hascending, hmem, hfound⟩ := h.rooted root hroot
  have hbelow : below = keysBeneath root.key results :=
    hascending.eq_of_mem_iff (keysBeneath_ascending ..) fun key =>
      (hmem key).trans mem_keysBeneath_key.symm
  rw [hfound, hbelow]

/-- The fold is what it should be if each root's key has its own lines and those beneath it. -/
theorem folds_foldLogs_iff : Folds results logs (foldLogs results logs) ↔
    ∀ root ∈ results, linesOf (foldLogs results logs) root.key =
      linesOf logs root.key ++ (keysBeneath root.key results).flatMap (linesOf logs) := by
  refine ⟨fun h root hroot => ?_, fun h => ⟨fun root hroot => ?_, fun _ => find?_foldLogs_of_ne⟩⟩
  · rw [linesOf, h.find?_eq hroot, Option.getD_some]
  · refine ⟨_, keysBeneath_ascending .., fun _ => mem_keysBeneath_key, ?_⟩
    rw [find?_foldLogs_of_mem hroot, h root hroot]

end

/-- **A trace is folded as it should be,** whatever the forest and its keys, if no root is in the
way of a later one. -/
theorem foldLogs_clear {α : Type} (results : List StepResult) (logs : Keyed (List α))
    (hclear : results.Pairwise (Clear logs)) : Folds results logs (foldLogs results logs) :=
  folds_foldLogs_iff.mpr fun root _ => linesOf_foldLogs hclear root.key

/-- Three roots, the first and the last of one key: a key below two roots, a key below the same root
twice and at different depths, a root below a later one, and a trace that lacks a key. -/
theorem foldLogs_clear_shared :
    let result (code : String) (children : List StepResult) : StepResult :=
      ⟨{ code := some code }, children⟩
    let results := [result "A" [result "C" [result "B" []], result "B" []], result "E" [],
      result "F" [result "E" [result "B" []]], result "A" [result "D" [result "A" []]]]
    let logs := [("A", ["a", "aa"]), ("B", ["b"]), ("D", ["d"]), ("E", ["e"]), ("G", ["g"])]
    results.Pairwise (Clear logs) ∧
      Folds results logs [("A", ["a", "aa", "b", "d"]), ("B", ["b"]), ("D", ["d"]), ("E", ["e"]),
        ("F", ["b", "e"]), ("G", ["g"])] := by
  intro result results logs
  have hclear : results.Pairwise (Clear logs) := by decide
  have hfolds := foldLogs_clear results logs hclear
  have hfolded : foldLogs results logs = [("A", ["a", "aa", "b", "d"]), ("B", ["b"]), ("D", ["d"]),
    ("E", ["e"]), ("F", ["b", "e"]), ("G", ["g"])] := by decide
  exact ⟨hclear, hfolded ▸ hfolds⟩

/-- **A root that is in the way:** the lines below the first root are read again with its own. -/
theorem foldLogs_reread :
    let result (code : String) (children : List StepResult) : StepResult :=
      ⟨{ code := some code }, children⟩
    let results := [result "A" [result "B" []], result "C" [result "A" []]]
    let logs := [("A", ["a"]), ("B", ["b"]), ("C", ["c"])]
    Keyed.find? "C" (foldLogs results logs) = some ["c", "a", "b"] ∧
      ¬ Folds results logs (foldLogs results logs) := by
  intro result results logs
  have hread : Keyed.find? "C" (foldLogs results logs) = some ["c", "a", "b"] := by decide
  refine ⟨hread, fun h => ?_⟩
  have hright : Keyed.find? "C" (foldLogs results logs) = some ["c", "a"] :=
    h.find?_eq (List.mem_cons_of_mem _ List.mem_cons_self)
  exact absurd (hread.symm.trans hright) (by decide)

/-! ### Roots that are in the way -/

section

variable {α : Type} {owner : α → String} {logs : Keyed (List α)} {root : StepResult}
  {results before after : List StepResult} {key below : String}

/-- The lines of a trace tell whose they are. -/
def Labelled (owner : α → String) (logs : Keyed (List α)) : Prop :=
  ∀ key, ∀ line ∈ linesOf logs key, owner line = key

/-- How many of some lines are those of a key. -/
def share (owner : α → String) (key : String) (lines : List α) : Nat :=
  lines.countP fun line => owner line = key

theorem share_append (lines more : List α) :
    share owner key (lines ++ more) = share owner key lines + share owner key more :=
  List.countP_append

theorem Labelled.share_linesOf (h : Labelled owner logs) (key other : String) :
    share owner key (linesOf logs other) =
      if other = key then (linesOf logs key).length else 0 := by
  split
  · next hkey =>
    subst hkey
    exact List.countP_eq_length.mpr fun line hline => decide_eq_true (h _ line hline)
  · next hkey =>
    refine List.countP_eq_zero.mpr fun line hline => ?_
    rwa [h _ line hline, decide_eq_true_eq]

/-- Where each key stands once, each has its lines once. -/
theorem Labelled.share_flatMap_le (h : Labelled owner logs) {keys : List String}
    (hkeys : keys.Nodup) (key : String) : share owner key (keys.flatMap (linesOf logs)) ≤
      if key ∈ keys then (linesOf logs key).length else 0 := by
  induction keys with
  | nil => exact Nat.zero_le _
  | cons first rest ih =>
    obtain ⟨hfirst, hrest⟩ := List.nodup_cons.mp hkeys
    have hle := ih hrest
    rw [List.flatMap_cons, share_append, h.share_linesOf]
    by_cases hkey : first = key
    · subst hkey
      rw [if_neg hfirst] at hle
      rw [if_pos rfl, if_pos List.mem_cons_self]
      exact Nat.add_le_add_left hle _
    · simpa [hkey, Ne.symm hkey] using hle

/-- Folding only adds to the lines of a key. -/
theorem linesOf_prefix_foldRoot : linesOf logs key <+: linesOf (foldRoot logs root) key := by
  by_cases hkey : root.key = key
  · subst hkey
    rw [linesOf_foldRoot_self]
    exact List.prefix_append ..
  · have hsame : linesOf (foldRoot logs root) key = linesOf logs key := by
      rw [linesOf, linesOf, find?_foldRoot_of_ne hkey]
    exact hsame ▸ List.prefix_refl _

theorem linesOf_prefix_foldLogs : linesOf logs key <+: linesOf (foldLogs results logs) key := by
  induction results generalizing logs with
  | nil => exact List.prefix_refl _
  | cons root rest ih => exact linesOf_prefix_foldRoot.trans ih

theorem foldLogs_append_cons : foldLogs (before ++ root :: after) logs =
    foldLogs after (foldRoot (foldLogs before logs) root) :=
  List.foldl_append

/-- What a root reads stays in the lines of its key, behind those that were there. -/
theorem read_prefix_foldLogs :
    linesOf (foldLogs before logs) root.key ++
        (keysBelow root).flatMap (linesOf (foldLogs before logs)) <+:
      linesOf (foldLogs (before ++ root :: after) logs) root.key := by
  rw [foldLogs_append_cons, ← linesOf_foldRoot_self]
  exact linesOf_prefix_foldLogs

/-- What is below a root is read. -/
theorem linesOf_sublist_read (hbelow : below ∈ keysBelow root) : (linesOf logs below).Sublist
    ((keysBelow root).flatMap (linesOf (foldLogs before logs))) :=
  linesOf_prefix_foldLogs.sublist.trans
    (List.sublist_flatten_of_mem (List.mem_map_of_mem hbelow))

theorem linesOf_sublist_foldLogs (hroot : root ∈ results) (hbelow : below ∈ keysBelow root) :
    (linesOf logs below).Sublist (linesOf (foldLogs results logs) root.key) := by
  obtain ⟨before, after, rfl⟩ := List.append_of_mem hroot
  exact (List.sublist_append_of_sublist_right (linesOf_sublist_read hbelow)).trans
    read_prefix_foldLogs.sublist

theorem share_foldRoot_ge (key below : String) (root : StepResult) (logs : Keyed (List α)) :
    share owner below (linesOf logs key) +
        (if root.key = key ∧ below ∈ keysBelow root then share owner below (linesOf logs below)
          else 0) ≤
      share owner below (linesOf (foldRoot logs root) key) := by
  split
  · next hroot =>
    obtain ⟨rfl, hbelow⟩ := hroot
    rw [linesOf_foldRoot_self, share_append]
    exact Nat.add_le_add_left
      (List.sublist_flatten_of_mem (List.mem_map_of_mem hbelow)).countP_le _
  · exact linesOf_prefix_foldRoot.sublist.countP_le

/-- How many roots of a key have another key below them. -/
def readings (key below : String) (results : List StepResult) : Nat :=
  results.countP fun root => root.key = key ∧ below ∈ keysBelow root

theorem readings_append_cons : readings key below (before ++ root :: after) =
    readings key below before + (if root.key = key ∧ below ∈ keysBelow root then 1 else 0) +
      readings key below after := by
  rw [readings, List.countP_append, List.countP_cons, readings, readings]
  simp only [decide_eq_true_eq]
  omega

theorem readings_pos_iff : 0 < readings key below results ↔ below ∈ keysBeneath key results := by
  simp only [readings, List.countP_pos_iff, decide_eq_true_eq, mem_keysBeneath]

/-- **A key has the lines of another** as often as it has it below a root, at the least. -/
theorem share_foldLogs_ge (key below : String) (results : List StepResult) (logs : Keyed (List α)) :
    share owner below (linesOf logs key) +
        readings key below results * share owner below (linesOf logs below) ≤
      share owner below (linesOf (foldLogs results logs) key) := by
  induction results generalizing logs with
  | nil => simp [readings, foldLogs]
  | cons root rest ih =>
    have hroot := @share_foldRoot_ge α owner key below root logs
    -- lines are never taken away, so that a later reading finds as many as an earlier one
    have hkept : share owner below (linesOf logs below) ≤
        share owner below (linesOf (foldRoot logs root) below) :=
      linesOf_prefix_foldRoot.sublist.countP_le
    have hrest := Nat.mul_le_mul_left (readings key below rest) hkept
    refine Nat.le_trans ?_ (ih (foldRoot logs root))
    rw [← List.nil_append (root :: rest), readings_append_cons, readings, List.countP_nil,
      Nat.zero_add, Nat.add_mul]
    split at hroot
    · next h =>
      rw [if_pos h, Nat.one_mul]
      omega
    · next h =>
      rw [if_neg h, Nat.zero_mul]
      omega

/-- How often a key has a reason to have the lines of another: as its own, and wherever it reads
them. -/
def due (key below : String) (results : List StepResult) : Nat :=
  (if key = below then 1 else 0) + readings key below results

theorem Labelled.share_foldLogs_ge (h : Labelled owner logs) (key below : String)
    (results : List StepResult) : due key below results * (linesOf logs below).length ≤
      share owner below (linesOf (foldLogs results logs) key) := by
  refine Nat.le_trans (Nat.le_of_eq ?_) (Scenario.share_foldLogs_ge key below results logs)
  rw [h.share_linesOf, h.share_linesOf, if_pos rfl, due, Nat.add_mul]
  split <;> omega

/-- **In a fold that is what it should be** no key has the lines of another twice. -/
theorem Folds.share_le (hlabelled : Labelled owner logs) {folded : Keyed (List α)}
    (h : Folds results logs folded) (hroot : root ∈ results) (below : String) :
    share owner below (linesOf folded root.key) ≤
      min 1 (due root.key below results) * (linesOf logs below).length := by
  -- the keys that a root reads from are different from each other and from its own
  have hnodup : (root.key :: keysBeneath root.key results).Nodup := by
    refine List.nodup_cons.mpr ⟨fun hmem => ?_, (keysBeneath_ascending ..).imp Std.ne_of_lt⟩
    obtain ⟨other, -, hkey, hbelow⟩ := mem_keysBeneath.mp hmem
    exact (mem_keysBelow.mp hbelow).1 hkey.symm
  have hle := hlabelled.share_flatMap_le hnodup below
  rw [List.flatMap_cons] at hle
  rw [linesOf, h.find?_eq hroot, Option.getD_some]
  refine hle.trans ?_
  split
  · next hmem =>
    have hpos : 0 < due root.key below results := by
      obtain hkey | hmem := List.mem_cons.mp hmem
      · exact Nat.add_pos_left (by rw [if_pos hkey.symm]; exact Nat.one_pos) _
      · exact Nat.add_pos_right _ (readings_pos_iff.mpr hmem)
    rw [Nat.min_eq_left hpos, Nat.one_mul]
  · exact Nat.zero_le _

theorem length_eq_zero_of_mul_le {times due : Nat} {lines : List α} (htimes : min 1 due < times)
    (h : times * lines.length ≤ min 1 due * lines.length) : lines = [] := by
  by_contra hlines
  have hpos : 0 < lines.length := List.length_pos_iff.mpr hlines
  exact absurd (Nat.le_of_mul_le_mul_right h hpos) (Nat.not_le.mpr htimes)

/-- Roots that share a key have nothing with lines below both. -/
theorem Folds.share_read (hlabelled : Labelled owner logs) {earlier later : StepResult}
    (h : Folds (before ++ later :: after) logs (foldLogs (before ++ later :: after) logs))
    (hearlier : earlier ∈ before) (hkey : earlier.key = later.key)
    (hfirst : below ∈ keysBelow earlier) (hsecond : below ∈ keysBelow later) :
    linesOf logs below = [] := by
  have hle := h.share_le hlabelled (List.mem_append_right _ List.mem_cons_self) below
  have hge := hlabelled.share_foldLogs_ge later.key below (before ++ later :: after)
  refine length_eq_zero_of_mul_le ?_ (hge.trans hle)
  have hbefore : 0 < readings later.key below before :=
    readings_pos_iff.mpr (mem_keysBeneath.mpr ⟨earlier, hearlier, hkey, hfirst⟩)
  rw [due, readings_append_cons, if_pos (And.intro rfl hsecond)]
  omega

/-- Two keys that are read give their lines, also if they are lines of one key. -/
theorem share_flatMap_ge {lines : String → List α} {keys : List String} {other : String}
    (hother : other ∈ keys) (hne : key ≠ other) :
    share owner key (lines other) + (if key ∈ keys then share owner key (lines key) else 0) ≤
      share owner key (keys.flatMap lines) := by
  have hperm := (List.perm_cons_erase hother).flatMap_right lines
  rw [share, share, share, hperm.countP_eq, List.flatMap_cons, List.countP_append]
  refine Nat.add_le_add_left ?_ _
  split
  · next hkey =>
    have hmem : key ∈ keys.erase other := (List.mem_erase_of_ne hne).mpr hkey
    exact (List.sublist_flatten_of_mem (List.mem_map_of_mem hmem)).countP_le
  · exact Nat.zero_le _

/-- A root adds nothing to a key that is below a later root. -/
theorem Folds.unread (hlabelled : Labelled owner logs) {earlier later : StepResult}
    (h : Folds (before ++ later :: after) logs (foldLogs (before ++ later :: after) logs))
    (hearlier : earlier ∈ before) (hread : earlier.key ∈ keysBelow later)
    (hbelow : below ∈ keysBelow earlier) : linesOf logs below = [] := by
  have hle := h.share_le hlabelled (List.mem_append_right _ List.mem_cons_self) below
  refine length_eq_zero_of_mul_le (Nat.lt_succ_of_le (Nat.min_le_right ..)) (Nat.le_trans ?_ hle)
  rw [foldLogs_append_cons]
  generalize hfolded : foldLogs before logs = folded
  -- the key of the earlier root has the lines, and the later root reads them there
  have hgiven : share owner below (linesOf logs below) ≤
      share owner below (linesOf folded earlier.key) :=
    hfolded ▸ (linesOf_sublist_foldLogs hearlier hbelow).countP_le
  have htaken := @share_flatMap_ge α owner below (linesOf folded) (keysBelow later)
    earlier.key hread (mem_keysBelow.mp hbelow).1
  -- that is once more than it is due
  have hbefore : due later.key below before * (linesOf logs below).length ≤
      share owner below (linesOf folded later.key) :=
    hfolded ▸ hlabelled.share_foldLogs_ge later.key below before
  have hkept : share owner below (linesOf logs below) ≤ share owner below (linesOf folded below) :=
    hfolded ▸ linesOf_prefix_foldLogs.sublist.countP_le
  have hafter := @share_foldLogs_ge α owner later.key below after (foldRoot folded later)
  have hlater : share owner below (linesOf folded below) ≤
      share owner below (linesOf (foldRoot folded later) below) :=
    linesOf_prefix_foldRoot.sublist.countP_le
  have hmul := Nat.mul_le_mul_left (readings later.key below after) (hkept.trans hlater)
  refine Nat.le_trans ?_ hafter
  rw [linesOf_foldRoot_self, share_append]
  rw [hlabelled.share_linesOf, if_pos rfl] at hgiven hkept hmul
  rw [due, readings_append_cons]
  rw [due] at hbefore
  simp only [Nat.add_mul, true_and, Nat.succ_mul] at hbefore ⊢
  by_cases hsecond : below ∈ keysBelow later
  · rw [if_pos hsecond] at htaken ⊢
    omega
  · rw [if_neg hsecond] at htaken ⊢
    omega

/-- Keys that stand in order have their lines in order. -/
theorem Labelled.flatMap_pairwise (h : Labelled owner logs) {keys : List String}
    (hkeys : keys.Pairwise (· < ·)) :
    (keys.flatMap (linesOf logs)).Pairwise fun l m => owner l ≤ owner m := by
  refine List.pairwise_flatMap.mpr ⟨fun key _ => ?_, hkeys.imp fun {a b} hlt l hl m hm => ?_⟩
  · refine List.pairwise_iff_forall_sublist.mpr fun {l m} hsub => ?_
    have hsame : owner l = owner m :=
      (h key l (hsub.subset List.mem_cons_self)).trans (h key m (hsub.subset (by simp))).symm
    exact hsame ▸ String.le_refl (owner l)
  · rw [h a l hl, h b m hm]
    exact Std.le_of_lt hlt

/-- The lines of a key below an earlier root come before those of one below a later root. -/
theorem Folds.inOrder (hlabelled : Labelled owner logs) {earlier later : StepResult}
    (h : Folds (before ++ later :: after) logs (foldLogs (before ++ later :: after) logs))
    (hearlier : earlier ∈ before) (hkey : earlier.key = later.key) {a b : String}
    (ha : a ∈ keysBelow earlier) (hb : b ∈ keysBelow later) (halines : linesOf logs a ≠ [])
    (hblines : linesOf logs b ≠ []) : a ≤ b := by
  obtain ⟨l, hl⟩ := List.exists_mem_of_ne_nil _ halines
  obtain ⟨m, hm⟩ := List.exists_mem_of_ne_nil _ hblines
  have hlowner := hlabelled a l hl
  have hmowner := hlabelled b m hm
  -- in the fold a line of the one key comes before a line of the other,
  have hsub : [l, m].Sublist (linesOf (foldLogs (before ++ later :: after) logs) later.key) := by
    have hfirst : (linesOf logs a).Sublist (linesOf (foldLogs before logs) later.key) :=
      hkey ▸ linesOf_sublist_foldLogs hearlier ha
    exact (((List.singleton_sublist.mpr hl).trans hfirst).append
      ((List.singleton_sublist.mpr hm).trans (linesOf_sublist_read hb))).trans
        read_prefix_foldLogs.sublist
  rw [linesOf, h.find?_eq (List.mem_append_right _ List.mem_cons_self), Option.getD_some] at hsub
  -- and both are lines of keys beneath, where the keys are in order
  have hbeneath : [l, m].Sublist
      ((keysBeneath later.key (before ++ later :: after)).flatMap (linesOf logs)) := by
    have hown : (linesOf logs later.key).filter (fun line => owner line ≠ later.key) = [] :=
      List.filter_eq_nil_iff.mpr fun line hline => by simp [hlabelled _ line hline]
    have hothers := hsub.filter fun line => owner line ≠ later.key
    rw [List.filter_append, hown, List.nil_append] at hothers
    have hane := hkey ▸ (mem_keysBelow.mp ha).1
    have hbne := (mem_keysBelow.mp hb).1
    have hkept : [l, m].filter (fun line => owner line ≠ later.key) = [l, m] :=
      List.filter_eq_self.mpr (by simp [hlowner, hmowner, hane, hbne])
    exact (hkept ▸ hothers).trans List.filter_sublist
  have hle := List.pairwise_iff_forall_sublist.mp
    (hlabelled.flatMap_pairwise (keysBeneath_ascending ..)) hbeneath
  rwa [hlowner, hmowner] at hle

/-- **A fold is what it should be only if no root is in the way of a later one,** when the lines
tell whose they are. -/
theorem foldLogs_clear_iff (hlabelled : Labelled owner logs) :
    Folds results logs (foldLogs results logs) ↔ results.Pairwise (Clear logs) := by
  refine ⟨fun hfolds => ?_, fun hclear =>
    folds_foldLogs_iff.mpr fun root _ => linesOf_foldLogs hclear root.key⟩
  refine List.pairwise_iff_forall_sublist.mpr fun {earlier later} hsub => ?_
  obtain ⟨front, back, rfl, hearlier, hlater⟩ := List.cons_sublist_iff.mp hsub
  obtain ⟨between, after, rfl⟩ := List.append_of_mem (List.singleton_sublist.mp hlater)
  rw [← List.append_assoc] at hfolds
  have hearlier := List.mem_append_left between hearlier
  refine ⟨fun hread below hbelow => hfolds.unread hlabelled hearlier hread hbelow,
    fun hkey a ha b hb halines hblines => ?_⟩
  refine Std.lt_of_le_of_ne (hfolds.inOrder hlabelled hearlier hkey ha hb halines hblines) ?_
  rintro rfl
  exact halines (hfolds.share_read hlabelled hearlier hkey ha hb)

end

end Scenario
