import Mathlib.Data.Finset.Card
import Mathlib.Logic.Relation
import Scenario.Proofs.Checks
import Scenario.Proofs.KeyOrder
import Scenario.Summary

/-!
# Counts over results

A report counts steps and not results: of all results of a key, parents before the results below
them, the last one decides, and the others do not count.

* `StepResult.outcomes` — what the results of a forest say of their keys; `lastOf` is the last word
  on a key, and `Keyed.find?_lastOutcomes` finds it in the collection that is counted.
* `Keyed.length_eq_card`, `Keyed.length_filter_eq_card` — a collection has as many entries as keys.
* `StepResult.Grows` — further results have come up in a forest, at whatever depth; no key is lost.
* `Revision` — a stretch of outcomes is replaced whose keys all come up again behind it, and no last
  word changes: `Revision.lastOf_eq`.
* `Statistics.of_lastOf` — **every key counts once,** by the last word on it.
-/

namespace Scenario

/-! ### The last word on a key -/

/-- The last word on a key. -/
def lastOf (key : String) (outcomes : List (String × Bool)) : Option Bool :=
  ((outcomes.filter fun outcome => outcome.1 = key).getLast?).map Prod.snd

section

variable {key : String} {outcomes before after : List (String × Bool)}

/-- There is a word on the keys that come up, and on no others. -/
theorem lastOf_eq_none_iff : lastOf key outcomes = none ↔ key ∉ outcomes.map Prod.fst := by
  rw [lastOf, Option.map_eq_none_iff, List.getLast?_eq_none_iff, List.filter_eq_nil_iff]
  simp only [decide_eq_true_eq, List.mem_map, not_exists, not_and]

/-- What comes later has the last word. -/
theorem lastOf_append :
    lastOf key (before ++ after) = (lastOf key after).or (lastOf key before) := by
  rw [lastOf, List.filter_append, List.getLast?_append, Option.map_or]
  rfl

/-- What comes before the last word on a key does not matter. -/
theorem lastOf_append_of_mem (h : key ∈ after.map Prod.fst) :
    lastOf key (before ++ after) = lastOf key after := by
  obtain ⟨word, hword⟩ := Option.ne_none_iff_exists'.mp (mt lastOf_eq_none_iff.mp (not_not.mpr h))
  rw [lastOf_append, hword, Option.some_or]

/-- A key that does not come up has no say. -/
theorem lastOf_append_of_notMem (h : key ∉ before.map Prod.fst) :
    lastOf key (before ++ after) = lastOf key after := by
  rw [lastOf_append, lastOf_eq_none_iff.mpr h, Option.or_none]

/-- The last word is the last one of the values that are written under a key. -/
theorem getLast?_writtenAs :
    (outcomes.filterMap (Keyed.writtenAs key)).getLast? = lastOf key outcomes := by
  have hwritten : outcomes.filterMap (Keyed.writtenAs key) =
      (outcomes.filter fun outcome => outcome.1 = key).map Prod.snd := by
    rw [← List.filterMap_eq_map, List.filterMap_filter]
    refine List.filterMap_congr fun outcome _ => ?_
    simp only [Keyed.writtenAs, decide_eq_true_eq, Function.comp_apply]
  rw [hwritten, List.getLast?_map, lastOf]

end

/-- **A revision** replaces a stretch of outcomes by others, in any number and order. All keys of
both come up again behind it. -/
inductive Revision : List (String × Bool) → List (String × Bool) → Prop
  | replace {before old new after : List (String × Bool)}
    (hold : ∀ outcome ∈ old, outcome.1 ∈ after.map Prod.fst)
    (hnew : ∀ outcome ∈ new, outcome.1 ∈ after.map Prod.fst) :
    Revision (before ++ (old ++ after)) (before ++ (new ++ after))

/-- A stretch whose keys all come up again behind it has no last word. -/
theorem lastOf_stretch {key : String} {stretch after : List (String × Bool)}
    (h : ∀ outcome ∈ stretch, outcome.1 ∈ after.map Prod.fst) :
    lastOf key (stretch ++ after) = lastOf key after := by
  by_cases hkey : key ∈ stretch.map Prod.fst
  · obtain ⟨outcome, houtcome, rfl⟩ := List.mem_map.mp hkey
    exact lastOf_append_of_mem (h outcome houtcome)
  · exact lastOf_append_of_notMem hkey

/-- **No last word changes** in a revision. -/
theorem Revision.lastOf_eq {outcomes outcomes' : List (String × Bool)}
    (h : Revision outcomes outcomes') (key : String) :
    lastOf key outcomes' = lastOf key outcomes := by
  obtain ⟨hold, hnew⟩ := h
  rw [lastOf_append, lastOf_stretch hnew, lastOf_append, lastOf_stretch hold]

/-! ### Results -/

namespace StepResult

/-- What the results of a forest say of their keys, parents first. -/
def outcomes (results : List StepResult) : List (String × Bool) :=
  (flattenAll results).map fun r => (r.key, r.success)

/-- The keys of the results of a forest. -/
def keys (results : List StepResult) : Finset String :=
  ((flattenAll results).map fun r => r.key).toFinset

theorem mem_keys {results : List StepResult} {key : String} :
    key ∈ keys results ↔ ∃ r ∈ flattenAll results, r.key = key := by
  rw [keys, List.mem_toFinset, List.mem_map]

theorem keys_eq_outcomes (results : List StepResult) :
    keys results = ((outcomes results).map Prod.fst).toFinset := by
  rw [keys, outcomes, List.map_map]
  rfl

/-- The keys are those that there is a last word on. -/
theorem mem_keys_iff {results : List StepResult} {key : String} :
    key ∈ keys results ↔ lastOf key (outcomes results) ≠ none := by
  rw [keys_eq_outcomes, List.mem_toFinset, ne_eq, lastOf_eq_none_iff, not_not]

/-- **A forest grows:** further results come up among its results and below them. A result that was
there before may change, but it keeps its key. -/
inductive Grows : List StepResult → List StepResult → Prop
  | nil : Grows [] []
  | kept {fields fields' : ResultFields} {children children' rest rest' : List StepResult} :
    fields'.key = fields.key → Grows children children' → Grows rest rest' →
    Grows (⟨fields, children⟩ :: rest) (⟨fields', children'⟩ :: rest')
  | added {further : StepResult} {rest rest' : List StepResult} :
    Grows rest rest' → Grows rest (further :: rest')

/-- A forest that grows loses no key. -/
theorem Grows.keys_subset {results results' : List StepResult} (h : Grows results results') :
    keys results ⊆ keys results' := by
  induction h with
  | nil => exact Finset.Subset.refl _
  | kept hkey _ _ ihchildren ihrest =>
    intro key hmem
    obtain ⟨r, hr, rfl⟩ := mem_keys.mp hmem
    rw [flattenAll, flatten, List.cons_append, List.mem_cons, List.mem_append] at hr
    rw [mem_keys, flattenAll, flatten, List.cons_append]
    -- the key is that of the first result, of one below it or of one beside it
    rcases hr with rfl | hr | hr
    · exact ⟨_, List.mem_cons_self, hkey⟩
    · obtain ⟨r', hr', hkey'⟩ := mem_keys.mp (ihchildren (mem_keys.mpr ⟨r, hr, rfl⟩))
      exact ⟨r', List.mem_cons_of_mem _ (List.mem_append_left _ hr'), hkey'⟩
    · obtain ⟨r', hr', hkey'⟩ := mem_keys.mp (ihrest (mem_keys.mpr ⟨r, hr, rfl⟩))
      exact ⟨r', List.mem_cons_of_mem _ (List.mem_append_right _ hr'), hkey'⟩
  | added _ ih =>
    intro key hmem
    obtain ⟨r, hr, hkey⟩ := mem_keys.mp (ih hmem)
    exact mem_keys.mpr ⟨r, List.mem_append_right _ hr, hkey⟩

end StepResult

/-! ### The collection that is counted -/

namespace Keyed

/-- In the collection that is counted, the last word on a key stands under it. -/
theorem find?_lastOutcomes (results : List StepResult) (key : String) :
    find? key (lastOutcomes results) = lastOf key (StepResult.outcomes results) := by
  have hlast := find?_extend_last key [] (StepResult.outcomes results)
  rw [getLast?_writtenAs, find?_nil] at hlast
  exact hlast.trans (by simp)

variable {α : Type} {entries : Keyed α}

/-- **An ascending collection** has as many entries as keys. -/
theorem Ascending.length_eq_card (h : Ascending entries) {keys : Finset String}
    (hkeys : ∀ key, key ∈ keys ↔ find? key entries ≠ none) : entries.length = keys.card := by
  have hset : (entries.map Prod.fst).toFinset = keys := by
    ext key
    rw [List.mem_toFinset, hkeys, Option.ne_none_iff_exists']
    simp only [List.mem_map, Prod.exists, exists_eq_right, h.mem_iff, exists_and_right]
  rw [← hset, List.toFinset_card_of_nodup h.keys_nodup, List.length_map]

end Keyed

/-! ### Counts -/

namespace Statistics

open StepResult

variable {results results' : List StepResult}

/-- As many steps are counted as there are keys. -/
theorem total_eq_card (results : List StepResult) :
    (Statistics.of results).total = (keys results).card := by
  refine (Keyed.ofList_ascending _).length_eq_card fun key => ?_
  rw [mem_keys_iff, ← Keyed.find?_lastOutcomes]
  rfl

/-- Those of them passed whose key has a last word that says so. -/
theorem passed_eq_card (results : List StepResult) : (Statistics.of results).passed =
    ((keys results).filter fun key => lastOf key (outcomes results) = some true).card := by
  have hascending : Keyed.Ascending (lastOutcomes results) := Keyed.ofList_ascending _
  have hpassed : Keyed.Ascending ((lastOutcomes results).filter fun entry => entry.2) :=
    hascending.filter _
  refine hpassed.length_eq_card fun key => ?_
  rw [Finset.mem_filter, mem_keys_iff, ← Keyed.find?_lastOutcomes]
  constructor
  · rintro ⟨-, hlast⟩
    have hmem : (key, true) ∈ (lastOutcomes results).filter fun entry => entry.2 :=
      List.mem_filter.mpr ⟨hascending.mem_iff.mpr hlast, rfl⟩
    exact Option.ne_none_iff_exists'.mpr ⟨true, hpassed.mem_iff.mp hmem⟩
  · intro hfound
    obtain ⟨word, hword⟩ := Option.ne_none_iff_exists'.mp hfound
    obtain ⟨hmem, rfl : word = true⟩ := List.mem_filter.mp (hpassed.mem_iff.mpr hword)
    have hlast := hascending.mem_iff.mp hmem
    exact ⟨Option.ne_none_iff_exists'.mpr ⟨true, hlast⟩, hlast⟩

/-- The counts depend on the keys and on the last words only. -/
theorem of_congr (h : ∀ key, lastOf key (outcomes results') = lastOf key (outcomes results)) :
    Statistics.of results' = Statistics.of results := by
  have hkeys : keys results' = keys results := by
    ext key
    rw [mem_keys_iff, mem_keys_iff, h]
  have htotal : (Statistics.of results').total = (Statistics.of results).total := by
    rw [total_eq_card, total_eq_card, hkeys]
  have hpassed : (Statistics.of results').passed = (Statistics.of results).passed := by
    rw [passed_eq_card, passed_eq_card, hkeys]
    simp only [h]
  -- the other counts are made of these two
  have hof : ∀ rs, Statistics.of rs = ⟨(Statistics.of rs).total, (Statistics.of rs).passed,
      (Statistics.of rs).total - (Statistics.of rs).passed,
      percentage (Statistics.of rs).passed (Statistics.of rs).total⟩ := fun _ => rfl
  rw [hof results', htotal, hpassed, ← hof]

end Statistics

open StepResult in
/-- **Every key counts once, by the last word on it.** Of a forest of results, of whatever depth and
with whatever keys:

* the total is the number of keys, those count as passed whose last result passed, and the rest as
  failed, which is never less than none;
* when the forest grows by results of keys that it had, the total stays as it is;
* when outcomes are left out, added, changed or put in another order that come before others of
  their keys, all counts stay as they are. -/
theorem Statistics.of_lastOf (results : List StepResult) :
    let counts := Statistics.of results
    (counts.total = (keys results).card ∧
      counts.passed =
        ((keys results).filter fun key => lastOf key (outcomes results) = some true).card ∧
      counts.failed = counts.total - counts.passed ∧ counts.passed ≤ counts.total) ∧
    (∀ results', Grows results results' → keys results' ⊆ keys results →
      (Statistics.of results').total = counts.total) ∧
    ∀ results', Relation.ReflTransGen Revision (outcomes results) (outcomes results') →
      Statistics.of results' = counts := by
  intro counts
  have htotal : counts.total = (keys results).card := total_eq_card results
  have hpassed : counts.passed = _ := passed_eq_card results
  refine ⟨⟨htotal, hpassed, rfl, ?_⟩, fun results' hgrows hkeys => ?_, fun results' hrevised => ?_⟩
  · rw [htotal, hpassed]
    exact Finset.card_filter_le _ _
  · rw [htotal, total_eq_card, Finset.Subset.antisymm hkeys hgrows.keys_subset]
  · refine of_congr fun key => ?_
    -- one revision after the other leaves the last outcome of every key
    generalize outcomes results' = revised at hrevised
    induction hrevised with
    | refl => rfl
    | tail _ hlast ih => exact (hlast.lastOf_eq key).trans ih

open StepResult in
/-- A loop whose step fails and then passes, beside a step that fails. A further iteration leaves
the total alone, and another first iteration changes nothing. -/
theorem Statistics.of_lastOf_loop :
    let inner (passed : Bool) : StepResult := ⟨{ code := some "inner", success := passed }, []⟩
    let beside : StepResult := ⟨{ code := some "beside", success := false }, []⟩
    let forest (iterations : List StepResult) : List StepResult :=
      [⟨{ code := some "loop", iteration := iterations.length }, iterations⟩, beside]
    let results := forest [inner false, inner true]
    let longer := forest [inner false, inner true, inner true]
    let changed := forest [inner true, inner true]
    (Grows results longer ∧ keys longer ⊆ keys results) ∧
      Revision (outcomes results) (outcomes changed) ∧
      (Statistics.of results).total = 3 ∧ (Statistics.of results).passed = 2 ∧
      (Statistics.of results).failed = 1 ∧ (Statistics.of longer).total = 3 ∧
      Statistics.of changed = Statistics.of results := by
  intro inner beside forest results longer changed
  have hgrows : Grows results longer :=
    .kept rfl (.kept rfl .nil (.kept rfl .nil (.added .nil))) (.kept rfl .nil .nil)
  have hkeys : keys longer ⊆ keys results := by decide
  -- the outcome of the first iteration comes before another one of its key
  have hrevised : Revision (outcomes results) (outcomes changed) :=
    @Revision.replace [("loop", true)] [("inner", false)] [("inner", true)]
      [("inner", true), ("beside", false)] (by decide) (by decide)
  obtain ⟨⟨htotal, hpassed, hfailed, -⟩, hlonger, hchanged⟩ := Statistics.of_lastOf results
  have hthree : (Statistics.of results).total = 3 := htotal.trans (by decide)
  have htwo : (Statistics.of results).passed = 2 := hpassed.trans (by decide)
  refine ⟨⟨hgrows, hkeys⟩, hrevised, hthree, htwo, ?_, ?_, hchanged changed (.single hrevised)⟩
  · rw [hfailed, hthree, htwo]
  · rw [hlonger longer hgrows hkeys, hthree]

end Scenario
