import Mathlib.Logic.Relation
import Scenario.Proofs.Abort
import Scenario.Proofs.Completeness
import Scenario.Proofs.Termination

/-!
# Verdicts and counts

Whether something passed is said four times: by the error of a step, by what came of the steps below
it, by the roots of the case, and by the counts of its report, in which the last result of a key
hides the others. They agree.

* `StepResult.Upright` — a result passed if and only if it has no error, and only if everything
  below it passed; `History.Everywhere.upright`.
* `Statistics.failed_eq_zero` — the counts show no failure if and only if the last result of every
  key passed.
* `RootsApart` — no root shares its key with another step; then its result is the last one of its
  key: `rootResult_unique`.
* `runCase_verdict` — all of this of every run of a case.
-/

namespace Scenario

/-! ### Results -/

/-- If a passage passed, so did each of its steps. -/
theorem Passage.all_passed {halt : Bool} {steps : List Step} {hs : List History}
    {outcome : Option ChildrenOutcome} (h : Passage halt steps hs outcome)
    (ho : outcome = some .passed) {r : StepResult} (hr : r ∈ hs.filterMap History.result) :
    r.success = true := by
  obtain ⟨g, hg, hgr⟩ := List.mem_filterMap.mp hr
  have hno := h.not_failed ho g hg
  rw [History.failed_iff hgr] at hno
  simpa using hno

namespace StepResult

/-- **An upright result:** it passed if and only if it has no error, and if it passed, so did the
results below it. -/
inductive Upright : StepResult → Prop
  | intro {r : StepResult} : (r.success = true ↔ r.error = none) →
    (r.success = true → ∀ c ∈ r.children, c.success = true) → (∀ c ∈ r.children, Upright c) →
    Upright r

variable {r c : StepResult} {rs : List StepResult}

theorem mem_flattenAll : c ∈ flattenAll rs ↔ ∃ r ∈ rs, c = r ∨ c ∈ flattenAll r.children := by
  induction rs with
  | nil => simp [flattenAll]
  | cons r rest ih =>
    rw [flattenAll, flatten_eq, List.mem_append, List.mem_cons, ih, List.exists_mem_cons_iff]

/-- What is upright is so throughout. -/
theorem Upright.throughout (h : r.Upright) : ∀ c ∈ flattenAll r.children, c.Upright := by
  induction h with
  | @intro r _ _ hall ih =>
    intro c hc
    obtain ⟨d, hd, rfl | hcd⟩ := mem_flattenAll.mp hc
    · exact hall c hd
    · exact ih d hd c hcd

/-- **Below an upright result that passed,** everything passed. -/
theorem Upright.all_passed (h : r.Upright) (hr : r.success = true) :
    ∀ c ∈ flattenAll r.children, c.success = true := by
  induction h with
  | @intro r _ hpassed _ ih =>
    intro c hc
    obtain ⟨d, hd, rfl | hcd⟩ := mem_flattenAll.mp hc
    · exact hpassed hr c hd
    · exact ih d hd (hpassed hr d hd) c hcd

theorem Upright.success_iff (h : r.Upright) : r.success = true ↔ r.error = none := by
  cases h with
  | intro hiff => exact hiff

end StepResult

namespace History

variable {ρ : Type} {o : Outside ρ} {h : History} {r : StepResult}

/-- A step passed if and only if it has no error. -/
theorem Sound.success_iff (hs : h.Sound o) (hr : h.result = some r) :
    r.success = true ↔ r.error = none := by
  obtain ⟨events, ending, -, -, -, hconcluded⟩ := hs.course
  have hend := hconcluded r hr
  rw [hend.success, hend.error, Option.map_eq_none_iff]
  cases ending with
  | finished => simp [Ending.fault?]
  | faulted fault => simp [Ending.fault?]
  | crashed => exact absurd rfl hend.ended

/-- **A step that passed** has only run steps that did. -/
theorem Sound.children_passed (hs : h.Sound o) (hr : h.result = some r)
    (hpassed : r.success = true) : ∀ c ∈ r.children, c.success = true := by
  obtain ⟨events, ending, hcourse, -, hhistories, hconcluded⟩ := hs.course
  have hend := hconcluded r hr
  have hfinished := hend.success.mp hpassed
  intro c hc
  rw [hend.children, ← hhistories] at hc
  -- work that finishes has run nothing, or a passage that passed, or iterations that did
  cases hcourse with
  | idle => exact absurd hc List.not_mem_nil
  | pass _ _ _ hpass =>
    rw [Event.histories_ran] at hc
    exact hpass.all_passed (Ending.ofOutcome_finished.mp hfinished) hc
  | visit _ _ _ _ _ hpass =>
    rw [Event.histories_visit] at hc
    exact hpass.all_passed (Ending.ofOutcome_finished.mp hfinished) hc
  | rounds _ _ _ _ hfulfils hrounds =>
    rw [Round.histories_flatMap, List.filterMap_flatMap] at hc
    obtain ⟨round, hround, hc⟩ := List.mem_flatMap.mp hc
    exact (hrounds.passage round hround).all_passed ((hfulfils hfinished).passed round hround) hc

/-- The results below a step are those of the steps that it ran. -/
theorem Sound.result_below (hs : h.Sound o) (hr : h.result = some r) {c : StepResult}
    (hc : c ∈ r.children) : ∃ g ∈ h.children, g.result = some c := by
  obtain ⟨events, ending, -, -, -, hconcluded⟩ := hs.course
  rw [(hconcluded r hr).children] at hc
  exact List.mem_filterMap.mp hc

/-- **The result of every step is upright.** -/
theorem Everywhere.upright (hs : h.Everywhere (Sound o)) (hr : h.result = some r) : r.Upright := by
  induction hs generalizing r with
  | @intro h hsound _ ih =>
    refine .intro (hsound.success_iff hr) (hsound.children_passed hr) fun c hc => ?_
    obtain ⟨g, hg, hgc⟩ := hsound.result_below hr hc
    exact ih g hg hgc

/-- Results that are marked with their steps have the keys of these. -/
theorem keys_eq {hs : List History} {rs : List StepResult}
    (h : List.Forall₂ (fun g r => g.result = some r ∧ r.IsOf g.step.toStepFields) hs rs) :
    rs.map (fun r => r.key) = hs.map fun g => g.step.key := by
  induction h with
  | nil => rfl
  | cons hm _ ih => rw [List.map_cons, List.map_cons, hm.2.key, ih]

/-- **A result below the result of a step** has the key of a step below that step. -/
theorem Everywhere.key_below (hs : h.Everywhere (Sound o)) (hr : h.result = some r) :
    ∀ c ∈ StepResult.flattenAll r.children, ∃ below including,
      Relation.TransGen (Below o.library) (below, including) (h.step, h.before.including) ∧
        c.key = below.key := by
  induction hs generalizing r with
  | @intro h hsound hall ih =>
    intro c hc
    obtain ⟨d, hd, hcd⟩ := StepResult.mem_flattenAll.mp hc
    obtain ⟨g, hg, hgd⟩ := hsound.result_below hr hd
    have hbelow := Sound.below (.intro hsound hall) hg
    rcases hcd with rfl | hcd
    · exact ⟨g.step, g.before.including, .single hbelow, ((hall g hg).here.marked hgd).key⟩
    · obtain ⟨below, including, hpath, hkey⟩ := ih g hg hgd c hcd
      exact ⟨below, including, hpath.tail hbelow, hkey⟩

end History

/-! ### Counts -/

/-- **The counts show no failure** if and only if the last result of every key passed. -/
theorem Statistics.failed_eq_zero {results : List StepResult} :
    (Statistics.of results).failed = 0 ↔ ∀ entry ∈ lastOutcomes results, entry.2 = true := by
  have hle := List.length_filter_le (fun entry : String × Bool => entry.2) (lastOutcomes results)
  have hfailed : (Statistics.of results).failed = (lastOutcomes results).length -
      ((lastOutcomes results).filter fun entry => entry.2).length := rfl
  rw [hfailed, ← List.filter_eq_self (p := fun entry : String × Bool => entry.2)]
  constructor
  · intro hzero
    exact List.filter_sublist.eq_of_length (by omega)
  · intro hall
    rw [hall, Nat.sub_self]

/-- If every result passed, the counts show no failure. -/
theorem Statistics.failed_of_all {results : List StepResult}
    (h : ∀ c ∈ StepResult.flattenAll results, c.success = true) :
    (Statistics.of results).failed = 0 := by
  refine failed_eq_zero.mpr fun entry hentry => ?_
  have hmem := (Keyed.mem_of_mem_extend hentry).resolve_left List.not_mem_nil
  obtain ⟨c, hc, rfl⟩ := List.mem_map.mp hmem
  exact h c hc

/-- A result whose key no other result has is counted. -/
theorem Statistics.success_of_unique {results : List StepResult} {r : StepResult}
    (hr : r ∈ StepResult.flattenAll results)
    (hunique : ∀ c ∈ StepResult.flattenAll results, c.key = r.key → c = r)
    (hzero : (Statistics.of results).failed = 0) : r.success = true := by
  have hcounted := List.mem_map_of_mem (f := fun c : StepResult => (c.key, c.success)) hr
  obtain ⟨v, hfound, hmem⟩ : ∃ v, Keyed.find? r.key (lastOutcomes results) = some v ∧
      (r.key, v) ∈ (StepResult.flattenAll results).map fun c : StepResult => (c.key, c.success) :=
    Keyed.exists_find?_ofList hcounted
  -- whichever pair of its key counts, it is that of the result itself
  obtain ⟨c, hc, hpair⟩ := List.mem_map.mp hmem
  obtain ⟨hkey, rfl⟩ := Prod.mk.inj hpair
  obtain rfl := hunique c hc hkey
  exact failed_eq_zero.mp hzero _ (Keyed.mem_of_find?_eq_some hfound)

/-! ### Keys of roots -/

/-- **No root has the key of another step,** be it a root, a step below a root or a step of a case
that is included. -/
structure RootsApart (library : Library) (case : CaseHeader) (steps : List Step) : Prop where
  distinct : (steps.map fun step => step.key).Nodup
  apart : ∀ root ∈ steps, ∀ top ∈ steps, ∀ below including,
    Relation.TransGen (Below library) (below, including) (top, case.id.toList) →
    below.key ≠ root.key

section

variable {ρ σ : Type} {w : World ρ σ} {case : CaseHeader} {steps : List Step} {options : RunOptions}
  {client : Option Http.Client} {outside : ρ} {records : σ} {finished : Finished ρ σ}
  {run : CaseExecution}

/-- **The result of a root is the only one of its key,** if the roots are apart. -/
theorem rootResult_unique
    (h : runCase w case steps options client outside records = .ok finished)
    (hrun : finished.outcome = .ok run) (hroots : RootsApart w.library case steps)
    {r : StepResult} (hr : r ∈ run.results) :
    ∀ c ∈ StepResult.flattenAll run.results, c.key = r.key → c = r := by
  obtain ⟨⟨outcome, hpass⟩, hresults⟩ := runCase_ran w h hrun
  have hsound : ∀ h ∈ runHistories w case steps options client outside records,
      h.Everywhere (History.Sound w.toOutside) ∧ h.before.including = case.id.toList :=
    runHistories_sound w
  generalize runHistories w case steps options client outside records = roots at *
  -- every root result is that of a root that was run
  have hroot : ∀ {r}, r ∈ run.results → ∃ h ∈ roots, h.result = some r ∧ h.step ∈ steps ∧
      r.key = h.step.key := by
    intro r hr
    rw [hresults] at hr
    obtain ⟨h, hh, hhr⟩ := List.mem_filterMap.mp hr
    have hstep := hpass.begun.subset (List.mem_map_of_mem hh)
    exact ⟨h, hh, hhr, Step.mem_ordered.mp hstep, ((hsound h hh).1.here.marked hhr).key⟩
  -- and different roots have different keys
  have hkeys : (run.results.map fun r => r.key).Nodup := by
    have hmarked := History.Sound.marked_all (fun g hg => (hsound g hg).1.here)
      (hpass.results (Option.some_ne_none _))
    rw [hresults, History.keys_eq hmarked]
    have hordered : ((Step.ordered steps).map fun step => step.key).Nodup :=
      ((orderedBy_perm _ steps).map _).nodup_iff.mpr hroots.distinct
    have hprefix := hpass.begun.map fun step => step.key
    rw [List.map_map] at hprefix
    exact hordered.sublist hprefix.sublist
  intro c hc hkey
  obtain ⟨top, htop, hctop⟩ := StepResult.mem_flattenAll.mp hc
  obtain ⟨root, -, -, hrootmem, hrootkey⟩ := hroot hr
  rcases hctop with rfl | hctop
  · exact List.inj_on_of_nodup_map hkeys htop hr hkey
  · obtain ⟨h, hh, hhr, hstep, -⟩ := hroot htop
    obtain ⟨below, including, hpath, hbelow⟩ := (hsound h hh).1.key_below hhr c hctop
    rw [(hsound h hh).2] at hpath
    exact absurd (hbelow.symm.trans (hkey.trans hrootkey))
      (hroots.apart root.step hrootmem h.step hstep below including hpath)

/-- **Verdicts and counts agree.** In every run of a case each result passed if and only if it has
no error, and if it passed, so did everything below it. The case passed if and only if every result
did, and then the counts show no failure; if no root has the key of another step, they show none
only then. -/
theorem runCase_verdict (h : runCase w case steps options client outside records = .ok finished)
    (hrun : finished.outcome = .ok run) :
    (∀ r ∈ StepResult.flattenAll run.results, (r.success = true ↔ r.error = none) ∧
      (r.success = true → ∀ c ∈ StepResult.flattenAll r.children, c.success = true)) ∧
    (run.success = true ↔ ∀ r ∈ StepResult.flattenAll run.results, r.success = true) ∧
    (run.success = true → run.statistics.failed = 0) ∧
    (RootsApart w.library case steps → run.statistics.failed = 0 → run.success = true) := by
  obtain ⟨-, hresults⟩ := runCase_ran w h hrun
  obtain ⟨hsuccess, hstatistics⟩ := runCase_summed w h hrun
  have hroot : ∀ r ∈ run.results, r.Upright := by
    intro r hr
    rw [hresults] at hr
    obtain ⟨g, hg, hgr⟩ := List.mem_filterMap.mp hr
    exact (runHistories_sound w g hg).1.upright hgr
  have hupright : ∀ r ∈ StepResult.flattenAll run.results, r.Upright := by
    intro r hr
    obtain ⟨top, htop, rfl | hbelow⟩ := StepResult.mem_flattenAll.mp hr
    · exact hroot r htop
    · exact (hroot top htop).throughout r hbelow
  -- the case is told by its roots, and each of them tells of everything below it
  have hall : run.success = true ↔ ∀ r ∈ StepResult.flattenAll run.results, r.success = true := by
    rw [hsuccess, List.all_eq_true]
    constructor
    · intro hpassed r hr
      obtain ⟨top, htop, rfl | hbelow⟩ := StepResult.mem_flattenAll.mp hr
      · exact hpassed r htop
      · exact (hroot top htop).all_passed (hpassed top htop) r hbelow
    · intro hpassed r hr
      exact hpassed r (StepResult.mem_flattenAll.mpr ⟨r, hr, .inl rfl⟩)
  refine ⟨fun r hr => ⟨(hupright r hr).success_iff, (hupright r hr).all_passed⟩, hall,
    fun hpassed => ?_, fun hroots hzero => ?_⟩
  · rw [hstatistics]
    exact Statistics.failed_of_all (hall.mp hpassed)
  · rw [hsuccess, List.all_eq_true]
    rw [hstatistics] at hzero
    intro r hr
    exact Statistics.success_of_unique (StepResult.mem_flattenAll.mpr ⟨r, hr, .inl rfl⟩)
      (rootResult_unique h hrun hroots hr) hzero

end

/-- A group in a group. -/
def Step.nested : Step :=
  ⟨{ code := some "outer", kind := some "group" },
    [⟨{ code := some "inner", kind := some "group" }, []⟩]⟩

/-- The inner group is the only step below the outer one. -/
theorem Step.below_nested {below : Step} {including : List Int}
    (h : Relation.TransGen (Below []) (below, including) (Step.nested, [])) :
    below = ⟨{ code := some "inner", kind := some "group" }, []⟩ := by
  generalize hcall : (below, including) = call at h
  induction h using Relation.TransGen.head_induction_on generalizing below including with
  | single hbelow =>
    subst hcall
    cases hbelow with
    | child hchild => exact List.mem_singleton.mp hchild
    | included _ hid => cases hid
  | head hbelow _ ih =>
    subst hcall
    -- the inner group has nothing below it
    cases hbelow with
    | child hchild =>
      obtain rfl := ih rfl
      exact absurd hchild List.not_mem_nil
    | included _ hid =>
      obtain rfl := ih rfl
      cases hid

/-- The counts of its run show no failure, so it passed, and no result has an error. -/
theorem runCase_verdict_nested : RootsApart [] {} [Step.nested] ∧ ∃ finished run,
    runCase (Site.world []) {} [Step.nested] { saveReport := false } none {} {} = .ok finished ∧
    finished.outcome = .ok run ∧ (StepResult.flattenAll run.results).length = 2 ∧
    run.statistics.failed = 0 ∧ run.success = true ∧
    ∀ r ∈ StepResult.flattenAll run.results, r.error = none := by
  have hroots : RootsApart [] {} [Step.nested] := by
    refine ⟨List.nodup_singleton _, fun root hroot top htop below including hpath => ?_⟩
    obtain rfl := List.mem_singleton.mp hroot
    obtain rfl := List.mem_singleton.mp htop
    obtain rfl := Step.below_nested hpath
    decide
  have hcheck :
      (runCase (Site.world []) {} [Step.nested] { saveReport := false } none {} {}).toOption.bind
        (fun finished => finished.outcome.toOption.map fun run =>
          ((StepResult.flattenAll run.results).length, run.statistics.failed)) = some (2, 0) := by
    decide +kernel
  obtain ⟨finished, run, hrun, houtcome, hlook⟩ := Finished.exists_of_shown hcheck
  obtain ⟨hlength, hfailed⟩ := Prod.mk.inj hlook
  obtain ⟨hresults, hall, -, hconverse⟩ := runCase_verdict hrun houtcome
  have hsuccess := hconverse hroots hfailed
  exact ⟨hroots, finished, run, hrun, houtcome, hlength, hfailed, hsuccess, fun r hr =>
    (hresults r hr).1.mp (hall.mp hsuccess r hr)⟩

end Scenario
