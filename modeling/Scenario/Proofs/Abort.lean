import Scenario.Proofs.History.Case
import Scenario.Proofs.History.Iterations

/-!
# Aborting a case

A loop with the strategy to stop ends the whole case when a step in it fails. The step that aborts
is the last one below the step around it, which aborts too, and so on up to the root, after which no
further root is run.

* `Passage.aborted_last`, `Rounds.aborted_last` — in a list of steps and in the iterations of a
  loop, whatever its strategy, only the last step can abort. If it does, so does the work:
  `Passage.aborted_of_mem`, `Rounds.aborted_of_mem`.
* `Rounds.aborts_iff` — the other way round: work ends the case for no other reason, but for a loop
  that is told to stop, if scripts answer mildly.
* `History.Ended` — what a result says of the end of its step, given the step.
* `StepResult.Chained` — a result in which only the last one of siblings is aborted, and only if the
  one around it is; so the aborted results of a forest make a single chain, `StepResult.AbortChain`.
* `History.starts` — the steps of a history in the order in which they started.
* `runCase_aborts` — all of this of every run of a case.
-/

namespace Scenario

/-- What stands before the last one of a list still does with something in front. -/
theorem mem_dropLast_cons {α : Type} {a x : α} {rest : List α} (h : x ∈ rest.dropLast) :
    x ∈ (a :: rest).dropLast := by
  cases rest with
  | nil => exact absurd h List.not_mem_nil
  | cons y rest => exact List.mem_cons_of_mem _ h

namespace History

/-- The step aborted. -/
def Aborted (h : History) : Prop := ∃ r, h.result = some r ∧ r.aborted = true

/-- The step failed. -/
def Failed (h : History) : Prop := ∃ r, h.result = some r ∧ r.success = false

variable {h : History} {r : StepResult}

theorem aborted_iff (hr : h.result = some r) : h.Aborted ↔ r.aborted = true := by
  simp [Aborted, hr]

theorem failed_iff (hr : h.result = some r) : h.Failed ↔ r.success = false := by
  simp [Failed, hr]

end History

/-! ### Passages -/

section

variable {halt : Bool} {steps : List Step} {hs : List History} {outcome : Option ChildrenOutcome}

/-- Only the last step of a passage can abort. -/
theorem Passage.aborted_last (h : Passage halt steps hs outcome) :
    ∀ g ∈ hs.dropLast, ¬ g.Aborted := by
  induction h with
  | done | crashed | aborted | halted => simp
  | @passed h r rest hs outcome hr hno _ _ ih | @failed h r rest hs outcome hr hno _ _ _ ih =>
    cases hs with
    | nil => simp
    | cons g hs =>
      rw [List.dropLast_cons_cons]
      exact List.forall_mem_cons.mpr ⟨by simp [History.aborted_iff hr, hno], ih⟩

/-- If a step of a passage aborts, nothing else comes of the passage. -/
theorem Passage.aborted_of_mem (h : Passage halt steps hs outcome) {g : History} (hg : g ∈ hs)
    (ha : g.Aborted) : outcome = some .aborted := by
  induction h with
  | done => exact absurd hg List.not_mem_nil
  | crashed hr =>
    obtain rfl := List.mem_singleton.mp hg
    obtain ⟨r, hr', -⟩ := ha
    cases hr.symm.trans hr'
  | aborted => rfl
  | halted hr hno =>
    obtain rfl := List.mem_singleton.mp hg
    simp [History.aborted_iff hr, hno] at ha
  | passed hr hno _ _ ih =>
    rcases List.mem_cons.mp hg with rfl | hg
    · simp [History.aborted_iff hr, hno] at ha
    · exact ih hg
  | failed hr hno _ _ _ ih =>
    rcases List.mem_cons.mp hg with rfl | hg
    · simp [History.aborted_iff hr, hno] at ha
    -- an abort further on outweighs the failure
    · rw [ih hg]
      rfl

/-- A passage that aborts does so by its last step. -/
theorem Passage.exists_aborted (h : Passage halt steps hs outcome) (ho : outcome = some .aborted) :
    ∃ g, hs.getLast? = some g ∧ g.Aborted := by
  induction h with
  | done => cases ho
  | crashed => cases ho
  | halted => cases ho
  | aborted hr ha => exact ⟨_, rfl, _, hr, ha⟩
  | passed _ _ _ _ ih =>
    obtain ⟨g, hg, ha⟩ := ih ho
    exact ⟨g, by rw [List.getLast?_cons, hg]; rfl, ha⟩
  | failed _ _ _ _ _ ih =>
    split at ho
    · cases ho
    · obtain ⟨g, hg, ha⟩ := ih ho
      exact ⟨g, by rw [List.getLast?_cons, hg]; rfl, ha⟩

/-- In a passage that fails a step failed. -/
theorem Passage.exists_failed (h : Passage halt steps hs outcome) (ho : outcome = some .failed) :
    ∃ g ∈ hs, g.Failed := by
  induction h with
  | done => cases ho
  | crashed => cases ho
  | aborted => cases ho
  | halted hr _ hfailed => exact ⟨_, List.mem_singleton_self _, _, hr, hfailed⟩
  | passed _ _ _ _ ih =>
    obtain ⟨g, hg, hfailed⟩ := ih ho
    exact ⟨g, List.mem_cons_of_mem _ hg, hfailed⟩
  | failed hr _ hfailed => exact ⟨_, List.mem_cons_self, _, hr, hfailed⟩

/-- In a passage that passes none did. -/
theorem Passage.not_failed (h : Passage halt steps hs outcome) (ho : outcome = some .passed) :
    ∀ g ∈ hs, ¬ g.Failed := by
  induction h with
  | done => simp
  | crashed => cases ho
  | aborted => cases ho
  | halted => cases ho
  | passed hr _ hpassed _ ih =>
    exact List.forall_mem_cons.mpr ⟨by simp [History.failed_iff hr, hpassed], ih ho⟩
  | failed =>
    split at ho
    · cases ho
    · exact absurd ho (by assumption)

end

/-! ### Iterations -/

section

variable {ρ : Type} {o : Outside ρ} {strategy : LoopStrategy} {steps : List Step} {i : Nat}
variable {rounds : List Round} {ending : Ending}

/-- If the loop goes on after an iteration, no step aborted in it. -/
theorem Passage.not_aborted {halt : Bool} {hs : List History} {outcome : Option ChildrenOutcome}
    (h : Passage halt steps hs outcome) (hgoes : strategy.GoesOn outcome) :
    ∀ g ∈ hs, ¬ g.Aborted := by
  intro g hg ha
  rcases hgoes with ho | ⟨ho, -⟩ <;> cases ho.symm.trans (h.aborted_of_mem hg ha)

/-- **Only the last step that a loop ran can abort,** whatever the strategy of the loop is. -/
theorem Rounds.aborted_last (h : Rounds o strategy steps i rounds ending) :
    ∀ g ∈ (rounds.flatMap Round.histories).dropLast, ¬ g.Aborted := by
  induction h with
  | done => simp
  | last _ hpass _ => simpa using hpass.aborted_last
  | @next i round rest ending _ hpass hgoes _ ih =>
    rw [List.flatMap_cons]
    -- the last step may be one of this iteration, if no later one runs any
    by_cases hrest : rest.flatMap Round.histories = []
    · rw [hrest, List.append_nil]
      exact hpass.aborted_last
    · rw [List.dropLast_append_of_ne_nil hrest]
      exact List.forall_mem_append.mpr ⟨hpass.not_aborted hgoes, ih⟩

/-- If a step that a loop ran aborts, so does the loop. -/
theorem Rounds.aborted_of_mem (h : Rounds o strategy steps i rounds ending) {g : History}
    (hg : g ∈ rounds.flatMap Round.histories) (ha : g.Aborted) : ending.aborts = true := by
  induction h with
  | done => exact absurd hg List.not_mem_nil
  | last _ hpass hends =>
    have ho := hpass.aborted_of_mem (by simpa using hg) ha
    rw [ho] at hends
    cases hends
    rfl
  | next _ hpass hgoes _ ih =>
    rw [List.flatMap_cons] at hg
    rcases List.mem_append.mp hg with hg | hg
    · exact absurd ha (hpass.not_aborted hgoes g hg)
    · exact ih hg

/-- **A loop aborts** if and only if it does so after its last iteration. -/
theorem Rounds.aborts_iff (ho : o.Mild) (h : Rounds o strategy steps i rounds ending) :
    ending.aborts = true ↔
      ∃ round, rounds.getLast? = some round ∧ strategy.Aborts round.outcome := by
  induction h with
  | done hmild => simpa using hmild ho
  | @last i round ending _ _ hends =>
    -- each way to end after an iteration is an abort or is not
    obtain ⟨injected, number, hs, outcome⟩ := round
    rw [List.getLast?_singleton]
    cases hends <;> simp_all [LoopStrategy.Aborts, Ending.Mild, Fault.isAbort]
  | @next i round rest ending _ _ hgoes _ ih =>
    rw [ih, List.getLast?_cons]
    -- the loop does not abort for an iteration after which it goes on, even if no other one follows
    cases hlast : rest.getLast? with
    | some last => simp
    | none =>
      have hno : ¬ strategy.Aborts round.outcome := by
        rintro (ho | ⟨ho, hstop⟩) <;> rcases hgoes with ho' | ⟨ho', hcontinue⟩ <;> simp_all
      simpa using hno

/-- The last step of the last iteration is the last one that the loop ran. -/
theorem Round.getLast?_flatMap {round : Round} (hround : rounds.getLast? = some round) {g : History}
    (hg : round.histories.getLast? = some g) :
    (rounds.flatMap Round.histories).getLast? = some g := by
  obtain ⟨init, rfl⟩ := List.getLast?_eq_some_iff.mp hround
  rw [List.flatMap_append, List.getLast?_append, List.flatMap_singleton, hg]
  rfl

/-- If nothing crashed, something came of every iteration. -/
theorem Rounds.outcome_ne_none (h : Rounds o strategy steps i rounds ending)
    (he : ending ≠ .crashed) : ∀ round ∈ rounds, round.outcome ≠ none := by
  induction h with
  | done => simp
  | @last i round ending _ _ hends =>
    obtain ⟨injected, number, hs, outcome⟩ := round
    cases hends <;> simp_all
  | next _ _ hgoes _ ih =>
    refine List.forall_mem_cons.mpr ⟨?_, ih he⟩
    rcases hgoes with h | ⟨h, -⟩ <;> rw [h] <;> exact Option.some_ne_none _

end

/-! ### Steps -/

namespace History

variable {ρ : Type} {o : Outside ρ} {h g : History} {r : StepResult}

/-- **A loop that was told to stop,** and in which a step failed in the last iteration. -/
def Stopped (h : History) : Prop :=
  h.step.declaredKind = .ok .loop ∧ Exec.loopStrategy h.step.toStepFields = .ok .stop ∧
    ∃ iterations last, h.Iterations iterations ∧ iterations.getLast? = some last ∧
      ∃ g ∈ last, g.Failed

/-- **What the result of a step says of its end.** -/
structure Ended (h : History) (r : StepResult) : Prop where
  /-- The results below it are those of the steps that it ran. -/
  children : h.children.map History.result = r.children.map some
  failed : r.aborted = true → r.success = false
  /-- Only the last one of them can be aborted. -/
  last : ∀ c ∈ r.children.dropLast, c.aborted = false
  rule : r.aborted = true ↔
    (∃ c, r.children.getLast? = some c ∧ c.aborted = true) ∨ h.Stopped

/-- The results of steps that all have one. -/
theorem map_result {hs : List History} (h : ∀ g ∈ hs, ∃ r, g.result = some r) :
    hs.map History.result = (hs.filterMap History.result).map some := by
  induction hs with
  | nil => rfl
  | cons g rest ih =>
    obtain ⟨⟨r, hr⟩, hrest⟩ := List.forall_mem_cons.mp h
    rw [List.map_cons, List.filterMap_cons_some hr, List.map_cons, ih hrest, hr]

/-- Only the last step that a step ran can abort. -/
theorem Sound.aborted_last (hs : h.Sound o) : ∀ g ∈ h.children.dropLast, ¬ g.Aborted := by
  obtain ⟨events, ending, hcourse, -, hhistories, -⟩ := hs.course
  rw [← hhistories]
  cases hcourse with
  | idle => simp
  | pass _ _ _ hpass =>
    rw [Event.histories_ran]
    exact hpass.aborted_last
  | visit _ _ _ _ _ hpass =>
    rw [Event.histories_visit]
    exact hpass.aborted_last
  | rounds _ _ _ _ _ hrounds =>
    rw [Round.histories_flatMap]
    exact hrounds.aborted_last

/-- **A step that aborts is not swallowed:** the step that ran it aborts, too. -/
theorem Sound.aborted_of_mem (hs : h.Sound o) (hr : h.result = some r) (hg : g ∈ h.children)
    (ha : g.Aborted) : r.aborted = true := by
  obtain ⟨events, ending, hcourse, -, hhistories, hconcluded⟩ := hs.course
  rw [← hhistories] at hg
  rw [(hconcluded r hr).aborted]
  cases hcourse with
  | idle => exact absurd hg List.not_mem_nil
  | pass _ _ _ hpass =>
    rw [Event.histories_ran] at hg
    exact Ending.ofOutcome_aborts.mpr (hpass.aborted_of_mem hg ha)
  | visit _ _ _ _ _ hpass =>
    rw [Event.histories_visit] at hg
    exact Ending.ofOutcome_aborts.mpr (hpass.aborted_of_mem hg ha)
  | rounds _ _ _ _ _ hrounds =>
    rw [Round.histories_flatMap] at hg
    exact hrounds.aborted_of_mem hg ha

/-- A loop that was told to stop, and in which a step failed, aborts. -/
theorem Sound.aborted_of_stopped (ho : o.Mild) (hs : h.Sound o) (hr : h.result = some r)
    (hstopped : h.Stopped) : r.aborted = true := by
  obtain ⟨hkind, hstrategy, iterations, last, hiterations, hlast, g, hg, hfailed⟩ := hstopped
  obtain ⟨rounds, ending, hrounded, -, hconcluded, -, hrounds⟩ := hs.rounds hkind
  have hrounds := hrounds .stop hstrategy
  have hend := hconcluded r hr
  -- the loop has children, so these are the iterations that it ran
  have hne : h.step.children ≠ [] := by
    intro hnil
    have hbegun := (hiterations.begun last (List.mem_of_getLast? hlast)).subset
    have hchild := Step.mem_ordered.mp (hbegun (List.mem_map_of_mem hg))
    exact absurd hchild (hnil ▸ List.not_mem_nil)
  obtain rfl := hiterations.unique hrounded hne
  rw [List.getLast?_map] at hlast
  obtain ⟨round, hround, rfl⟩ := Option.map_eq_some_iff.mp hlast
  have hmem := List.mem_of_getLast? hround
  rw [hend.aborted]
  refine (hrounds.aborts_iff ho).mpr ⟨round, hround, ?_⟩
  -- a step failed in the last iteration, so that did not pass; and nothing crashed
  cases houtcome : round.outcome with
  | none => exact absurd houtcome (hrounds.outcome_ne_none hend.ended round hmem)
  | some outcome =>
    cases outcome with
    | passed => exact absurd hfailed ((hrounds.passage round hmem).not_failed houtcome g hg)
    | failed => exact .inr ⟨rfl, rfl⟩
    | aborted => exact .inl rfl

/-- **A step aborts for no other reason.** -/
theorem Sound.aborted_cases (ho : o.Mild) (hs : h.Sound o) (hr : h.result = some r)
    (ha : r.aborted = true) : (∃ g, h.children.getLast? = some g ∧ g.Aborted) ∨ h.Stopped := by
  obtain ⟨events, ending, hcourse, -, hhistories, hconcluded⟩ := hs.course
  have haborts := (hconcluded r hr).aborted.symm.trans ha
  cases hcourse with
  | idle hidle => exact absurd haborts (Bool.eq_false_iff.mp (hidle.mild ho))
  -- what comes of a passage is an abort only if the last step of the passage aborted
  | pass _ _ _ hpass =>
    rw [← hhistories, Event.histories_ran]
    exact .inl (hpass.exists_aborted (Ending.ofOutcome_aborts.mp haborts))
  | visit _ _ _ _ _ hpass =>
    rw [← hhistories, Event.histories_visit]
    exact .inl (hpass.exists_aborted (Ending.ofOutcome_aborts.mp haborts))
  | @rounds mode strategy _ _ hkind _ hstrategy _ _ =>
    obtain ⟨rounds, ending, hiterations, -, hconcluded, -, hrounds⟩ := hs.rounds hkind
    have hrounds := hrounds strategy hstrategy
    have haborts := (hconcluded r hr).aborted.symm.trans ha
    obtain ⟨round, hround, haborts⟩ := (hrounds.aborts_iff ho).mp haborts
    have hpass := hrounds.passage round (List.mem_of_getLast? hround)
    rcases haborts with houtcome | ⟨houtcome, rfl⟩
    -- a step aborted in the last iteration, as the last of all; or the loop was told to stop
    · obtain ⟨g, hg, hga⟩ := hpass.exists_aborted houtcome
      rw [hiterations.flat, ← List.flatMap_def]
      exact .inl ⟨g, Round.getLast?_flatMap hround hg, hga⟩
    · refine .inr ⟨hkind, hstrategy, _, round.histories, hiterations, ?_,
        hpass.exists_failed houtcome⟩
      rw [List.getLast?_map, hround]
      rfl

/-- **The end of a step** is as its result says. -/
theorem Sound.ended (ho : o.Mild) (hs : h.Sound o) (hr : h.result = some r) : h.Ended r := by
  obtain ⟨events, ending, hcourse, -, hhistories, hconcluded⟩ := hs.course
  have hend := hconcluded r hr
  have hmap : h.children.map History.result = r.children.map some := by
    rw [hend.children]
    exact map_result fun g hg => hcourse.results hend.ended g (hhistories ▸ hg)
  refine ⟨hmap, fun ha => ?_, fun c hc => ?_, fun ha => ?_, ?_⟩
  -- work that aborts has not finished
  · have hfinished := Ending.ne_finished (hend.aborted.symm.trans ha)
    exact Bool.eq_false_iff.mpr fun hsuccess => hfinished (hend.success.mp hsuccess)
  -- what is told of histories is told of the results below, one for one
  · have hmem : some c ∈ h.children.dropLast.map History.result := by
      rw [List.map_dropLast, hmap, ← List.map_dropLast]
      exact List.mem_map_of_mem hc
    obtain ⟨g, hg, hgc⟩ := List.mem_map.mp hmem
    exact Bool.eq_false_iff.mpr fun ha => hs.aborted_last g hg ((aborted_iff hgc).mpr ha)
  -- the rule, in both directions
  · have hlast : h.children.getLast?.map History.result = r.children.getLast?.map some := by
      rw [← List.getLast?_map, hmap, List.getLast?_map]
    rcases hs.aborted_cases ho hr ha with ⟨g, hg, hga⟩ | hstopped
    · rw [hg] at hlast
      obtain ⟨c, hc, hgc⟩ := Option.map_eq_some_iff.mp hlast.symm
      exact .inl ⟨c, hc, (aborted_iff hgc.symm).mp hga⟩
    · exact .inr hstopped
  · rintro (⟨c, hc, ha⟩ | hstopped)
    · have hmem : some c ∈ h.children.map History.result := by
        rw [hmap]
        exact List.mem_map_of_mem (List.mem_of_getLast? hc)
      obtain ⟨g, hg, hgc⟩ := List.mem_map.mp hmem
      exact hs.aborted_of_mem hr hg ((aborted_iff hgc).mpr ha)
    · exact hs.aborted_of_stopped ho hr hstopped

end History

/-! ### Results -/

namespace StepResult

/-- **A result under which aborts make a chain:** of siblings, only the last one can be aborted, and
if it is, so is the result around it. -/
inductive Chained : StepResult → Prop
  | intro {r : StepResult} : (r.aborted = true → r.success = false) →
    (∀ c ∈ r.children.dropLast, c.aborted = false) →
    (∀ c ∈ r.children, c.aborted = true → r.aborted = true) → (∀ c ∈ r.children, Chained c) →
    Chained r

/-- The aborted results of a forest, parents first. -/
def abortedAll (rs : List StepResult) : List StepResult :=
  (flattenAll rs).filter fun r => r.aborted

/-- **The aborted results of a forest make a single chain,** if there are any. -/
structure AbortChain (rs : List StepResult) : Prop where
  failed : ∀ r ∈ abortedAll rs, r.success = false
  /-- It starts with the last root, -/
  head : ∀ r ∈ (abortedAll rs).head?, rs.getLast? = some r
  /-- and goes on with the last result below each of its results. -/
  next : (abortedAll rs).IsChain fun r c => r.children.getLast? = some c
  /-- No other root is aborted. -/
  last : ∀ r ∈ rs.dropLast, r.aborted = false

variable {r : StepResult} {rs : List StepResult}

theorem flatten_eq (r : StepResult) : r.flatten = r :: flattenAll r.children := by
  cases r
  rfl

theorem abortedAll_cons (r : StepResult) (rs : List StepResult) :
    abortedAll (r :: rs) =
      (if r.aborted then [r] else []) ++ abortedAll r.children ++ abortedAll rs := by
  unfold abortedAll
  rw [flattenAll, flatten_eq, List.filter_append, List.filter_cons]
  split <;> rfl

/-- Below a result that is not aborted, none is. -/
theorem Chained.abortedAll_eq_nil (h : r.Chained) (hr : r.aborted = false) :
    abortedAll r.children = [] := by
  induction h with
  | @intro r _ _ hup hall ih =>
    -- an aborted child would make the result around it aborted
    have none : ∀ rs : List StepResult, (∀ c ∈ rs, c ∈ r.children) → abortedAll rs = [] := by
      intro rs hmem
      induction rs with
      | nil => rfl
      | cons c rest ihrest =>
        obtain ⟨hc, hrest⟩ := List.forall_mem_cons.mp hmem
        have hno : c.aborted = false :=
          Bool.eq_false_iff.mpr fun ha => Bool.eq_false_iff.mp hr (hup c hc ha)
        rw [abortedAll_cons, hno, ih c hc hno, ihrest hrest]
        rfl
    exact none r.children fun _ hc => hc

/-- The aborted results of a forest are below its last root, and start with it. -/
theorem abortedAll_eq (hall : ∀ r ∈ rs, r.Chained) (hlast : ∀ r ∈ rs.dropLast, r.aborted = false) :
    abortedAll rs = [] ∨ ∃ r ∈ rs, rs.getLast? = some r ∧ r.aborted = true ∧
      abortedAll rs = r :: abortedAll r.children := by
  -- by induction on the roots: one that is not aborted adds nothing, and one that is is the last
  induction rs with
  | nil => exact .inl rfl
  | cons r rest ih =>
    obtain ⟨hr, hrest⟩ := List.forall_mem_cons.mp hall
    rw [abortedAll_cons]
    cases ha : r.aborted with
    | false =>
      rw [hr.abortedAll_eq_nil ha]
      rcases ih hrest fun c hc => hlast c (mem_dropLast_cons hc) with
        hnil | ⟨c, hc, hclast, hca, heq⟩
      · exact .inl hnil
      · refine .inr ⟨c, List.mem_cons_of_mem _ hc, ?_, hca, heq⟩
        rw [List.getLast?_cons, hclast]
        rfl
    | true =>
      cases rest with
      | nil => exact .inr ⟨r, List.mem_cons_self, rfl, ha, by simp [abortedAll, flattenAll]⟩
      | cons c rest =>
        have hno := hlast r (by rw [List.dropLast_cons_cons]; exact List.mem_cons_self)
        cases ha.symm.trans hno

/-- The chain that starts with an aborted result. -/
theorem Chained.abortChain (h : r.Chained) (ha : r.aborted = true) :
    (∀ c ∈ r :: abortedAll r.children, c.success = false) ∧
      (r :: abortedAll r.children).IsChain fun r c => r.children.getLast? = some c := by
  -- down the chain: the aborted results below one start with the last result below it, if any
  induction h with
  | @intro r hfailed hlast _ hall ih =>
    rcases abortedAll_eq hall hlast with hnil | ⟨c, hc, hclast, hca, heq⟩
    · rw [hnil]
      exact ⟨by simpa using hfailed ha, .singleton r⟩
    · obtain ⟨hbelow, hchain⟩ := ih c hc hca
      rw [heq]
      exact ⟨List.forall_mem_cons.mpr ⟨hfailed ha, hbelow⟩, hchain.cons_cons hclast⟩

/-- **A forest of such results** whose roots are like siblings. -/
theorem abortChain (hall : ∀ r ∈ rs, r.Chained) (hlast : ∀ r ∈ rs.dropLast, r.aborted = false) :
    AbortChain rs := by
  rcases abortedAll_eq hall hlast with hnil | ⟨r, hr, hrlast, hra, heq⟩
  · refine ⟨?_, ?_, ?_, hlast⟩ <;> rw [hnil]
    · simp
    · simp
    · exact .nil
  · obtain ⟨hfailed, hchain⟩ := (hall r hr).abortChain hra
    refine ⟨?_, ?_, ?_, hlast⟩ <;> rw [heq]
    · exact hfailed
    · rintro _ ⟨⟩
      exact hrlast
    · exact hchain

end StepResult

/-! ### The order in which steps started -/

namespace History

mutual

/-- **The steps of a history,** in the order in which they started. -/
def starts : History → List History
  | ⟨step, before, opening, closing, after, result, children⟩ =>
    ⟨step, before, opening, closing, after, result, children⟩ :: startsAll children

/-- The steps of a list of histories, in the order in which they started. -/
def startsAll : List History → List History
  | [] => []
  | h :: rest => starts h ++ startsAll rest

end

variable {ρ : Type} {o : Outside ρ} {h : History}

theorem starts_eq (h : History) : h.starts = h :: startsAll h.children := by
  cases h
  rfl

/-- **Nothing starts after an abort:** in a list of which only the last step can abort, and each of
which aborts if something in it does, all that started after a step that aborts is a part of it. -/
theorem startsAll_after {hs : List History} (hlast : ∀ g ∈ hs.dropLast, ¬ g.Aborted)
    (heach : ∀ g ∈ hs, ∀ earlier k later, g.starts = earlier ++ k :: later → k.Aborted →
      later = startsAll k.children ∧ g.Aborted) {earlier later : List History} {k : History}
    (hstarts : startsAll hs = earlier ++ k :: later) (hk : k.Aborted) :
    later = startsAll k.children ∧ ∃ g ∈ hs, g.Aborted := by
  induction hs generalizing earlier with
  | nil => simp [startsAll] at hstarts
  | cons g rest ih =>
    obtain ⟨hg, hrest⟩ := List.forall_mem_cons.mp heach
    have hlast' : ∀ g ∈ rest.dropLast, ¬ g.Aborted := fun c hc => hlast c (mem_dropLast_cons hc)
    -- a step of the rest
    have further : ∀ {earlier}, startsAll rest = earlier ++ k :: later →
        later = startsAll k.children ∧ ∃ c ∈ g :: rest, c.Aborted := by
      intro earlier hstarts
      obtain ⟨hlater, c, hc, ha⟩ := ih hlast' hrest hstarts
      exact ⟨hlater, c, List.mem_cons_of_mem _ hc, ha⟩
    rw [startsAll] at hstarts
    -- the step that aborts is either one of the rest or a part of the first one
    rcases List.append_eq_append_iff.mp hstarts with ⟨between, -, hrest'⟩ | ⟨tail, hfirst, htail⟩
    · exact further hrest'
    · cases tail with
      | nil =>
        have hnone : startsAll rest = [] ++ k :: later := htail.symm
        exact further hnone
      | cons x tail =>
        rw [List.cons_append] at htail
        obtain ⟨rfl, rfl⟩ := List.cons.inj htail
        obtain ⟨rfl, ha⟩ := hg earlier k tail hfirst hk
        -- then the first one aborts too, so nothing was run after it
        have hnil : rest = [] := by
          cases rest with
          | nil => rfl
          | cons x rest => exact absurd ha (hlast g List.mem_cons_self)
        rw [hnil]
        exact ⟨List.append_nil _, g, List.mem_cons_self, ha⟩

/-- All that started in a step after one that aborts is a part of the one that aborts, and the step
aborts, too. -/
theorem Everywhere.starts_after (hs : h.Everywhere (Sound o)) {r : StepResult}
    (hr : h.result = some r) {earlier later : List History} {k : History}
    (hstarts : h.starts = earlier ++ k :: later) (hk : k.Aborted) :
    later = startsAll k.children ∧ h.Aborted := by
  have hall := hs.returned hr
  induction hs generalizing r earlier later k with
  | @intro h hsound _ ih =>
    rw [starts_eq] at hstarts
    cases earlier with
    -- the step itself is the one that aborts
    | nil =>
      obtain ⟨rfl, rfl⟩ := List.cons.inj hstarts
      exact ⟨rfl, hk⟩
    | cons x earlier =>
      obtain ⟨rfl, hbelow⟩ := List.cons.inj hstarts
      -- a step below has a result, since the step itself has one
      have each : ∀ g ∈ h.children, ∀ earlier k later, g.starts = earlier ++ k :: later →
          k.Aborted → later = startsAll k.children ∧ g.Aborted := by
        intro g hg earlier k later hstarts hk
        obtain ⟨r', hr'⟩ := (hall.children g hg).here
        exact ih g hg hr' hstarts hk (hall.children g hg)
      obtain ⟨hlater, g, hg, ha⟩ := startsAll_after hsound.aborted_last each hbelow hk
      exact ⟨hlater, r, hr, hsound.aborted_of_mem hr hg ha⟩

/-- Everything that a step ran, if the step was left, has ended as its result says. -/
theorem Everywhere.ended (ho : o.Mild) (hs : h.Everywhere (Sound o)) {r : StepResult}
    (hr : h.result = some r) : h.Everywhere fun k => ∃ r, k.result = some r ∧ k.Ended r := by
  have hall := hs.returned hr
  induction hs generalizing r with
  | @intro h hsound _ ih =>
    refine .intro ⟨r, hr, hsound.ended ho hr⟩ fun g hg => ?_
    obtain ⟨r', hr'⟩ := (hall.children g hg).here
    exact ih g hg hr' (hall.children g hg)

/-- The result of a sound history makes a chain of aborts. -/
theorem Everywhere.chained (ho : o.Mild) (hs : h.Everywhere (Sound o)) {r : StepResult}
    (hr : h.result = some r) : r.Chained := by
  -- every result below is that of a step below, and the steps are as `Sound.ended` says
  induction hs generalizing r with
  | @intro h hsound _ ih =>
    have hended := hsound.ended ho hr
    have below : ∀ c ∈ r.children, ∃ g ∈ h.children, g.result = some c := by
      intro c hc
      have hmem : some c ∈ h.children.map History.result := by
        rw [hended.children]
        exact List.mem_map_of_mem hc
      exact List.mem_map.mp hmem
    refine .intro hended.failed hended.last (fun c hc ha => ?_) fun c hc => ?_
    · obtain ⟨g, hg, hgc⟩ := below c hc
      exact hsound.aborted_of_mem hr hg ((aborted_iff hgc).mpr ha)
    · obtain ⟨g, hg, hgc⟩ := below c hc
      exact ih g hg hgc

end History

/-! ### Runs of cases -/

section

variable {ρ σ : Type} {w : World ρ σ} {case : CaseHeader} {steps : List Step} {options : RunOptions}
  {client : Option Http.Client} {outside : ρ} {records : σ} {finished : Finished ρ σ}
  {run : CaseExecution}

/-- **Aborts.** The histories of a run tell of its results. Each result says of its step when it
aborts, the aborted results make a single chain, and nothing starts after a step has aborted that is
not a part of it. -/
theorem runCase_aborts (ho : w.toOutside.Mild)
    (h : runCase w case steps options client outside records = .ok finished)
    (hrun : finished.outcome = .ok run) :
    let roots := runHistories w case steps options client outside records
    List.Forall₂ History.Yields roots run.results ∧
      (∀ h ∈ roots, h.Everywhere fun k => ∃ r, k.result = some r ∧ k.Ended r) ∧
      StepResult.AbortChain run.results ∧
      ∀ earlier k later, History.startsAll roots = earlier ++ k :: later → k.Aborted →
        later = History.startsAll k.children := by
  intro roots
  obtain ⟨⟨outcome, hpass⟩, hresults⟩ := runCase_ran w h hrun
  -- the roots are siblings in a passage, so what holds below a step holds of the whole run
  have hsound : ∀ h ∈ roots, h.Everywhere (History.Sound w.toOutside) :=
    fun h hh => (runHistories_sound w h hh).1
  have hreturned : ∀ h ∈ roots, ∃ r, h.result = some r := hpass.results (Option.some_ne_none _)
  have hmap : roots.map History.result = run.results.map some := by
    rw [hresults]
    exact History.map_result hreturned
  refine ⟨runHistories_yield w h hrun, fun h hh => ?_,
    StepResult.abortChain (fun r hr => ?_) (fun r hr => ?_), ?_⟩
  · obtain ⟨r, hr⟩ := hreturned h hh
    exact (hsound h hh).ended ho hr
  · have hmem : some r ∈ roots.map History.result := hmap ▸ List.mem_map_of_mem hr
    obtain ⟨h, hh, hhr⟩ := List.mem_map.mp hmem
    exact (hsound h hh).chained ho hhr
  · have hmem : some r ∈ roots.dropLast.map History.result := by
      rw [List.map_dropLast, hmap, ← List.map_dropLast]
      exact List.mem_map_of_mem hr
    obtain ⟨h, hh, hhr⟩ := List.mem_map.mp hmem
    exact Bool.eq_false_iff.mpr fun ha => hpass.aborted_last h hh ((History.aborted_iff hhr).mpr ha)
  · intro earlier k later hstarts hk
    refine (History.startsAll_after hpass.aborted_last (fun g hg earlier k later hg' hk => ?_)
      hstarts hk).1
    obtain ⟨r, hr⟩ := hreturned g hg
    exact (hsound g hg).starts_after hr hg' hk

end

/-- A loop that goes on after failures, around one that stops at them, around a step that fails. -/
def Step.stopping : Step :=
  ⟨{ kind := some "loop", loopMode := some "count", loopOnError := some "continue"
     loopMaximums := some (.string "2") },
    [⟨{ kind := some "loop", loopMode := some "count", loopOnError := some "stop"
        loopMaximums := some (.string "2") }, [⟨{ kind := some "wait" }, []⟩]⟩]⟩

/-- The outer loop does not swallow the abort of the inner one: both are aborted, after one
iteration each. -/
theorem runCase_aborts_stopping : (Site.world []).toOutside.Mild ∧ ∃ finished run,
    runCase (Site.world []) {} [Step.stopping] { saveReport := false } none {} {} = .ok finished ∧
    finished.outcome = .ok run ∧ (StepResult.abortedAll run.results).length = 2 ∧
    (StepResult.flattenAll run.results).length = 3 ∧ StepResult.AbortChain run.results ∧
    ∀ h ∈ runHistories (Site.world []) {} [Step.stopping] { saveReport := false } none {} {},
      h.Everywhere fun k => ∃ r, k.result = some r ∧ k.Ended r := by
  have hcheck :
      (runCase (Site.world []) {} [Step.stopping] { saveReport := false } none {} {}).toOption.bind
        (fun finished => finished.outcome.toOption.map fun run =>
          ((StepResult.abortedAll run.results).length,
            (StepResult.flattenAll run.results).length)) = some (2, 3) := by
    decide +kernel
  have hmild : (Site.world []).toOutside.Mild := Site.outside_mild []
  obtain ⟨finished, run, hrun, houtcome, hlook⟩ := Finished.exists_of_shown hcheck
  obtain ⟨haborted, hall⟩ := Prod.mk.inj hlook
  obtain ⟨-, hended, hchain, -⟩ := runCase_aborts hmild hrun houtcome
  exact ⟨hmild, finished, run, hrun, houtcome, haborted, hall, hchain, hended⟩

end Scenario
