import Scenario.Proofs.Verdict

/-!
# The results of a loop

The results below a loop step come in blocks, one for each iteration. What a block looks like, and
what the loop makes of it, depends on the strategy of the loop: one that goes on after failures runs
all of its children every time, and the others end at the first step that fails.

* `StepResult.AllPassed`, `StepResult.FailLast` — the two ends of a block in a loop that does not
  go on after failures.
* `Passage.uncut`, `Passage.failLast` — where a passage ends, if it may go on after failures, and if
  it may not.
* `Block` — the block of one iteration. `History.Blocks` — the blocks of a loop.
* `History.Everywhere.blocks` — every loop step that was left has its blocks.
* `runCase_blocks` — so has every loop step of a run of a case.
-/

namespace Scenario

/-! ### Blocks -/

namespace StepResult

/-- All of some results are good. -/
def AllPassed (rs : List StepResult) : Prop := ∀ r ∈ rs, r.success = true

/-- The last of some results is the only bad one. -/
def FailLast (rs : List StepResult) : Prop :=
  ∃ init r, rs = init ++ [r] ∧ r.success = false ∧ AllPassed init

end StepResult

/-- The results of the steps that an iteration ran. -/
def Round.block (round : Round) : List StepResult := round.histories.filterMap History.result

/-- **The block of an iteration:** the results of the steps that it ran, which are the children of
the loop in order, from the first one on. -/
structure Block (steps : List Step) (hs : List History) (rs : List StepResult) : Prop where
  begun : hs.map History.step <+: steps
  results : List.Forall₂ (fun g r => g.result = some r ∧ r.IsOf g.step.toStepFields) hs rs

/-- **The blocks of a loop.** -/
structure History.Blocks (h : History) (r : StepResult) (rounds : List Round)
    (blocks : List (List StepResult)) : Prop where
  /-- The steps that the loop ran are those of its iterations, -/
  iterations : h.Iterations (rounds.map Round.histories)
  follows : Follows h.opening (rounds.flatMap Round.events) h.closing
  /-- of which there are as many as its mode allows, and all of them if it passes. -/
  allowed : ∀ mode, Exec.loopMode h.step.toStepFields = .ok mode →
    mode.Allows h.opening h.step.toStepFields rounds ∧
      (r.success = true → mode.Exhausts h.opening h.step.toStepFields rounds)
  /-- There is a block for each iteration, -/
  each : List.Forall₂ (fun round block =>
    Block (Step.ordered h.step.children) round.histories block) rounds blocks
  /-- and the results below the loop are nothing else. -/
  flat : r.children = blocks.flatten
  /-- A loop that goes on after failures leaves out steps only after an abort. -/
  continued : Exec.loopStrategy h.step.toStepFields = .ok .continue → ∀ block ∈ blocks,
    block.length = h.step.children.length ∨ ∃ c, block.getLast? = some c ∧ c.aborted = true
  /-- Any other loop ends at the first step that fails. -/
  halted : ∀ strategy, Exec.loopStrategy h.step.toStepFields = .ok strategy →
    strategy ≠ .continue →
    (∀ block ∈ blocks.dropLast,
      block.length = h.step.children.length ∧ StepResult.AllPassed block) ∧
    ∀ block, blocks.getLast? = some block →
      (block.length = h.step.children.length ∧ StepResult.AllPassed block) ∨
        StepResult.FailLast block
  passed : r.success = true → ∀ block ∈ blocks, StepResult.AllPassed block
  /-- A loop that is not told to stop fails with its steps and does not abort, unless one of them
  does. -/
  failed : Exec.loopStrategy h.step.toStepFields ≠ .ok .stop →
    (∃ block ∈ blocks, ¬ StepResult.AllPassed block) →
    (∀ block ∈ blocks, ∀ c ∈ block, c.aborted = false) → r.success = false ∧ r.aborted = false
  aborted : r.aborted = true ↔ (∃ block ∈ blocks, ∃ c ∈ block, c.aborted = true) ∨
    Exec.loopStrategy h.step.toStepFields = .ok .stop ∧
      ∃ block ∈ blocks, ¬ StepResult.AllPassed block
  iteration : blocks ≠ [] → r.iteration = blocks.length

/-! ### Where a passage ends -/

section

variable {steps : List Step} {hs : List History} {outcome : Option ChildrenOutcome}

/-- A passage that goes on after failures leaves out steps only after an abort. -/
theorem Passage.uncut (h : Passage false steps hs outcome) (ho : outcome ≠ none) :
    hs.map History.step = steps ∨ ∃ g, hs.getLast? = some g ∧ g.Aborted := by
  rcases outcome with _ | _ | _ | _
  · exact absurd rfl ho
  · exact .inl (h.full (.inl rfl))
  · exact .inl (h.full (.inr ⟨rfl, rfl⟩))
  · exact .inr (h.exists_aborted rfl)

/-- A passage that does not go on after failures ends at the first one. -/
theorem Passage.failLast (h : Passage true steps hs outcome) (hne : outcome ≠ none)
    (ho : outcome ≠ some .passed) (haborted : ∀ g ∈ hs, g.Aborted → g.Failed) :
    ∃ init g, hs = init ++ [g] ∧ g.Failed ∧ ∀ k ∈ init, ¬ k.Failed := by
  induction h with
  | done => exact absurd rfl ho
  | crashed => exact absurd rfl hne
  | failed _ _ _ hhalt => cases hhalt
  | @aborted h r _ hr ha =>
    exact ⟨[], h, rfl, haborted h (List.mem_singleton_self h) ⟨r, hr, ha⟩, by simp⟩
  | @halted h r _ hr _ hfailed => exact ⟨[], h, rfl, ⟨r, hr, hfailed⟩, by simp⟩
  | @passed h r rest hs outcome hr _ hpassed _ ih =>
    obtain ⟨init, g, rfl, hg, hinit⟩ :=
      ih hne ho fun g hg => haborted g (List.mem_cons_of_mem _ hg)
    have hno : ¬ h.Failed := by simp [History.failed_iff hr, hpassed]
    exact ⟨h :: init, g, rfl, hg, List.forall_mem_cons.mpr ⟨hno, hinit⟩⟩

end

/-! ### From steps to results -/

namespace Block

variable {steps : List Step} {hs : List History} {rs : List StepResult}

theorem rs_eq (h : Block steps hs rs) : rs = hs.filterMap History.result := by
  obtain ⟨-, h⟩ := h
  induction h with
  | nil => rfl
  | cons hg _ ih => rw [List.filterMap_cons_some hg.1, ← ih]

/-- The results of a block are those of its steps. -/
theorem mem_iff (h : Block steps hs rs) {r : StepResult} :
    r ∈ rs ↔ ∃ g ∈ hs, g.result = some r := by
  rw [h.rs_eq, List.mem_filterMap]

theorem length_eq (h : Block steps hs rs) (hfull : hs.map History.step = steps) :
    rs.length = steps.length := by
  rw [← h.results.length_eq, ← hfull, List.length_map]

theorem allPassed_iff (h : Block steps hs rs) :
    StepResult.AllPassed rs ↔ ∀ g ∈ hs, ¬ g.Failed := by
  constructor
  · rintro hpassed g hg ⟨r, hr, hfailed⟩
    cases (hpassed r (h.mem_iff.mpr ⟨g, hg, hr⟩)).symm.trans hfailed
  · intro hno r hr
    obtain ⟨g, hg, hgr⟩ := h.mem_iff.mp hr
    simpa [History.failed_iff hgr] using hno g hg

theorem exists_aborted_iff (h : Block steps hs rs) :
    (∃ r ∈ rs, r.aborted = true) ↔ ∃ g ∈ hs, g.Aborted := by
  constructor
  · rintro ⟨r, hr, ha⟩
    obtain ⟨g, hg, hgr⟩ := h.mem_iff.mp hr
    exact ⟨g, hg, r, hgr, ha⟩
  · rintro ⟨g, hg, r, hgr, ha⟩
    exact ⟨r, h.mem_iff.mpr ⟨g, hg, hgr⟩, ha⟩

theorem not_allPassed_iff (h : Block steps hs rs) :
    ¬ StepResult.AllPassed rs ↔ ∃ g ∈ hs, g.Failed := by
  rw [h.allPassed_iff]
  push Not
  rfl

/-- If the last step of a block aborted, so did its last result. -/
theorem getLast?_aborted (h : Block steps hs rs) {g : History} (hg : hs.getLast? = some g)
    (ha : g.Aborted) : ∃ r, rs.getLast? = some r ∧ r.aborted = true := by
  obtain ⟨init, rfl⟩ := List.getLast?_eq_some_iff.mp hg
  obtain ⟨r, hr, ha⟩ := ha
  refine ⟨r, ?_, ha⟩
  rw [h.rs_eq, List.filterMap_append, List.filterMap_cons_some hr, List.filterMap_nil]
  exact List.getLast?_concat

/-- If the last step of a block is the only one that failed, so is its last result. -/
theorem failLast (h : Block steps hs rs) {init : List History} {g : History}
    (heq : hs = init ++ [g]) (hg : g.Failed) (hinit : ∀ k ∈ init, ¬ k.Failed) :
    StepResult.FailLast rs := by
  subst heq
  obtain ⟨r, hr, hfailed⟩ := hg
  refine ⟨init.filterMap History.result, r, ?_, hfailed, fun c hc => ?_⟩
  · rw [h.rs_eq, List.filterMap_append, List.filterMap_cons_some hr, List.filterMap_nil]
  · obtain ⟨k, hk, hkc⟩ := List.mem_filterMap.mp hc
    simpa [History.failed_iff hkc] using hinit k hk

end Block

/-! ### Where an iteration ends -/

section

variable {ρ : Type} {o : Outside ρ} {strategy : LoopStrategy} {steps : List Step} {i : Nat}
variable {rounds : List Round} {ending : Ending}

/-- A loop that goes on after failures leaves out steps only after an abort. -/
theorem Rounds.continued (h : Rounds o .continue steps i rounds ending) (he : ending ≠ .crashed) :
    ∀ round ∈ rounds, round.histories.map History.step = steps ∨
      ∃ g, round.histories.getLast? = some g ∧ g.Aborted := by
  intro round hround
  have hpass := h.passage round hround
  rw [decide_eq_false (not_not_intro rfl)] at hpass
  exact hpass.uncut (h.outcome_ne_none he round hround)

/-- In any other loop all steps passed before the last iteration, -/
theorem Rounds.passed (h : Rounds o strategy steps i rounds ending)
    (hstrategy : strategy ≠ .continue) : ∀ round ∈ rounds.dropLast,
      round.histories.map History.step = steps ∧ ∀ g ∈ round.histories, ¬ g.Failed := by
  intro round hround
  refine ⟨h.full round hround, ?_⟩
  rcases h.goesOn round hround with hpassed | ⟨-, hcontinue⟩
  · exact (h.passage round (List.dropLast_subset _ hround)).not_failed hpassed
  · exact absurd hcontinue hstrategy

/-- and an iteration in which one failed ended there. -/
theorem Rounds.failLast (h : Rounds o strategy steps i rounds ending) (he : ending ≠ .crashed)
    (hstrategy : strategy ≠ .continue) {round : Round} (hround : round ∈ rounds)
    (haborted : ∀ g ∈ round.histories, g.Aborted → g.Failed) :
    (round.histories.map History.step = steps ∧ ∀ g ∈ round.histories, ¬ g.Failed) ∨
      ∃ init g, round.histories = init ++ [g] ∧ g.Failed ∧ ∀ k ∈ init, ¬ k.Failed := by
  have hpass := h.passage round hround
  rw [decide_eq_true hstrategy] at hpass
  by_cases ho : round.outcome = some .passed
  · exact .inl ⟨hpass.full (.inl ho), hpass.not_failed ho⟩
  · exact .inr (hpass.failLast (h.outcome_ne_none he round hround) ho haborted)

/-- The blocks of a loop that goes on after failures are whole, but for an abort. -/
theorem Rounds.blocks_continued (h : Rounds o .continue steps i rounds ending)
    (he : ending ≠ .crashed) (hblock : ∀ round ∈ rounds, Block steps round.histories round.block) :
    ∀ block ∈ rounds.map Round.block,
      block.length = steps.length ∨ ∃ c, block.getLast? = some c ∧ c.aborted = true := by
  rintro _ hmem
  obtain ⟨round, hround, rfl⟩ := List.mem_map.mp hmem
  rcases h.continued he round hround with hfull | ⟨g, hg, hga⟩
  · exact .inl ((hblock round hround).length_eq hfull)
  · exact .inr ((hblock round hround).getLast?_aborted hg hga)

/-- The blocks of any other loop are whole and good before the last one, which is so too or ends at
its only failure. -/
theorem Rounds.blocks_halted (h : Rounds o strategy steps i rounds ending) (he : ending ≠ .crashed)
    (hstrategy : strategy ≠ .continue)
    (hblock : ∀ round ∈ rounds, Block steps round.histories round.block)
    (haborted : ∀ round ∈ rounds, ∀ g ∈ round.histories, g.Aborted → g.Failed) :
    (∀ block ∈ (rounds.map Round.block).dropLast,
      block.length = steps.length ∧ StepResult.AllPassed block) ∧
    ∀ block, (rounds.map Round.block).getLast? = some block →
      (block.length = steps.length ∧ StepResult.AllPassed block) ∨ StepResult.FailLast block := by
  -- a round in which every step ran and none failed gives a block that is whole and good
  have whole : ∀ round ∈ rounds, (round.histories.map History.step = steps ∧
      ∀ g ∈ round.histories, ¬ g.Failed) →
      round.block.length = steps.length ∧ StepResult.AllPassed round.block :=
    fun round hround ⟨hfull, hno⟩ =>
      ⟨(hblock round hround).length_eq hfull, (hblock round hround).allPassed_iff.mpr hno⟩
  refine ⟨fun block hmem => ?_, fun block hlast => ?_⟩
  · rw [← List.map_dropLast] at hmem
    obtain ⟨round, hround, rfl⟩ := List.mem_map.mp hmem
    exact whole round (List.dropLast_subset _ hround) (h.passed hstrategy round hround)
  · rw [List.getLast?_map] at hlast
    obtain ⟨round, hround, rfl⟩ := Option.map_eq_some_iff.mp hlast
    have hround := List.mem_of_getLast? hround
    rcases h.failLast he hstrategy hround (haborted round hround) with
      hwhole | ⟨init, g, heq, hg, hinit⟩
    · exact .inl (whole round hround hwhole)
    · exact .inr ((hblock round hround).failLast heq hg hinit)

/-- What some block has is what some step of the loop has. -/
theorem Round.exists_block {P : History → Prop} {Q : List StepResult → Prop} {hs : List History}
    (hflat : hs = (rounds.map Round.histories).flatten)
    (hblock : ∀ round ∈ rounds, Q round.block ↔ ∃ g ∈ round.histories, P g) :
    (∃ block ∈ rounds.map Round.block, Q block) ↔ ∃ g ∈ hs, P g := by
  subst hflat
  rw [← List.flatMap_def]
  constructor
  · rintro ⟨_, hmem, hQ⟩
    obtain ⟨round, hround, rfl⟩ := List.mem_map.mp hmem
    obtain ⟨g, hg, hP⟩ := (hblock round hround).mp hQ
    exact ⟨g, List.mem_flatMap.mpr ⟨round, hround, hg⟩, hP⟩
  · rintro ⟨g, hmem, hP⟩
    obtain ⟨round, hround, hg⟩ := List.mem_flatMap.mp hmem
    exact ⟨round.block, List.mem_map_of_mem hround, (hblock round hround).mpr ⟨g, hg, hP⟩⟩

end

/-! ### Loop steps -/

namespace History

variable {ρ : Type} {o : Outside ρ} {h : History} {r : StepResult}

/-- **A loop aborts** if a step in it does, or if it was told to stop and a step in it fails. -/
theorem Sound.loop_aborted_iff (ho : o.Mild) (hs : h.Sound o) (hr : h.result = some r)
    (hkind : h.step.declaredKind = .ok .loop) : r.aborted = true ↔ (∃ g ∈ h.children, g.Aborted) ∨
      Exec.loopStrategy h.step.toStepFields = .ok .stop ∧ ∃ g ∈ h.children, g.Failed := by
  constructor
  · intro ha
    rcases hs.aborted_cases ho hr ha with ⟨g, hg, hga⟩ | ⟨-, hstop, iterations, last, hiterations,
      hlast, g, hg, hfailed⟩
    · exact .inl ⟨g, List.mem_of_getLast? hg, hga⟩
    · refine .inr ⟨hstop, g, ?_, hfailed⟩
      rw [hiterations.flat]
      exact List.mem_flatten_of_mem (List.mem_of_getLast? hlast) hg
  · rintro (⟨g, hg, hga⟩ | ⟨hstop, g, hg, hfailed⟩)
    · exact hs.aborted_of_mem hr hg hga
    -- a loop that was told to stop has not gone on after the iteration in which the step failed
    · obtain ⟨rounds, ending, hiterations, -, -, -, hrounds⟩ := hs.rounds hkind
      rw [hiterations.flat, ← List.flatMap_def] at hg
      obtain ⟨round, hround, hg⟩ := List.mem_flatMap.mp hg
      have hlast : rounds.getLast? = some round := by
        by_contra hlast
        have hbefore := List.mem_dropLast_of_mem_of_ne_getLast? hround (Ne.symm hlast)
        exact ((hrounds .stop hstop).passed (by simp) round hbefore).2 g hg hfailed
      refine hs.aborted_of_stopped ho hr ⟨hkind, hstop, _, round.histories, hiterations, ?_, g, hg,
        hfailed⟩
      rw [List.getLast?_map, hlast]
      rfl

/-- The steps that a step ran, from the first one of some on, make a block. -/
theorem Everywhere.block (hs : h.Everywhere (Sound o)) (hr : h.result = some r)
    {steps : List Step} {round : Round} (hmem : ∀ g ∈ round.histories, g ∈ h.children)
    (hbegun : round.histories.map History.step <+: steps) :
    Block steps round.histories round.block :=
  ⟨hbegun, Sound.marked_all (fun g hg => (hs.children g (hmem g hg)).here)
    fun g hg => ((hs.returned hr).children g (hmem g hg)).here⟩

/-- **A loop step that was left** has its blocks. -/
theorem Everywhere.blocks (ho : o.Mild) (hs : h.Everywhere (Sound o)) (hr : h.result = some r)
    (hkind : h.step.declaredKind = .ok .loop) :
    ∃ rounds, h.Blocks r rounds (rounds.map Round.block) := by
  obtain ⟨rounds, ending, hiterations, hfollows, hconcluded, hmodes, hrounds⟩ :=
    hs.here.rounds hkind
  -- what the loop step has for rounds is known; what is left is to read it off their results
  have hend := hconcluded r hr
  have hmem : ∀ round ∈ rounds, ∀ g ∈ round.histories, g ∈ h.children := by
    intro round hround g hg
    rw [hiterations.flat]
    exact List.mem_flatten_of_mem (List.mem_map_of_mem hround) hg
  have hblock : ∀ round ∈ rounds,
      Block (Step.ordered h.step.children) round.histories round.block :=
    fun round hround => hs.block hr (hmem round hround)
      (hiterations.begun _ (List.mem_map_of_mem hround))
  have hlength : (Step.ordered h.step.children).length = h.step.children.length :=
    length_orderedBy _
  -- an abort is a failure, so that the first failure of a round is where it ends
  have hworse : ∀ round ∈ rounds, ∀ g ∈ round.histories, g.Aborted → g.Failed := by
    rintro round hround g hg ⟨c, hc, ha⟩
    exact ⟨c, hc, ((hs.children g (hmem round hround g hg)).here.ended ho hc).failed ha⟩
  have hflat : r.children = (rounds.map Round.block).flatten := by
    rw [hend.children, hiterations.flat, List.filterMap_flatten, List.map_map]
    rfl
  have hpassed : r.success = true → ∀ block ∈ rounds.map Round.block, StepResult.AllPassed block :=
    fun hsuccess block hmem c hc => hs.here.children_passed hr hsuccess c
      (hflat ▸ List.mem_flatten_of_mem hmem hc)
  have haborted : r.aborted = true ↔
      (∃ block ∈ rounds.map Round.block, ∃ c ∈ block, c.aborted = true) ∨
        Exec.loopStrategy h.step.toStepFields = .ok .stop ∧
          ∃ block ∈ rounds.map Round.block, ¬ StepResult.AllPassed block := by
    rw [hs.here.loop_aborted_iff ho hr hkind, Round.exists_block hiterations.flat
      fun round hround => (hblock round hround).exists_aborted_iff,
      Round.exists_block hiterations.flat fun round hround =>
        (hblock round hround).not_allPassed_iff]
  refine ⟨rounds, {
    iterations := hiterations
    follows := hfollows
    allowed := fun mode hmode => ⟨(hmodes mode hmode).1, fun hsuccess =>
      ((hmodes mode hmode).2 (hend.success.mp hsuccess)).exhausts⟩
    each := List.forall₂_map_right_iff.mpr (List.forall₂_same.mpr hblock)
    flat := hflat
    continued := fun hstrategy =>
      hlength ▸ (hrounds .continue hstrategy).blocks_continued hend.ended hblock
    halted := fun strategy hstrategy hhalts =>
      hlength ▸ (hrounds strategy hstrategy).blocks_halted hend.ended hhalts hblock hworse
    passed := hpassed
    failed := ?_
    aborted := haborted
    iteration := ?_ }⟩
  -- a failure that nobody aborted for leaves the loop without its success, and not aborted
  · rintro hstop ⟨block, hblocks, hfailed⟩ hno
    refine ⟨Bool.eq_false_iff.mpr fun hsuccess => hfailed (hpassed hsuccess block hblocks),
      Bool.eq_false_iff.mpr fun ha => ?_⟩
    rcases haborted.mp ha with ⟨block, hblocks, c, hc, hca⟩ | ⟨hstop', -⟩
    · cases hca.symm.trans (hno block hblocks c hc)
    · exact hstop hstop'
  · intro hne
    rw [hiterations.iteration r hr fun hnil => hne (by simpa using hnil), List.length_map,
      List.length_map]

end History

/-! ### Runs of cases -/

section

variable {ρ σ : Type} (w : World ρ σ) (case : CaseHeader) (steps : List Step)
  (options : RunOptions) (client : Option Http.Client) (outside : ρ) (records : σ)

/-- **The results below a loop.** In every run of a case, also in one that breaks down, every loop
step that was left has its blocks. -/
theorem runCase_blocks (ho : w.toOutside.Mild) :
    let roots := runHistories w case steps options client outside records
    (∀ h ∈ roots, h.Everywhere fun k => ∀ r, k.result = some r →
      k.step.declaredKind = .ok .loop → ∃ rounds blocks, k.Blocks r rounds blocks) ∧
    ∀ finished run, runCase w case steps options client outside records = .ok finished →
      finished.outcome = .ok run → List.Forall₂ History.Yields roots run.results := by
  intro roots
  refine ⟨fun h hh => (runHistories_sound w h hh).1.each fun k hk r hr hkind => ?_,
    fun finished run hfinished hrun => runHistories_yield w hfinished hrun⟩
  obtain ⟨rounds, hblocks⟩ := hk.blocks ho hr hkind
  exact ⟨rounds, _, hblocks⟩

end

/-- A loop that goes on after failures, around a step that fails. -/
def Step.persisting : Step :=
  ⟨{ kind := some "loop", loopMode := some "count", loopOnError := some "continue"
     loopMaximums := some (.string "2") }, [⟨{ kind := some "wait" }, []⟩]⟩

/-- The step fails twice: there are two blocks, and the loop fails without aborting. -/
theorem runCase_blocks_persisting : (Site.world []).toOutside.Mild ∧ ∃ k r rounds blocks,
    runHistories (Site.world []) {} [Step.persisting] { saveReport := false } none {} {} = [k] ∧
    k.result = some r ∧ k.Blocks r rounds blocks ∧ blocks.length = 2 ∧ r.success = false ∧
    r.aborted = false := by
  have hcheck :
      (runHistories (Site.world []) {} [Step.persisting] { saveReport := false } none {} {}).map
        (fun k => (k.step.declaredKind.toOption, k.result.map fun r =>
          (r.iteration, r.children.length, r.success, r.aborted))) =
      [(some .loop, some (2, 2, false, false))] := by
    decide +kernel
  have hmild : (Site.world []).toOutside.Mild := Site.outside_mild []
  refine ⟨hmild, ?_⟩
  obtain ⟨k, hroots, hk⟩ := List.map_eq_singleton_iff.mp hcheck
  obtain ⟨hkind, hresult⟩ := Prod.mk.inj hk
  obtain ⟨r, hr, hr'⟩ := Option.map_eq_some_iff.mp hresult
  obtain ⟨hiteration, hlength, hsuccess, haborted⟩ :
      r.iteration = 2 ∧ r.children.length = 2 ∧ r.success = false ∧ r.aborted = false := by
    simpa using hr'
  have hloop : k.step.declaredKind = .ok .loop := by
    cases hdeclared : k.step.declaredKind <;> simp_all [Except.toOption]
  have hall := (runCase_blocks (Site.world []) {} [Step.persisting] { saveReport := false } none
    {} {} hmild).1 k (hroots ▸ List.mem_singleton_self k)
  obtain ⟨rounds, blocks, hblocks⟩ := hall.here r hr hloop
  refine ⟨k, r, rounds, blocks, hroots, hr, hblocks, ?_, hsuccess, haborted⟩
  -- the number of the blocks is the number of the last iteration, if there are any
  have hne : blocks ≠ [] := by
    rintro rfl
    simp [hblocks.flat] at hlength
  rw [← hblocks.iteration hne, hiteration]
end Scenario
