import Scenario.Proofs.History.Case
import Scenario.Proofs.History.Iterations

/-!
# The number of the iteration in a result

The result of a step shows the number of an iteration. A loop gives the number of each iteration to
its own key and to the keys of the steps right below it; a step shows what was given to its key
last, and nothing is ever taken back. So the number tells the iteration of a loop if the loop gives
it to the step and nobody else has done so since, and it is 1 if nobody has.

* `History.Numbers` — a loop that gives numbers to a key.
* `History.Unnumbered` — the way to a step on which no loop does.
* `History.Unnumbered.start` — on such a way, a step finds the number that there was at the
  beginning.
* `runCase_numbered` — what this makes of the steps in a loop, and of those that no loop numbers.
-/

namespace Scenario

variable {ρ : Type} {o : Outside ρ}

/-! ### Steps that are not loops -/

/-- Only a loop numbers iterations. -/
theorem Course.numbered_loop {step : Step} {opening : Context} {events : List Event}
    {ending : Ending} (h : Course o step opening events ending) {i : Nat}
    (hi : .numbered i ∈ events) : step.declaredKind = .ok .loop := by
  cases h with
  | idle => exact absurd hi List.not_mem_nil
  | pass => simp at hi
  | visit => simp at hi
  | rounds hkind => exact hkind

/-- Without an event that sets it, the number stays. -/
theorem Event.iteration_unnumbered {events : List Event} (h : ∀ i, .numbered i ∉ events) (j : Nat) :
    Event.iteration j events = j := by
  induction events with
  | nil => rfl
  | cons event rest ih =>
    have hrest := ih fun i hi => h i (List.mem_cons_of_mem _ hi)
    cases event with
    | numbered i => exact absurd List.mem_cons_self (h i)
    | _ => exact hrest

/-- **A step that is not a loop** shows the number that its key had when it started. -/
theorem History.Sound.iteration {h : History} (hs : h.Sound o)
    (hkind : h.step.declaredKind ≠ .ok .loop) {r : StepResult} (hr : h.result = some r) :
    r.iteration = h.before.iteration h.step.key := by
  obtain ⟨events, ending, hcourse, -, -, hconcluded⟩ := hs.course
  rw [(hconcluded r hr).iteration]
  exact Event.iteration_unnumbered (fun i hi => hkind (hcourse.numbered_loop hi)) _

/-! ### What leaves a number alone -/

/-- Events that give a key no number, apart from the steps that are run. -/
def Event.Spare (keys : List String) (key : String) (events : List Event) : Prop :=
  ∀ i, .numbered i ∈ events → key ∉ keys

theorem Event.Spare.ran (keys : List String) (key : String) (hs : List History) :
    Event.Spare keys key (hs.map .ran) := by
  intro i hi
  simp at hi

/-- Such an event leaves the number of the key alone, unless it runs a step. -/
theorem Event.Spare.renumber {keys : List String} {key : String} {event : Event}
    {rest : List Event} (h : Event.Spare keys key (event :: rest)) (hnone : event.history? = none)
    (numbers : String → Nat) : event.renumber keys numbers key = numbers key := by
  cases event with
  | numbered i => exact if_neg (h i List.mem_cons_self)
  | ran g => exact absurd hnone (Option.some_ne_none g)
  | _ => rfl

namespace Renumbers

variable {keys : List String} {key : String} {numbers numbers' : String → Nat}
variable {events : List Event}

/-- What follows a list of events can be cut in two. -/
theorem split {events' : List Event} (h : Renumbers keys numbers (events ++ events') numbers') :
    ∃ between, Renumbers keys numbers events between ∧ Renumbers keys between events' numbers' := by
  induction events generalizing numbers with
  | nil => exact ⟨numbers, .done, h⟩
  | cons event rest ih =>
    cases h with
    | next hstart hrest =>
      obtain ⟨between, hbefore, hafter⟩ := ih hrest
      exact ⟨between, .next hstart hbefore, hafter⟩

/-- If the steps that are run leave the number of the key alone, it stays. -/
theorem kept (h : Renumbers keys numbers events numbers') (hspare : Event.Spare keys key events)
    (hran : ∀ g ∈ Event.histories events, g.after.iteration key = g.before.iteration key) :
    numbers' key = numbers key := by
  -- by induction on the events: each is either spared by assumption, or a step that leaves it alone
  induction h with
  | done => rfl
  | @next numbers numbers' event rest hstart _ ih =>
    have hspare' : Event.Spare keys key rest := fun i hi => hspare i (List.mem_cons_of_mem _ hi)
    cases hevent : event.history? with
    | none =>
      rw [Event.histories, List.filterMap_cons_none hevent] at hran
      calc numbers' key = event.renumber keys numbers key := ih hspare' hran
        _ = numbers key := hspare.renumber hevent numbers
    | some k =>
      rw [Event.histories, List.filterMap_cons_some hevent] at hran
      obtain ⟨hk, hrest⟩ := List.forall_mem_cons.mp hran
      cases event with
      | ran g =>
        obtain rfl : g = k := Option.some.inj hevent
        calc numbers' key = g.after.iteration key := ih hspare' hrest
          _ = g.before.iteration key := hk
          _ = numbers key := congrFun (hstart g rfl) key
      | _ => cases hevent

/-- The first step that is run finds the number of the key as it was; the others come behind it. -/
theorem first (h : Renumbers keys numbers events numbers') (hspare : Event.Spare keys key events)
    {g : History} {rest : List History} (hhistories : Event.histories events = g :: rest) :
    g.before.iteration key = numbers key ∧ ∃ events',
      Renumbers keys g.after.iteration events' numbers' ∧ Event.histories events' = rest ∧
        Event.Spare keys key events' := by
  obtain ⟨before, event, after, rfl, hnone, hg, hafter⟩ :=
    List.filterMap_eq_cons_iff.mp hhistories
  obtain ⟨between, hbefore, hrest⟩ := h.split
  have hempty : Event.histories before = [] := List.filterMap_eq_nil_iff.mpr hnone
  -- no step is run before it, so the number is still there
  have hkept : between key = numbers key :=
    hbefore.kept (fun i hi => hspare i (List.mem_append_left _ hi)) (by simp [hempty])
  cases event with
  | ran k =>
    obtain rfl : k = g := Option.some.inj hg
    cases hrest with
    | next hstart hothers =>
      refine ⟨(congrFun (hstart k rfl) key).trans hkept, after, hothers, hafter, fun i hi => ?_⟩
      exact hspare i (List.mem_append_right _ (List.mem_cons_of_mem _ hi))
  | _ => cases hg

end Renumbers

/-! ### Loops that give numbers -/

namespace History

/-- **A loop that gives the numbers of its iterations** to a key. -/
def Numbers (key : String) (h : History) : Prop :=
  h.step.declaredKind = .ok .loop ∧ key ∈ h.step.numberedKeys

/-- **From the first of some steps,** run one after the other, **to the start of a step in them** no
loop gives numbers to a key. -/
inductive Unnumbered (key : String) : List History → History → Prop
  | here {k : History} {rest : List History} : Unnumbered key (k :: rest) k
  | later {g k : History} {rest : List History} : (g.Everywhere fun e => ¬ e.Numbers key) →
    Unnumbered key rest k → Unnumbered key (g :: rest) k
  | inside {g k : History} {rest : List History} : ¬ g.Numbers key → Unnumbered key g.children k →
    Unnumbered key (g :: rest) k

variable {h : History} {key : String}

/-- What happens in a step that is not such a loop. -/
theorem Sound.spare (hs : h.Sound o) (hkey : ¬ h.Numbers key) :
    ∃ events, Renumbers h.step.numberedKeys h.before.iteration events h.after.iteration ∧
      Event.histories events = h.children ∧ Event.Spare h.step.numberedKeys key events := by
  obtain ⟨events, ending, hcourse, -, hhistories, hnumbers, -⟩ := hs.work
  exact ⟨events, hnumbers, hhistories, fun i hi hmem => hkey ⟨hcourse.numbered_loop hi, hmem⟩⟩

/-- **A step in which no loop gives numbers to a key** leaves the number of the key alone. -/
theorem Everywhere.iteration_after (hs : h.Everywhere (Sound o))
    (hkey : h.Everywhere fun e => ¬ e.Numbers key) :
    h.after.iteration key = h.before.iteration key := by
  -- by induction on the history: the steps below leave it alone, and so does what is between them
  induction hs with
  | intro hsound _ ih =>
    obtain ⟨events, hnumbers, hhistories, hspare⟩ := hsound.spare hkey.here
    refine hnumbers.kept hspare fun g hg => ?_
    rw [hhistories] at hg
    exact ih g hg (hkey.children g hg)

/-- **On a way without numbers,** a step finds the number that there was at the beginning. -/
theorem Unnumbered.start {hs : List History} {k : History} (hway : Unnumbered key hs k)
    (hsound : ∀ g ∈ hs, g.Everywhere (Sound o)) {keys : List String}
    {numbers numbers' : String → Nat} {events : List Event}
    (hnumbers : Renumbers keys numbers events numbers') (hhistories : Event.histories events = hs)
    (hspare : Event.Spare keys key events) : k.before.iteration key = numbers key := by
  -- by induction on the way: it passes by elder siblings, goes down into a step, or is at its end
  induction hway generalizing keys numbers numbers' events with
  | here => exact (hnumbers.first hspare hhistories).1
  | @later g k rest hg _ ih =>
    obtain ⟨hbefore, events', hnumbers', hhistories', hspare'⟩ := hnumbers.first hspare hhistories
    obtain ⟨hgsound, hrest⟩ := List.forall_mem_cons.mp hsound
    calc k.before.iteration key = g.after.iteration key :=
          ih hrest hnumbers' hhistories' hspare'
      _ = g.before.iteration key := hgsound.iteration_after hg
      _ = numbers key := hbefore
  | @inside g k rest hg _ ih =>
    have hbefore := (hnumbers.first hspare hhistories).1
    have hgsound := hsound g List.mem_cons_self
    obtain ⟨events', hnumbers', hhistories', hspare'⟩ := hgsound.here.spare hg
    calc k.before.iteration key = g.before.iteration key :=
          ih hgsound.children hnumbers' hhistories' hspare'
      _ = numbers key := hbefore

/-- What holds everywhere in some steps holds in the step at the end of the way. -/
theorem Unnumbered.innermost {P : History → Prop} {hs : List History} {k : History}
    (hway : Unnumbered key hs k) (hP : ∀ g ∈ hs, g.Everywhere P) : k.Everywhere P := by
  induction hway with
  | here => exact hP _ List.mem_cons_self
  | later _ _ ih => exact ih fun g hg => hP g (List.mem_cons_of_mem _ hg)
  | inside _ _ ih => exact ih (hP _ List.mem_cons_self).children

/-- **The result at the end of the way** shows the number that there was at its beginning. -/
theorem Unnumbered.shown {hs : List History} {k : History} (hway : Unnumbered k.step.key hs k)
    (hsound : ∀ g ∈ hs, g.Everywhere (Sound o)) {keys : List String}
    {numbers numbers' : String → Nat} {events : List Event}
    (hnumbers : Renumbers keys numbers events numbers') (hhistories : Event.histories events = hs)
    (hspare : Event.Spare keys k.step.key events) (hkind : k.step.declaredKind ≠ .ok .loop)
    {r : StepResult} (hr : k.result = some r) : r.iteration = numbers k.step.key := by
  have hk := (hway.innermost hsound).here
  calc r.iteration = k.before.iteration k.step.key := hk.iteration hkind hr
    _ = numbers k.step.key := hway.start hsound hnumbers hhistories hspare

/-- **The iterations of a loop are traced:** a step that is run in one of them, in whatever depth,
shows its number, if the loop gives it to the step and no loop has given it another one since. -/
structure Traced (l : History) (rounds : List (List History)) : Prop where
  iterations : l.Iterations rounds
  shown : ∀ i hs, rounds[i]? = some hs → ∀ k r, k.step.key ∈ l.step.numberedKeys →
    Unnumbered k.step.key hs k → k.step.declaredKind ≠ .ok .loop → k.result = some r →
    r.iteration = i + 1

end History

/-- **The steps of an iteration** start with its number. -/
theorem Renumbers.round {rounds : List Round} {keys : List String} {numbers numbers' : String → Nat}
    (h : Renumbers keys numbers (rounds.flatMap Round.events) numbers')
    (hcounted : rounds.map Round.number = List.range' 1 rounds.length) {i : Nat} {round : Round}
    (hround : rounds[i]? = some round) : ∃ before after,
      Renumbers keys before (round.histories.map .ran) after ∧
        ∀ key ∈ keys, before key = i + 1 := by
  have hnumber : round.number = i + 1 := by
    have hmap : (rounds.map Round.number)[i]? = some round.number := by
      rw [List.getElem?_map, hround]
      rfl
    rw [hcounted] at hmap
    obtain ⟨hi, hget⟩ := List.getElem?_eq_some_iff.mp hmap
    rw [← hget, List.getElem_range', Nat.one_mul, Nat.add_comm]
  -- before its number, there are the iterations before it and what is injected into it
  obtain ⟨before, after, rfl⟩ := List.append_of_mem (List.mem_of_getElem? hround)
  rw [List.flatMap_append, List.flatMap_cons, Round.events, List.append_assoc,
    List.cons_append] at h
  obtain ⟨_, -, h⟩ := h.split
  obtain ⟨found, -, h⟩ := h.split
  cases h with
  | next _ h =>
    obtain ⟨left, h, -⟩ := h.split
    exact ⟨_, left, h, fun key hkey => (if_pos hkey).trans hnumber⟩

/-- **A loop is traced.** -/
theorem History.Everywhere.traced {l : History} (hs : l.Everywhere (History.Sound o))
    (hkind : l.step.declaredKind = .ok .loop) : ∃ rounds, l.Traced rounds := by
  obtain ⟨rounds, ending, ⟨hiterations, -⟩, hcounted, hnumbers⟩ := hs.here.numberedRounds hkind
  refine ⟨rounds.map Round.histories, hiterations, fun i hs' hget k r hkey hway hk hr => ?_⟩
  rw [List.getElem?_map] at hget
  obtain ⟨round, hround, rfl⟩ := Option.map_eq_some_iff.mp hget
  have hsound : ∀ g ∈ round.histories, g.Everywhere (History.Sound o) := by
    intro g hg
    refine hs.children g ?_
    rw [hiterations.flat, ← List.flatMap_def]
    exact List.mem_flatMap.mpr ⟨round, List.mem_of_getElem? hround, hg⟩
  obtain ⟨before, after, hstart, hnumber⟩ := hnumbers.round hcounted hround
  rw [← hnumber _ hkey]
  exact hway.shown hsound hstart (Event.histories_ran _) (.ran _ _ _) hk hr

/-! ### Runs of cases -/

section

variable {σ : Type} (w : World ρ σ) (case : CaseHeader) (steps : List Step) (options : RunOptions)
  (client : Option Http.Client) (outside : ρ) (records : σ)

/-- **The number of the iteration in a result.** In every run of a case, also in one that breaks
down, every loop is traced, and a step that is not a loop shows the number 1 if no loop has given
one to its key before. -/
theorem runCase_numbered :
    let roots := runHistories w case steps options client outside records
    (∀ h ∈ roots, h.Everywhere fun l => l.step.declaredKind = .ok .loop →
      ∃ rounds, l.Traced rounds) ∧
    (∀ k r, History.Unnumbered k.step.key roots k → k.step.declaredKind ≠ .ok .loop →
      k.result = some r → r.iteration = 1) ∧
    ∀ finished run, runCase w case steps options client outside records = .ok finished →
      finished.outcome = .ok run → List.Forall₂ History.Yields roots run.results := by
  intro roots
  have hsound : ∀ h ∈ roots, h.Everywhere (History.Sound w.toOutside) :=
    fun h hh => (runHistories_sound w h hh).1
  refine ⟨fun h hh => (hsound h hh).each fun l hl hkind => hl.traced hkind,
    fun k r hway hkind hr => ?_,
    fun finished run hfinished hrun => runHistories_yield w hfinished hrun⟩
  -- the first root starts without any numbers, and the roots themselves give none to each other
  have hroots : ∃ numbers, Renumbers [] (fun _ => 1) (roots.map .ran) numbers :=
    runHistories_numbers w
  obtain ⟨numbers, hnumbers⟩ := hroots
  exact hway.shown hsound hnumbers (Event.histories_ran _) (.ran _ _ _) hkind hr

end

/-- A loop with two iterations, in each of which a group waits. -/
def Step.revolving : Step :=
  ⟨{ code := some "again", kind := some "loop", loopMode := some "count"
     loopOnError := some "continue", loopMaximums := some (.string "2") },
    [⟨{ code := some "turn", kind := some "group" },
      [⟨{ code := some "work", kind := some "wait", wait := some (.string "0") }, []⟩]⟩]⟩

/-- A sketch of a history: the kind of its step, its key, the number in its result, and how many
steps there are below it. -/
def History.sketch (h : History) : Option StepKind × String × Option Nat × Nat :=
  (h.step.declaredKind.toOption, h.step.key, h.result.map fun r => r.iteration, h.children.length)

theorem History.of_sketch {h : History} {kind : StepKind} {key : String} {number count : Nat}
    (hs : h.sketch = (some kind, key, some number, count)) :
    h.step.declaredKind = .ok kind ∧ h.step.key = key ∧
      (∃ r, h.result = some r ∧ r.iteration = number) ∧ h.children.length = count := by
  obtain ⟨hkind, hkey, hnumber, hcount⟩ : _ ∧ _ ∧ _ ∧ _ := by
    simpa only [sketch, Prod.mk.injEq] using hs
  refine ⟨?_, hkey, Option.map_eq_some_iff.mp hnumber, hcount⟩
  cases hdeclared : h.step.declaredKind with
  | error fault => simp [hdeclared, Except.toOption] at hkind
  | ok k => simpa [hdeclared, Except.toOption] using hkind

/-- What its run looks like, from the top down. -/
theorem Step.revolving_run : ∃ l g g' k k' : History,
    runHistories (Site.world []) {} [Step.revolving] { saveReport := false } none {} {} = [l] ∧
    l.step.numberedKeys = ["again", "turn"] ∧ l.step.children.length = 1 ∧
    l.children = [g, g'] ∧ g.children = [k] ∧ g'.children = [k'] ∧
    l.sketch = (some .loop, "again", some 2, 2) ∧
    g.sketch = (some .group, "turn", some 1, 1) ∧ g'.sketch = (some .group, "turn", some 2, 1) ∧
    k.sketch = (some .wait, "work", some 1, 0) ∧ k'.sketch = (some .wait, "work", some 1, 0) := by
  have hstep : (runHistories (Site.world []) {} [Step.revolving] { saveReport := false } none {}
      {}).map (fun l => (l.step.numberedKeys, l.step.children.length)) =
        [(["again", "turn"], 1)] := by
    decide +kernel
  have hloops : (runHistories (Site.world []) {} [Step.revolving] { saveReport := false } none {}
      {}).map History.sketch = [(some .loop, "again", some 2, 2)] := by
    decide +kernel
  have hgroups : ((runHistories (Site.world []) {} [Step.revolving] { saveReport := false } none {}
      {}).flatMap History.children).map History.sketch =
    [(some .group, "turn", some 1, 1), (some .group, "turn", some 2, 1)] := by
    decide +kernel
  have hwaits : (((runHistories (Site.world []) {} [Step.revolving] { saveReport := false } none {}
      {}).flatMap History.children).flatMap History.children).map History.sketch =
    [(some .wait, "work", some 1, 0), (some .wait, "work", some 1, 0)] := by
    decide +kernel
  generalize runHistories _ _ _ _ _ _ _ = roots at hstep hloops hgroups hwaits
  obtain ⟨l, rfl, hloop⟩ := List.map_eq_singleton_iff.mp hloops
  obtain ⟨hnumbered, hone⟩ : _ ∧ _ := by simpa using hstep
  rw [List.flatMap_singleton] at hgroups hwaits
  obtain ⟨g, _, hchildren, hg, hrest⟩ := List.map_eq_cons_iff.mp hgroups
  obtain ⟨g', rfl, hg'⟩ := List.map_eq_singleton_iff.mp hrest
  -- each group has one step below it
  have hbelow : ∀ {x : History} {kind key number}, x.sketch = (kind, key, number, 1) →
      ∃ k, x.children = [k] := fun hx =>
    List.length_eq_one_iff.mp (congrArg (fun s : _ × _ × _ × Nat => s.2.2.2) hx)
  obtain ⟨k, hk⟩ := hbelow hg
  obtain ⟨k', hk'⟩ := hbelow hg'
  rw [hchildren, List.flatMap_cons, List.flatMap_singleton, hk, hk'] at hwaits
  obtain ⟨hwait, hwait'⟩ : _ ∧ _ := by simpa using hwaits
  exact ⟨l, g, g', k, k', rfl, hnumbered, hone, hchildren, hk, hk', hloop, hg, hg', hwait, hwait'⟩

/-- The group shows the number of each iteration; the step below it has no number of its own, and
shows 1 both times. -/
theorem runCase_numbered_revolving : ∃ l g g' k k' r r' q q',
    runHistories (Site.world []) {} [Step.revolving] { saveReport := false } none {} {} = [l] ∧
    l.children = [g, g'] ∧ g.children = [k] ∧ g'.children = [k'] ∧
    (g.result = some r ∧ r.iteration = 1) ∧ (g'.result = some r' ∧ r'.iteration = 2) ∧
    (k.result = some q ∧ q.iteration = 1) ∧ k'.result = some q' ∧ q'.iteration = 1 := by
  obtain ⟨l, g, g', k, k', hroots, hnumbered, hone, hchildren, hk, hk', hl, hg, hg', hwait,
    hwait'⟩ := Step.revolving_run
  obtain ⟨hloop, -⟩ := History.of_sketch hl
  obtain ⟨hgroup, hgkey, ⟨r, hr, -⟩, -⟩ := History.of_sketch hg
  obtain ⟨hgroup', hgkey', ⟨r', hr', -⟩, -⟩ := History.of_sketch hg'
  obtain ⟨hkind, hkey, ⟨q, hq, -⟩, hnil⟩ := History.of_sketch hwait
  obtain ⟨hkind', hkey', ⟨q', hq', -⟩, -⟩ := History.of_sketch hwait'
  have hmain := runCase_numbered (Site.world []) {} [Step.revolving] { saveReport := false } none {}
    {}
  rw [hroots] at hmain
  obtain ⟨hloops, hothers, -⟩ := hmain
  -- the loop numbers its own key and that of the group
  obtain ⟨rounds, htraced⟩ := (hloops l List.mem_cons_self).here hloop
  have hrounds : rounds = [[g], [g']] := by
    rw [htraced.iterations.single hone, hchildren]
    rfl
  have hshown : ∀ i x a, rounds[i]? = some [x] → x.step.key = "turn" →
      x.step.declaredKind = .ok .group → x.result = some a → a.iteration = i + 1 := by
    intro i x a hi hx hgroup ha
    refine htraced.shown i [x] hi x a ?_ .here (by rw [hgroup]; simp) ha
    rw [hnumbered, hx]
    decide
  -- no step in the run numbers the key of the innermost one
  have hnone : ∀ x : History, x.step.declaredKind ≠ .ok .loop → ¬ x.Numbers "work" :=
    fun x hx hnumbers => hx hnumbers.1
  have hnot : ¬ l.Numbers "work" := by
    rintro ⟨-, hmem⟩
    rw [hnumbered] at hmem
    exact absurd hmem (by decide)
  have hgnot := hnone g (by rw [hgroup]; simp)
  have hgnot' := hnone g' (by rw [hgroup']; simp)
  have hknot := hnone k (by rw [hkind]; simp)
  have hgall : g.Everywhere fun e => ¬ e.Numbers "work" := by
    refine .intro hgnot fun x hx => ?_
    obtain rfl := List.mem_singleton.mp (hk ▸ hx)
    exact .intro hknot (by simp [List.length_eq_zero_iff.mp hnil])
  have hway : History.Unnumbered "work" [l] k :=
    .inside hnot (hchildren ▸ .inside hgnot (hk ▸ .here))
  have hway' : History.Unnumbered "work" [l] k' :=
    .inside hnot (hchildren ▸ .later hgall (.inside hgnot' (hk' ▸ .here)))
  refine ⟨l, g, g', k, k', r, r', q, q', hroots, hchildren, hk, hk',
    ⟨hr, hshown 0 g r (hrounds ▸ rfl) hgkey hgroup hr⟩,
    ⟨hr', hshown 1 g' r' (hrounds ▸ rfl) hgkey' hgroup' hr'⟩,
    ⟨hq, hothers k q (hkey ▸ hway) (by rw [hkind]; simp) hq⟩,
    hq', hothers k' q' (hkey' ▸ hway') (by rw [hkind']; simp) hq'⟩

/-- **A number that is lost:** in the second iteration of the loop a step is run below a group, and
its result shows the number of the first one. -/
theorem runCase_number_lost : ∃ l rounds g k r,
    runHistories (Site.world []) {} [Step.revolving] { saveReport := false } none {} {} = [l] ∧
    l.step.declaredKind = .ok .loop ∧ l.Iterations rounds ∧ rounds[1]? = some [g] ∧
    g.step.declaredKind = .ok .group ∧ g.children = [k] ∧ k.step.declaredKind = .ok .wait ∧
    k.result = some r ∧ r.iteration = 1 := by
  obtain ⟨l, g, g', k, k', hroots, -, hone, hchildren, -, hk', hl, -, hg', -, hwait'⟩ :=
    Step.revolving_run
  obtain ⟨hloop, -⟩ := History.of_sketch hl
  obtain ⟨hgroup', -⟩ := History.of_sketch hg'
  obtain ⟨hkind', -, ⟨r, hr, hnumber⟩, -⟩ := History.of_sketch hwait'
  have hsound : l.Everywhere (History.Sound (Site.world []).toOutside) :=
    (runHistories_sound (Site.world []) l (hroots ▸ List.mem_cons_self)).1
  obtain ⟨rounds, ending, hiterations, -⟩ := hsound.here.rounds hloop
  have hrounds : rounds.map Round.histories = [[g], [g']] := by
    rw [hiterations.single hone, hchildren]
    rfl
  exact ⟨l, _, g', k', r, hroots, hloop, hiterations, hrounds ▸ rfl, hgroup', hk', hkind', hr,
    hnumber⟩

end Scenario
