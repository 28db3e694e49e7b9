import Scenario.Proofs.History.Kept

/-!
# The iterations of a loop

Which of the steps that a loop ran belong to which iteration can be read off the steps themselves:
each iteration runs the children of the loop in order, from the first one on, and every iteration
but the last one runs all of them.

* `History.Iterations` — the steps below a loop, cut into iterations.
* `History.Rounded` — the rounds of a loop step: its iterations, together with what its mode and its
  strategy say of them.
* `History.Sound.rounds` — every loop step has them. One whose fields are no good, or that never gets
  to an iteration, has none. `History.Sound.numberedRounds` says besides how they number the steps of
  the loop.
-/

namespace Scenario

/-! ### Whole passages -/

section

variable {halt : Bool} {steps : List Step} {hs : List History} {outcome : Option ChildrenOutcome}

/-- A passage runs its steps from the first one on. -/
theorem Passage.begun (h : Passage halt steps hs outcome) : hs.map History.step <+: steps := by
  induction h with
  | done => exact List.nil_prefix
  | crashed | aborted | halted => exact List.cons_prefix_cons.mpr ⟨rfl, List.nil_prefix⟩
  | passed _ _ _ _ ih | failed _ _ _ _ _ ih => exact List.cons_prefix_cons.mpr ⟨rfl, ih⟩

/-- A passage that nothing stopped runs all of its steps. -/
theorem Passage.full (h : Passage halt steps hs outcome)
    (ho : outcome = some .passed ∨ outcome = some .failed ∧ halt = false) :
    hs.map History.step = steps := by
  induction h with
  | done => rfl
  | crashed => simp at ho
  | aborted => simp at ho
  | halted _ _ _ hhalt => simp [hhalt] at ho
  | passed _ _ _ _ ih => rw [List.map_cons, ih ho]
  | @failed h r rest hs outcome _ _ _ hhalt _ ih =>
    have hrest : outcome = some .passed ∨ outcome = some .failed ∧ halt = false := by
      by_cases hp : outcome = some .passed
      · exact .inl hp
      · rwa [if_neg hp] at ho
    rw [List.map_cons, ih hrest]

theorem Passage.ne_nil (h : Passage halt steps hs outcome) (hsteps : steps ≠ []) : hs ≠ [] := by
  cases h with
  | done => exact absurd rfl hsteps
  | _ => exact List.cons_ne_nil _ _

end

/-! ### Rounds -/

section

variable {ρ : Type} {o : Outside ρ} {strategy : LoopStrategy} {steps : List Step} {i : Nat}
variable {rounds : List Round} {ending : Ending}

/-- Each iteration is a passage. -/
theorem Rounds.passage (h : Rounds o strategy steps i rounds ending) :
    ∀ round ∈ rounds, Passage (strategy ≠ .continue) steps round.histories round.outcome := by
  induction h with
  | done => simp
  | last _ hpass _ => simpa using hpass
  | next _ hpass _ _ ih => exact List.forall_mem_cons.mpr ⟨hpass, ih⟩

/-- After every iteration but the last one, the loop goes on. -/
theorem Rounds.goesOn (h : Rounds o strategy steps i rounds ending) :
    ∀ round ∈ rounds.dropLast, strategy.GoesOn round.outcome := by
  induction h with
  | done => simp
  | last => simp
  | @next i round rest ending _ _ hgoes hrest ih =>
    cases rest with
    | nil => simp
    | cons next rest =>
      rw [List.dropLast_cons_cons]
      exact List.forall_mem_cons.mpr ⟨hgoes, ih⟩

theorem Rounds.full (h : Rounds o strategy steps i rounds ending) :
    ∀ round ∈ rounds.dropLast, round.histories.map History.step = steps := by
  intro round hround
  refine (h.passage round (List.dropLast_subset _ hround)).full ?_
  rcases h.goesOn round hround with hpassed | ⟨hfailed, rfl⟩
  · exact .inl hpassed
  · exact .inr ⟨hfailed, by simp⟩

/-- The iterations are numbered one after the other. -/
theorem Rounds.numbers (h : Rounds o strategy steps i rounds ending) :
    rounds.map Round.number = List.range' i rounds.length := by
  induction h with
  | done => rfl
  | last hnumber => exact congrArg (· :: []) hnumber
  | @next i round rest ending hnumber _ _ _ ih =>
    rw [List.map_cons, ih, hnumber, List.length_cons, List.range'_succ]

/-- The number of the last event is that of the last iteration. -/
theorem Rounds.iteration (h : Rounds o strategy steps i rounds ending) (hne : rounds ≠ [])
    (j : Nat) :
    Event.iteration j (rounds.flatMap Round.events) + 1 = i + rounds.length := by
  have ran : ∀ (hs : List History) (j : Nat), Event.iteration j (hs.map .ran) = j := by
    intro hs
    induction hs with
    | nil => exact fun j => rfl
    | cons g hs ih => exact ih
  -- an iteration sets the number once, before the steps that it runs
  have one : ∀ (round : Round) (j : Nat) (events : List Event),
      Event.iteration j (round.events ++ events) = Event.iteration round.number events := by
    intro round j events
    have hround : Event.iteration j round.events = round.number := by
      obtain ⟨injected, number, hs, outcome⟩ := round
      cases injected <;> exact ran hs number
    rw [Event.iteration_append, hround]
  induction h generalizing j with
  | done => exact absurd rfl hne
  | @last i round ending hnumber =>
    have hlast := one round j []
    simp_all [Event.iteration]
  | @next i round rest ending hnumber _ _ hrest ih =>
    rw [List.flatMap_cons, one, hnumber]
    cases rest with
    | nil => rfl
    | cons next rest =>
      rw [ih (List.cons_ne_nil _ _), List.length_cons, List.length_cons, List.length_cons]
      omega

end

/-! ### Iterations in a history -/

namespace History

/-- **The steps below a loop, cut into iterations.** -/
structure Iterations (h : History) (rounds : List (List History)) : Prop where
  flat : h.children = rounds.flatten
  /-- An iteration runs the children in order, from the first one on, -/
  begun : ∀ hs ∈ rounds, hs.map History.step <+: Step.ordered h.step.children
  /-- and all of them in every iteration but the last one. -/
  full : ∀ hs ∈ rounds.dropLast, hs.map History.step = Step.ordered h.step.children
  ne_nil : h.step.children ≠ [] → ∀ hs ∈ rounds, hs ≠ []
  /-- The result tells the number of the last one, -/
  iteration : ∀ r, h.result = some r → rounds ≠ [] → r.iteration = rounds.length
  /-- and if there is none, the number that the step had when it started. -/
  unnumbered : ∀ r, h.result = some r → rounds = [] →
    r.iteration = h.before.iteration h.step.key

variable {ρ : Type} {o : Outside ρ} {h : History}

/-- Lists that are cut into parts of the same length, but for the last one, are cut in one way only.
-/
theorem parts_unique {α : Type} {n : Nat} {a b : List (List α)} (h : a.flatten = b.flatten)
    (ha : ∀ x ∈ a, x ≠ [] ∧ x.length ≤ n) (hb : ∀ x ∈ b, x ≠ [] ∧ x.length ≤ n)
    (ha' : ∀ x ∈ a.dropLast, x.length = n) (hb' : ∀ x ∈ b.dropLast, x.length = n) : a = b := by
  -- a part that is not the last one cannot stand against a last one: what follows it is too long
  have longer : ∀ {x y z : List α} {rest : List (List α)}, [x].flatten = (y :: z :: rest).flatten →
      x.length ≤ n → y.length = n → z ≠ [] → False := by
    intro x y z rest h hx hy hz
    have hlength := congrArg List.length h
    have hpos := List.length_pos_iff.mpr hz
    simp only [List.flatten_cons, List.flatten_nil, List.length_append, List.append_nil] at hlength
    omega
  -- by induction on both lists of parts at once; first parts that are followed by others are equal
  induction a generalizing b with
  | nil =>
    cases b with
    | nil => rfl
    | cons y b =>
      rw [List.flatten_cons, List.flatten_nil, eq_comm, List.append_eq_nil_iff] at h
      exact absurd h.1 (hb y List.mem_cons_self).1
  | cons x a ih =>
    cases b with
    | nil =>
      rw [List.flatten_cons, List.flatten_nil, List.append_eq_nil_iff] at h
      exact absurd h.1 (ha x List.mem_cons_self).1
    | cons y b =>
      obtain ⟨hx, hrest⟩ := List.forall_mem_cons.mp ha
      obtain ⟨hy, hrest'⟩ := List.forall_mem_cons.mp hb
      cases a with
      | nil =>
        cases b with
        | nil => simpa using h
        | cons z b =>
          exact (longer h hx.2 (hb' y (by simp)) (hrest' z List.mem_cons_self).1).elim
      | cons z a =>
        cases b with
        | nil =>
          exact (longer h.symm hy.2 (ha' x (by simp)) (hrest z List.mem_cons_self).1).elim
        | cons z' b =>
          rw [List.dropLast_cons_cons] at ha' hb'
          obtain ⟨hxn, hwhole⟩ := List.forall_mem_cons.mp ha'
          obtain ⟨hyn, hwhole'⟩ := List.forall_mem_cons.mp hb'
          rw [List.flatten_cons, List.flatten_cons] at h
          obtain ⟨rfl, hflat⟩ := List.append_inj h (hxn.trans hyn.symm)
          rw [ih hflat hrest hrest' hwhole hwhole']

/-- **Where a loop has children,** there is only one way to cut the steps below it into iterations.
-/
theorem Iterations.unique {a b : List (List History)} (ha : h.Iterations a) (hb : h.Iterations b)
    (hne : h.step.children ≠ []) : a = b := by
  have parts : ∀ {rounds : List (List History)}, h.Iterations rounds →
      (∀ hs ∈ rounds, hs ≠ [] ∧ hs.length ≤ (Step.ordered h.step.children).length) ∧
      ∀ hs ∈ rounds.dropLast, hs.length = (Step.ordered h.step.children).length := by
    intro rounds hi
    refine ⟨fun hs hmem => ⟨hi.ne_nil hne hs hmem, ?_⟩, fun hs hmem => ?_⟩
    · simpa using (hi.begun hs hmem).length_le
    · simpa using congrArg List.length (hi.full hs hmem)
  exact parts_unique (ha.flat.symm.trans hb.flat) (parts ha).1 (parts hb).1 (parts ha).2
    (parts hb).2

/-- A loop with one child has one step in each iteration. -/
theorem Iterations.single {rounds : List (List History)} (hi : h.Iterations rounds)
    (hone : h.step.children.length = 1) : rounds = h.children.map fun g => [g] := by
  have hne : h.step.children ≠ [] := List.ne_nil_of_length_eq_add_one hone
  have hsingle : ∀ hs ∈ rounds, ∃ g, hs = [g] := by
    intro hs hmem
    have hlength : hs.length ≤ 1 := by
      have hbegun := (hi.begun hs hmem).length_le
      rwa [List.length_map, Step.ordered, length_orderedBy, hone] at hbegun
    have hpos := List.length_pos_iff.mpr (hi.ne_nil hne hs hmem)
    exact List.length_eq_one_iff.mp (by omega)
  -- lists of one step each are the same as their steps, one by one
  rw [hi.flat]
  clear hi
  induction rounds with
  | nil => rfl
  | cons hs rest ih =>
    obtain ⟨⟨g, rfl⟩, hrest⟩ := List.forall_mem_cons.mp hsingle
    rw [List.flatten_cons, List.map_append, ← ih hrest]
    rfl

/-- **The rounds of a loop step:** they make up the steps below it and its result, and its mode and
its strategy say which rounds there may be, and how they end. -/
structure Rounded (o : Outside ρ) (h : History) (rounds : List Round) (ending : Ending) : Prop where
  iterations : h.Iterations (rounds.map Round.histories)
  follows : Follows h.opening (rounds.flatMap Round.events) h.closing
  concluded : ∀ r, h.result = some r → h.Concluded (rounds.flatMap Round.events) ending r
  allowed : ∀ mode, Exec.loopMode h.step.toStepFields = .ok mode →
    mode.Allows h.opening h.step.toStepFields rounds ∧
      (ending = .finished → mode.Fulfils h.opening h.step.toStepFields rounds)
  told : ∀ strategy, Exec.loopStrategy h.step.toStepFields = .ok strategy →
    Rounds o strategy (Step.ordered h.step.children) 1 rounds ending

/-- A loop step that ran nothing has no iterations, and its result has the number that it had. -/
theorem Iterations.empty {ending : Ending} (hnone : h.children = [])
    (hconcluded : ∀ r, h.result = some r → h.Concluded [] ending r) : h.Iterations [] where
  flat := hnone
  begun := by simp
  full := by simp
  ne_nil := by simp
  iteration := fun _ _ hne => absurd rfl hne
  unnumbered := fun r hr _ => (hconcluded r hr).iteration

/-- The rounds of a loop are its iterations. -/
theorem Iterations.ofRounds {strategy : LoopStrategy} {rounds : List Round} {ending : Ending}
    (hrounds : Rounds o strategy (Step.ordered h.step.children) 1 rounds ending)
    (hhistories : Event.histories (rounds.flatMap Round.events) = h.children)
    (hconcluded : ∀ r, h.result = some r → h.Concluded (rounds.flatMap Round.events) ending r) :
    h.Iterations (rounds.map Round.histories) where
  flat := by rw [← hhistories, Round.histories_flatMap, List.flatMap_def]
  begun := by
    rintro _ hmem
    obtain ⟨round, hround, rfl⟩ := List.mem_map.mp hmem
    exact (hrounds.passage round hround).begun
  -- only the last round may be cut short
  full := by
    rintro _ hmem
    rw [← List.map_dropLast] at hmem
    obtain ⟨round, hround, rfl⟩ := List.mem_map.mp hmem
    exact hrounds.full round hround
  ne_nil := by
    rintro hchildren _ hmem
    obtain ⟨round, hround, rfl⟩ := List.mem_map.mp hmem
    exact (hrounds.passage round hround).ne_nil (Step.ordered_ne_nil hchildren)
  iteration := by
    intro r hr hne
    have hlast := hrounds.iteration (fun h => hne (h ▸ rfl)) (h.before.iteration h.step.key)
    rw [(hconcluded r hr).iteration, List.length_map]
    omega
  unnumbered := by
    intro r hr hnil
    rw [(hconcluded r hr).iteration, List.map_eq_nil_iff.mp hnil]
    rfl

/-- **Every loop step has rounds;** they are numbered one after the other, and give the steps of the
loop their numbers. -/
theorem Sound.numberedRounds (hs : h.Sound o) (hkind : h.step.declaredKind = .ok .loop) :
    ∃ (rounds : List Round) (ending : Ending), Rounded o h rounds ending ∧
      rounds.map Round.number = List.range' 1 rounds.length ∧
      Renumbers h.step.numberedKeys h.before.iteration (rounds.flatMap Round.events)
        h.after.iteration := by
  obtain ⟨events, ending, hcourse, hfollows, hhistories, hnumbers, hconcluded⟩ := hs.work
  -- a loop step takes the course of a loop, or stops before it has an iteration
  cases hcourse with
  | idle hidle =>
    refine ⟨[], ending, ⟨.empty hhistories.symm hconcluded, hfollows, hconcluded, fun mode _ => ?_,
      fun strategy _ => .done hidle.mild⟩, rfl, hnumbers⟩
    obtain ⟨fault, rfl, -⟩ := hidle.loop hkind
    exact ⟨.nil mode _ _, by rintro ⟨⟩⟩
  | pass hpass hplain =>
    obtain rfl := Except.ok.inj (hpass.symm.trans hkind)
    simp [StepKind.IsPlain] at hplain
  | visit hvisit => cases hvisit.symm.trans hkind
  | @rounds mode strategy rounds ending _ hmode hstrategy hallows hfulfils hrounds =>
    refine ⟨rounds, ending, ⟨.ofRounds hrounds hhistories hconcluded, hfollows, hconcluded,
      fun mode' hmode' => ?_, fun strategy' hstrategy' => ?_⟩, hrounds.numbers, hnumbers⟩
    · obtain rfl := Except.ok.inj (hmode.symm.trans hmode')
      exact ⟨hallows, hfulfils⟩
    · obtain rfl := Except.ok.inj (hstrategy.symm.trans hstrategy')
      exact hrounds

/-- The rounds of a loop step, whatever becomes of their numbers. -/
theorem Sound.rounds (hs : h.Sound o) (hkind : h.step.declaredKind = .ok .loop) :
    ∃ (rounds : List Round) (ending : Ending), Rounded o h rounds ending := by
  obtain ⟨rounds, ending, hrounded, -⟩ := hs.numberedRounds hkind
  exact ⟨rounds, ending, hrounded⟩

end History

end Scenario
