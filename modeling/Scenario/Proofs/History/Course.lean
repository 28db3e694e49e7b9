import Scenario.Proofs.History
import Scenario.Proofs.History.Ending

/-!
# The course of a step

What can happen between the opening and the closing of a step's work, kind by kind, told of its
history alone.

* `Event` — what changes the context for the steps below: the variables of an iteration are
  injected, the iteration gets its number, a case is entered or left, a step is run.
* `Follows c events d` — the events lead from the context `c` to the context `d`; between them,
  nothing changes that steps share.
* `Renumbers keys m events n` — in the work of a step whose iterations give their numbers to `keys`,
  the events lead from the numbers `m` to the numbers `n`.
* `Passage` — one way through a list of steps: which of them were run and what came of it.
* `Rounds` — the iterations of a loop, each one a passage, up to the one that ended it. Which ones
  there may be, and when they are all, depends on the mode: `LoopMode.Allows`, `LoopMode.Exhausts`.
* `Course` — the events of the work of a step of each kind, and how the work ended. `Idle` is a
  course without events.
* `History.Sound` — the history of a step is right: it was entered, its work took one of the courses
  of its kind, and its result and its last context are what the end of that work makes of them.

`History.Everywhere` says something of a history and of all histories in it.
-/

namespace Scenario

/-! ### Contexts between the steps -/

/-- **What steps share** and a step may not change between the steps that it runs: the variables in
force, the session, the key, the stack of cases and the circumstances of the run. -/
def Context.still (ctx : Context) : Context :=
  { ctx with extract := [], logs := [], iterations := [], client := none }

/-- What happens in the work of a step. -/
inductive Event where
  /-- Variables are written into the session before an iteration. -/
  | injected (data : Json.Members)
  /-- An iteration starts. -/
  | numbered (i : Nat)
  | entered (id : Int)
  | left (id : Int)
  | ran (h : History)

namespace Event

/-- What an event does to the context. -/
def Leads (c : Context) : Event → Context → Prop
  | injected data, d => d.still = { c.still with session := Keyed.extend c.session data }
  | numbered _, d => d.still = c.still
  | entered id, d =>
    id ∉ c.including ∧ d.still = { c.still with including := c.including ++ [id] }
  | left id, d => c.including = d.including ++ [id] ∧
    d.still = { c.still with including := d.including }
  | ran h, d => h.before.still = c.still ∧ d.still = h.after.still

/-- The step that was run, if the event is one. -/
def history? : Event → Option History
  | ran h => some h
  | _ => none

/-- The steps that were run. -/
def histories (events : List Event) : List History := events.filterMap history?

/-- The number of the iteration after some events that started in iteration `i`. -/
def iteration (i : Nat) (events : List Event) : Nat :=
  events.foldl (fun i event => match event with | numbered j => j | _ => i) i

theorem histories_append (events events' : List Event) :
    histories (events ++ events') = histories events ++ histories events' :=
  List.filterMap_append

theorem iteration_append (i : Nat) (events events' : List Event) :
    iteration i (events ++ events') = iteration (iteration i events) events' :=
  List.foldl_append

@[simp] theorem histories_nil : histories [] = [] := rfl

@[simp] theorem histories_singleton (h : History) : histories [ran h] = [h] := rfl

@[simp] theorem histories_ran (hs : List History) : histories (hs.map .ran) = hs := by
  induction hs with
  | nil => rfl
  | cons h rest ih => exact congrArg (h :: ·) ih

end Event

/-- **The events lead from a context to another.** -/
def Follows (c : Context) : List Event → Context → Prop
  | [], d => d.still = c.still
  | event :: rest, d => ∃ next, event.Leads c next ∧ Follows next rest d

/-- What an event does depends on what is still alone. -/
theorem Event.Leads.congr {event : Event} {c c' d : Context} (hc : c'.still = c.still)
    (h : event.Leads c d) : event.Leads c' d := by
  -- beside what is still as a whole, an event looks at the session and at the stack
  have hsession : c'.session = c.session := (congrArg Context.session hc :)
  have hincluding : c'.including = c.including := (congrArg Context.including hc :)
  cases event <;> simp_all [Event.Leads]

theorem Follows.congr {events : List Event} {c c' d : Context} (hc : c'.still = c.still)
    (h : Follows c events d) : Follows c' events d := by
  cases events with
  | nil => exact Eq.trans h hc.symm
  | cons event rest =>
    obtain ⟨next, hlead, hrest⟩ := h
    exact ⟨next, hlead.congr hc, hrest⟩

theorem Follows.append {events events' : List Event} {c d e : Context} (h : Follows c events d)
    (h' : Follows d events' e) : Follows c (events ++ events') e := by
  induction events generalizing c with
  | nil => exact h'.congr (Eq.symm h)
  | cons event rest ih =>
    obtain ⟨next, hlead, hrest⟩ := h
    exact ⟨next, hlead, ih hrest⟩

/-- What follows a list of events can be cut in two. -/
theorem Follows.split {events events' : List Event} {c e : Context}
    (h : Follows c (events ++ events') e) : ∃ d, Follows c events d ∧ Follows d events' e := by
  induction events generalizing c with
  | nil => exact ⟨c, rfl, h⟩
  | cons event rest ih =>
    obtain ⟨next, hlead, hrest⟩ := h
    obtain ⟨d, hd, he⟩ := ih hrest
    exact ⟨d, ⟨next, hlead, hd⟩, he⟩

/-! ### The numbers of iterations -/

/-- The steps, by their keys, that get the number of each iteration of a loop: the loop itself, and
the steps right below it. -/
def Step.numberedKeys (step : Step) : List String :=
  step.key :: (Step.ordered step.children).map fun child => child.key

/-- What an event makes of the numbers that steps have, by their keys, if the iterations of the
running step give theirs to `keys`. -/
def Event.renumber (keys : List String) (numbers : String → Nat) : Event → String → Nat
  | numbered i => fun key => if key ∈ keys then i else numbers key
  | ran h => h.after.iteration
  | _ => numbers

/-- **The events lead from numbers to others.** A step that is run starts with the numbers that the
events before it have left. -/
inductive Renumbers (keys : List String) : (String → Nat) → List Event → (String → Nat) → Prop
  | done {numbers : String → Nat} : Renumbers keys numbers [] numbers
  | next {numbers numbers' : String → Nat} {event : Event} {rest : List Event} :
    (∀ h, event.history? = some h → h.before.iteration = numbers) →
    Renumbers keys (event.renumber keys numbers) rest numbers' →
    Renumbers keys numbers (event :: rest) numbers'

namespace Renumbers

variable {keys : List String} {numbers numbers' numbers'' : String → Nat}

theorem append {events events' : List Event} (h : Renumbers keys numbers events numbers')
    (h' : Renumbers keys numbers' events' numbers'') :
    Renumbers keys numbers (events ++ events') numbers'' := by
  induction h with
  | done => exact h'
  | next hstart _ ih => exact .next hstart (ih h')

/-- One event, which runs no step. -/
theorem one {event : Event} (hnone : event.history? = none)
    (h : numbers' = event.renumber keys numbers) : Renumbers keys numbers [event] numbers' := by
  subst h
  exact .next (fun h hh => absurd (hnone.symm.trans hh) (Option.some_ne_none h).symm) .done

/-- One step that is run. -/
theorem ran {h : History} (hbefore : h.before.iteration = numbers)
    (hafter : h.after.iteration = numbers') : Renumbers keys numbers [.ran h] numbers' := by
  subst hafter
  exact .next (fun _ hh => Option.some.inj hh ▸ hbefore) .done

end Renumbers

/-! ### A way through a list of steps -/

/-- Runs of the steps of a list, one after the other, and what came of them. With `halt` a failed
step is the last one; an aborted step always is. -/
inductive Passage (halt : Bool) : List Step → List History → Option ChildrenOutcome → Prop
  | done : Passage halt [] [] (some .passed)
  | crashed {h : History} {rest : List Step} :
    h.result = none → Passage halt (h.step :: rest) [h] none
  | aborted {h : History} {r : StepResult} {rest : List Step} :
    h.result = some r → r.aborted = true → Passage halt (h.step :: rest) [h] (some .aborted)
  | halted {h : History} {r : StepResult} {rest : List Step} :
    h.result = some r → r.aborted = false → r.success = false → halt = true →
    Passage halt (h.step :: rest) [h] (some .failed)
  | passed {h : History} {r : StepResult} {rest : List Step} {hs : List History}
    {outcome : Option ChildrenOutcome} :
    h.result = some r → r.aborted = false → r.success = true → Passage halt rest hs outcome →
    Passage halt (h.step :: rest) (h :: hs) outcome
  | failed {h : History} {r : StepResult} {rest : List Step} {hs : List History}
    {outcome : Option ChildrenOutcome} :
    h.result = some r → r.aborted = false → r.success = false → halt = false →
    Passage halt rest hs outcome →
    Passage halt (h.step :: rest) (h :: hs)
      (if outcome = some .passed then some .failed else outcome)

/-! ### The iterations of a loop -/

/-- An iteration. -/
structure Round where
  /-- The variables that were injected before it, in a loop that injects some. -/
  injected : Option Json.Members
  number : Nat
  histories : List History
  outcome : Option ChildrenOutcome

/-- The events of an iteration. -/
def Round.events (round : Round) : List Event :=
  (round.injected.map Event.injected).toList ++ .numbered round.number ::
    round.histories.map Event.ran

/-- Whether a loop goes on after an iteration with a certain outcome. -/
def LoopStrategy.GoesOn (strategy : LoopStrategy) (outcome : Option ChildrenOutcome) : Prop :=
  outcome = some .passed ∨ outcome = some .failed ∧ strategy = .continue

/-- Whether a loop ends the case after an iteration with a certain outcome. -/
def LoopStrategy.Aborts (strategy : LoopStrategy) (outcome : Option ChildrenOutcome) : Prop :=
  outcome = some .aborted ∨ outcome = some .failed ∧ strategy = .stop

/-- How the work of a loop ends with iteration `i`, after which it does not go on. -/
inductive LoopStrategy.Ends {ρ : Type} (o : Outside ρ) (i : Nat) :
    LoopStrategy → Option ChildrenOutcome → Ending → Prop
  | crashed {strategy : LoopStrategy} : Ends o i strategy none .crashed
  | aborted {strategy : LoopStrategy} :
    Ends o i strategy (some .aborted) (.faulted (.aborted (.insideIteration i)))
  | stopped : Ends o i .stop (some .failed) (.faulted (.aborted (.failedIteration i)))
  | broken {ending : Ending} : ending.Mild o → Ends o i .break (some .failed) ending

/-- **Iterations** from number `i` on, each a passage through the steps of the loop. -/
inductive Rounds {ρ : Type} (o : Outside ρ) (strategy : LoopStrategy) (steps : List Step) :
    Nat → List Round → Ending → Prop
  | done {i : Nat} {ending : Ending} : ending.Mild o → Rounds o strategy steps i [] ending
  | last {i : Nat} {round : Round} {ending : Ending} :
    round.number = i → Passage (strategy ≠ .continue) steps round.histories round.outcome →
    strategy.Ends o i round.outcome ending → Rounds o strategy steps i [round] ending
  | next {i : Nat} {round : Round} {rest : List Round} {ending : Ending} :
    round.number = i → Passage (strategy ≠ .continue) steps round.histories round.outcome →
    strategy.GoesOn round.outcome → Rounds o strategy steps (i + 1) rest ending →
    Rounds o strategy steps i (round :: rest) ending

/-- What a loop goes through, as its step finds it. -/
def Context.source (ctx : Context) (step : StepFields) : Option Json.Value :=
  step.loopIterable.bind fun declared =>
    match (Placeholder.resolveValue ctx.lookup declared).out with
    | .string s =>
      match Placeholder.bareReference? s.toList with
      | some body => ctx.lookup (Placeholder.nameOf body)
      | none => some ((Json.Value.ofText? s).getD (.string s))
    | v => some v

/-- **The variables that a loop injects,** iteration by iteration. -/
def Context.injections (ctx : Context) (step : StepFields) : LoopMode → List Json.Members
  | .iterable =>
    match ctx.source step with
    | some (.array items) =>
      items.mapIdx fun i item => Exec.injectedItem (Exec.loopNames step) (i + 1) item
    | _ => []
  | .dict =>
    match ctx.source step with
    | some (.object entries) =>
      entries.mapIdx fun i entry => Exec.injectedEntry (Exec.loopNames step) (i + 1) entry
    | _ => []
  | _ => []

/-- The iterations that a mode allows. -/
def LoopMode.Allows (mode : LoopMode) (opening : Context) (step : StepFields)
    (rounds : List Round) : Prop :=
  match mode with
  | .count => rounds.length ≤ countLoopCeiling ∧ ∀ round ∈ rounds, round.injected = none
  | .condition => rounds.length ≤ conditionLoopCeiling ∧ ∀ round ∈ rounds, round.injected = none
  | _ => rounds.map Round.injected <+: (opening.injections step mode).map some

theorem LoopMode.Allows.nil (mode : LoopMode) (opening : Context) (step : StepFields) :
    mode.Allows opening step [] := by
  cases mode <;> simp [Allows]

/-- Whether the iterations are all that there are to come. A loop through a source goes through the
whole of it, unless something stops the loop. -/
def LoopMode.Exhausts (mode : LoopMode) (opening : Context) (step : StepFields)
    (rounds : List Round) : Prop :=
  mode = .iterable ∨ mode = .dict → rounds.length = (opening.injections step mode).length

/-- What the iterations of a loop that finishes have in common: they are all that there are to come,
and each of them passed. -/
structure LoopMode.Fulfils (mode : LoopMode) (opening : Context) (step : StepFields)
    (rounds : List Round) : Prop where
  exhausts : mode.Exhausts opening step rounds
  passed : ∀ round ∈ rounds, round.outcome = some .passed

/-! ### The work of a step -/

/-- Whether steps of a kind just run their children, perhaps after a look at a predicate. -/
def StepKind.IsPlain (kind : StepKind) : Prop :=
  kind = .condition ∨ kind = .group ∨ kind = .tcp ∨ kind = .database

/-- **The course of the work of a step** that is opened in a context. -/
inductive Course {ρ : Type} (o : Outside ρ) (step : Step) (opening : Context) :
    List Event → Ending → Prop
  /-- No step is run. -/
  | idle {ending : Ending} : Idle o step.toStepFields opening ending →
    Course o step opening [] ending
  | pass {kind : StepKind} {hs : List History} {outcome : Option ChildrenOutcome} :
    step.declaredKind = .ok kind → kind.IsPlain →
    (kind = .condition → opening.branches step.toStepFields = .ok true) →
    Passage false (Step.ordered step.children) hs outcome →
    Course o step opening (hs.map .ran) (.ofOutcome kind.name outcome)
  | visit {id : Int} {record : CaseRecord} {hs : List History} {outcome : Option ChildrenOutcome} :
    step.declaredKind = .ok .inclusion → step.includedCase = some id →
    o.library.find? id = some record → record.visibility = .shared → record.steps ≠ [] →
    Passage false (Step.ordered record.steps) hs outcome →
    Course o step opening
      (.entered id :: hs.map .ran ++ if outcome.isSome then [.left id] else [])
      (.ofOutcome "included case" outcome)
  | rounds {mode : LoopMode} {strategy : LoopStrategy} {rounds : List Round} {ending : Ending} :
    step.declaredKind = .ok .loop → Exec.loopMode step.toStepFields = .ok mode →
    Exec.loopStrategy step.toStepFields = .ok strategy →
    mode.Allows opening step.toStepFields rounds →
    (ending = .finished → mode.Fulfils opening step.toStepFields rounds) →
    Rounds o strategy (Step.ordered step.children) 1 rounds ending →
    Course o step opening (rounds.flatMap Round.events) ending

/-- **The result of a step** is marked with what its step says of itself. -/
structure StepResult.IsOf (step : StepFields) (r : StepResult) : Prop where
  id : r.id = step.id
  number : r.number = step.number
  code : r.code = step.code
  name : r.name = step.title
  kind : r.kind = step.kind

/-- A result has the key of its step. -/
theorem StepResult.IsOf.key {step : StepFields} {r : StepResult} (h : r.IsOf step) :
    r.key = step.key := by
  rw [ResultFields.key, h.code, h.id, h.number, StepFields.key]

namespace History

/-- The result of a step is what the end of its work makes of it. -/
structure Concluded (h : History) (events : List Event) (ending : Ending) (r : StepResult) :
    Prop where
  ended : ending ≠ .crashed
  result : r.bare = { StepResult.of h.step.toStepFields with
    success := ending.fault?.isNone
    aborted := ending.aborts
    error := ending.fault?.map Fault.message
    iteration := Event.iteration (h.before.iteration h.step.key) events
    children := h.children.filterMap History.result }
  /-- What was extracted is in the session, and the rest is as it was. -/
  after : h.after.still = { h.closing.still with
    key := h.before.key
    defined := h.before.defined
    session := Keyed.extend h.closing.session r.extracted }
  extract : h.after.extract = h.before.extract

namespace Concluded

variable {h : History} {events : List Event} {ending : Ending} {r : StepResult}

theorem marked (hend : h.Concluded events ending r) : r.IsOf h.step.toStepFields where
  id := (congrArg (fun r : StepResult => r.id) hend.result :)
  number := (congrArg (fun r : StepResult => r.number) hend.result :)
  code := (congrArg (fun r : StepResult => r.code) hend.result :)
  name := (congrArg (fun r : StepResult => r.name) hend.result :)
  kind := (congrArg (fun r : StepResult => r.kind) hend.result :)

theorem children (hend : h.Concluded events ending r) :
    r.children = h.children.filterMap History.result :=
  (congrArg StepResult.children hend.result :)

theorem aborted (hend : h.Concluded events ending r) : r.aborted = ending.aborts :=
  (congrArg (fun r : StepResult => r.aborted) hend.result :)

theorem error (hend : h.Concluded events ending r) :
    r.error = ending.fault?.map Fault.message :=
  (congrArg (fun r : StepResult => r.error) hend.result :)

theorem iteration (hend : h.Concluded events ending r) :
    r.iteration = Event.iteration (h.before.iteration h.step.key) events :=
  (congrArg (fun r : StepResult => r.iteration) hend.result :)

/-- A step passed if and only if its work finished. -/
theorem success (hend : h.Concluded events ending r) : r.success = true ↔ ending = .finished := by
  have hsuccess : r.success = ending.fault?.isNone :=
    (congrArg (fun r : StepResult => r.success) hend.result :)
  rw [hsuccess]
  cases ending with
  | finished => simp [Ending.fault?]
  | faulted fault => simp [Ending.fault?]
  | crashed => exact absurd rfl hend.ended

end Concluded

/-- **A sound history.** -/
structure Sound {ρ : Type} (o : Outside ρ) (h : History) : Prop where
  opening : h.opening.still = { h.before.still with
    key := some h.step.key
    defined := h.before.inForce h.step.toStepFields }
  extract : h.opening.extract = []
  work : ∃ events ending, Course o h.step h.opening events ending ∧
    Follows h.opening events h.closing ∧ Event.histories events = h.children ∧
    Renumbers h.step.numberedKeys h.before.iteration events h.after.iteration ∧
    ∀ r, h.result = some r → h.Concluded events ending r
  broken : h.result = none → h.after = h.closing

/-- The course of the work of a step, whatever becomes of the numbers of iterations. -/
theorem Sound.course {ρ : Type} {o : Outside ρ} {h : History} (hs : h.Sound o) :
    ∃ events ending, Course o h.step h.opening events ending ∧
      Follows h.opening events h.closing ∧ Event.histories events = h.children ∧
      ∀ r, h.result = some r → h.Concluded events ending r := by
  obtain ⟨events, ending, hcourse, hfollows, hhistories, -, hconcluded⟩ := hs.work
  exact ⟨events, ending, hcourse, hfollows, hhistories, hconcluded⟩

/-- Something holds of a history and of all histories in it. -/
inductive Everywhere (P : History → Prop) : History → Prop
  | intro {h : History} : P h → (∀ g ∈ h.children, Everywhere P g) → Everywhere P h

namespace Everywhere

variable {P : History → Prop} {h : History}

theorem here (hP : Everywhere P h) : P h := by
  cases hP with
  | intro hP _ => exact hP

theorem children (hP : Everywhere P h) : ∀ g ∈ h.children, Everywhere P g := by
  cases hP with
  | intro _ hP => exact hP

/-- What follows for a history from all that is in it holds of each history in it. -/
theorem each {Q : History → Prop} (hP : Everywhere P h) (hQ : ∀ k, Everywhere P k → Q k) :
    Everywhere Q h := by
  induction hP with
  | intro hP hall ih => exact .intro (hQ _ (.intro hP hall)) ih

end Everywhere

end History

/-! ### What courses keep -/

/-- If nothing crashed, every step that was run has a result. -/
theorem Passage.results {halt : Bool} {steps : List Step} {hs : List History}
    {outcome : Option ChildrenOutcome} (h : Passage halt steps hs outcome) (ho : outcome ≠ none) :
    ∀ g ∈ hs, ∃ r, g.result = some r := by
  induction h with
  | done => simp
  | crashed => exact absurd rfl ho
  | aborted hr => simpa using ⟨_, hr⟩
  | halted hr => simpa using ⟨_, hr⟩
  | passed hr _ _ _ ih => simpa using ⟨⟨_, hr⟩, ih ho⟩
  | failed hr _ _ _ _ ih =>
    -- a failure is remembered, unless something worse comes; a crash stays one
    refine List.forall_mem_cons.mpr ⟨⟨_, hr⟩, ih fun hnone => ho ?_⟩
    rw [hnone]
    rfl

section

variable {ρ : Type} {o : Outside ρ}

theorem Rounds.results {strategy : LoopStrategy} {steps : List Step} {i : Nat} {rounds : List Round}
    {ending : Ending} (h : Rounds o strategy steps i rounds ending) (he : ending ≠ .crashed) :
    ∀ round ∈ rounds, ∀ g ∈ round.histories, ∃ r, g.result = some r := by
  induction h with
  | done => simp
  | last _ hpass hends =>
    -- only a crash in the last iteration makes the loop crash
    have ho : ∀ {i outcome ending}, LoopStrategy.Ends o i strategy outcome ending →
        ending ≠ .crashed → outcome ≠ none := by
      intro i outcome ending hends he
      cases hends <;> simp_all
    simpa using hpass.results (ho hends he)
  | next _ hpass hgoes _ ih =>
    refine List.forall_mem_cons.mpr ⟨hpass.results ?_, ih he⟩
    rcases hgoes with h | ⟨h, _⟩ <;> rw [h] <;> exact Option.some_ne_none _

@[simp] theorem Round.histories_events (round : Round) :
    Event.histories round.events = round.histories := by
  obtain ⟨injected, number, hs, outcome⟩ := round
  cases injected <;> exact Event.histories_ran hs

theorem Round.histories_flatMap (rounds : List Round) :
    Event.histories (rounds.flatMap Round.events) = rounds.flatMap Round.histories := by
  induction rounds with
  | nil => rfl
  | cons round rest ih =>
    rw [List.flatMap_cons, List.flatMap_cons, Event.histories_append, ih, histories_events]

/-- The steps that a visit of a case runs. -/
theorem Event.histories_visit (id : Int) (hs : List History) (outcome : Option ChildrenOutcome) :
    histories (.entered id :: hs.map .ran ++ if outcome.isSome then [.left id] else []) = hs := by
  rw [histories_append]
  -- leaving the case is an event only if there was no crash, and no step in any case
  have hleft : histories (if outcome.isSome then [.left id] else []) = [] := by
    split <;> rfl
  rw [hleft, List.append_nil]
  exact histories_ran hs

/-- **If the work did not crash,** every step that it ran has a result. -/
theorem Course.results {step : Step} {opening : Context} {events : List Event} {ending : Ending}
    (h : Course o step opening events ending) (he : ending ≠ .crashed) :
    ∀ g ∈ Event.histories events, ∃ r, g.result = some r := by
  cases h with
  | idle => exact fun g hg => absurd hg List.not_mem_nil
  | pass _ _ _ hpass =>
    rw [Event.histories_ran]
    exact hpass.results (Ending.ofOutcome_ne_crashed.mp he)
  | visit _ _ _ _ _ hpass =>
    rw [Event.histories_visit]
    exact hpass.results (Ending.ofOutcome_ne_crashed.mp he)
  | rounds _ _ _ _ _ hrounds =>
    rw [Round.histories_flatMap]
    intro g hg
    obtain ⟨round, hround, hg⟩ := List.mem_flatMap.mp hg
    exact hrounds.results he round hround g hg

/-- **What events keep:** something in a context that only the steps that were run could have
changed, and did not. -/
theorem Follows.kept {α : Type} {π : Context → α} {events : List Event} {c d : Context}
    (h : Follows c events d) (hstill : ∀ {c d : Context}, d.still = c.still → π d = π c)
    (hled : ∀ event ∈ events, event.history? = none → ∀ {c d}, event.Leads c d → π d = π c)
    (hran : ∀ g ∈ Event.histories events, π g.after = π g.before) : π d = π c := by
  -- event by event: one that runs a step joins three contexts, of which the outer two are still
  induction events generalizing c with
  | nil => exact hstill h
  | cons event rest ih =>
    obtain ⟨next, hlead, hrest⟩ := h
    have hran' : ∀ g ∈ Event.histories rest, π g.after = π g.before := by
      intro g hg
      refine hran g ?_
      cases event <;> first | exact hg | exact List.mem_cons_of_mem _ hg
    refine (ih hrest (fun event h => hled event (List.mem_cons_of_mem _ h)) hran').trans ?_
    by_cases hg : event.history? = none
    · exact hled event List.mem_cons_self hg hlead
    · cases event with
      | ran g => rw [hstill hlead.2, hran g List.mem_cons_self, hstill hlead.1]
      | _ => exact absurd rfl hg

/-- Events by which no case is entered or left keep the stack, if the steps that were run did. -/
theorem Follows.including {events : List Event} {c d : Context} (h : Follows c events d)
    (hcases : ∀ id, .entered id ∉ events ∧ .left id ∉ events)
    (hkept : ∀ g ∈ Event.histories events, g.after.including = g.before.including) :
    d.including = c.including := by
  refine h.kept (fun h => (congrArg Context.including h :)) ?_ hkept
  intro event hevent hnone c d hlead
  cases event with
  | injected data => exact (congrArg Context.including hlead :)
  | numbered i => exact (congrArg Context.including hlead :)
  | entered id => exact absurd hevent (hcases id).1
  | left id => exact absurd hevent (hcases id).2
  | ran g => exact absurd hnone (Option.some_ne_none g)

theorem Round.no_cases (rounds : List Round) (id : Int) :
    .entered id ∉ rounds.flatMap Round.events ∧ .left id ∉ rounds.flatMap Round.events := by
  -- the events of an iteration are an injection, a number and steps
  constructor <;>
  · intro hmem
    obtain ⟨round, -, hmem⟩ := List.mem_flatMap.mp hmem
    simp [Round.events] at hmem

/-- **The work of a step leaves the stack of cases as it was,** if the steps that it ran did. -/
theorem Course.including {step : Step} {opening c d : Context} {events : List Event}
    {ending : Ending} (h : Course o step opening events ending) (he : ending ≠ .crashed)
    (hf : Follows c events d)
    (hkept : ∀ g ∈ Event.histories events, g.after.including = g.before.including) :
    d.including = c.including := by
  cases h with
  | idle => exact hf.including (by simp) hkept
  | pass => exact hf.including (by simp) hkept
  | rounds => exact hf.including (Round.no_cases _) hkept
  | @visit id record hs outcome =>
    have ho : outcome.isSome := Option.isSome_iff_ne_none.mpr (Ending.ofOutcome_ne_crashed.mp he)
    rw [Event.histories_visit] at hkept
    rw [if_pos ho] at hf
    -- the case is entered, its steps keep the stack, and the case is left from where it was entered
    obtain ⟨inside, ⟨-, hentered⟩, hrest⟩ := hf
    obtain ⟨last, hran, next, ⟨hleft, -⟩, hend⟩ := Follows.split hrest
    have hlast := hran.including (by simp) (by simpa using hkept)
    have hinside : inside.including = c.including ++ [id] := (congrArg Context.including hentered :)
    have hd : d.including = next.including := (congrArg Context.including hend :)
    rw [hlast, hinside] at hleft
    rw [hd, List.append_cancel_right hleft]

/-- **A step that ended leaves the stack of cases as it was.** -/
theorem History.Everywhere.including {h : History} (hs : h.Everywhere (History.Sound o))
    {r : StepResult} (hr : h.result = some r) : h.after.including = h.before.including := by
  -- by induction on the history: a step that ended has only run steps that ended
  induction hs generalizing r with
  | @intro h hsound _ ih =>
    obtain ⟨events, ending, hcourse, hfollows, hhistories, hconcluded⟩ := hsound.course
    have hend := hconcluded r hr
    have hkept : ∀ g ∈ Event.histories events, g.after.including = g.before.including := by
      intro g hg
      obtain ⟨r', hr'⟩ := hcourse.results hend.ended g hg
      exact ih g (hhistories ▸ hg) hr'
    calc h.after.including = h.closing.including := (congrArg Context.including hend.after :)
      _ = h.opening.including := hcourse.including hend.ended hfollows hkept
      _ = h.before.including := (congrArg Context.including hsound.opening :)

end

end Scenario
