import Mathlib.Tactic.Choose
import Scenario.Proofs.History.Iterations

/-!
# The session

Only two things write the session: a step that is left merges what it extracted, and a loop over a
list or a mapping injects the variables of an iteration before the iteration runs.

* `Write` — a write of the session. The writes of a run are those of the steps below it and its own,
  which is the last one: `History.Wrote`.
* `Follows.session` — events change the session by the writes that belong to them.
* `History.Everywhere.wrote` — the session after a step is the session before it, overwritten by the
  writes of its history; by induction over the history.
* `Step.run_session` — so the session after a run is the session before it, overwritten by what the
  results extracted, in post-order, and by what the loops injected in between.
-/

namespace Scenario

/-- A write of the session. -/
inductive Write where
  | injected (data : Json.Members)
  /-- A step merges what it extracted. -/
  | merged (r : StepResult)

namespace Write

/-- What is written. -/
def data : Write → Json.Members
  | injected data => data
  | merged r => r.extracted

/-- The result that is merged, if one is. -/
def result? : Write → Option StepResult
  | injected _ => none
  | merged r => some r

/-- **The session after some writes.** -/
def onto (session : Json.Members) (writes : List Write) : Json.Members :=
  writes.foldl (fun session write => Keyed.extend session write.data) session

theorem onto_append (session : Json.Members) (writes writes' : List Write) :
    onto session (writes ++ writes') = onto (onto session writes) writes' := List.foldl_append

end Write

mutual

/-- **A result and all results below it,** in the order in which their steps ended. -/
def StepResult.postOrder : StepResult → List StepResult
  | ⟨fields, children⟩ => StepResult.postOrderAll children ++ [⟨fields, children⟩]

/-- The results of a list, in the order in which their steps ended. -/
def StepResult.postOrderAll : List StepResult → List StepResult
  | [] => []
  | r :: rest => StepResult.postOrder r ++ StepResult.postOrderAll rest

end

theorem StepResult.postOrder_eq (r : StepResult) :
    r.postOrder = r.children.flatMap StepResult.postOrder ++ [r] := by
  have all : ∀ rs : List StepResult,
      StepResult.postOrderAll rs = rs.flatMap StepResult.postOrder := by
    intro rs
    induction rs with
    | nil => rfl
    | cons r rest ih => rw [StepResult.postOrderAll, ih, List.flatMap_cons]
  obtain ⟨fields, children⟩ := r
  rw [StepResult.postOrder, all]

/-- Whether a step goes through the items of a list or the entries of a mapping. -/
def StepFields.GoesThrough (step : StepFields) (mode : LoopMode) : Prop :=
  step.declaredKind = .ok .loop ∧ Exec.loopMode step = .ok mode ∧ (mode = .iterable ∨ mode = .dict)

/-- **The writes of a step that was left,** in order. Whatever it is, it merges its own result in
the end. -/
inductive History.Wrote : History → List Write → Prop
  /-- Before that, most steps write what the steps below them write. -/
  | plain {h : History} {r : StepResult} {writes : History → List Write} :
    (∀ mode, ¬ h.step.GoesThrough mode) → h.result = some r →
    (∀ g ∈ h.children, Wrote g (writes g)) →
    Wrote h (h.children.flatMap writes ++ [.merged r])
  /-- A loop through a source injects the variables of each iteration just before the writes of the
  steps that it ran in this iteration. If it succeeds, it has gone through the whole source. -/
  | source {h : History} {r : StepResult} {writes : History → List Write} {mode : LoopMode}
    {iterations : List (List History)} :
    h.step.GoesThrough mode → h.result = some r → h.Iterations iterations →
    iterations.length ≤ (h.opening.injections h.step.toStepFields mode).length →
    (r.success = true →
      iterations.length = (h.opening.injections h.step.toStepFields mode).length) →
    (∀ g ∈ h.children, Wrote g (writes g)) →
    Wrote h ((List.zipWith (fun data hs => .injected data :: hs.flatMap writes)
      (h.opening.injections h.step.toStepFields mode) iterations).flatten ++ [.merged r])

/-! ### Events -/

/-- The writes that belong to an event, given those of the steps that were run. -/
def Event.writes (writes : History → List Write) : Event → List Write
  | injected data => [.injected data]
  | ran g => writes g
  | _ => []

section

variable {writes : History → List Write}

/-- **Events change the session** by the writes that belong to them, if the steps among them do. -/
theorem Follows.session {events : List Event} {c d : Context} (h : Follows c events d)
    (hran : ∀ g ∈ Event.histories events,
      g.after.session = Write.onto g.before.session (writes g)) :
    d.session = Write.onto c.session (events.flatMap (Event.writes writes)) := by
  -- event by event: the writes of the first one lead to the context in which the rest starts
  induction events generalizing c with
  | nil => exact (congrArg Context.session (show d.still = c.still from h) :)
  | cons event rest ih =>
    obtain ⟨next, hlead, hrest⟩ := h
    have hnext : next.session = Write.onto c.session (event.writes writes) := by
      cases event with
      | injected data => exact (congrArg Context.session hlead :)
      | numbered i => exact (congrArg Context.session hlead :)
      | entered id => exact (congrArg Context.session hlead.2 :)
      | left id => exact (congrArg Context.session hlead.2 :)
      | ran g =>
        have hbefore : g.before.session = c.session := (congrArg Context.session hlead.1 :)
        have hafter : next.session = g.after.session := (congrArg Context.session hlead.2 :)
        rw [hafter, hran g List.mem_cons_self, hbefore]
        rfl
    rw [List.flatMap_cons, Write.onto_append, ← hnext]
    refine ih hrest fun g hg => hran g ?_
    cases event <;> first | exact hg | exact List.mem_cons_of_mem _ hg

/-- The results that are merged in some events are those of the steps that were run. -/
theorem Event.results_writes (events : List Event) :
    (events.flatMap (Event.writes writes)).filterMap Write.result? =
      (Event.histories events).flatMap fun g => (writes g).filterMap Write.result? := by
  induction events with
  | nil => rfl
  | cons event rest ih =>
    rw [List.flatMap_cons, List.filterMap_append, ih]
    cases event <;> rfl

/-- Where nothing is injected, there are the writes of the steps that were run. -/
theorem Event.writes_plain {events : List Event} (h : ∀ data, .injected data ∉ events) :
    events.flatMap (Event.writes writes) = (Event.histories events).flatMap writes := by
  -- of the other events, only a step that is run has writes
  induction events with
  | nil => rfl
  | cons event rest ih =>
    have hrest := ih fun data hmem => h data (List.mem_cons_of_mem _ hmem)
    cases event with
    | injected data => exact absurd List.mem_cons_self (h data)
    | ran g => exact congrArg (writes g ++ ·) hrest
    | _ => exact hrest

/-- The writes of an iteration. -/
theorem Round.writes_events (round : Round) : round.events.flatMap (Event.writes writes) =
    (round.injected.map Write.injected).toList ++ round.histories.flatMap writes := by
  obtain ⟨injected, number, hs, outcome⟩ := round
  have ran : (hs.map Event.ran).flatMap (Event.writes writes) = hs.flatMap writes := by
    rw [List.flatMap_map]
    rfl
  cases injected with
  | none => exact ran
  | some data => exact congrArg (Write.injected data :: ·) ran

/-- **The writes of a loop through a source:** those of each iteration come after its variables. -/
theorem Round.writes_source {rounds : List Round} {injected : List Json.Members}
    (h : rounds.map Round.injected <+: injected.map some) :
    (rounds.flatMap Round.events).flatMap (Event.writes writes) =
      (List.zipWith (fun data hs => .injected data :: hs.flatMap writes) injected
        (rounds.map Round.histories)).flatten := by
  -- iteration by iteration; what is left of the source has no say in it, since `zipWith` drops it
  induction rounds generalizing injected with
  | nil => simp
  | cons round rest ih =>
    cases injected with
    | nil => simp at h
    | cons data injected =>
      obtain ⟨hround, hrest⟩ := List.cons_prefix_cons.mp h
      rw [List.flatMap_cons, List.flatMap_append, ih hrest, round.writes_events, hround]
      rfl

/-- Loops that go through no source inject nothing. -/
theorem Round.not_injected {rounds : List Round} (h : ∀ round ∈ rounds, round.injected = none)
    (data : Json.Members) : .injected data ∉ rounds.flatMap Round.events := by
  intro hmem
  obtain ⟨round, hround, hmem⟩ := List.mem_flatMap.mp hmem
  simp [Round.events, h round hround] at hmem

end

/-! ### Steps -/

variable {ρ σ : Type} {o : Outside ρ}

namespace History

variable {h : History}

/-- The work of a step and its end, told with the writes that belong to them. -/
theorem Sound.writes (hs : h.Sound o) {r : StepResult} (hr : h.result = some r)
    {writes : History → List Write} (hwrote : ∀ g ∈ h.children, g.Wrote (writes g)) :
    ∃ events ending, Follows h.opening events h.closing ∧ Event.histories events = h.children ∧
      h.Concluded events ending r ∧
      h.Wrote (events.flatMap (Event.writes writes) ++ [.merged r]) := by
  -- only a loop through a source injects anything; all other writes are those of the steps below
  by_cases hthrough : ∃ mode, h.step.GoesThrough mode
  · obtain ⟨mode, hkind, hmode, hsource⟩ := hthrough
    obtain ⟨rounds, ending, hiterations, hfollows, hconcluded, hallows, -⟩ := hs.rounds hkind
    have hprefix : rounds.map Round.injected <+:
        (h.opening.injections h.step.toStepFields mode).map some := by
      rcases hsource with rfl | rfl <;> exact (hallows _ hmode).1
    refine ⟨_, ending, hfollows, ?_, hconcluded r hr, ?_⟩
    · rw [Round.histories_flatMap, hiterations.flat, List.flatMap_def]
    · rw [Round.writes_source hprefix]
      refine .source ⟨hkind, hmode, hsource⟩ hr hiterations ?_ (fun hsuccess => ?_) hwrote
      · simpa using hprefix.length_le
      · rw [List.length_map]
        exact ((hallows _ hmode).2 ((hconcluded r hr).success.mp hsuccess)).exhausts hsource
  · rw [not_exists] at hthrough
    obtain ⟨events, ending, hcourse, hfollows, hhistories, hconcluded⟩ := hs.course
    refine ⟨events, ending, hfollows, hhistories, hconcluded r hr, ?_⟩
    -- a loop of another mode injects nothing, and nor does a step of another kind
    have hplain : ∀ data, .injected data ∉ events := by
      intro data
      cases hcourse with
      | idle => exact List.not_mem_nil
      | pass => simp
      | visit => simp
      | @rounds mode strategy rounds _ hkind hmode _ hallows _ =>
        have hnone := hthrough mode
        cases mode with
        | count => exact Round.not_injected hallows.2 data
        | condition => exact Round.not_injected hallows.2 data
        | iterable => exact absurd ⟨hkind, hmode, .inl rfl⟩ hnone
        | dict => exact absurd ⟨hkind, hmode, .inr rfl⟩ hnone
    rw [Event.writes_plain hplain, hhistories]
    exact .plain hthrough hr hwrote

/-- The results that are merged by some steps, if the writes of each are those of its result. -/
theorem results_flatMap {hs : List History} {writes : History → List Write}
    (h : ∀ g ∈ hs, ∃ r, g.result = some r ∧ (writes g).filterMap Write.result? = r.postOrder) :
    hs.flatMap (fun g => (writes g).filterMap Write.result?) =
      (hs.filterMap History.result).flatMap StepResult.postOrder := by
  induction hs with
  | nil => rfl
  | cons g rest ih =>
    obtain ⟨⟨r, hr, hwrites⟩, hrest⟩ := List.forall_mem_cons.mp h
    rw [List.flatMap_cons, List.filterMap_cons_some hr, List.flatMap_cons, hwrites, ih hrest]

/-- **The session after a step** is the session before it, overwritten by the writes of its
history. -/
theorem Everywhere.wrote (hs : h.Everywhere (Sound o)) {r : StepResult} (hr : h.result = some r) :
    ∃ writes, h.Wrote writes ∧ writes.filterMap Write.result? = r.postOrder ∧
      h.after.session = Write.onto h.before.session writes := by
  -- by induction on the history; the writes of all steps below are chosen at once
  have hall := hs.returned hr
  induction hs generalizing r with
  | @intro h hsound _ ih =>
    have hchildren : ∀ g ∈ h.children, ∃ writes, g.Wrote writes ∧
        (∃ r, g.result = some r ∧ writes.filterMap Write.result? = r.postOrder) ∧
        g.after.session = Write.onto g.before.session writes := by
      intro g hg
      obtain ⟨r', hr'⟩ := (hall.children g hg).here
      obtain ⟨writes, hwrote, hresults, hsession⟩ := ih g hg hr' (hall.children g hg)
      exact ⟨writes, hwrote, ⟨r', hr', hresults⟩, hsession⟩
    choose! writes hwrote hresults hsession using hchildren
    obtain ⟨events, ending, hfollows, hhistories, hend, hown⟩ := hsound.writes hr hwrote
    refine ⟨_, hown, ?_, ?_⟩
    · -- the results below the step are those of the steps that it ran
      have hbelow : h.children.flatMap (fun g => (writes g).filterMap Write.result?) =
          r.children.flatMap StepResult.postOrder := by
        rw [hend.children]
        exact results_flatMap hresults
      rw [List.filterMap_append, Event.results_writes, hhistories, hbelow, StepResult.postOrder_eq]
      rfl
    · -- entering writes nothing, and leaving merges what was extracted
      have hopening : h.opening.session = h.before.session :=
        (congrArg Context.session hsound.opening :)
      have hclosing := hfollows.session fun g hg => hsession g (hhistories ▸ hg)
      calc h.after.session
          = Keyed.extend h.closing.session r.extracted := (congrArg Context.session hend.after :)
        _ = Write.onto h.closing.session [.merged r] := rfl
        _ = Write.onto h.before.session (events.flatMap (Event.writes writes) ++ [.merged r]) := by
          rw [hclosing, hopening, Write.onto_append]

end History

/-! ### Names stay -/

/-- The names of a session stay in it. -/
theorem Context.invariant_has (session : Json.Members) : Context.Invariant fun c =>
    ∀ key, Keyed.has key session = true → Keyed.has key c.session = true := by
  refine ⟨fun hd hc => ?_, fun event c d hnone hlead hc => ?_⟩
  · exact (congrArg Context.session hd :) ▸ hc
  · cases event with
    | injected data =>
      have hd : d.session = Keyed.extend c.session data := (congrArg Context.session hlead :)
      intro key hkey
      have hc := hc key hkey
      -- writing replaces values and adds names, but takes none away
      unfold Keyed.has at hc ⊢
      rw [hd, Keyed.find?_extend]
      cases Keyed.find? key (Keyed.ofList data) with
      | none => exact hc
      | some v => rfl
    | numbered i => exact (congrArg Context.session hlead :) ▸ hc
    | entered id => exact (congrArg Context.session hlead.2 :) ▸ hc
    | left id => exact (congrArg Context.session hlead.2 :) ▸ hc
    | ran g => exact absurd hnone (Option.some_ne_none g)

variable {w : World ρ σ}

/-- What is written in a run of a step makes up the session that it leaves. -/
theorem Step.exists_wrote {step : Step} {s s' : RunState ρ σ} {r : StepResult}
    (h : step.run w s = .ok r s') :
    ∃ writes, (step.history w s).Wrote writes ∧
      writes.filterMap Write.result? = r.postOrder ∧
      s'.context.session = Write.onto s.context.session writes := by
  obtain ⟨hresult, hafter⟩ := Step.history_ok w h
  obtain ⟨writes, hwrote, hresults, hsession⟩ := (step.history_sound w s).wrote hresult
  rw [Step.history_before, hafter] at hsession
  exact ⟨writes, hwrote, hresults, hsession⟩

/-- **The session.** The session after a run of a step is the session before it, overwritten, in
order, by the writes of the run: what its results extracted, in post-order, and between them what
the loops injected. No name that was there is ever missing. -/
theorem Step.run_session {step : Step} {s s' : RunState ρ σ} {r : StepResult}
    (h : step.run w s = .ok r s') :
    ∃ writes, (step.history w s).Wrote writes ∧
      writes.filterMap Write.result? = r.postOrder ∧
      s'.context.session = Write.onto s.context.session writes ∧
      (step.history w s).Everywhere fun k => ∀ c ∈ k.edges, ∀ key,
        Keyed.has key s.context.session = true → Keyed.has key c.session = true := by
  obtain ⟨writes, hwrote, hresults, hsession⟩ := Step.exists_wrote h
  have hs := step.history_sound w s
  refine ⟨writes, hwrote, hresults, hsession, hs.edges (Context.invariant_has s.context.session) ?_⟩
  rw [Step.history_before]
  exact fun _ hkey => hkey

/-- The session that a run of a step leaves, if the run ends. -/
def Step.sessionAfter (w : World ρ σ) (step : Step) (s : RunState ρ σ) : Option Json.Members :=
  match step.run w s with
  | .ok _ s' => some s'.context.session
  | .error _ _ => none

/-- A loop over a list of two with a group in it. -/
def Step.twice : Step :=
  ⟨{ kind := some "loop", loopMode := some "iterable", loopOnError := some "stop"
     loopIterable := some (.array [.null, .bool true]) }, [⟨{ kind := some "group" }, []⟩]⟩

/-- It leaves two variables for each of the items. -/
theorem Step.run_session_twice : ∃ r s', Step.twice.run (Site.world []) ⟨{}, {}, {}⟩ = .ok r s' ∧
    s'.context.session.length = 4 ∧
    ∃ writes, (Step.twice.history (Site.world []) ⟨{}, {}, {}⟩).Wrote writes ∧
      writes.filterMap Write.result? = r.postOrder ∧ s'.context.session = Write.onto [] writes := by
  have hcheck :
      (Step.twice.sessionAfter (Site.world []) ⟨{}, {}, {}⟩).map List.length = some 4 := by
    decide +kernel
  -- the run ends, since it leaves a session at all
  unfold Step.sessionAfter at hcheck
  cases hrun : Step.twice.run (Site.world []) ⟨{}, {}, {}⟩ with
  | ok r s' =>
    rw [hrun] at hcheck
    obtain ⟨writes, hwrote, hresults, hsession, -⟩ := Step.run_session hrun
    exact ⟨r, s', rfl, Option.some.inj hcheck, writes, hwrote, hresults, hsession⟩
  | error crash s' =>
    rw [hrun] at hcheck
    cases hcheck

end Scenario
