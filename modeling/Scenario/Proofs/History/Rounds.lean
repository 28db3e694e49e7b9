import Scenario.Proofs.History.Containers

/-!
# Loops run in rounds

An iteration is a passage through the steps of the loop, and what came of it says whether the loop
goes on. All four modes share this: each is a recursion on the iterations that may still come, so
its events are the events of some `Rounds`.

* `Goes.iterate` — one iteration.
* `Goes.round` — an iteration and the rest of the loop, which is reached only if the loop goes on.
* `Goes.countLoop`, `Goes.iterableLoop`, `Goes.dictLoop`, `Goes.conditionLoop` — the modes; each
  also says which iterations there may be.
* `Goes.loop` — a loop step takes the course of a loop.
-/

namespace Scenario

variable {ρ σ : Type} {w : World ρ σ} {o : Outside ρ} {including : List Int} {keys : List String}
variable {f g : Frame ρ (Watch σ)} {l : Loop ρ (Watch σ)} {steps : List Step}

/-! ### One iteration -/

/-- The steps, by their keys, that get the number of each iteration. -/
def Loop.numberedKeys (l : Loop ρ (Watch σ)) : List String :=
  l.step.key :: l.children.map fun child => child.fields.key

/-- Numbering steps is nothing that steps share. -/
theorem still_setIterations (keys : List String) (i : Nat) (c : Context) :
    (keys.foldl (fun ctx key => ctx.setIteration key i) c).still = c.still := by
  induction keys generalizing c with
  | nil => rfl
  | cons key rest ih => exact ih (c.setIteration key i)

/-- Numbering steps gives the number to their keys alone. -/
theorem iteration_setIterations (keys : List String) (i : Nat) (c : Context) (key : String) :
    (keys.foldl (fun ctx key => ctx.setIteration key i) c).iteration key =
      if key ∈ keys then i else c.iteration key := by
  induction keys generalizing c with
  | nil => rfl
  | cons k rest ih =>
    rw [List.foldl_cons, ih]
    by_cases hrest : key ∈ rest
    · rw [if_pos hrest, if_pos (List.mem_cons_of_mem _ hrest)]
    · rw [if_neg hrest]
      by_cases hkey : key = k
      · rw [if_pos (List.mem_cons.mpr (.inl hkey)), hkey, Context.iteration_setIteration]
      · rw [if_neg (List.not_mem_cons_of_ne_of_not_mem hkey hrest),
          Context.iteration_setIteration_ne _ hkey]

theorem Goes.number (i : Nat) :
    Goes o l.numberedKeys (Exec.number l i) f (Simply [.numbered i]) := by
  -- the loop itself is numbered first, and then the steps below it
  have hfold : l.children.foldl (fun ctx child => ctx.setIteration child.fields.key i)
      (f.state.context.setIteration l.step.key i) =
        l.numberedKeys.foldl (fun ctx key => ctx.setIteration key i) f.state.context := by
    rw [Loop.numberedKeys, List.foldl_cons, List.foldl_map]
  have hstill := still_setIterations l.numberedKeys i f.state.context
  have hnumbers := funext (iteration_setIterations l.numberedKeys i f.state.context)
  rw [← hfold] at hstill hnumbers
  exact ⟨_, ⟨rfl, rfl⟩, .silent ⟨_, hstill, rfl⟩ rfl hnumbers rfl rfl rfl⟩

/-- What came of an iteration: the loop goes on, was broken, or its work ends. The tally before it
is the first one, that after it is the one in the end; failures stay in it. -/
inductive Iterated (o : Outside ρ) (strategy : LoopStrategy) (i : Nat) (tally : Tally) :
    Except Stop Tally → Option ChildrenOutcome → Prop
  | goesOn {tally' : Tally} {outcome : Option ChildrenOutcome} : strategy.GoesOn outcome →
    (tally'.failed = [] → tally.failed = [] ∧ outcome = some .passed) →
    Iterated o strategy i tally (.ok tally') outcome
  | broken {tally' : Tally} : strategy = .break → tally'.brokenAt.isSome →
    Iterated o strategy i tally (.ok tally') (some .failed)
  | ended {stop : Stop} {outcome : Option ChildrenOutcome} :
    strategy.Ends o i outcome (.ofStop stop) → Iterated o strategy i tally (.error stop) outcome

/-- **One iteration** is a passage through the steps of the loop. -/
theorem Goes.iterate (hl : List.Forall₂ (Watchful o including) steps l.children)
    (hf : f.state.context.including = including) (i : Nat) (tally : Tally) :
    Goes o l.numberedKeys (Exec.iterate w.watched l i tally) f fun e events => ∃ hs outcome,
      events = .numbered i :: hs.map .ran ∧ Passage (l.strategy ≠ .continue) steps hs outcome ∧
        Iterated o l.strategy i tally e outcome := by
  refine Goes.simply (Goes.number i) fun g hg => ?_
  -- setting the number leaves the stack to the steps of the iteration
  have hg' : g.state.context.including = including :=
    (hg.stack (by simp) (fun _ h => absurd h List.not_mem_nil)).trans hf
  refine Goes.bind (Goes.runChildren _ hl hg') (fun outcome events g' he _ => ?_)
    fun stop events he => ?_
  · obtain ⟨hs, _, rfl, hpass, hcame⟩ := he
    cases hcame
    cases outcome with
    | aborted => exact Goes.fail ⟨hs, _, by simp, hpass, .ended .aborted⟩
    | passed =>
      exact Goes.pure ⟨hs, _, by simp, hpass, .goesOn (.inl rfl) fun hfailed => ⟨hfailed, rfl⟩⟩
    | failed =>
      -- which of the three constructors of `Iterated` it is, the strategy says
      cases hs' : l.strategy with
      | «continue» =>
        rw [hs'] at hpass
        exact Goes.simply (Goes.log _) fun _ _ =>
          Goes.pure ⟨hs, _, by simp, hpass, .goesOn (.inr ⟨rfl, rfl⟩) (by simp)⟩
      | «break» =>
        rw [hs'] at hpass
        exact Goes.simply (Goes.log _) fun _ _ =>
          Goes.pure ⟨hs, _, by simp, hpass, .broken rfl rfl⟩
      | stop =>
        rw [hs'] at hpass
        exact Goes.fail ⟨hs, _, by simp, hpass, .ended .stopped⟩
  · obtain ⟨hs, _, rfl, hpass, hcame⟩ := he
    cases hcame
    exact ⟨hs, none, rfl, hpass, .ended .crashed⟩

/-! ### An iteration and the rest -/

/-- The iterations came to their end by themselves: they neither stopped nor were broken off. -/
def Completed : Except Stop Tally → Prop
  | .ok tally => tally.brokenAt = none
  | .error _ => False

/-- The iterations came to their end without a failure. -/
def Spotless : Except Stop Tally → Prop
  | .ok tally => tally.brokenAt = none ∧ tally.failed = []
  | .error _ => False

/-- Work whose iterations begin with number `i` and a tally, and have a property, which depends on
how they ended. If they ended without a failure, none of them failed, and there was none before. -/
def Iterates (o : Outside ρ) (strategy : LoopStrategy) (steps : List Step) (i : Nat) (tally : Tally)
    (allowed : Except Stop Tally → List Round → Prop) (e : Except Stop Tally)
    (events : List Event) : Prop :=
  ∃ rounds, events = rounds.flatMap Round.events ∧ allowed e rounds ∧
    (Spotless e → tally.failed = [] ∧ ∀ round ∈ rounds, round.outcome = some .passed) ∧
    Rounds o strategy steps i rounds (.of e)

section

variable {strategy : LoopStrategy} {i : Nat} {tally : Tally}
variable {allowed : Except Stop Tally → List Round → Prop}

/-- Work that is done, and has no further iteration. -/
theorem Iterates.done (h : allowed (.ok tally) []) :
    Iterates o strategy steps i tally allowed (.ok tally) [] :=
  ⟨[], rfl, h, fun hclean => ⟨hclean.2, by simp⟩, .done (Ending.mild_finished o)⟩

/-- Work that stops before there is a further iteration. -/
theorem Iterates.stopped {stop : Stop} (hstop : (Ending.ofStop stop).Mild o)
    (h : allowed (.error stop) []) : Iterates o strategy steps i tally allowed (.error stop) [] :=
  ⟨[], rfl, h, False.elim, .done hstop⟩

theorem Iterates.imp {allowed' : Except Stop Tally → List Round → Prop} {e : Except Stop Tally}
    {events : List Event} (h : Iterates o strategy steps i tally allowed e events)
    (himp : ∀ rounds, allowed e rounds → allowed' e rounds) :
    Iterates o strategy steps i tally allowed' e events := by
  obtain ⟨rounds, hevents, hallowed, hrounds⟩ := h
  exact ⟨rounds, hevents, himp rounds hallowed, hrounds⟩

end

/-- **An iteration and the rest of the loop.** `injected` is what was injected before. -/
theorem Goes.round (hl : List.Forall₂ (Watchful o including) steps l.children)
    (hf : f.state.context.including = including) {i : Nat} {tally : Tally}
    (injected : Option Json.Members) {allowed : Except Stop Tally → List Round → Prop}
    (hnone : ∀ e, ¬ Completed e → allowed e [])
    {rest : Tally → Exec ρ (Watch σ) Tally}
    (hrest : ∀ tally g, g.state.context.including = including →
      Goes o l.numberedKeys (rest tally) g (Iterates o l.strategy steps (i + 1) tally allowed)) :
    Goes o l.numberedKeys (Exec.iterate w.watched l i tally >>= fun tally =>
        if tally.brokenAt.isSome then pure tally else rest tally) f fun e events =>
      Iterates o l.strategy steps i tally
        (fun e rounds => ∃ round rest, rounds = round :: rest ∧ round.injected = injected ∧
          allowed e rest)
        e ((injected.map Event.injected).toList ++ events) := by
  -- the iteration as a round, with what came of it
  have single : ∀ (hs : List History) (outcome : Option ChildrenOutcome) (rounds : List Round),
      (injected.map Event.injected).toList ++
          (.numbered i :: hs.map .ran ++ rounds.flatMap Round.events) =
        ((⟨injected, i, hs, outcome⟩ : Round) :: rounds).flatMap Round.events := by
    intro hs outcome rounds
    rw [List.flatMap_cons, Round.events, List.append_assoc]
  refine Goes.bind (Goes.iterate hl hf i tally) (fun tally' events g he hg => ?_)
    fun stop events he => ?_
  · obtain ⟨hs, outcome, rfl, hpass, hiter⟩ := he
    split
    -- a tally that is broken may be an old one, so the outcome decides which constructor it is
    · next hbroken =>
      have hcut : ¬ Completed (.ok tally') :=
        fun hnone : tally'.brokenAt = none => by simp [hnone] at hbroken
      refine Goes.pure ⟨[⟨injected, i, hs, outcome⟩], single hs outcome [],
        ⟨_, _, rfl, rfl, hnone _ hcut⟩, fun hclean => absurd hclean.1 hcut, ?_⟩
      cases hiter with
      | goesOn hgoes =>
        exact .next rfl hpass hgoes (.done (Ending.mild_finished _))
      | broken hbreak _ =>
        refine .last rfl hpass ?_
        rw [hbreak]
        exact .broken (Ending.mild_finished _)
    · next hbroken =>
      cases hiter with
      | broken _ h => exact absurd h hbroken
      | goesOn hgoes hkept =>
        -- the loop goes on, so all steps of the iteration were left and the stack is as it was
        have hg' : g.state.context.including = including := by
          refine (hg.stack (by simp) ?_).trans hf
          have ho : outcome ≠ none := by
            rcases hgoes with h | ⟨h, _⟩ <;> rw [h] <;> exact Option.some_ne_none _
          simpa [Event.histories, Event.history?] using hpass.results ho
        refine (hrest tally' g hg').imp fun e events he => ?_
        obtain ⟨rounds, rfl, hallowed, hclean, hrounds⟩ := he
        refine ⟨⟨injected, i, hs, outcome⟩ :: rounds, single hs outcome rounds,
          ⟨_, _, rfl, rfl, hallowed⟩, fun he => ?_, .next rfl hpass hgoes hrounds⟩
        obtain ⟨hfailed, hpassed⟩ := hclean he
        obtain ⟨hfailed, houtcome⟩ := hkept hfailed
        exact ⟨hfailed, List.forall_mem_cons.mpr ⟨houtcome, hpassed⟩⟩
  · obtain ⟨hs, outcome, rfl, hpass, hiter⟩ := he
    cases hiter with
    | ended hends =>
      exact ⟨[⟨injected, i, hs, outcome⟩], by simpa using single hs outcome [],
        ⟨_, _, rfl, rfl, hnone _ id⟩, False.elim, .last rfl hpass hends⟩

/-! ### The modes -/

section

variable {α : Type} {strategy : LoopStrategy} {i : Nat} {tally : Tally}
variable {allowed : Except Stop Tally → List Round → Prop}

/-- What is done after the iterations, and does not end the case, leaves them as they are. -/
theorem Rounds.followed {rounds : List Round} {ending : Ending}
    (h : Rounds o strategy steps i rounds .finished) (hending : ending.Mild o) :
    Rounds o strategy steps i rounds ending := by
  induction rounds generalizing i with
  | nil => exact .done hending
  | cons round rest ih =>
    cases h with
    | last hnumber hpass hends =>
      -- work that is finished after its last iteration was broken off there
      refine .last hnumber hpass ?_
      generalize round.outcome = outcome at hends
      cases hends with
      | broken => exact .broken hending
    | next hnumber hpass hgoes hrest => exact .next hnumber hpass hgoes (ih hrest)

/-- Something quiet before the iterations. -/
theorem Goes.toIterations {m : Exec ρ (Watch σ) α} {k : α → Exec ρ (Watch σ) Tally}
    (hm : Goes o keys m f (Quietly o)) (hf : f.state.context.including = including)
    (hnone : ∀ stop, allowed (.error stop) [])
    (hk : ∀ a g, g.state.context.including = including →
      Goes o keys (k a) g (Iterates o strategy steps i tally allowed)) :
    Goes o keys (m >>= k) f (Iterates o strategy steps i tally allowed) :=
  Goes.quietly hm (fun a g hg => hk a g (hg.stack_nil.trans hf)) fun _ hstop =>
    Iterates.stopped hstop (hnone _)

/-- A misconfiguration in place of the iterations. -/
theorem Goes.noIterations {cause : Misconfiguration} (hnone : ∀ stop, allowed (.error stop) []) :
    Goes o keys (Exec.misfit cause) f (Iterates o strategy steps i tally allowed) :=
  Goes.fail (Iterates.stopped (Ending.mild_faulted rfl) (hnone _))

end

theorem Goes.pause (l : Loop ρ (Watch σ)) :
    Goes w.toOutside keys (Exec.pause w.watched l) f (Quietly w.toOutside) :=
  Goes.quiet ((quietTie f).pause l l rfl)

/-- The iterations are those that a mode asks for, and all of them unless the loop is stopped. -/
def LoopMode.Gives (mode : LoopMode) (opening : Context) (step : StepFields) (e : Except Stop Tally)
    (rounds : List Round) : Prop :=
  mode.Allows opening step rounds ∧ (Completed e → mode.Exhausts opening step rounds)

/-- A loop that counts, or goes on while a predicate holds, has no number of iterations to reach. -/
theorem LoopMode.Gives.of_allows {mode : LoopMode} {opening : Context} {step : StepFields}
    {e : Except Stop Tally} {rounds : List Round} (hmode : ¬ (mode = .iterable ∨ mode = .dict))
    (h : mode.Allows opening step rounds) : mode.Gives opening step e rounds :=
  ⟨h, fun _ hsource => absurd hsource hmode⟩

theorem LoopMode.Gives.stopped (mode : LoopMode) (opening : Context) (step : StepFields)
    (stop : Stop) : mode.Gives opening step (.error stop) [] :=
  ⟨.nil mode opening step, False.elim⟩

/-- Iterations of which at most `n` may come, before which nothing is injected. -/
def AtMost (n : Nat) (rounds : List Round) : Prop :=
  rounds.length ≤ n ∧ ∀ round ∈ rounds, round.injected = none

theorem AtMost.nil (n : Nat) : AtMost n [] := ⟨Nat.zero_le n, by simp⟩

theorem AtMost.cons {n : Nat} {rounds rest : List Round} {round : Round}
    (h : rounds = round :: rest) (hinjected : round.injected = none) (hrest : AtMost n rest) :
    AtMost (n + 1) rounds := by
  subst h
  exact ⟨Nat.succ_le_succ hrest.1, List.forall_mem_cons.mpr ⟨hinjected, hrest.2⟩⟩

theorem Goes.countIterations
    (hl : List.Forall₂ (Watchful w.toOutside including) steps l.children)
    (hf : f.state.context.including = including) (total left i : Nat) (tally : Tally) :
    Goes w.toOutside l.numberedKeys (Exec.countIterations w.watched l total left i tally) f
      (Iterates w.toOutside l.strategy steps i tally fun _ => AtMost left) := by
  induction left generalizing i tally f with
  | zero => exact Goes.pure (Iterates.done (.nil _))
  | succ left ih =>
    refine Goes.simply (Goes.log _) fun g hg => ?_
    have hg' := hg.stack_nil.trans hf
    refine (Goes.round hl hg' none (fun _ _ => AtMost.nil left) fun tally g hg' => ?_).imp
      fun e events he => ?_
    · dsimp only
      -- there is a pause before every further iteration
      split
      · exact Goes.toIterations (Goes.pause l) hg' (fun _ => .nil _) fun _ g hg => ih hg _ _
      · exact ih hg' _ _
    · obtain ⟨rounds, hevents, ⟨round, rest, hrounds, hinjected, hrest⟩, h⟩ := he
      exact ⟨rounds, hevents, .cons hrounds hinjected hrest, h⟩

theorem Goes.countLoop
    (hl : List.Forall₂ (Watchful w.toOutside including) steps l.children)
    (hf : f.state.context.including = including) :
    Goes w.toOutside l.numberedKeys (Exec.countLoop w.watched l) f
      (Iterates w.toOutside l.strategy steps 1 {}
        (LoopMode.count.Gives f.state.context l.step)) := by
  unfold Exec.countLoop
  split
  · exact Goes.noIterations (.stopped _ _ _)
  · exact Goes.noIterations (.stopped _ _ _)
  · refine Goes.toIterations (Goes.quiet ((quietTie f).resolveValue _)) hf
      (.stopped _ _ _) fun v g hg => ?_
    refine Goes.ofExcept (fun total _ => ?_) fun fault hfault =>
      Iterates.stopped (Ending.mild_of (.countOf _) hfault) (.stopped _ _ _ _)
    refine Goes.simply (Goes.log _) fun g' hg' => ?_
    -- a count above the ceiling is cut to it, and is a fault only after the iterations
    have ceiling : ∀ {e : Except Stop Tally} {rounds : List Round},
        AtMost (min total countLoopCeiling) rounds →
        LoopMode.count.Gives f.state.context l.step e rounds := by
      intro e rounds h
      exact .of_allows (by simp) ⟨Nat.le_trans h.1 (Nat.min_le_right _ _), h.2⟩
    refine Goes.bind (Goes.countIterations hl (hg'.stack_nil.trans hg) total _ 1 {})
      (fun tally events g'' he _ => ?_) fun stop events he => ?_
    · obtain ⟨rounds, rfl, hmost, hclean, hrounds⟩ := he
      split
      · exact Goes.fail ⟨rounds, by simp, ceiling hmost, False.elim,
          hrounds.followed (Ending.mild_faulted rfl)⟩
      · exact Goes.pure ⟨rounds, by simp, ceiling hmost, hclean, hrounds⟩
    · exact he.imp fun _ => ceiling

/-! #### Sources -/

/-- Variables are injected. -/
theorem Goes.inject (data : Json.Members) :
    Goes o keys (Exec.extend w.watched data .session) f (Simply [.injected data]) := by
  have hstill := congrArg Context.still (RunState.extend_silent w.watched data .session f.state)
  have hrecords : (f.state.extend w.watched data .session).records.children =
        f.state.records.children ∧
      (f.state.extend w.watched data .session).records.opening = f.state.records.opening := by
    unfold RunState.extend
    split <;> exact ⟨rfl, rfl⟩
  have hnumbers : (f.state.extend w.watched data .session).context.iteration =
      f.state.context.iteration :=
    (congrArg Context.iteration (RunState.extend_silent w.watched data .session f.state) :)
  exact ⟨_, ⟨rfl, rfl⟩, .silent ⟨_, hstill, rfl⟩ rfl hnumbers hrecords.1 hrecords.2 rfl⟩

/-- Iterations before which certain variables are injected, one by one, until there are no more or
the loop is stopped. -/
def Injecting (injected : List Json.Members) (e : Except Stop Tally) (rounds : List Round) : Prop :=
  rounds.map Round.injected <+: injected.map some ∧
    (Completed e → rounds.length = injected.length)

theorem Injecting.stopped (injected : List Json.Members) {e : Except Stop Tally}
    (he : ¬ Completed e) : Injecting injected e [] :=
  ⟨List.nil_prefix, fun h => absurd h he⟩

theorem Injecting.cons {data : Json.Members} {injected : List Json.Members}
    {e : Except Stop Tally} {rounds rest : List Round} {round : Round}
    (h : rounds = round :: rest) (hinjected : round.injected = some data)
    (hrest : Injecting injected e rest) : Injecting (data :: injected) e rounds := by
  subst h
  refine ⟨?_, fun he => congrArg (· + 1) (hrest.2 he)⟩
  rw [List.map_cons, List.map_cons, hinjected]
  exact List.cons_prefix_cons.mpr ⟨rfl, hrest.1⟩

theorem Goes.sourceIterations
    (hl : List.Forall₂ (Watchful w.toOutside including) steps l.children)
    (hf : f.state.context.including = including) (injected : List Json.Members) (i : Nat)
    (tally : Tally) :
    Goes w.toOutside l.numberedKeys (Exec.sourceIterations w.watched l injected i tally) f
      (Iterates w.toOutside l.strategy steps i tally (Injecting injected)) := by
  induction injected generalizing i tally f with
  | nil => exact Goes.pure (Iterates.done ⟨List.nil_prefix, fun _ => rfl⟩)
  | cons data rest ih =>
    -- the injection is the first event of the round that comes after it
    refine Goes.simply (Goes.inject data) fun g hg => ?_
    have hg' := (hg.stack (by simp) (fun _ h => absurd h List.not_mem_nil)).trans hf
    refine (Goes.round hl hg' (some data) (fun _ => Injecting.stopped rest)
      fun tally g hg' => ?_).imp fun e events he => ?_
    · dsimp only
      split
      · exact Goes.toIterations (Goes.pause l) hg' (fun _ => .stopped rest id)
          fun _ g hg => ih hg _ _
      · exact ih hg' _ _
    · obtain ⟨rounds, hevents, ⟨round, others, hrounds, hinjected, hothers⟩, h⟩ := he
      exact ⟨rounds, hevents, .cons hrounds hinjected hothers, h⟩

/-- Resolving a value leaves lines in the trace and nothing else. -/
theorem Exec.resolveValue_ok {w : World ρ σ} {f g : Frame ρ σ} {declared found : Json.Value}
    (h : Exec.resolveValue w declared f = .ok found g) :
    g.state.context.lookup = f.state.context.lookup ∧
      (Placeholder.resolveValue f.state.context.lookup declared).out = found := by
  cases h
  exact ⟨(congrArg Context.lookup (RunState.logMissing_silent w _ f.state) :), rfl⟩

/-- What a loop goes through is what its step finds. -/
theorem Exec.source_eq {w : World ρ σ} {f g : Frame ρ σ} {step : StepFields} {v : Json.Value}
    (h : Exec.source w step f = .ok v g) : f.state.context.source step = some v := by
  unfold Exec.source at h
  cases hdeclared : step.loopIterable with
  -- a text that is no bare reference is the source itself
  | none =>
    rw [hdeclared] at h
    cases h
  | some declared =>
    rw [hdeclared] at h
    cases declared with
    | null => cases h
    | _ =>
      obtain ⟨found, f', hfound, h⟩ := Exec.bind_ok h
      obtain ⟨hlookup, hout⟩ := Exec.resolveValue_ok hfound
      unfold Context.source
      rw [hdeclared, Option.bind_some, hout]
      cases found with
      | string s =>
        dsimp only at h ⊢
        cases hbody : Placeholder.bareReference? s.toList with
        | none =>
          rw [hbody] at h
          cases h
          rfl
        | some body =>
          rw [hbody] at h
          -- a bare reference is looked up as it stands, and must not be missing
          change Exec.ofExcept (f'.state.context.valueOf (Placeholder.nameOf body)) f' =
            .ok v g at h
          unfold Context.valueOf at h
          rw [hlookup] at h
          split at h
          · cases h
          · split at h
            · next hv =>
              cases h
              exact hv
            · cases h
      | _ =>
        cases h
        rfl

/-- Going through a source that gives the variables of each iteration. -/
theorem Goes.source {mode : LoopMode} {opening : Context} {injected : List Json.Members}
    (hmode : mode = .iterable ∨ mode = .dict)
    (hinjected : opening.injections l.step mode = injected)
    (hl : List.Forall₂ (Watchful w.toOutside including) steps l.children)
    (hf : f.state.context.including = including) (line : String) :
    Goes w.toOutside l.numberedKeys
      (Exec.log w.watched line >>= fun _ => Exec.sourceIterations w.watched l injected 1 {}) f
      (Iterates w.toOutside l.strategy steps 1 {} (mode.Gives opening l.step)) := by
  subst hinjected
  refine Goes.simply (Goes.log _) fun g hg => ?_
  refine (Goes.sourceIterations hl (hg.stack_nil.trans hf) _ 1 {}).imp fun e events he => ?_
  refine he.imp fun rounds hgiven => ⟨?_, fun hcompleted _ => hgiven.2 hcompleted⟩
  rcases hmode with rfl | rfl <;> exact hgiven.1

theorem Goes.iterableLoop
    (hl : List.Forall₂ (Watchful w.toOutside including) steps l.children)
    (hf : f.state.context.including = including) :
    Goes w.toOutside l.numberedKeys (Exec.iterableLoop w.watched l) f
      (Iterates w.toOutside l.strategy steps 1 {}
        (LoopMode.iterable.Gives f.state.context l.step)) := by
  refine Goes.bind ((Goes.quiet ((quietTie f).source l.step)).gives
    (fun _ _ => Exec.source_eq) fun _ _ _ => trivial) (fun found events g he hg => ?_)
      fun stop events he => ?_
  · obtain ⟨⟨rfl, -⟩, hfound, -⟩ := he
    have hsource := hfound found rfl
    have hg' := hg.stack_nil.trans hf
    -- nothing to go through, something, or a source of the wrong kind
    split
    · refine Goes.simply (Goes.log _) fun _ _ => Goes.pure ?_
      refine Iterates.done ⟨.nil _ _ _, fun _ _ => ?_⟩
      simp [Context.injections, hsource]
    · exact Goes.source (.inl rfl) (by rw [Context.injections, hsource]) hl hg' _
    · exact Goes.noIterations (.stopped _ _ _)
    · exact Goes.noIterations (.stopped _ _ _)
  · obtain ⟨⟨rfl, hstop⟩, -⟩ := he
    exact Iterates.stopped hstop (.stopped _ _ _ _)

theorem Goes.dictLoop
    (hl : List.Forall₂ (Watchful w.toOutside including) steps l.children)
    (hf : f.state.context.including = including) :
    Goes w.toOutside l.numberedKeys (Exec.dictLoop w.watched l) f
      (Iterates w.toOutside l.strategy steps 1 {}
        (LoopMode.dict.Gives f.state.context l.step)) := by
  refine Goes.bind ((Goes.quiet ((quietTie f).source l.step)).gives
    (fun _ _ => Exec.source_eq) fun _ _ _ => trivial) (fun found events g he hg => ?_)
      fun stop events he => ?_
  · obtain ⟨⟨rfl, -⟩, hfound, -⟩ := he
    have hsource := hfound found rfl
    have hg' := hg.stack_nil.trans hf
    -- as for a list, but that there is one wrong kind only
    split
    · refine Goes.simply (Goes.log _) fun _ _ => Goes.pure ?_
      refine Iterates.done ⟨.nil _ _ _, fun _ _ => ?_⟩
      simp [Context.injections, hsource]
    · exact Goes.source (.inr rfl) (by rw [Context.injections, hsource]) hl hg' _
    · exact Goes.noIterations (.stopped _ _ _)
  · obtain ⟨⟨rfl, hstop⟩, -⟩ := he
    exact Iterates.stopped hstop (.stopped _ _ _ _)

/-! #### Predicates -/

theorem Goes.conditionIterations
    (hl : List.Forall₂ (Watchful w.toOutside including) steps l.children)
    (hf : f.state.context.including = including) (condition : Condition) (timeout : Binary64)
    (started : Instant) (left done : Nat) (tally : Tally) :
    Goes w.toOutside l.numberedKeys
      (Exec.conditionIterations w.watched l condition timeout started left done tally) f
      (Iterates w.toOutside l.strategy steps (done + 1) tally fun _ => AtMost left) := by
  induction left generalizing done tally f with
  | zero =>
    -- the ceiling is reached, which is a fault unless the time is up as well
    unfold Exec.conditionIterations
    refine Goes.toIterations (Goes.quiet ((quietTie f).timeIsUp _ fun _ => rfl)) hf
      (fun _ => .nil _) fun up g hg => ?_
    split
    · refine Goes.simply (Goes.log _) fun _ _ => Goes.pure ?_
      exact Iterates.done (.nil _)
    · exact Goes.fail (Iterates.stopped (Ending.mild_faulted rfl) (.nil _))
  | succ left ih =>
    unfold Exec.conditionIterations
    refine Goes.toIterations (Goes.quiet ((quietTie f).timeIsUp _ fun _ => rfl)) hf
      (fun _ => .nil _) fun up g hg => ?_
    split
    · refine Goes.simply (Goes.log _) fun _ _ => Goes.pure ?_
      exact Iterates.done (.nil _)
    · refine Goes.simply (Goes.log _) fun g' hg' => ?_
      refine (Goes.round hl (hg'.stack_nil.trans hg) none (fun _ _ => AtMost.nil left)
        fun tally g hg => ?_).imp fun e events he => ?_
      -- the predicate is looked at after the iteration, so there is at least one
      · refine Goes.toIterations (Goes.quiet ((quietTie g).stillHolds _ _)) hg
          (fun _ => .nil _) fun holds g' hg' => ?_
        split
        · exact Goes.toIterations (Goes.pause l) hg' (fun _ => .nil _) fun _ g hg => ih hg _ _
        · refine Goes.simply (Goes.log _) fun _ _ => Goes.pure ?_
          exact Iterates.done (.nil _)
      · obtain ⟨rounds, hevents, ⟨round, rest, hrounds, hinjected, hrest⟩, h⟩ := he
        exact ⟨rounds, hevents, .cons hrounds hinjected hrest, h⟩

theorem Goes.conditionLoop
    (hl : List.Forall₂ (Watchful w.toOutside including) steps l.children)
    (hf : f.state.context.including = including) :
    Goes w.toOutside l.numberedKeys (Exec.conditionLoop w.watched l) f
      (Iterates w.toOutside l.strategy steps 1 {}
        (LoopMode.condition.Gives f.state.context l.step)) := by
  refine Goes.ofExcept (fun condition _ => ?_) fun fault hfault =>
    Iterates.stopped (Ending.mild_of (.condition _) hfault) (.stopped _ _ _ _)
  dsimp only
  split
  · exact Goes.noIterations (.stopped _ _ _)
  · refine Goes.toIterations (Goes.quiet (quietTie _).clock) hf (.stopped _ _ _)
      fun started g hg => ?_
    refine (Goes.conditionIterations hl hg _ _ _ _ _ _).imp fun e events he => ?_
    exact he.imp fun rounds h => .of_allows (by simp) h

/-! ### The step -/

/-- A look at the context comes first. -/
theorem Goes.context {α : Type} {k : Context → Exec ρ (Watch σ) α}
    {P : Except Stop α → List Event → Prop} (h : Goes o keys (k f.state.context) f P) :
    Goes o keys (Exec.context >>= k) f P := by
  have hrun : (Exec.context >>= k) f = k f.state.context f := rfl
  unfold Goes at h ⊢
  rw [hrun]
  exact h

/-- A notice comes first; it leaves the context alone. -/
theorem Goes.noted {α : Type} {notice : Notice} {k : Unit → Exec ρ (Watch σ) α}
    {P : Except Stop α → List Event → Prop}
    (h : Goes o keys (k ()) (f.mapState (RunState.note w.watched notice)) P) :
    Goes o keys (Exec.note w.watched notice >>= k) f P := by
  have hnote : Reached o keys f [] (f.mapState (RunState.note w.watched notice)) :=
    .of_eq rfl rfl rfl rfl rfl
  have hrun : (Exec.note w.watched notice >>= k) f =
      k () (f.mapState (RunState.note w.watched notice)) := rfl
  unfold Goes at h ⊢
  rw [hrun]
  -- the events are those of what comes after
  cases hx : k () (f.mapState (RunState.note w.watched notice)) with
  | ok a g =>
    simp only [hx] at h
    obtain ⟨events, he, hg⟩ := h
    exact ⟨events, he, hnote.trans hg⟩
  | error stop g =>
    simp only [hx] at h
    obtain ⟨events, he, hg⟩ := h
    exact ⟨events, he, hnote.trans hg⟩

/-- A loop that finishes was not broken off, and none of its iterations failed. -/
theorem Exec.conclude_ok {tally : Tally} {u : Unit} (h : Exec.conclude tally f = .ok u g) :
    Spotless (.ok tally) := by
  obtain ⟨_, f', -, h⟩ := Exec.bind_ok h
  cases hbroken : tally.brokenAt with
  | some i =>
    rw [hbroken] at h
    cases h
  | none =>
    rw [hbroken] at h
    dsimp only at h
    split at h
    · next hfailed => exact ⟨hbroken, List.isEmpty_iff.mp hfailed⟩
    · cases h

/-- A loop numbers the steps that its step says. -/
theorem Loop.numberedKeys_eq {step : Step} {children : List (Ready ρ (Watch σ))}
    (h : List.Forall₂ (Watchful o including) (Step.ordered step.children) children)
    (strategy : LoopStrategy) (interval : Binary64) :
    (⟨step.toStepFields, children, strategy, interval⟩ : Loop ρ (Watch σ)).numberedKeys =
      step.numberedKeys := by
  have hkeys : ∀ {steps : List Step} {children : List (Ready ρ (Watch σ))},
      List.Forall₂ (Watchful o including) steps children →
      (children.map fun child => child.fields.key) = steps.map fun step => step.key := by
    intro steps children h
    induction h with
    | nil => rfl
    | cons hstep _ ih => rw [List.map_cons, List.map_cons, ih, hstep.fields]
  exact congrArg (step.key :: ·) (hkeys h)

/-- **A loop step** takes the course of a loop. -/
theorem Goes.loop {step : Step} {children : List (Ready ρ (Watch σ))}
    (h : List.Forall₂ (Watchful w.toOutside including) step.children children)
    (hf : f.state.context.including = including) (hkind : step.declaredKind = .ok .loop) :
    Goes w.toOutside step.numberedKeys (Exec.loop w.watched step.toStepFields children) f
      fun e events => Course w.toOutside step f.state.context events (Ending.of e) := by
  refine Goes.ofExcept (fun mode hmode => ?_)
    fun fault hfault => .idle (.flawed hkind (.inl hfault))
  refine Goes.ofExcept (fun strategy hstrategy => ?_) fun fault hfault =>
    .idle (.flawed hkind (.inr (.inl hfault)))
  refine Goes.context (Goes.ofExcept (fun interval _ => ?_) fun fault hfault =>
    .idle (.flawed hkind (.inr (.inr hfault))))
  refine Goes.noted ?_
  have hl : List.Forall₂ (Watchful w.toOutside including) (Step.ordered step.children)
      (Ready.ordered children) := Watchful.ordered h
  rw [← Loop.numberedKeys_eq hl strategy interval]
  refine Goes.bind (P := Iterates w.toOutside strategy (Step.ordered step.children) 1 {}
      (mode.Gives f.state.context step.toStepFields)) ?_ (fun tally events g he _ => ?_)
    fun stop events he => ?_
  · cases mode with
    | count => exact Goes.countLoop (l := ⟨_, _, strategy, interval⟩) hl hf
    | iterable => exact Goes.iterableLoop (l := ⟨_, _, strategy, interval⟩) hl hf
    | dict => exact Goes.dictLoop (l := ⟨_, _, strategy, interval⟩) hl hf
    | condition => exact Goes.conditionLoop (l := ⟨_, _, strategy, interval⟩) hl hf
  -- what is done after the iterations is quiet, so their events are those of the whole step
  · obtain ⟨rounds, rfl, ⟨hallowed, hexhausted⟩, hclean, hrounds⟩ := he
    refine ((Goes.quiet ((quietTie g).conclude tally)).gives
      (fun _ _ => Exec.conclude_ok) fun _ _ _ => trivial).imp fun e events he => ?_
    obtain ⟨⟨rfl, he⟩, hok, -⟩ := he
    rw [List.append_nil]
    refine .rounds hkind hmode hstrategy hallowed (fun hfinished => ?_) (hrounds.followed he)
    cases e with
    | ok u =>
      have hspotless := hok u rfl
      exact ⟨hexhausted hspotless.1, (hclean hspotless).2⟩
    | error stop => cases stop <;> cases hfinished
  · obtain ⟨rounds, rfl, ⟨hallowed, -⟩, -, hrounds⟩ := he
    refine .rounds hkind hmode hstrategy hallowed (fun hfinished => ?_) hrounds
    cases stop <;> cases hfinished

end Scenario
