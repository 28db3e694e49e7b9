import Scenario.Proofs.History.Reached

/-!
# Containers run steps

What a container does between two steps is quiet, and the steps themselves leave sound histories
behind; so the work of a container takes one of the courses of its kind.

* `Watchful` — what is known of a watched step that is ready: from every state with certain cases on
  the stack, it leaves a sound history behind.
* `Goes.runChildren` — steps that are run one after the other make a `Passage`.
* `Goes.group`, `Goes.branch`, `Goes.inclusion` — the containers that run each step once. An include
  step visits its case: `Goes.visit` asks for steps that are watchful with one case more on the
  stack.
-/

namespace Scenario

variable {ρ σ : Type} {o : Outside ρ} {including : List Int} {keys : List String}

/-! ### Steps that are watched -/

/-- The history of a step tells how its run ended, and the watch has put it behind the others. -/
def Told (h : History) (s : RunState ρ (Watch σ)) :
    EStateM.Result Crash (RunState ρ (Watch σ)) StepResult → Prop
  | .ok r s' => h.result = some r ∧ h.after = s'.context ∧
    s'.records.children = s.records.children ++ [h] ∧ s'.records.opening = s.records.opening
  | .error _ s' => h.result = none ∧ h.after = s'.context ∧
    s'.records.children = s.records.children ++ [h] ∧ s'.records.opening = s.records.opening

/-- **A watched step** that leaves a sound history behind. -/
structure Watchful (o : Outside ρ) (including : List Int) (step : Step)
    (child : Ready ρ (Watch σ)) : Prop where
  fields : step.toStepFields = child.fields
  run : ∀ s, s.context.including = including → ∃ h : History,
    h.step = step ∧ h.before = s.context ∧ h.Everywhere (History.Sound o) ∧ Told h s (child.run s)

/-- How a computation that runs steps ended, and what came of them. -/
inductive Came : Except Stop ChildrenOutcome → Option ChildrenOutcome → Prop
  | back (outcome : ChildrenOutcome) : Came (.ok outcome) (some outcome)
  | crashed (crash : Crash) : Came (.error (.crash crash)) none

variable {w : World ρ σ} {f g : Frame ρ (Watch σ)}

/-- Events by which no case is entered or left, and in which no step crashed, keep the stack. -/
theorem Reached.stack {events : List Event} (h : Reached o keys f events g)
    (hcases : ∀ id, .entered id ∉ events ∧ .left id ∉ events)
    (hresults : ∀ x ∈ Event.histories events, ∃ r, x.result = some r) :
    g.state.context.including = f.state.context.including := by
  -- a step that has a result has put the stack back
  refine h.follows.including hcases fun x hx => ?_
  obtain ⟨r, hr⟩ := hresults x hx
  exact (h.sound x hx).including hr

/-- Without events, the stack stays. -/
theorem Reached.stack_nil (h : Reached o keys f [] g) :
    g.state.context.including = f.state.context.including :=
  h.stack (by simp) (by simp)

theorem Goes.runChild {step : Step} {child : Ready ρ (Watch σ)}
    (h : Watchful o including step child) (hf : f.state.context.including = including) :
    Goes o keys (Exec.runChild child) f fun e events => ∃ x : History,
      x.step = step ∧ events = [.ran x] ∧
        ((∃ r, e = .ok r ∧ x.result = some r) ∨
          ∃ crash, e = .error (.crash crash) ∧ x.result = none) := by
  obtain ⟨x, hstep, hbefore, hsound, htold⟩ := h.run f.state hf
  -- the one event, in whichever state the step ended
  have reached : ∀ {s : RunState ρ (Watch σ)} {result : StepResult},
      x.after = s.context → s.records.children = f.state.records.children ++ [x] →
      s.records.opening = f.state.records.opening →
      result.toResultFields = f.result.toResultFields →
      result.children = f.result.children ++ x.result.toList →
      Reached o keys f [.ran x] ⟨s, result⟩ := by
    rintro s ⟨fields, children⟩ hafter hchildren hopening rfl rfl
    have hnumbers : Renumbers keys f.state.context.iteration [.ran x] s.context.iteration :=
      .ran (congrArg Context.iteration hbefore) (congrArg Context.iteration hafter)
    refine ⟨⟨s.context, ⟨by rw [hbefore], by rw [hafter]⟩, rfl⟩, hchildren, ?_, hopening, hnumbers,
      by simpa using hsound⟩
    cases hx : x.result <;> simp [hx, StepResult.bare, Event.iteration]
  unfold Goes Exec.runChild
  cases hrun : child.run f.state with
  | ok r s =>
    simp only [hrun, Told] at htold
    obtain ⟨hr, hafter, hchildren, hopening⟩ := htold
    exact ⟨[.ran x], ⟨x, hstep, rfl, .inl ⟨r, rfl, hr⟩⟩,
      reached hafter hchildren hopening rfl (by rw [hr]; rfl)⟩
  | error crash s =>
    simp only [hrun, Told] at htold
    obtain ⟨hr, hafter, hchildren, hopening⟩ := htold
    exact ⟨[.ran x], ⟨x, hstep, rfl, .inr ⟨crash, rfl, hr⟩⟩,
      reached hafter hchildren hopening rfl (by rw [hr]; simp)⟩

/-- **Steps run one after the other** make a passage. -/
theorem Goes.runChildren (halt : Bool) {steps : List Step} {children : List (Ready ρ (Watch σ))}
    (h : List.Forall₂ (Watchful o including) steps children)
    (hf : f.state.context.including = including) :
    Goes o keys (Exec.runChildren w.watched halt children) f fun e events => ∃ hs outcome,
      events = hs.map .ran ∧ Passage halt steps hs outcome ∧ Came e outcome := by
  -- by induction on the steps: each way to go on after a step is a constructor of `Passage`
  induction h generalizing f with
  | nil => exact Goes.pure ⟨[], some .passed, rfl, .done, .back _⟩
  | @cons step child steps children hstep _ ih =>
    refine Goes.bind (Goes.runChild hstep hf) (fun r events g he hg => ?_) fun stop events he => ?_
    · obtain ⟨x, rfl, rfl, hr⟩ := he
      obtain hr : x.result = some r := by
        rcases hr with ⟨_, hr, hx⟩ | ⟨_, hr, _⟩
        · cases hr
          exact hx
        · cases hr
      -- the step is left, so the next one starts with the same cases on the stack
      have hg' : g.state.context.including = including :=
        (hg.stack (by simp) (by simpa using ⟨r, hr⟩)).trans hf
      split
      · next ha =>
        refine Goes.simply (Goes.note _) fun _ _ => Goes.pure ?_
        exact ⟨[x], some .aborted, rfl, .aborted hr ha, .back _⟩
      · next ha =>
        obtain ha : r.aborted = false := by simpa using ha
        split
        · next hs =>
          refine (ih hg').imp fun e events he => ?_
          obtain ⟨hs', outcome, rfl, hpass, hcame⟩ := he
          exact ⟨x :: hs', outcome, rfl, .passed hr ha hs hpass, hcame⟩
        · next hs =>
          obtain hs : r.success = false := by simpa using hs
          split
          · next hhalt =>
            exact Goes.pure ⟨[x], some .failed, rfl, .halted hr ha hs hhalt, .back _⟩
          · next hhalt =>
            obtain hhalt : halt = false := by simpa using hhalt
            -- the failure is taken over into what comes of the rest, if the rest comes back
            refine Goes.bind (ih hg') (fun outcome events g' he _ => ?_) fun stop events he => ?_
            · obtain ⟨hs', _, rfl, hpass, hcame⟩ := he
              cases hcame
              have hfailed := Passage.failed hr ha hs hhalt hpass
              cases outcome <;>
                exact Goes.pure ⟨x :: hs', _, by simp, hfailed, .back _⟩
            · obtain ⟨hs', _, rfl, hpass, hcame⟩ := he
              cases hcame
              exact ⟨x :: hs', _, rfl, .failed hr ha hs hhalt hpass, .crashed _⟩
    · obtain ⟨x, rfl, rfl, hr⟩ := he
      rcases hr with ⟨_, hr, _⟩ | ⟨crash, hr, hx⟩
      · cases hr
      · cases hr
        exact ⟨[x], none, rfl, .crashed hx, .crashed _⟩

/-! ### Containers -/

/-- What came of the steps below is how the work ends. -/
theorem Goes.settle (container : String) (outcome : ChildrenOutcome) :
    Goes o keys (Exec.settle container outcome) f fun e events =>
      events = [] ∧ Ending.of e = .ofOutcome container (some outcome) := by
  cases outcome with
  | passed => exact Goes.pure ⟨rfl, rfl⟩
  | failed => exact Goes.fail ⟨rfl, rfl⟩
  | aborted => exact Goes.fail ⟨rfl, rfl⟩

section

variable {step : Step} {children : List (Ready ρ (Watch σ))} {opening : Context}

/-- Steps in running order, each with the step that it makes ready. -/
theorem Watchful.ordered {steps : List Step}
    (h : List.Forall₂ (Watchful o including) steps children) :
    List.Forall₂ (Watchful o including) (Step.ordered steps) (Ready.ordered children) :=
  orderedBy_forall₂ (fun _ _ hstep => by rw [← hstep.fields]) h

/-- Running the children and taking over what came of them. -/
theorem Goes.pass (h : List.Forall₂ (Watchful o including) step.children children)
    (hf : f.state.context.including = including) {kind : StepKind}
    (hkind : step.declaredKind = .ok kind) (hplain : kind.IsPlain)
    (hholds : kind = .condition → opening.branches step.toStepFields = .ok true) :
    Goes o keys
      (Exec.runChildren w.watched false (Ready.ordered children) >>= Exec.settle kind.name) f
      fun e events => Course o step opening events (Ending.of e) := by
  refine Goes.bind (Goes.runChildren false (Watchful.ordered h) hf)
    (fun outcome events g he _ => ?_) fun stop events he => ?_
  -- the children have been run, and settling adds nothing to see
  · obtain ⟨hs, _, rfl, hpass, hcame⟩ := he
    cases hcame
    refine (Goes.settle kind.name outcome).imp fun e events he => ?_
    obtain ⟨rfl, he⟩ := he
    rw [List.append_nil, he]
    exact .pass hkind hplain hholds hpass
  -- they have stopped, which is how the step ends
  · obtain ⟨hs, _, rfl, hpass, hcame⟩ := he
    cases hcame
    exact .pass hkind hplain hholds hpass

theorem Goes.group (h : List.Forall₂ (Watchful o including) step.children children)
    (hf : f.state.context.including = including) {kind : StepKind}
    (hkind : step.declaredKind = .ok kind)
    (hplain : kind = .group ∨ kind = .tcp ∨ kind = .database) :
    Goes o keys (Exec.group w.watched kind children) f fun e events =>
      Course o step opening events (Ending.of e) := by
  have hholds : kind = .condition → opening.branches step.toStepFields = .ok true := by
    rintro rfl
    simp at hplain
  unfold Exec.group
  split
  · refine Goes.simply (Goes.log _) fun g hg => ?_
    exact Goes.pass h (hg.stack_nil.trans hf) hkind (.inr hplain) hholds
  · exact Goes.pass h hf hkind (.inr hplain) hholds

theorem Goes.branch (h : List.Forall₂ (Watchful w.toOutside including) step.children children)
    (hf : f.state.context.including = including) (hkind : step.declaredKind = .ok .condition) :
    Goes w.toOutside keys (Exec.branch w.watched step.toStepFields children) f fun e events =>
      Course w.toOutside step f.state.context events (Ending.of e) := by
  -- the predicate of the step is what it is in the context in which the step is opened
  have hbranches : ∀ {condition}, Condition.ofField step.conditions = .ok condition →
      f.state.context.branches step.toStepFields = f.state.context.decides condition := by
    intro condition hcondition
    rw [Context.branches, hcondition]
  refine Goes.ofExcept (fun condition hcondition => ?_) fun fault hfault => ?_
  · refine Goes.answers (Goes.quiet ((quietTie f).evaluate condition))
      (Exec.Answers.evaluate condition) (fun holds g hdecides hg => ?_) fun fault hfault => ?_
    · split
      · next htrue =>
        subst htrue
        refine Goes.simply (Goes.announce _) fun g' hg' => ?_
        exact Goes.pass (w := w) h (hg'.stack_nil.trans (hg.stack_nil.trans hf)) hkind (.inl rfl)
          fun _ => (hbranches hcondition).trans hdecides
      · next hfalse =>
        obtain rfl : holds = false := by simpa using hfalse
        refine (Goes.announce _).imp fun e events he => ?_
        obtain ⟨rfl, rfl⟩ := he
        exact .idle (.declined hkind ((hbranches hcondition).trans hdecides))
    · exact .idle (.undecided hkind ((hbranches hcondition).trans hfault))
  · exact .idle (.undecided hkind (by rw [Context.branches, hfault]))

/-! ### Inclusion -/

/-- What is known of the steps of the cases that may be included: they are watched with that case on
the stack, unless it was there before. -/
def WatchfulCases (o : Outside ρ) (including : List Int)
    (ready : List Step → List (Ready ρ (Watch σ))) : Prop :=
  ∀ id record, o.library.find? id = some record → id ∉ including →
    List.Forall₂ (Watchful o (including ++ [id])) record.steps (ready record.steps)

/-- A case that is not on the stack is entered. -/
theorem Goes.enter {id : Int} (hid : id ∉ f.state.context.including) :
    Goes o keys (Exec.enter id) f (Simply [.entered id]) := by
  unfold Goes
  rw [Exec.enter_eq_ok hid]
  exact ⟨_, ⟨rfl, rfl⟩, .silent ⟨_, ⟨hid, rfl⟩, rfl⟩ rfl rfl rfl rfl rfl⟩

/-- A case that is on the stack is refused. -/
theorem Goes.enter_refused {id : Int} (hid : id ∈ f.state.context.including) :
    Goes o keys (Exec.enter id) f fun e events => events = [] ∧ e = .error (.fault (.configuration
      (.circularInclusion (f.state.context.including ++ [id])))) := by
  unfold Goes
  rw [Exec.enter_eq_fault hid]
  exact ⟨[], ⟨rfl, rfl⟩, .refl _ _ f⟩

/-- The case on top of the stack is left. -/
theorem Goes.leave {id : Int} (hf : f.state.context.including = including ++ [id]) :
    Goes o keys (Exec.leave id) f (Simply [.left id]) := by
  unfold Goes
  rw [Exec.leave_eq_ok]
  have hleave := congrArg Context.still (Context.leave_concat hf)
  have hnumbers := congrArg Context.iteration (Context.leave_concat hf)
  exact ⟨_, ⟨rfl, rfl⟩,
    .silent ⟨{ f.state.context with including }, ⟨hf, rfl⟩, hleave⟩ rfl hnumbers rfl rfl rfl⟩

/-- **A visit of a case** that is not on the stack: it is entered, its steps make a passage, and
unless one of them crashed it is left. -/
theorem Goes.visit {id : Int} {steps : List Step} (hid : id ∉ including)
    (h : List.Forall₂ (Watchful o (including ++ [id])) steps children)
    (hf : f.state.context.including = including) (notice : Notice) (line : String) :
    Goes o keys (do
        Exec.enter id
        Exec.note w.watched notice
        Exec.log w.watched line
        let outcome ← Exec.runChildren w.watched false children
        Exec.leave id
        Exec.settle "included case" outcome) f fun e events => ∃ hs outcome,
      events = .entered id :: hs.map .ran ++ (if outcome.isSome then [.left id] else []) ∧
        Passage false steps hs outcome ∧ Ending.of e = .ofOutcome "included case" outcome := by
  refine Goes.simply (Goes.enter (hf.symm ▸ hid)) fun g₁ hg₁ => ?_
  refine Goes.simply (Goes.note _) fun g₂ hg₂ => Goes.simply (Goes.log _) fun g₃ hg₃ => ?_
  have hinside : g₃.state.context.including = including ++ [id] := by
    obtain ⟨inside, ⟨-, hentered⟩, hrest⟩ := hg₁.follows
    have hentered : inside.including = f.state.context.including ++ [id] :=
      (congrArg Context.including hentered :)
    have hlast : g₁.state.context.including = inside.including :=
      (congrArg Context.including (show g₁.state.context.still = inside.still from hrest) :)
    rw [hg₃.stack_nil, hg₂.stack_nil, hlast, hentered, hf]
  refine Goes.bind (Goes.runChildren false h hinside) (fun outcome events g₄ he hg₄ => ?_)
    fun stop events he => ?_
  · obtain ⟨hs, _, rfl, hpass, hcame⟩ := he
    cases hcame
    -- the steps of the case have left the stack as it was, so the case is still on top of it
    have hresults := hpass.results (Option.some_ne_none _)
    have hlast : g₄.state.context.including = including ++ [id] :=
      (hg₄.stack (by simp) (by simpa using hresults)).trans hinside
    refine Goes.simply (Goes.leave hlast) fun g₅ hg₅ => ?_
    refine (Goes.settle "included case" outcome).imp fun e events he => ?_
    obtain ⟨rfl, he⟩ := he
    exact ⟨hs, some outcome, by simp, hpass, he⟩
  · obtain ⟨hs, _, rfl, hpass, hcame⟩ := he
    cases hcame
    exact ⟨hs, none, by simp, hpass, rfl⟩

theorem Goes.inclusion {ready : List Step → List (Ready ρ (Watch σ))}
    (h : WatchfulCases w.toOutside including ready) (hf : f.state.context.including = including)
    (hkind : step.declaredKind = .ok .inclusion) :
    Goes w.toOutside keys (Exec.inclusion w.watched ready step.toStepFields) f fun e events =>
      Course w.toOutside step f.state.context events (Ending.of e) := by
  refine Goes.bind ((Goes.quiet ((quietTie f).includedCase step.toStepFields)).gives
    (Tie.includedCase_gives w.watched step.toStepFields f)
    fun _ _ => Exec.includedCase_refuses) (fun found events g he hg => ?_) fun stop events he => ?_
  · obtain ⟨⟨rfl, -⟩, hfound, -⟩ := he
    obtain ⟨hid, hrecord, hshared⟩ := hfound found rfl
    obtain ⟨id, record⟩ := found
    have hg' : g.state.context.including = including := hg.stack_nil.trans hf
    dsimp only at hid hrecord hshared ⊢
    split
    · next hsteps =>
      refine Goes.simply (Goes.log _) fun _ _ => (Goes.say _).imp fun e events he => ?_
      obtain ⟨rfl, rfl⟩ := he
      exact .idle (.empty hkind hid hrecord hshared (List.isEmpty_iff.mp hsteps))
    · next hsteps =>
      have hsteps : record.steps ≠ [] := fun h => hsteps (List.isEmpty_iff.mpr h)
      by_cases hmem : id ∈ including
      -- a case in which the step already is stops the step before it runs another one
      · refine Goes.bind (Goes.enter_refused (hg'.symm ▸ hmem)) (fun _ events g' he _ => ?_)
          fun stop events he => ?_
        · cases he.2
        · obtain ⟨rfl, he⟩ := he
          cases he
          rw [hg', ← hf]
          exact .idle (.refused hkind (.running hid hrecord hshared hsteps (hf.symm ▸ hmem)))
      · have hchildren := Watchful.ordered (h id record hrecord hmem)
        refine (Goes.visit hmem hchildren hg' _ _).imp fun e events he => ?_
        obtain ⟨hs, outcome, rfl, hpass, he⟩ := he
        rw [he]
        exact .visit hkind hid hrecord hshared hsteps hpass
  · obtain ⟨⟨rfl, -⟩, -, hstop⟩ := he
    obtain ⟨fault, rfl, hrefuses⟩ := hstop stop rfl
    exact .idle (.refused hkind hrefuses)

end

end Scenario
