import Scenario.Proofs.History.Rounds

/-!
# Histories are sound

The work of a step of any kind takes one of the courses of its kind, so the life of the step leaves
a sound history behind. By recursion over the steps, and over the cases that are left for the steps
of included cases, this holds of every step that is run.

* `Goes.work` — the work of a step of any kind.
* `Watchful.life` — the life of a step whose work is known.
* `Step.history_sound` — **soundness:** the history of every run of a step is sound, and so are all
  histories in it.
-/

namespace Scenario

variable {ρ σ : Type} {w : World ρ σ} {including : List Int}

/-! ### The work of a step -/

theorem Goes.work (step : Step) {f : Frame ρ (Watch σ)}
    {ready : List Step → List (Ready ρ (Watch σ))} {children : List (Ready ρ (Watch σ))}
    (hr : WatchfulCases w.toOutside including ready)
    (h : List.Forall₂ (Watchful w.toOutside including) step.children children)
    (hf : f.state.context.including = including) :
    Goes w.toOutside step.numberedKeys (workOf w.watched ready step.toStepFields children) f
      fun e events => Course w.toOutside step f.state.context events (Ending.of e) := by
  refine Goes.ofExcept (fun kind hkind => ?_) fun fault hfault => .idle (.kindless hfault)
  -- leaf steps run nothing
  have leaf : ∀ {m : Exec ρ (Watch σ) Unit}, kind.IsLeaf →
      Goes w.toOutside step.numberedKeys m f (Quietly w.toOutside) →
        Goes w.toOutside step.numberedKeys m f fun e events =>
        Course w.toOutside step f.state.context events (Ending.of e) := by
    intro m hleaf hm
    refine hm.imp fun e events he => ?_
    obtain ⟨rfl, he⟩ := he
    exact .idle (.leaf hkind hleaf he)
  have tie : Tie w.watched w.watched.toRecorder True (quietLink w step.numberedKeys f) := quietTie f
  cases kind with
  | http =>
    exact leaf (.inl rfl) (Goes.quiet (tie.within _ (tie.requestStep step.toStepFields)))
  | script =>
    exact leaf (.inr (.inl rfl)) (Goes.quiet (tie.scriptStep step.toStepFields))
  | wait => exact leaf (.inr (.inr rfl)) (Goes.quiet (tie.wait step.toStepFields))
  | condition => exact Goes.branch h hf hkind
  | loop => exact Goes.loop h hf hkind
  | inclusion => exact Goes.inclusion hr hf hkind
  | group => exact Goes.group h hf hkind (.inl rfl)
  | tcp => exact Goes.group h hf hkind (.inr (.inl rfl))
  | database => exact Goes.group h hf hkind (.inr (.inr rfl))

/-! ### The life of a step -/

namespace RunState

variable {s s' : RunState ρ (Watch σ)}

/-- Two states between which the watch has seen nothing. -/
def Unseen (s s' : RunState ρ (Watch σ)) : Prop :=
  s'.records.children = s.records.children ∧ s'.records.opening = s.records.opening ∧
    s'.records.closing = s.records.closing

theorem Unseen.rfl : s.Unseen s := ⟨Eq.refl _, Eq.refl _, Eq.refl _⟩

theorem Unseen.trans {s'' : RunState ρ (Watch σ)} (h : s.Unseen s') (h' : s'.Unseen s'') :
    s.Unseen s'' :=
  ⟨h'.1.trans h.1, h'.2.1.trans h.2.1, h'.2.2.trans h.2.2⟩

theorem unseen_logMissing (names : List String) (s : RunState ρ (Watch σ)) :
    s.Unseen (s.logMissing w.watched names) := by
  induction names generalizing s with
  | nil => exact .rfl
  | cons name rest ih => exact Unseen.trans ⟨rfl, rfl, rfl⟩ (ih (s.log w.watched _))

theorem unseen_enterStep (step : StepFields) (s : RunState ρ (Watch σ)) :
    s.Unseen (s.enterStep w.watched step) := by
  rw [enterStep_eq]
  exact unseen_logMissing (step.undeclared s.context)
    { s with context := { s.context with key := some step.key } }

theorem unseen_extend (data : Json.Members) (scope : Scope) (s : RunState ρ (Watch σ)) :
    s.Unseen (s.extend w.watched data scope) := by
  unfold extend
  split <;> exact ⟨rfl, rfl, rfl⟩

theorem unseen_recordDetail (step : StepFields) (result : StepResult) (started : Instant)
    (s : RunState ρ (Watch σ)) : s.Unseen (s.recordDetail w.watched step result started) := by
  unfold recordDetail
  split
  · exact .rfl
  · split <;> next h =>
    have hrecords := congrArg Prod.snd h
    dsimp only at hrecords
    subst hrecords
    exact ⟨rfl, rfl, rfl⟩

end RunState

theorem unseen_concludeStep (step : StepFields) (before : Context) (started : Instant)
    (frame : Frame ρ (Watch σ)) :
    frame.state.Unseen (concludeStep w.watched step before started frame).2 :=
  (RunState.unseen_extend frame.result.extracted .session frame.state).trans
    (RunState.unseen_recordDetail (w := w) step _ started _)

/-- The frame in which the work of a step starts. -/
def openingFrame (w : World ρ σ) (step : StepFields) (s : RunState ρ (Watch σ)) :
    Frame ρ (Watch σ) :=
  ⟨(s.enterStep w.watched step).opened,
    { StepResult.of step with iteration := s.context.iteration step.key }⟩

/-- The work of a step ended in the frame `g`, and the step is left from the frame `g'`: its fault,
if there is one, has been recorded. -/
structure LeftFrom (g : Frame ρ (Watch σ)) (ending : Ending) (g' : Frame ρ (Watch σ)) : Prop where
  context : g'.state.context.silent = g.state.context.silent
  unseen : g.state.closed.Unseen g'.state
  result : g'.result = ending.fault?.elim g.result g.result.failed

section

variable {o : Outside ρ} {step : Step} {s : RunState ρ (Watch σ)} {g g' : Frame ρ (Watch σ)}
variable {events : List Event} {ending : Ending}

theorem LeftFrom.finished (g : Frame ρ (Watch σ)) :
    LeftFrom g .finished (g.mapState RunState.closed) :=
  ⟨rfl, .rfl, rfl⟩

theorem LeftFrom.faulted (g : Frame ρ (Watch σ)) (fault : Fault) :
    LeftFrom g (.faulted fault) (recordFault w.watched fault (g.mapState RunState.closed)) :=
  ⟨rfl, ⟨rfl, rfl, rfl⟩, rfl⟩

/-- What the result of a step becomes when the step is left. -/
theorem LeftFrom.bare
    (hg : Reached o step.numberedKeys (openingFrame w step.toStepFields s) events g)
    (hleft : LeftFrom g ending g') (hne : ending ≠ .crashed) :
    g'.result.bare = { StepResult.of step.toStepFields with
      success := ending.fault?.isNone
      aborted := ending.aborts
      error := ending.fault?.map Fault.message
      iteration := Event.iteration (s.context.iteration step.key) events
      children := (Event.histories events).filterMap History.result } := by
  rw [hleft.result]
  cases ending with
  | finished => exact hg.result
  | faulted fault =>
    -- the fault is written into a result that has no fault yet
    have haborted : g.result.aborted = false :=
      (congrArg (fun r : StepResult => r.aborted) hg.result :)
    change { g.result.bare with
      success := false, aborted := g.result.aborted || fault.isAbort,
      error := some fault.message } = _
    rw [haborted, hg.result]
    rfl
  | crashed => exact absurd rfl hne

theorem openingFrame_still : (openingFrame w step.toStepFields s).state.context.still =
    { s.context.still with
      key := some step.key
      defined := s.context.inForce step.toStepFields } :=
  (congrArg Context.still (RunState.enterStep_silent w.watched step.toStepFields s) :)

theorem openingFrame_iteration :
    (openingFrame w step.toStepFields s).state.context.iteration = s.context.iteration :=
  (congrArg Context.iteration (RunState.enterStep_silent w.watched step.toStepFields s) :)

theorem openingFrame_extract : (openingFrame w step.toStepFields s).state.context.extract = [] :=
  (congrArg Context.extract (RunState.enterStep_silent w.watched step.toStepFields s) :)

/-- What the watch has seen when the step is left is what the work has made. -/
theorem Reached.seen
    (hg : Reached o step.numberedKeys (openingFrame w step.toStepFields s) events g)
    (hs : s.records.children = []) {s' : RunState ρ (Watch σ)} (h : g.state.closed.Unseen s') :
    s'.records.children = Event.histories events ∧
      s'.records.opening = (openingFrame w step.toStepFields s).state.context ∧
      s'.records.closing = g.state.context := by
  -- entering the step has run nothing, so the watch has seen the histories of the work alone
  have hempty : (openingFrame w step.toStepFields s).state.records.children = [] :=
    (RunState.unseen_enterStep (w := w) step.toStepFields s).1.trans hs
  refine ⟨h.1.trans (hg.histories.trans ?_), h.2.1.trans hg.opening, h.2.2⟩
  rw [hempty, List.nil_append]

/-- **Leaving a step:** its result and its last context are what the end of its work makes of them.
-/
theorem LeftFrom.concluded
    (hg : Reached o step.numberedKeys (openingFrame w step.toStepFields s) events g)
    (hs : s.records.children = []) (hleft : LeftFrom g ending g') (hne : ending ≠ .crashed)
    (started : Instant) :
    let left := concludeStep w.watched step.toStepFields s.context started g'
    (History.ended step s.context (.ok left.1 left.2)).Concluded events ending left.1 := by
  intro left
  -- leaving changes the context; recording a fault before has changed nothing but the trace
  have hleave : left.2.context.silent =
      { (g'.state.context.extend g'.result.extracted .session).silent with
        key := s.context.key, defined := s.context.defined, extract := s.context.extract } :=
    concludeStep_silent w.watched step.toStepFields s.context started g'
  obtain ⟨hchildren, -, hclosing⟩ := hg.seen hs
    (hleft.unseen.trans (unseen_concludeStep (w := w) step.toStepFields s.context started g'))
  have hg' : g'.state.context.still = g.state.context.still :=
    (congrArg Context.still hleft.context :)
  have hsession : g'.state.context.session = g.state.context.session :=
    (congrArg Context.session hleft.context :)
  exact {
    ended := hne
    result := by
      change g'.result.bare = { StepResult.of step.toStepFields with
        success := ending.fault?.isNone
        aborted := ending.aborts
        error := ending.fault?.map Fault.message
        iteration := Event.iteration (s.context.iteration step.key) events
        children := left.2.records.children.filterMap History.result }
      rw [hchildren]
      exact hleft.bare hg hne
    after := by
      change left.2.context.still = { left.2.records.closing.still with
        key := s.context.key
        defined := s.context.defined
        session := Keyed.extend left.2.records.closing.session g'.result.extracted }
      rw [hclosing, ← hg', ← hsession]
      exact (congrArg Context.still hleave :)
    extract := (congrArg Context.extract hleave :) }

/-- Leaving a step leaves the numbers of iterations as they are. -/
theorem LeftFrom.iteration (hleft : LeftFrom g ending g') (started : Instant) :
    (concludeStep w.watched step.toStepFields s.context started g').2.context.iteration =
      g.state.context.iteration := by
  have hleave := congrArg Context.iteration
    (concludeStep_silent w.watched step.toStepFields s.context started g')
  have hended := congrArg Context.iteration hleft.context
  exact Eq.trans hleave hended

/-- The history of a step whose work took a course, from the state in which the run of the step
ended. -/
theorem Reached.sound_ended
    (hg : Reached o step.numberedKeys (openingFrame w step.toStepFields s) events g)
    (hs : s.records.children = [])
    (hcourse : Course o step (openingFrame w step.toStepFields s).state.context events ending)
    {ended : EStateM.Result Crash (RunState ρ (Watch σ)) StepResult} {s' : RunState ρ (Watch σ)}
    (hstate : (∃ r, ended = .ok r s') ∨ ∃ crash, ended = .error crash s')
    (hunseen : g.state.closed.Unseen s')
    (hnumbers : s'.context.iteration = g.state.context.iteration)
    (hconcluded : ∀ r, (History.ended step s.context ended).result = some r →
      (History.ended step s.context ended).Concluded events ending r)
    (hbroken : (History.ended step s.context ended).result = none → s'.context = g.state.context) :
    (History.ended step s.context ended).Everywhere (History.Sound o) := by
  obtain ⟨hchildren, hopening, hclosing⟩ := hg.seen hs hunseen
  -- the history shows the last state of the run, whether it is left with a result or by a crash
  have hedges : (History.ended step s.context ended).step = step ∧
      (History.ended step s.context ended).before = s.context ∧
      (History.ended step s.context ended).opening = s'.records.opening ∧
      (History.ended step s.context ended).closing = s'.records.closing ∧
      (History.ended step s.context ended).after = s'.context ∧
      (History.ended step s.context ended).children = s'.records.children := by
    rcases hstate with ⟨_, rfl⟩ | ⟨_, rfl⟩ <;> exact ⟨rfl, rfl, rfl, rfl, rfl, rfl⟩
  generalize History.ended step s.context ended = h at *
  obtain ⟨hstep, hbefore, ho, hc, ha, hh⟩ := hedges
  rw [hopening] at ho
  rw [hclosing] at hc
  rw [hchildren] at hh
  refine .intro ⟨?_, ?_, ⟨events, ending, ?_, ?_, hh.symm, ?_, hconcluded⟩, fun hnone => ?_⟩ ?_
  · rw [ho, hbefore, hstep]
    exact openingFrame_still
  · rw [ho]
    exact openingFrame_extract
  · rw [ho, hstep]
    exact hcourse
  · rw [ho, hc]
    exact hg.follows
  · have hstart : (openingFrame w step.toStepFields s).state.context.iteration =
        s.context.iteration := openingFrame_iteration
    rw [hstep, hbefore, ha, hnumbers, ← hstart]
    exact hg.numbers
  · rw [ha, hc]
    exact hbroken hnone
  · rw [hh]
    exact hg.sound

/-- How a step is left whose work has ended. -/
def leave (w : World ρ σ) (step : StepFields) (s : RunState ρ (Watch σ)) :
    EStateM.Result Stop (Frame ρ (Watch σ)) Unit →
      EStateM.Result Crash (RunState ρ (Watch σ)) StepResult
  | .ok () g =>
    let left := concludeStep w.watched step s.context (w.now s.outside) (g.mapState RunState.closed)
    .ok left.1 left.2
  | .error (.fault fault) g =>
    let left := concludeStep w.watched step s.context (w.now s.outside)
      (recordFault w.watched fault (g.mapState RunState.closed))
    .ok left.1 left.2
  | .error (.crash crash) g => .error crash g.state.closed

theorem runStep_watched (work : Exec ρ (Watch σ) Unit) (fields : StepFields) :
    runStep w.watched fields work.watched s =
      leave w fields s (work (openingFrame w fields s)) := by
  have hframe : Frame.mapState RunState.opened ⟨s.enterStep w.watched fields,
      { StepResult.of fields with iteration := s.context.iteration fields.key }⟩ =
      openingFrame w fields s := rfl
  unfold runStep Exec.watched
  dsimp only
  rw [hframe]
  cases work (openingFrame w fields s) with
  | ok _ g => rfl
  | error stop g => cases stop <;> rfl

/-- **The life of a step** leaves a sound history behind, if its work takes a course. -/
theorem History.life_sound {work : Exec ρ (Watch σ) Unit}
    (hwork : Goes o step.numberedKeys work (openingFrame w step.toStepFields s) fun e events =>
      Course o step (openingFrame w step.toStepFields s).state.context events (Ending.of e))
    (hs : s.records.children = []) :
    (History.ended step s.context
      (runStep w.watched step.toStepFields work.watched s)).Everywhere (History.Sound o) := by
  -- a step that is left has concluded
  have left : ∀ {g g' : Frame ρ (Watch σ)} {events ending}, s.records.children = [] →
      Reached o step.numberedKeys (openingFrame w step.toStepFields s) events g →
      Course o step (openingFrame w step.toStepFields s).state.context events ending →
      LeftFrom g ending g' → ending ≠ .crashed →
      let left := concludeStep w.watched step.toStepFields s.context (w.now s.outside) g'
      (History.ended step s.context (.ok left.1 left.2)).Everywhere (History.Sound o) := by
    intro g g' events ending hs hg hcourse hleft hne
    refine hg.sound_ended hs hcourse (.inl ⟨_, rfl⟩)
      (hleft.unseen.trans (unseen_concludeStep (w := w) step.toStepFields s.context _ g'))
      (hleft.iteration _) ?_ (by rintro ⟨⟩)
    rintro _ ⟨⟩
    exact hleft.concluded hg hs hne _
  unfold Goes at hwork
  rw [runStep_watched]
  cases hx : work (openingFrame w step.toStepFields s) with
  | ok _ g =>
    simp only [hx] at hwork
    obtain ⟨events, hcourse, hg⟩ := hwork
    exact left hs hg hcourse (.finished g) (by rintro ⟨⟩)
  | error stop g =>
    simp only [hx] at hwork
    obtain ⟨events, hcourse, hg⟩ := hwork
    cases stop with
    | fault fault => exact left hs hg hcourse (.faulted g fault) (by rintro ⟨⟩)
    | crash crash =>
      exact hg.sound_ended hs hcourse (.inr ⟨crash, rfl⟩) .rfl rfl (by rintro _ ⟨⟩) fun _ => rfl

/-- What the watch says of a run. -/
theorem watchRun_told (step : Step) (run : EStateM Crash (RunState ρ (Watch σ)) StepResult)
    (s : RunState ρ (Watch σ)) :
    Told (History.ended step s.context (run s.fresh)) s (watchRun step run s) := by
  unfold watchRun
  dsimp only
  cases run s.fresh <;> exact ⟨rfl, rfl, rfl, rfl⟩

theorem Watchful.life (step : Step) {work : Exec ρ (Watch σ) Unit}
    (hwork : ∀ f, f.state.context.including = including → Goes o step.numberedKeys work f
      fun e events => Course o step f.state.context events (Ending.of e)) :
    Watchful o including step
      ⟨step.toStepFields, watchRun step (runStep w.watched step.toStepFields work.watched)⟩ where
  fields := rfl
  run s hs := by
    -- entering a step leaves the stack to its work
    have hf : (openingFrame w step.toStepFields s.fresh).state.context.including = including :=
      (congrArg Context.including
        (RunState.enterStep_silent w.watched step.toStepFields s.fresh) :).trans hs
    refine ⟨_, ?_, ?_, History.life_sound (hwork _ hf) rfl, watchRun_told step _ s⟩ <;>
      cases runStep w.watched step.toStepFields work.watched s.fresh <;> rfl

end

/-! ### Recursion over the steps and over the cases that are left -/

mutual

theorem Watchful.step {ready : List Step → List (Ready ρ (Watch σ))}
    (hr : WatchfulCases w.toOutside including ready) :
    ∀ step : Step, Watchful w.toOutside including step (step.watched w ready)
  | ⟨fields, children⟩ => Watchful.life ⟨fields, children⟩ fun _ hf =>
    Goes.work ⟨fields, children⟩ hr (Watchful.steps hr children) hf

theorem Watchful.steps {ready : List Step → List (Ready ρ (Watch σ))}
    (hr : WatchfulCases w.toOutside including ready) : ∀ steps : List Step,
    List.Forall₂ (Watchful w.toOutside including) steps (Step.watchedAll w ready steps)
  | [] => .nil
  | step :: rest => .cons (Watchful.step hr step) (Watchful.steps hr rest)

end

variable (w)

theorem watchedSteps_watchful (including : List Int) {depth : Nat}
    (hd : (w.library.left including).length ≤ depth) :
    WatchfulCases w.toOutside including (watchedSteps w depth) := by
  induction including using w.library.left_induction generalizing depth with
  | _ including ih =>
    intro id record hrecord hid
    have hloadable := Library.mem_loadable_of_find? hrecord
    have hleft := Library.length_left_concat hloadable hid
    -- at the bottom there is no case left that could be entered
    obtain ⟨d, rfl⟩ : ∃ d, depth = d + 1 := ⟨depth - 1, by omega⟩
    exact Watchful.steps (ih id hloadable hid (by omega)) record.steps

/-- **Soundness:** the history of every run of a step is sound, with all histories in it. -/
theorem Step.history_sound (step : Step) (s : RunState ρ σ) :
    (step.history w s).Everywhere (History.Sound w.toOutside) := by
  have hcases := watchedSteps_watchful w s.context.including (w.library.length_left_le _)
  have hf : (openingFrame w step.toStepFields s.watching).state.context.including =
      s.context.including :=
    (congrArg Context.including
      (RunState.enterStep_silent w.watched step.toStepFields s.watching) :)
  exact History.life_sound (Goes.work step hcases (Watchful.steps hcases step.children) hf) rfl

@[simp] theorem Step.history_before (step : Step) (s : RunState ρ σ) :
    (step.history w s).before = s.context := by
  unfold Step.history
  cases step.watchedLife w (watchedSteps w w.library.length) s.watching <;> rfl

end Scenario
