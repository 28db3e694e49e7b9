import Scenario.Proofs.History.Kept
import Scenario.Proofs.Kin.Steps

/-!
# The turns of a loop

All loops run alike: iteration by iteration, each from a frame in which its turn comes to the frame
in which its children have ended. What came of the children says whether the loop goes on; what
happens between two turns, and when there are no more, depends on the mode.

* `Loop.turn` — an iteration that is entered in a frame. `Exec.iterate_goesOn`,
  `Exec.iterate_cut` — what the loop makes of it.
* `Loop.Turns` — the turns of a loop, one after the other.
* `Frame.Onward` — what may happen between two turns: a pause, and variables that are injected.
  Neither the results of the steps nor anything else in the context changes, but for the trace.
* `Exec.pause_onward` — a pause is never refused, because no step changes the settings
  (`Step.run_settings`) under which the interval was accepted.
* `Loop.Went` — how the iterations come to an end: the loop went on after each turn, and the mode
  says that there are no more, or the last turn has cut it off. `Loop.Went.pausing` — the first
  iteration of a loop that pauses between two of them, and the rest of it.
* `Ran` — the run of a step whose work ended in a certain way, in a certain frame.
  `Step.ran_loop` — a loop step is such a run. `Step.ran_turns` — so it is told by its turns: the
  modes only have to say how their iterations come to an end.
-/

namespace Scenario

variable {ρ σ : Type}

/-! ### One turn -/

/-- **An iteration of a loop.** -/
structure Turn (ρ σ : Type) where
  /-- When its turn comes. -/
  entry : Frame ρ σ
  /-- What came of the children; nothing comes of them in a crash. -/
  outcome : Option ChildrenOutcome
  /-- When the children have ended and a failure of theirs has been noted. -/
  stop : Frame ρ σ

/-- The results of the children. -/
def Turn.results (t : Turn ρ σ) : List StepResult :=
  t.stop.result.children.drop t.entry.result.children.length

namespace Loop

/-- The number of an iteration is set for the loop and for its children. -/
def numbering (l : Loop ρ σ) (i : Nat) (ctx : Context) : Context :=
  l.children.foldl (fun ctx child => ctx.setIteration child.fields.key i)
    (ctx.setIteration l.step.key i)

/-- The frame in which the children of iteration `i` start. -/
def numbered (l : Loop ρ σ) (i : Nat) (f : Frame ρ σ) : Frame ρ σ :=
  (f.mapContext (l.numbering i)).mapResult fun r => { r with iteration := i }

/-- What the loop does about an iteration in which a child has failed. -/
def noted (w : World ρ σ) (l : Loop ρ σ) (i : Nat) (f : Frame ρ σ) : Frame ρ σ :=
  match l.strategy with
  | .continue =>
    f.mapState (RunState.log w ("iteration " ++ toString i ++ " failed, continuing"))
  | .break =>
    f.mapState (RunState.log w ("iteration " ++ toString i ++ " failed, breaking the loop"))
  | .stop => f

/-- **Iteration `i`,** entered in a frame. -/
def turn (w : World ρ σ) (l : Loop ρ σ) (i : Nat) (f : Frame ρ σ) : Turn ρ σ :=
  match Exec.runChildren w (l.strategy ≠ .continue) l.children (l.numbered i f) with
  | .ok .failed g => ⟨f, some .failed, l.noted w i g⟩
  | .ok outcome g => ⟨f, some outcome, g⟩
  | .error _ g => ⟨f, none, g⟩

/-- Seconds to pause between two turns, if there is a pause. -/
def rest (l : Loop ρ σ) : Option Binary64 :=
  if Binary64.lt (.zero false) l.interval then some l.interval else none

end Loop

/-- How the work of a loop ends at iteration `i`, if the loop does not go on after it. -/
def LoopStrategy.endsAt (strategy : LoopStrategy) (i : Nat) (outcome : Option ChildrenOutcome) :
    Ending :=
  match outcome, strategy with
  | none, _ => .crashed
  | some .aborted, _ => .faulted (.aborted (.insideIteration i))
  | some .failed, .stop => .faulted (.aborted (.failedIteration i))
  | some .failed, .break => .faulted (.execution (.loopBroken i))
  | _, _ => .finished

namespace Exec

variable {w : World ρ σ} {α β : Type}

/-- A computation comes first. -/
theorem bind_eq_ok {m : Exec ρ σ α} {k : α → Exec ρ σ β} {f g : Frame ρ σ} {a : α}
    (h : m f = .ok a g) : (m >>= k) f = k a g := by
  change EStateM.bind m k f = _
  unfold EStateM.bind
  rw [h]

/-- A computation that stops is the last one. -/
theorem bind_eq_error {m : Exec ρ σ α} {k : α → Exec ρ σ β} {f g : Frame ρ σ} {stop : Stop}
    (h : m f = .error stop g) : (m >>= k) f = .error stop g := by
  change EStateM.bind m k f = _
  unfold EStateM.bind
  rw [h]

variable {l : Loop ρ σ} {i : Nat} {f : Frame ρ σ} {tally : Tally}

/-- The children of an iteration, and what the loop makes of them. -/
theorem iterate_eq : iterate w l i tally f =
    match runChildren w (l.strategy ≠ .continue) l.children (l.numbered i f) with
    | .ok .passed g => .ok { tally with executed := i } g
    | .ok .failed g =>
      match l.strategy with
      | .continue => .ok { tally with executed := i, failed := tally.failed ++ [i] } (l.noted w i g)
      | .break => .ok ⟨i, tally.failed ++ [i], some i⟩ (l.noted w i g)
      | .stop => .error (.fault (.aborted (.failedIteration i))) (l.noted w i g)
    | .ok .aborted g => .error (.fault (.aborted (.insideIteration i))) g
    | .error stop g => .error stop g := by
  change EStateM.bind (runChildren w (l.strategy ≠ .continue) l.children) _ (l.numbered i f) = _
  unfold EStateM.bind Loop.noted
  cases runChildren w (l.strategy ≠ .continue) l.children (l.numbered i f) with
  | error stop g => rfl
  | ok outcome g =>
    cases outcome with
    | failed => cases l.strategy <;> rfl
    | _ => rfl

/-- **A loop that goes on** keeps count of its iterations and of those that failed. -/
theorem iterate_goesOn (h : l.strategy.GoesOn (l.turn w i f).outcome) :
    iterate w l i tally f = .ok { tally with
      executed := i
      failed := tally.failed ++ if (l.turn w i f).outcome = some .failed then [i] else [] }
        (l.turn w i f).stop := by
  rw [iterate_eq]
  unfold Loop.turn at h ⊢
  generalize runChildren w (l.strategy ≠ .continue) l.children (l.numbered i f) = x at h ⊢
  rcases x with ⟨_ | _ | _, g⟩ | ⟨stop, g⟩
  · simp
  · obtain hpassed | ⟨-, hcontinue⟩ := h
    · cases hpassed
    · rw [hcontinue]
      rfl
  · simp [LoopStrategy.GoesOn] at h
  · simp [LoopStrategy.GoesOn] at h

/-- What is left of the iterations when the loop does not go on after a turn: nothing, or the tally
of a loop that was broken. -/
inductive Cut (l : Loop ρ σ) (i : Nat) (t : Turn ρ σ) :
    EStateM.Result Stop (Frame ρ σ) Tally → Prop
  | broken {tally : Tally} : l.strategy = .break → t.outcome = some .failed →
    tally.brokenAt = some i → Cut l i t (.ok tally t.stop)
  | ended {stop : Stop} : Ending.ofStop stop = l.strategy.endsAt i t.outcome →
    Cut l i t (.error stop t.stop)

/-- **A loop that does not go on.** -/
theorem iterate_cut (h : ¬ l.strategy.GoesOn (l.turn w i f).outcome) :
    Cut l i (l.turn w i f) (iterate w l i tally f) := by
  have hfaultless := Faultless.runChildren w (l.strategy ≠ .continue) l.children (l.numbered i f)
  rw [iterate_eq]
  unfold Loop.turn at h ⊢
  generalize runChildren w (l.strategy ≠ .continue) l.children (l.numbered i f) = x
    at h hfaultless ⊢
  rcases x with ⟨_ | _ | _, g⟩ | ⟨_ | _, g⟩
  · simp [LoopStrategy.GoesOn] at h
  · dsimp only at h ⊢
    cases hstrategy : l.strategy with
    | «continue» => simp [LoopStrategy.GoesOn, hstrategy] at h
    | «break» => exact .broken hstrategy rfl rfl
    | stop => exact .ended (by rw [hstrategy]; rfl)
  · exact .ended rfl
  · exact absurd rfl (hfaultless _ _)
  · exact .ended rfl

end Exec

/-! ### What children cannot change -/

/-- A computation that, however it ends, takes each frame to a related one. -/
def Exec.Moves {α : Type} (R : Frame ρ σ → Frame ρ σ → Prop) (m : Exec ρ σ α) : Prop :=
  ∀ f, R f (endState (m f))

namespace Exec.Moves

variable {α β : Type} {R : Frame ρ σ → Frame ρ σ → Prop} {m : Exec ρ σ α} {k : α → Exec ρ σ β}

theorem bind (htrans : ∀ {f g h}, R f g → R g h → R f h) (hm : m.Moves R)
    (hk : ∀ a, (k a).Moves R) : (m >>= k).Moves R := by
  intro f
  have hfirst := hm f
  cases hx : m f with
  | ok a g =>
    rw [bind_eq_ok hx]
    rw [hx] at hfirst
    exact htrans hfirst (hk a g)
  | error stop g =>
    rw [bind_eq_error hx]
    rwa [hx] at hfirst

/-- What each child does to a frame, and a notice does, the children do together. -/
theorem runChildren (w : World ρ σ) (halt : Bool) {children : List (Ready ρ σ)}
    (hrefl : ∀ f, R f f) (htrans : ∀ {f g h}, R f g → R g h → R f h)
    (hnote : ∀ f n, R f (f.mapState (RunState.note w n)))
    (hchild : ∀ c ∈ children, (runChild c).Moves R) :
    (Exec.runChildren w halt children).Moves R := by
  induction children with
  | nil => exact fun f => hrefl f
  | cons c rest ih =>
    obtain ⟨hc, hrest⟩ := List.forall_mem_cons.mp hchild
    refine bind htrans hc fun r => ?_
    split
    · exact fun f => hnote f _
    · split
      · exact ih hrest
      · split
        · exact fun f => hrefl f
        · refine bind htrans (ih hrest) fun outcome => ?_
          cases outcome <;> exact fun f => hrefl f

end Exec.Moves

/-- A result with more results below it. -/
def StepResult.adding (r : StepResult) (results : List StepResult) : StepResult :=
  { r with children := r.children ++ results }

/-- A result in an iteration of the loop. -/
def StepResult.numbered (r : StepResult) (i : Nat) : StepResult := { r with iteration := i }

theorem StepResult.numbered_self (r : StepResult) : r.numbered r.iteration = r := by
  obtain ⟨fields, children⟩ := r
  rfl

theorem StepResult.adding_nil (r : StepResult) : r.adding [] = r := by
  obtain ⟨fields, children⟩ := r
  exact congrArg (StepResult.mk fields) (List.append_nil children)

theorem StepResult.adding_adding (r : StepResult) (results results' : List StepResult) :
    (r.adding results).adding results' = r.adding (results ++ results') :=
  congrArg (StepResult.mk r.toResultFields) (List.append_assoc r.children results results')

/-- **Children add their results** to those of the running step, and change nothing else of it. -/
theorem Exec.runChildren_result (w : World ρ σ) (halt : Bool) (children : List (Ready ρ σ))
    (f : Frame ρ σ) :
    ∃ rs, (endState (Exec.runChildren w halt children f)).result = f.result.adding rs := by
  refine Exec.Moves.runChildren (R := fun f g => ∃ rs, g.result = f.result.adding rs) w halt
    (fun f => ⟨[], f.result.adding_nil.symm⟩) ?_ (fun f n => ⟨[], f.result.adding_nil.symm⟩)
      (fun c _ f => ?_) f
  · rintro f g h ⟨rs, hg⟩ ⟨rs', hh⟩
    exact ⟨rs ++ rs', by rw [hh, hg, StepResult.adding_adding]⟩
  · unfold Exec.runChild
    cases c.run f.state with
    | ok r s => exact ⟨[r], rfl⟩
    | error crash s => exact ⟨[], f.result.adding_nil.symm⟩

/-- A context has the settings that another one has. -/
theorem Context.invariant_settings (settings : Settings) :
    Context.Invariant fun c => c.settings = settings := by
  refine ⟨fun hd hc => ?_, fun event c d hnone hlead hc => ?_⟩
  · exact (congrArg Context.settings hd).trans hc
  · cases event with
    | injected data => exact (congrArg Context.settings hlead).trans hc
    | numbered i => exact (congrArg Context.settings hlead).trans hc
    | entered id => exact (congrArg Context.settings hlead.2).trans hc
    | left id => exact (congrArg Context.settings hlead.2).trans hc
    | ran g => exact absurd hnone (Option.some_ne_none g)

/-- **No step changes the settings,** however its run ends. -/
theorem Step.run_settings (w : World ρ σ) (step : Step) (s : RunState ρ σ) :
    (endState (step.run w s)).context.settings = s.context.settings := by
  have hs := step.history_sound w s
  have hbefore : (step.history w s).before.settings = s.context.settings := by
    rw [Step.history_before]
  have hafter := (hs.edges (Context.invariant_settings s.context.settings) hbefore).here
    (step.history w s).after (by simp [History.edges])
  cases hrun : step.run w s with
  | ok r s' => exact (congrArg Context.settings (Step.history_ok w hrun).2).symm.trans hafter
  | error crash s' =>
    exact (congrArg Context.settings (Step.history_error w hrun).2).symm.trans hafter

/-- So do not the steps that a step runs. -/
theorem Exec.runChildren_settings (w : World ρ σ) (halt : Bool) (steps : List Step)
    (f : Frame ρ σ) :
    (endState
      (Exec.runChildren w halt (Ready.ordered (runnable w steps)) f)).state.context.settings =
        f.state.context.settings := by
  refine Exec.Moves.runChildren
    (R := fun f g => g.state.context.settings = f.state.context.settings) w halt
    (fun _ => rfl) (fun h h' => h'.trans h) (fun _ _ => rfl) (fun c hc f => ?_) f
  obtain ⟨step, -, rfl⟩ := List.mem_map.mp (mem_orderedBy.mp hc)
  have hsettings := step.run_settings w f.state
  unfold Exec.runChild
  dsimp only
  cases hrun : step.run w f.state <;> rw [hrun] at hsettings <;> exact hsettings

/-! ### From one frame to the next -/

/-- The world around after a pause, if there is one. -/
def World.rested (w : World ρ σ) (pause : Option Binary64) (outside : ρ) : ρ :=
  match pause with
  | none => outside
  | some seconds => w.sleep seconds outside

/-- **On the way:** there may be a pause, and variables may be injected. Neither the result of the
step nor anything else in the context changes, but for the trace. -/
structure Frame.Onward (w : World ρ σ) (pause : Option Binary64) (injected : Json.Members)
    (f g : Frame ρ σ) : Prop where
  result : g.result = f.result
  context : g.state.context.silent = { f.state.context.silent with
    session := Keyed.extend f.state.context.session injected }
  /-- The pause is taken once. -/
  outside : g.state.outside = w.rested pause f.state.outside

/-- On the way nothing happens, but for lines in the trace and notices. -/
abbrev Frame.Still (w : World ρ σ) : Frame ρ σ → Frame ρ σ → Prop := Frame.Onward w none []

namespace Frame

variable {w : World ρ σ} {pause : Option Binary64} {injected : Json.Members} {f g h : Frame ρ σ}

namespace Still

theorem rfl : Still w f f := ⟨Eq.refl _, Eq.refl _, Eq.refl _⟩

theorem log (text : String) : Still w f (f.mapState (RunState.log w text)) :=
  ⟨Eq.refl _, Eq.refl _, Eq.refl _⟩

theorem note (n : Notice) : Still w f (f.mapState (RunState.note w n)) :=
  ⟨Eq.refl _, Eq.refl _, Eq.refl _⟩

theorem resolved (names : List String) : Still w f (f.mapState (RunState.logMissing w names)) where
  result := Eq.refl _
  context := RunState.logMissing_silent w names f.state
  outside := RunState.logMissing_outside w names f.state

theorem context_eq (hfg : Still w f g) : g.state.context.silent = f.state.context.silent :=
  hfg.context

theorem lookup (hfg : Still w f g) : g.state.context.lookup = f.state.context.lookup :=
  (congrArg Context.lookup hfg.context_eq :)

theorem onward (hfg : Still w f g) (hgh : Onward w pause injected g h) :
    Onward w pause injected f h where
  result := hgh.result.trans hfg.result
  context := by
    have hsession : g.state.context.session = f.state.context.session :=
      (congrArg Context.session hfg.context_eq :)
    rw [hgh.context, hfg.context_eq, hsession]
  outside := by
    have houtside : g.state.outside = f.state.outside := hfg.outside
    rw [hgh.outside, houtside]

end Still

namespace Onward

theorem still (hfg : Onward w pause injected f g) (hgh : Still w g h) :
    Onward w pause injected f h where
  result := hgh.result.trans hfg.result
  context := hgh.context_eq.trans hfg.context
  outside := hgh.outside.trans hfg.outside

/-- Variables are injected after the pause. -/
theorem inject (hfg : Onward w pause [] f g) (injected : Json.Members) :
    Onward w pause injected f (g.mapState (RunState.extend w injected .session)) where
  result := hfg.result
  context := by
    have hsession : g.state.context.session = f.state.context.session :=
      (congrArg Context.session hfg.context :)
    calc (RunState.extend w injected .session g.state).context.silent
        = (g.state.context.extend injected .session).silent := RunState.extend_silent w _ _ _
      _ = { g.state.context.silent with
            session := Keyed.extend g.state.context.session injected } := Eq.refl _
      _ = _ := by rw [hfg.context, hsession]
  outside := (RunState.extend_outside w injected .session g.state).trans hfg.outside

theorem settings (hfg : Onward w pause injected f g) :
    g.state.context.settings = f.state.context.settings :=
  (congrArg Context.settings hfg.context :)

end Onward

end Frame

namespace Exec.Moves

variable {α β : Type} {w : World ρ σ}

/-- Of two computations that leave lines in the trace, one after the other, nothing else is left
either. -/
theorem still {m : Exec ρ σ α} {k : α → Exec ρ σ β} (hm : m.Moves (Frame.Still w))
    (hk : ∀ a, (k a).Moves (Frame.Still w)) : (m >>= k).Moves (Frame.Still w) :=
  bind (fun hfg hgh => Frame.Onward.still hfg hgh) hm hk

theorem ofExcept (x : Except Fault α) : (Exec.ofExcept x : Exec ρ σ α).Moves (Frame.Still w) := by
  cases x <;> exact fun f => .rfl

theorem resolveValue (v : Json.Value) : (Exec.resolveValue w v).Moves (Frame.Still w) :=
  fun _ => .resolved _

/-- Looking a variable up. -/
theorem valueOf (name : String) :
    (do Exec.ofExcept ((← Exec.context).valueOf name) : Exec ρ σ Json.Value).Moves
      (Frame.Still w) :=
  still (fun _ => .rfl) fun _ => ofExcept _

end Exec.Moves

/-! ### Pauses -/

theorem Binary64.not_lt_of_le {x y : Binary64} (h : x.le y = true) : y.lt x = false := by
  unfold Binary64.le Binary64.lt at *
  cases x <;> cases y
  case finite.finite x y =>
    simp only [Binary64.compare?, Finite.compare] at h ⊢
    grind [Int.compare_eq_lt, Int.compare_eq_eq]
  case infinity.infinity s t => cases s <;> cases t <;> simp_all [Binary64.compare?]
  case finite.infinity x s => cases s <;> simp_all [Binary64.compare?]
  case infinity.finite s y => cases s <;> simp_all [Binary64.compare?]
  all_goals simp_all [Binary64.compare?]

/-- A number between zero and a limit is finite, unless the limit is infinite. -/
theorem Binary64.isFinite_of_between {limit x : Binary64} (hlimit : limit ≠ .infinity false)
    (hlow : Binary64.le (.zero false) x = true) (hhigh : x.le limit = true) :
    x.isFinite = true := by
  cases x with
  | finite x => rfl
  | nan => simp [Binary64.le, Binary64.zero, Binary64.compare?] at hlow
  | infinity negative =>
    cases negative
    · cases limit <;> simp_all [Binary64.le, Binary64.compare?]
    · simp [Binary64.le, Binary64.zero, Binary64.compare?] at hlow

/-- **An interval that a loop accepts** can be waited for. -/
theorem RunState.waitFlaw?_eq_none {settings : Settings} {step : StepFields} {interval : Binary64}
    (h : Exec.loopInterval settings step = .ok interval) :
    RunState.waitFlaw? settings.waitLimit interval = none := by
  -- the limit is at most the longest wait, which is finite
  have hlimit : settings.waitLimit ≠ .infinity false := by
    have hsome : longestWait.toFinite?.isSome = true := by decide +kernel
    obtain ⟨longest, hlongest⟩ : ∃ x, longestWait = .finite x := by
      cases hl : longestWait <;> simp_all [Binary64.toFinite?]
    unfold Settings.waitLimit Binary64.minimum
    rw [hlongest]
    cases settings.maxWait with
    | infinity negative => cases negative <;> simp [Binary64.isNaN, Binary64.lt, Binary64.compare?]
    | nan => simp [Binary64.isNaN]
    | finite x =>
      simp only [Binary64.isNaN, Bool.false_eq_true, if_false]
      split <;> simp
  unfold Exec.loopInterval at h
  dsimp only at h
  split at h
  · next hbounds =>
    obtain ⟨hlow, hhigh⟩ := (Bool.and_eq_true _ _).mp hbounds
    cases h
    have hfinite := Binary64.isFinite_of_between hlimit hlow hhigh
    simp [RunState.waitFlaw?, hfinite, Binary64.not_lt_of_le hlow, Binary64.not_lt_of_le hhigh]
  · cases h

namespace Exec

variable {w : World ρ σ} {l : Loop ρ σ} {f : Frame ρ σ}

variable (w) in
/-- Waiting for a number of seconds is done if the settings admit it. -/
theorem sleep_eq (seconds : Binary64) (f : Frame ρ σ) :
    sleep w seconds f =
      match RunState.waitFlaw? f.state.context.settings.waitLimit seconds with
      | some flaw => .error (.fault (.configuration flaw)) f
      | none => .ok () (f.mapState fun s =>
          { s.log w ("waiting " ++ Binary64.plainStyle seconds ++ " s") with
            outside := w.sleep seconds s.outside }) := by
  change ofExcept (f.state.sleep w seconds).1 ⟨(f.state.sleep w seconds).2, f.result⟩ = _
  unfold RunState.sleep
  cases RunState.waitFlaw? f.state.context.settings.waitLimit seconds <;> rfl

/-- **A pause** is taken once, if there is one. -/
theorem pause_onward (h : RunState.waitFlaw? f.state.context.settings.waitLimit l.interval = none) :
    ∃ g, pause w l f = .ok () g ∧ f.Onward w l.rest [] g := by
  unfold pause Loop.rest
  split
  · have hsleep := sleep_eq w l.interval f
    rw [h] at hsleep
    exact ⟨_, hsleep, rfl, rfl, rfl⟩
  · exact ⟨f, rfl, Frame.Still.rfl⟩

end Exec

/-- **From one iteration to the next** of a loop whose iterations are known beforehand: there is a
pause, and variables are injected. After the last iteration there is neither. -/
def Loop.Advances (w : World ρ σ) (l : Loop ρ σ) (injection : Nat → Json.Members) (last i : Nat)
    (f g : Frame ρ σ) : Prop :=
  i < last ∧ f.Onward w l.rest (injection (i + 1)) g

/-! ### What a turn leaves -/

namespace Loop

variable {w : World ρ σ} {l : Loop ρ σ} {i : Nat} {f : Frame ρ σ}

/-- Numbering an iteration leaves everything else in the context alone. -/
theorem numbering_eq (l : Loop ρ σ) (i : Nat) (ctx : Context) :
    l.numbering i ctx = { ctx with iterations := (l.numbering i ctx).iterations } := by
  have hfold : ∀ (children : List (Ready ρ σ)) (ctx : Context),
      children.foldl (fun ctx child => ctx.setIteration child.fields.key i) ctx = { ctx with
        iterations := (children.foldl (fun ctx child => ctx.setIteration child.fields.key i)
          ctx).iterations } := by
    intro children
    induction children with
    | nil => exact fun _ => rfl
    | cons child rest ih => exact fun ctx => ih (ctx.setIteration child.fields.key i)
  exact hfold l.children (ctx.setIteration l.step.key i)

@[simp] theorem turn_entry : (l.turn w i f).entry = f := by
  unfold turn
  split <;> rfl

theorem numbered_session (l : Loop ρ σ) (i : Nat) (f : Frame ρ σ) :
    (l.numbered i f).state.context.session = f.state.context.session :=
  (congrArg Context.session (l.numbering_eq i f.state.context) :)

/-- A turn ends where its children end, but for a line in the trace. -/
theorem turn_stop : Frame.Still w
    (endState (Exec.runChildren w (l.strategy ≠ .continue) l.children (l.numbered i f)))
    (l.turn w i f).stop := by
  unfold turn noted
  rcases Exec.runChildren w (l.strategy ≠ .continue) l.children (l.numbered i f) with
    ⟨_ | _ | _, g⟩ | ⟨stop, g⟩
  · exact .rfl
  · cases l.strategy
    · exact .log _
    · exact .log _
    · exact .rfl
  · exact .rfl
  · exact .rfl

/-- **A turn numbers the result** and adds the results of the children to it. -/
theorem turn_result : (l.turn w i f).stop.result =
    (f.result.numbered i).adding (l.turn w i f).results := by
  obtain ⟨rs, hrs⟩ :=
    Exec.runChildren_result w (l.strategy ≠ .continue) l.children (l.numbered i f)
  have hstop : (l.turn w i f).stop.result =
      (f.result.numbered i).adding rs := turn_stop.result.trans hrs
  have hresults : (l.turn w i f).results = rs := by
    rw [Turn.results, hstop, turn_entry]
    exact List.drop_left
  rw [hresults, hstop]

/-- A turn of steps changes no settings. -/
theorem turn_settings {steps : List Step} (hl : l.children = Ready.ordered (runnable w steps)) :
    (l.turn w i f).stop.state.context.settings = f.state.context.settings := by
  have hend := Exec.runChildren_settings w (l.strategy ≠ .continue) steps (l.numbered i f)
  have hnumbered : (l.numbered i f).state.context.settings = f.state.context.settings :=
    (congrArg Context.settings (l.numbering_eq i f.state.context) :)
  rw [← hl] at hend
  exact turn_stop.settings.trans (hend.trans hnumbered)

end Loop

/-! ### Turns, one after the other -/

/-- **The turns of a loop** from iteration `i` on, the first of which is entered in the frame `f`.
`link` says what happens between an iteration and the next one. -/
structure Loop.Turns (w : World ρ σ) (l : Loop ρ σ) (link : Nat → Frame ρ σ → Frame ρ σ → Prop)
    (i : Nat) (f : Frame ρ σ) (turns : List (Turn ρ σ)) : Prop where
  each : ∀ k t, turns[k]? = some t → t = l.turn w (i + k) t.entry
  first : ∀ t, turns[0]? = some t → t.entry = f
  next : ∀ k t u, turns[k]? = some t → turns[k + 1]? = some u →
    l.strategy.GoesOn t.outcome ∧ link (i + k) t.stop u.entry

namespace Loop.Turns

variable {w : World ρ σ} {l : Loop ρ σ} {link : Nat → Frame ρ σ → Frame ρ σ → Prop} {i : Nat}
variable {f g : Frame ρ σ} {turns : List (Turn ρ σ)}

theorem nil : l.Turns w link i f [] := ⟨by simp, by simp, by simp⟩

theorem one : l.Turns w link i f [l.turn w i f] := by
  refine ⟨fun k t h => ?_, fun t h => ?_, fun k t u _ h => ?_⟩
  · cases k with
    | zero => cases h; simp
    | succ k => simp at h
  · cases h
    simp
  · simp at h

/-- One more turn comes first. -/
theorem cons (hgoes : l.strategy.GoesOn (l.turn w i f).outcome)
    (hlink : link i (l.turn w i f).stop g) (h : l.Turns w link (i + 1) g turns) :
    l.Turns w link i f (l.turn w i f :: turns) := by
  refine ⟨fun k t ht => ?_, fun t ht => ?_, fun k t u ht hu => ?_⟩
  · cases k with
    | zero => cases ht; simp
    | succ k =>
      have heach := h.each k t ht
      rwa [show i + 1 + k = i + (k + 1) by omega] at heach
  · cases ht
    simp
  · cases k with
    | zero =>
      cases ht
      rw [h.first u hu]
      exact ⟨hgoes, hlink⟩
    | succ k =>
      have hnext := h.next k t u ht hu
      rwa [show i + 1 + k = i + (k + 1) by omega] at hnext

/-- What is known between two turns may be forgotten. -/
theorem mono {link' : Nat → Frame ρ σ → Frame ρ σ → Prop} (h : l.Turns w link i f turns)
    (hlink : ∀ {k g g'}, link k g g' → link' k g g') : l.Turns w link' i f turns where
  each := h.each
  first := h.first
  next k t u ht hu := (h.next k t u ht hu).imp id hlink

/-- The turns from a later one on. -/
theorem drop {k : Nat} {t : Turn ρ σ} (h : l.Turns w link i f turns) (hk : turns[k]? = some t) :
    l.Turns w link (i + k) t.entry (turns.drop k) := by
  refine ⟨fun m u hu => ?_, fun u hu => ?_, fun m u v hu hv => ?_⟩
  · rw [List.getElem?_drop] at hu
    rw [Nat.add_assoc]
    exact h.each (k + m) u hu
  · rw [List.getElem?_drop] at hu
    cases hk.symm.trans hu
    rfl
  · rw [List.getElem?_drop] at hu hv
    rw [Nat.add_assoc]
    exact h.next (k + m) u v hu hv

/-- **A loop has no more turns** than there are iterations to come. -/
theorem length_le {injection : Nat → Json.Members} {last : Nat}
    (h : l.Turns w (l.Advances w injection last) 1 f turns) (hlast : 0 < last) :
    turns.length ≤ last := by
  by_contra hlong
  -- after the last iteration there is no way on
  have hnext := (h.next (last - 1) _ _ (List.getElem?_eq_getElem (by omega))
    (List.getElem?_eq_getElem (by omega))).2.1
  omega

/-- What comes after the first turn. -/
theorem tail {t : Turn ρ σ} (h : l.Turns w link i f (t :: turns)) :
    t = l.turn w i f ∧ ∀ u, turns[0]? = some u → l.strategy.GoesOn t.outcome ∧
      link i t.stop u.entry ∧ l.Turns w link (i + 1) u.entry turns := by
  refine ⟨?_, fun u hu => ?_⟩
  · have heach := h.each 0 t rfl
    rwa [h.first t rfl] at heach
  · obtain ⟨hgoes, hlink⟩ := h.next 0 t u rfl hu
    refine ⟨hgoes, hlink, fun k t' ht' => ?_, fun t' ht' => ?_, fun k t' u' ht' hu' => ?_⟩
    · have heach := h.each (k + 1) t' ht'
      rwa [show i + (k + 1) = i + 1 + k by omega] at heach
    · rw [hu] at ht'
      cases ht'
      rfl
    · have hnext := h.next (k + 1) t' u' ht' hu'
      rwa [show i + (k + 1) = i + 1 + k by omega] at hnext

end Loop.Turns

/-- The frame in which the last turn has ended, if there is one. -/
def Turn.last (f : Frame ρ σ) (turns : List (Turn ρ σ)) : Frame ρ σ :=
  (turns.getLast?.map Turn.stop).getD f

theorem Turn.last_cons (f : Frame ρ σ) (t : Turn ρ σ) (turns : List (Turn ρ σ)) :
    Turn.last f (t :: turns) = Turn.last t.stop turns := by
  cases turns with
  | nil => rfl
  | cons u rest => simp [Turn.last, List.getLast?_cons]

theorem Turn.last_congr {turns : List (Turn ρ σ)} (h : turns ≠ []) (f g : Frame ρ σ) :
    Turn.last f turns = Turn.last g turns := by
  cases turns with
  | nil => exact absurd rfl h
  | cons t turns => rw [Turn.last_cons, Turn.last_cons]

theorem Turn.last_drop {turns : List (Turn ρ σ)} {k : Nat} (hk : k < turns.length)
    (f g : Frame ρ σ) : Turn.last g (turns.drop k) = Turn.last f turns := by
  have hsome : turns.getLast? ≠ none := by
    rw [ne_eq, List.getLast?_eq_none_iff]
    rintro rfl
    exact absurd hk (Nat.not_lt_zero k)
  unfold Turn.last
  rw [List.getLast?_drop, if_neg (Nat.not_le.mpr hk)]
  cases hlast : turns.getLast? with
  | none => exact absurd hlast hsome
  | some t => rfl

/-- **What the turns leave of the result:** the number of the last one, and all results of the
children. -/
theorem Loop.Turns.result {w : World ρ σ} {l : Loop ρ σ}
    {link : Nat → Frame ρ σ → Frame ρ σ → Prop}
    (hlink : ∀ {k f g}, link k f g → g.result = f.result)
    {i : Nat} {f : Frame ρ σ} {t : Turn ρ σ} {turns : List (Turn ρ σ)}
    (h : l.Turns w link i f (t :: turns)) : (Turn.last f (t :: turns)).result =
      (f.result.numbered (i + turns.length)).adding
        ((t :: turns).flatMap Turn.results) := by
  induction turns generalizing i f t with
  | nil =>
    obtain ⟨rfl, -⟩ := h.tail
    simpa [Turn.last] using Loop.turn_result
  | cons u rest ih =>
    obtain ⟨ht, hrest⟩ := h.tail
    obtain ⟨-, hstep, hturns⟩ := hrest u rfl
    -- each turn adds the results of its children and overwrites the number
    have hstop : t.stop.result = (f.result.numbered i).adding t.results := by
      rw [ht]
      exact Loop.turn_result
    have hlast := ih hturns
    rw [Turn.last_cons] at hlast
    rw [Turn.last_cons, Turn.last_cons, hlast, hlink hstep, hstop, List.length_cons,
      show i + (rest.length + 1) = i + 1 + rest.length by omega]
    exact StepResult.adding_adding (f.result.numbered (i + 1 + rest.length)) _ _

/-! ### The tally -/

/-- The tally after some turns, the first of which is iteration `i`. -/
def Tally.after (tally : Tally) : Nat → List (Turn ρ σ) → Tally
  | _, [] => tally
  | i, t :: rest => Tally.after { tally with
      executed := i
      failed := tally.failed ++ if t.outcome = some .failed then [i] else [] } (i + 1) rest

section

variable {tally : Tally} {i : Nat} {turns : List (Turn ρ σ)}

@[simp] theorem Tally.after_brokenAt : (tally.after i turns).brokenAt = tally.brokenAt := by
  induction turns generalizing tally i with
  | nil => rfl
  | cons t rest ih => exact ih

theorem Tally.after_executed (h : turns ≠ []) :
    (tally.after i turns).executed + 1 = i + turns.length := by
  induction turns generalizing tally i with
  | nil => exact absurd rfl h
  | cons t rest ih =>
    cases rest with
    | nil => rfl
    | cons u rest =>
      rw [Tally.after, ih (List.cons_ne_nil u rest)]
      simp only [List.length_cons]
      omega

/-- **No iteration is in the tally** if and only if none has failed. -/
theorem Tally.after_failed : (tally.after i turns).failed = [] ↔
    tally.failed = [] ∧ ∀ t ∈ turns, t.outcome ≠ some .failed := by
  induction turns generalizing tally i with
  | nil => simp [Tally.after]
  | cons t rest ih =>
    rw [Tally.after, ih, List.forall_mem_cons]
    by_cases ht : t.outcome = some .failed <;> simp [ht]

end

/-! ### The iterations of a loop -/

/-- **How the iterations of a loop come to an end in `x`.** Either the loop goes on after each turn,
and there are no more turns for a reason of the mode; or it does not go on after the last one. -/
inductive Loop.Went (w : World ρ σ) (l : Loop ρ σ) (link : Nat → Frame ρ σ → Frame ρ σ → Prop)
    (i : Nat) (f : Frame ρ σ) (spent : List (Turn ρ σ) → Prop)
    (x : EStateM.Result Stop (Frame ρ σ) Tally) : Prop
  | through {turns : List (Turn ρ σ)} : l.Turns w link i f turns →
    (∀ t ∈ turns, l.strategy.GoesOn t.outcome) → spent turns → Went w l link i f spent x
  | cut (before : List (Turn ρ σ)) {t : Turn ρ σ} : l.Turns w link i f (before ++ [t]) →
    ¬ l.strategy.GoesOn t.outcome → Exec.Cut l (i + before.length) t x → Went w l link i f spent x

namespace Loop.Went

variable {w : World ρ σ} {l : Loop ρ σ} {link : Nat → Frame ρ σ → Frame ρ σ → Prop} {i : Nat}
variable {f g : Frame ρ σ} {spent spent' : List (Turn ρ σ) → Prop}
variable {x : EStateM.Result Stop (Frame ρ σ) Tally}

/-- The first turn is the last one. -/
theorem last (hgoes : ¬ l.strategy.GoesOn (l.turn w i f).outcome)
    (hx : Exec.Cut l i (l.turn w i f) x) : l.Went w link i f spent x :=
  .cut [] .one hgoes hx

/-- One more turn comes first. -/
theorem cons (hgoes : l.strategy.GoesOn (l.turn w i f).outcome)
    (hlink : link i (l.turn w i f).stop g) (h : l.Went w link (i + 1) g spent' x)
    (hspent : ∀ turns, spent' turns → spent (l.turn w i f :: turns)) :
    l.Went w link i f spent x := by
  cases h with
  | @through turns hturns hall hdone =>
    exact .through (.cons hgoes hlink hturns) (List.forall_mem_cons.mpr ⟨hgoes, hall⟩)
      (hspent turns hdone)
  | @cut before t hturns hend hx =>
    refine .cut (l.turn w i f :: before) (.cons hgoes hlink hturns) hend ?_
    rwa [List.length_cons, show i + (before.length + 1) = i + 1 + before.length by omega]

end Loop.Went

/-- **An iteration, and the rest of the loop,** which is reached only if the loop goes on. -/
theorem Exec.iterate_then {w : World ρ σ} {l : Loop ρ σ} {i : Nat} {f : Frame ρ σ} {tally : Tally}
    (htally : tally.brokenAt = none) (k : Tally → Exec ρ σ Tally) :
    (l.strategy.GoesOn (l.turn w i f).outcome →
      (Exec.iterate w l i tally >>= fun tally =>
        if tally.brokenAt.isSome then pure tally else k tally) f =
        k (tally.after i [l.turn w i f]) (l.turn w i f).stop) ∧
    (¬ l.strategy.GoesOn (l.turn w i f).outcome →
      Exec.Cut l i (l.turn w i f) ((Exec.iterate w l i tally >>= fun tally =>
        if tally.brokenAt.isSome then pure tally else k tally) f)) := by
  refine ⟨fun h => ?_, fun h => ?_⟩
  · rw [Exec.bind_eq_ok (Exec.iterate_goesOn h)]
    dsimp only
    simp [Tally.after, htally]
  · have hcut : Exec.Cut l i (l.turn w i f) (Exec.iterate w l i tally f) := Exec.iterate_cut h
    generalize hx : Exec.iterate w l i tally f = x at hcut
    cases hcut with
    | broken hstrategy hfailed hbroken =>
      rw [Exec.bind_eq_ok hx, hbroken]
      exact .broken hstrategy hfailed hbroken
    | ended hstop =>
      rw [Exec.bind_eq_error hx]
      exact .ended hstop

/-- **An iteration, and the rest of a loop** that pauses if there is one more iteration. -/
theorem Loop.Went.pausing {w : World ρ σ} {l : Loop ρ σ} {steps : List Step}
    (hl : l.children = Ready.ordered (runnable w steps)) {i : Nat} {f : Frame ρ σ} {tally : Tally}
    (htally : tally.brokenAt = none)
    (hwait : RunState.waitFlaw? f.state.context.settings.waitLimit l.interval = none)
    {more : Prop} [Decidable more] (k : Tally → Exec ρ σ Tally)
    {link : Nat → Frame ρ σ → Frame ρ σ → Prop} {spent : List (Turn ρ σ) → Prop}
    {x : EStateM.Result Stop (Frame ρ σ) Tally}
    (hx : (Exec.iterate w l i tally >>= fun tally =>
      if tally.brokenAt.isSome then pure tally else (do
        if more then Exec.pause w l
        k tally)) f = x)
    (hdone : ¬ more → k (tally.after i [l.turn w i f]) (l.turn w i f).stop = x →
      spent [l.turn w i f])
    (hnext : more → ∀ g, (l.turn w i f).stop.Onward w l.rest [] g →
      RunState.waitFlaw? g.state.context.settings.waitLimit l.interval = none →
      k (tally.after i [l.turn w i f]) g = x →
      ∃ entry spent', link i (l.turn w i f).stop entry ∧ l.Went w link (i + 1) entry spent' x ∧
        ∀ turns, spent' turns → spent (l.turn w i f :: turns)) :
    l.Went w link i f spent x := by
  obtain ⟨hgo, hcut⟩ := Exec.iterate_then (w := w) (l := l) (i := i) (f := f) htally fun tally => do
    if more then Exec.pause w l
    k tally
  by_cases hgoes : l.strategy.GoesOn (l.turn w i f).outcome
  · rw [hgo hgoes] at hx
    by_cases hmore : more
    · -- the steps have not changed the settings under which the interval was accepted
      rw [← Loop.turn_settings (i := i) (f := f) hl] at hwait
      obtain ⟨g, hpause, honward⟩ := Exec.pause_onward hwait
      rw [if_pos hmore, Exec.bind_eq_ok hpause] at hx
      obtain ⟨entry, spent', hlink, hwent, hspent⟩ :=
        hnext hmore g honward (by rwa [honward.settings]) hx
      exact .cons hgoes hlink hwent hspent
    · rw [if_neg hmore] at hx
      exact .through .one (by simpa using hgoes) (hdone hmore hx)
  · exact .last hgoes (hx ▸ hcut hgoes)

/-! ### The run of a loop step -/

/-- **A step was left** with the result `r` in the state `s'`, after its work had ended in the frame
`g`. -/
structure Left (s : RunState ρ σ) (g : Frame ρ σ) (ending : Ending) (r : StepResult)
    (s' : RunState ρ σ) : Prop where
  iteration : r.iteration = g.result.iteration
  children : r.children = g.result.children
  success : r.success = true ↔ ending = .finished
  aborted : r.aborted = ending.aborts
  error : r.error = ending.fault?.map Fault.message
  outside : s'.outside = g.state.outside
  context : s'.context.silent = { g.state.context.silent with
    key := s.context.key, defined := s.context.defined, extract := s.context.extract }

/-- A step whose work has done nothing leaves everything as it was, but for the trace. -/
theorem Left.still {w : World ρ σ} {step : StepFields} {s : RunState ρ σ} {g : Frame ρ σ}
    {ending : Ending} {r : StepResult} {s' : RunState ρ σ} (h : Left s g ending r s')
    (hg : (s.openingFrame w step).Still w g) :
    r.children = [] ∧ s'.outside = s.outside ∧ s'.context.silent = s.context.silent := by
  refine ⟨?_, h.outside.trans (hg.outside.trans (s.openingFrame_outside w step)), ?_⟩
  · exact h.children.trans (congrArg (fun r : StepResult => r.children) hg.result)
  · rw [h.context, hg.context_eq.trans (s.enterStep_silent w step)]
    rfl

/-- **The run of a step** that was started in the state `s`, and whose work ended in the frame `g`.
-/
def Ran (s : RunState ρ σ) (g : Frame ρ σ) (ending : Ending) :
    EStateM.Result Crash (RunState ρ σ) StepResult → Prop
  | .ok r s' => ending ≠ .crashed ∧ Left s g ending r s'
  | .error _ s' => ending = .crashed ∧ s' = g.state

/-- The message of a running step is not part of how it ended. -/
theorem Ran.said {s : RunState ρ σ} {g g' : Frame ρ σ} {ending : Ending}
    {x : EStateM.Result Crash (RunState ρ σ) StepResult} (h : Ran s g ending x)
    (hstate : g.state = g'.state) (hiteration : g.result.iteration = g'.result.iteration)
    (hchildren : g.result.children = g'.result.children) : Ran s g' ending x := by
  cases x with
  | error crash s' => exact ⟨h.1, h.2.trans hstate⟩
  | ok r s' => exact ⟨h.1, {
      iteration := h.2.iteration.trans hiteration
      children := h.2.children.trans hchildren
      success := h.2.success
      aborted := h.2.aborted
      error := h.2.error
      outside := h.2.outside.trans (congrArg RunState.outside hstate)
      context := by rw [h.2.context, hstate] }⟩

/-- How a computation ended. -/
def Ending.ofResult {α : Type} : EStateM.Result Stop (Frame ρ σ) α → Ending
  | .ok _ _ => .finished
  | .error stop _ => .ofStop stop

/-- **A step ran** as its work did, if the work has given no verdict of its own and extracted
nothing. -/
theorem Step.ran {w : World ρ σ} {step : Step} {s : RunState ρ σ}
    {x : EStateM.Result Stop (Frame ρ σ) Unit}
    (hwork : workOf w (runnable w) step.toStepFields (runnable w step.children)
      (s.openingFrame w step.toStepFields) = x)
    (hsuccess : (endState x).result.success = true) (haborted : (endState x).result.aborted = false)
    (herror : (endState x).result.error = none) (hextracted : (endState x).result.extracted = []) :
    Ran s (endState x) (.ofResult x) (step.run w s) := by
  rw [Step.run_eq, runStep_eq, hwork]
  -- nothing was extracted, so the session is the one that the work has left
  have hcontext : ∀ g : Frame ρ σ, g.result.extracted = [] →
      (concludeStep w step.toStepFields s.context (w.now s.outside) g).2.context.silent =
        { g.state.context.silent with
          key := s.context.key, defined := s.context.defined, extract := s.context.extract } := by
    intro g hg
    rw [concludeStep_silent, hg]
    rfl
  rcases x with ⟨_, g⟩ | ⟨fault | crash, g⟩
  · refine ⟨by simp [Ending.ofResult], rfl, rfl, ?_, ?_, ?_, concludeStep_outside .., hcontext g
      hextracted⟩
    · exact iff_of_true hsuccess rfl
    · exact haborted
    · exact herror
  · refine ⟨by simp [Ending.ofResult, Ending.ofStop], rfl, rfl, ?_, ?_, rfl,
      concludeStep_outside .., hcontext (recordFault w fault g) hextracted⟩
    · exact iff_of_false Bool.false_ne_true (by simp [Ending.ofResult, Ending.ofStop])
    · change (g.result.aborted || fault.isAbort) = fault.isAbort
      rw [show g.result.aborted = false from haborted, Bool.false_or]
  · exact ⟨rfl, rfl⟩

/-- The loop of a loop step. -/
def Step.asLoop (w : World ρ σ) (step : Step) (strategy : LoopStrategy) (interval : Binary64) :
    Loop ρ σ :=
  ⟨step.toStepFields, Ready.ordered (runnable w step.children), strategy, interval⟩

theorem Step.asLoop_children (w : World ρ σ) (step : Step) (strategy : LoopStrategy)
    (interval : Binary64) : (step.asLoop w strategy interval).children =
      Ready.ordered (runnable w step.children) :=
  rfl

/-- How the work of a loop ends with the tally of its iterations. -/
def Tally.verdict (tally : Tally) : Ending :=
  match tally.brokenAt with
  | some i => .faulted (.execution (.loopBroken i))
  | none => if tally.failed = [] then .finished
    else .faulted (.execution (.iterationsFailed tally.failed))

/-- How the work of a loop ends, as its iterations have ended. -/
def Exec.verdict : EStateM.Result Stop (Frame ρ σ) Tally → Ending
  | .error stop _ => .ofStop stop
  | .ok tally _ => tally.verdict

/-- **A loop that went on after all its turns** has finished, or some iterations have failed. -/
theorem Tally.after_verdict (turns : List (Turn ρ σ)) :
    (Tally.after {} 1 turns).verdict = .finished ∧ (∀ t ∈ turns, t.outcome ≠ some .failed) ∨
      ∃ is, (Tally.after {} 1 turns).verdict = .faulted (.execution (.iterationsFailed is)) ∧
        ∃ t ∈ turns, t.outcome = some .failed := by
  have hfailed : (Tally.after {} 1 turns).failed = [] ↔ _ := Tally.after_failed
  unfold Tally.verdict
  rw [Tally.after_brokenAt]
  dsimp only
  split
  · next hempty => exact .inl ⟨rfl, (hfailed.mp hempty).2⟩
  · next hsome =>
    refine .inr ⟨_, rfl, ?_⟩
    by_contra hnone
    exact hsome (hfailed.mpr ⟨rfl, fun t ht hfailed => hnone ⟨t, ht, hfailed⟩⟩)

/-- It has finished if and only if all iterations have passed. -/
theorem Tally.after_verdict_finished {strategy : LoopStrategy} {turns : List (Turn ρ σ)}
    (hgoes : ∀ t ∈ turns, strategy.GoesOn t.outcome) :
    (Tally.after {} 1 turns).verdict = .finished ↔ ∀ t ∈ turns, t.outcome = some .passed := by
  obtain ⟨hverdict, hpassed⟩ | ⟨is, hverdict, t, ht, hfailed⟩ := Tally.after_verdict turns <;>
    rw [hverdict]
  · exact iff_of_true rfl fun t ht => (hgoes t ht).resolve_right fun h => hpassed t ht h.1
  · refine iff_of_false (by simp) fun hpassed => ?_
    rw [hpassed t ht] at hfailed
    cases hfailed

theorem Tally.after_verdict_ne_crashed (turns : List (Turn ρ σ)) :
    (Tally.after {} 1 turns).verdict ≠ .crashed := by
  obtain ⟨hverdict, -⟩ | ⟨is, hverdict, -⟩ := Tally.after_verdict turns <;> simp [hverdict]

/-- The outcome of a loop is its verdict; it sets the message of the result. -/
theorem Exec.conclude_eq (tally : Tally) (g : Frame ρ σ) : ∃ message,
    endState (Exec.conclude tally g) = g.mapResult (fun r => { r with message := some message }) ∧
      Ending.ofResult (Exec.conclude tally g) = Exec.verdict (.ok tally g) := by
  refine ⟨"loop ran " ++ toString tally.executed ++ " iteration(s)", ?_⟩
  have hsaid : Exec.conclude tally g = (match tally.brokenAt with
      | some i => Exec.fail (.execution (.loopBroken i))
      | none => if tally.failed.isEmpty then pure ()
        else Exec.fail (.execution (.iterationsFailed tally.failed)) : Exec ρ σ Unit)
      (g.mapResult fun r => { r with
        message := some ("loop ran " ++ toString tally.executed ++ " iteration(s)") }) := rfl
  rw [hsaid, Exec.verdict, Tally.verdict]
  cases tally.brokenAt with
  | some i => exact ⟨rfl, rfl⟩
  | none => cases tally.failed <;> exact ⟨rfl, rfl⟩

/-- **A loop step that is good** for a loop in a certain mode. -/
structure Step.Loops (step : Step) (settings : Settings) (mode : LoopMode) (strategy : LoopStrategy)
    (interval : Binary64) : Prop where
  kind : step.declaredKind = .ok .loop
  mode : Exec.loopMode step.toStepFields = .ok mode
  strategy : Exec.loopStrategy step.toStepFields = .ok strategy
  interval : Exec.loopInterval settings step.toStepFields = .ok interval

/-- The frame in which the iterations of a loop step start. -/
def Step.loopFrame (w : World ρ σ) (step : Step) (s : RunState ρ σ) (mode : LoopMode)
    (strategy : LoopStrategy) : Frame ρ σ :=
  (s.openingFrame w step.toStepFields).mapState
    (RunState.note w (.loopStarted step.key mode strategy))

section

variable {w : World ρ σ} {step : Step} {s : RunState ρ σ} {mode : LoopMode}
variable {strategy : LoopStrategy} {interval : Binary64}

/-- A loop that is good never has a pause refused. -/
theorem Step.Loops.wait (h : step.Loops s.context.settings mode strategy interval)
    {g : Frame ρ σ} (hg : (s.openingFrame w step.toStepFields).Still w g) :
    RunState.waitFlaw? g.state.context.settings.waitLimit interval = none := by
  rw [hg.settings, RunState.openingFrame_settings]
  exact RunState.waitFlaw?_eq_none h.interval

/-- The work of a loop step that is good: its iterations, and what is concluded from them. -/
theorem Step.Loops.work (h : step.Loops s.context.settings mode strategy interval) :
    workOf w (runnable w) step.toStepFields (runnable w step.children)
        (s.openingFrame w step.toStepFields) =
      (Exec.iterations w mode (step.asLoop w strategy interval) >>= Exec.conclude)
        (step.loopFrame w s mode strategy) := by
  unfold workOf
  rw [h.kind]
  change Exec.loop w step.toStepFields (runnable w step.children) _ = _
  -- entering the step has left the settings, so that the interval is still a good one
  have hinterval := h.interval
  rw [← RunState.openingFrame_settings w step.toStepFields s] at hinterval
  unfold Exec.loop
  rw [h.mode, h.strategy]
  change (Exec.ofExcept (Exec.loopInterval
    (s.openingFrame w step.toStepFields).state.context.settings step.toStepFields) >>= _) _ = _
  rw [hinterval]
  rfl

/-- **A loop step ran** as its iterations did, if these have left the result of the step alone but
for its number and the results of the children. -/
theorem Step.ran_loop (h : step.Loops s.context.settings mode strategy interval)
    {x : EStateM.Result Stop (Frame ρ σ) Tally}
    (hx : Exec.iterations w mode (step.asLoop w strategy interval)
      (step.loopFrame w s mode strategy) = x)
    {i : Nat} {rs : List StepResult}
    (hresult : (endState x).result =
      ((step.loopFrame w s mode strategy).result.numbered i).adding rs) :
    Ran s (endState x) (Exec.verdict x) (step.run w s) := by
  have hwork := h.work (w := w)
  cases x with
  -- the iterations have stopped the step, and nothing is concluded
  | error stop g =>
    rw [Exec.bind_eq_error hx] at hwork
    exact Step.ran hwork (congrArg (fun r : StepResult => r.success) hresult)
      (congrArg (fun r : StepResult => r.aborted) hresult)
      (congrArg (fun r : StepResult => r.error) hresult)
      (congrArg (fun r : StepResult => r.extracted) hresult)
  -- what is concluded adds to the result what the verdict says
  | ok tally g =>
    obtain ⟨message, hend, hverdict⟩ := Exec.conclude_eq tally g
    rw [Exec.bind_eq_ok hx] at hwork
    rw [← hverdict]
    change Ran s g _ _
    refine (Step.ran hwork ?_ ?_ ?_ ?_).said ?_ ?_ ?_ <;> rw [hend]
    · exact congrArg (fun r : StepResult => r.success) hresult
    · exact congrArg (fun r : StepResult => r.aborted) hresult
    · exact congrArg (fun r : StepResult => r.error) hresult
    · exact congrArg (fun r : StepResult => r.extracted) hresult
    all_goals rfl

end

/-- **A loop step that runs no iteration** leaves everything as it was, but for the trace. -/
theorem Step.ran_none {w : World ρ σ} {step : Step} {s : RunState ρ σ} {mode : LoopMode}
    {strategy : LoopStrategy} {interval : Binary64}
    (h : step.Loops s.context.settings mode strategy interval)
    {x : EStateM.Result Stop (Frame ρ σ) Tally}
    (hx : Exec.iterations w mode (step.asLoop w strategy interval)
      (step.loopFrame w s mode strategy) = x)
    (hstill : (step.loopFrame w s mode strategy).Still w (endState x))
    (hcrash : Exec.verdict x ≠ .crashed) :
    ∃ r s', step.run w s = .ok r s' ∧ Left s (endState x) (Exec.verdict x) r s' ∧
      r.children = [] ∧ s'.outside = s.outside ∧ s'.context.silent = s.context.silent := by
  have hresult : (endState x).result = ((step.loopFrame w s mode strategy).result.numbered
      (endState x).result.iteration).adding [] := by
    rw [StepResult.adding_nil, ← hstill.result, StepResult.numbered_self]
  have hran := Step.ran_loop h hx hresult
  cases hrun : step.run w s with
  | error crash s' =>
    rw [hrun] at hran
    exact absurd hran.1 hcrash
  | ok r s' =>
    rw [hrun] at hran
    have hopening : (s.openingFrame w step.toStepFields).Still w
        (step.loopFrame w s mode strategy) := .note _
    exact ⟨r, s', rfl, hran.2, hran.2.still (hopening.still hstill)⟩

/-- A loop that was cut off ends as its strategy says. -/
theorem Exec.Cut.verdict {l : Loop ρ σ} {i : Nat} {t : Turn ρ σ}
    {x : EStateM.Result Stop (Frame ρ σ) Tally} (h : Exec.Cut l i t x) :
    endState x = t.stop ∧ Exec.verdict x = l.strategy.endsAt i t.outcome := by
  cases h with
  | broken hstrategy hfailed hbroken =>
    refine ⟨rfl, ?_⟩
    rw [Exec.verdict, Tally.verdict, hbroken, hfailed, hstrategy]
    rfl
  | ended hstop => exact ⟨rfl, hstop⟩

/-! ### The run of a loop step, turn by turn -/

/-- A loop that does not go on after an iteration has not finished. -/
theorem LoopStrategy.endsAt_ne_finished {strategy : LoopStrategy} {i : Nat}
    {outcome : Option ChildrenOutcome} (h : ¬ strategy.GoesOn outcome) :
    strategy.endsAt i outcome ≠ .finished := by
  rcases outcome with _ | _ | _ | _ <;> cases strategy <;>
    simp_all [LoopStrategy.endsAt, LoopStrategy.GoesOn]

/-- It crashes if and only if its children do. -/
theorem LoopStrategy.endsAt_eq_crashed {strategy : LoopStrategy} {i : Nat}
    {outcome : Option ChildrenOutcome} :
    strategy.endsAt i outcome = .crashed ↔ outcome = none := by
  rcases outcome with _ | _ | _ | _ <;> cases strategy <;> simp [LoopStrategy.endsAt]

/-- **What a loop makes of its turns:** it goes on after all of them, and there are no more for a
reason of the mode, or it does not go on after the last one. The work of the step ends in a frame,
in a certain way. -/
inductive Turn.Settled (strategy : LoopStrategy) (turns : List (Turn ρ σ))
    (spent : Frame ρ σ → Ending → Prop) : Frame ρ σ → Ending → Prop
  | through {g : Frame ρ σ} {ending : Ending} : (∀ t ∈ turns, strategy.GoesOn t.outcome) →
    spent g ending → Settled strategy turns spent g ending
  | cut {t : Turn ρ σ} : turns.getLast? = some t → ¬ strategy.GoesOn t.outcome →
    Settled strategy turns spent t.stop (strategy.endsAt turns.length t.outcome)

section

variable {w : World ρ σ} {step : Step} {s : RunState ρ σ} {mode : LoopMode}
variable {strategy : LoopStrategy} {interval : Binary64}
variable {link : Nat → Frame ρ σ → Frame ρ σ → Prop}

/-- The result after any number of turns from the first one on. -/
theorem Loop.Turns.leaves {l : Loop ρ σ} {f : Frame ρ σ} {turns : List (Turn ρ σ)}
    (hlink : ∀ {k f g}, link k f g → g.result = f.result) (h : l.Turns w link 1 f turns) :
    ∃ i, (Turn.last f turns).result =
        (f.result.numbered i).adding (turns.flatMap Turn.results) ∧
      (turns ≠ [] → i = turns.length) := by
  cases turns with
  | nil =>
    refine ⟨f.result.iteration, ?_, fun h => absurd rfl h⟩
    rw [List.flatMap_nil, StepResult.adding_nil, StepResult.numbered_self]
    rfl
  | cons t rest => exact ⟨_, h.result hlink, fun _ => Nat.add_comm 1 rest.length⟩

/-- **What a loop step tells of its turns:** the number of the last one, and the results of their
children. The run of the step crashes if and only if the children do in its last turn. -/
def Turn.Told (turns : List (Turn ρ σ)) : EStateM.Result Crash (RunState ρ σ) StepResult → Prop
  | .ok r _ => (∀ t ∈ turns, t.outcome ≠ none) ∧ (turns ≠ [] → r.iteration = turns.length) ∧
      r.children = turns.flatMap Turn.results
  | .error _ s' => ∃ t, turns.getLast? = some t ∧ t.outcome = none ∧ s' = t.stop.state

/-- A loop goes on after each turn but the last one. -/
theorem Loop.Turns.goesOn_or_last {l : Loop ρ σ} {i : Nat} {f : Frame ρ σ} {turns : List (Turn ρ σ)}
    (h : l.Turns w link i f turns) {t : Turn ρ σ} (ht : t ∈ turns) :
    l.strategy.GoesOn t.outcome ∨ turns.getLast? = some t := by
  obtain ⟨k, hk⟩ := List.mem_iff_getElem?.mp ht
  by_cases hlast : k + 1 < turns.length
  · exact .inl (h.next k t _ hk (List.getElem?_eq_getElem hlast)).1
  · refine .inr ?_
    obtain ⟨hlength, -⟩ := List.getElem?_eq_some_iff.mp hk
    rw [List.getLast?_eq_getElem?, show turns.length - 1 = k by omega, hk]

theorem LoopStrategy.GoesOn.ne_none {outcome : Option ChildrenOutcome}
    (h : strategy.GoesOn outcome) : outcome ≠ none := by
  obtain rfl | ⟨rfl, -⟩ := h <;> simp

/-- **However the iterations came to an end,** they did so after some turns, which settle how; and
they crash only with the last turn, and always with one that has no outcome. -/
theorem Loop.Went.settled {l : Loop ρ σ} {entry : Frame ρ σ} {spent : List (Turn ρ σ) → Prop}
    {x : EStateM.Result Stop (Frame ρ σ) Tally} (h : l.Went w link 1 entry spent x)
    (done : List (Turn ρ σ) → Frame ρ σ → Ending → Prop)
    (hspent : ∀ turns, spent turns → (endState x).result = (Turn.last entry turns).result ∧
      done turns (endState x) (Exec.verdict x) ∧ Exec.verdict x ≠ .crashed) :
    ∃ turns, l.Turns w link 1 entry turns ∧
      (endState x).result = (Turn.last entry turns).result ∧
      Turn.Settled l.strategy turns (done turns) (endState x) (Exec.verdict x) ∧
      (Exec.verdict x = .crashed →
        ∃ t, turns.getLast? = some t ∧ t.outcome = none ∧ endState x = t.stop) ∧
      ∀ t, turns.getLast? = some t → t.outcome = none → Exec.verdict x = .crashed := by
  cases h with
  | @through turns hturns hall hdone =>
    -- every turn has an outcome after which the loop goes on
    obtain ⟨hend, hverdict, hcrashed⟩ := hspent turns hdone
    exact ⟨turns, hturns, hend, .through hall hverdict, fun h => absurd h hcrashed,
      fun t ht hnone => absurd hnone (hall t (List.mem_of_getLast? ht)).ne_none⟩
  | @cut before t hturns hend hcut =>
    obtain ⟨hstop, hverdict⟩ := hcut.verdict
    have hlength : 1 + before.length = (before ++ [t]).length := by simp [Nat.add_comm]
    rw [hverdict, hlength, hstop]
    exact ⟨before ++ [t], hturns, by simp [Turn.last], .cut (by simp) hend,
      fun hcrash => ⟨t, by simp, LoopStrategy.endsAt_eq_crashed.mp hcrash, rfl⟩,
      by simp [LoopStrategy.endsAt_eq_crashed]⟩

/-- **A loop step ran its turns.** -/
theorem Step.ran_turns (h : step.Loops s.context.settings mode strategy interval)
    (hlink : ∀ {k f g}, link k f g → g.result = f.result)
    {entry : Frame ρ σ} (hentry : entry.result = (step.loopFrame w s mode strategy).result)
    {spent : List (Turn ρ σ) → Prop} {x : EStateM.Result Stop (Frame ρ σ) Tally}
    (hx : Exec.iterations w mode (step.asLoop w strategy interval)
      (step.loopFrame w s mode strategy) = x)
    (hwent : (step.asLoop w strategy interval).Went w link 1 entry spent x)
    (done : List (Turn ρ σ) → Frame ρ σ → Ending → Prop)
    (hspent : ∀ turns, spent turns → (endState x).result = (Turn.last entry turns).result ∧
      done turns (endState x) (Exec.verdict x) ∧ Exec.verdict x ≠ .crashed) :
    ∃ turns g ending, (step.asLoop w strategy interval).Turns w link 1 entry turns ∧
      Turn.Settled strategy turns (done turns) g ending ∧
      Ran s g ending (step.run w s) ∧ Turn.Told turns (step.run w s) := by
  obtain ⟨turns, hturns, hend, hsettled, hcrash, hcrashed⟩ := hwent.settled done hspent
  obtain ⟨i, hresult, hi⟩ := hturns.leaves hlink
  rw [hentry, ← hend] at hresult
  have hran := Step.ran_loop h hx hresult
  refine ⟨turns, _, _, hturns, hsettled, hran, ?_⟩
  -- what the step leaves tells of the turns, whether it ends with a result or crashes
  cases hrun : step.run w s with
  | error crash s' =>
    rw [hrun] at hran
    obtain ⟨t, hlast, hnone, hstop⟩ := hcrash hran.1
    exact ⟨t, hlast, hnone, hran.2.trans (congrArg Frame.state hstop)⟩
  | ok r s' =>
    rw [hrun] at hran
    obtain ⟨hended, hleft⟩ := hran
    refine ⟨fun t ht hnone => ?_, fun hne => ?_, ?_⟩
    · obtain hgoes | hlast := hturns.goesOn_or_last ht
      · exact hgoes.ne_none hnone
      · exact hended (hcrashed t hlast hnone)
    · rw [hleft.iteration, hresult]
      exact hi hne
    · rw [hleft.children, hresult]
      rfl

end

/-! ### Runs that are evaluated -/

/-- What is seen of the run of a step, if it ends. -/
def Step.seen {α : Type} (look : StepResult → RunState ρ σ → α) (w : World ρ σ) (step : Step)
    (s : RunState ρ σ) : Option α :=
  match step.run w s with
  | .ok r s' => some (look r s')
  | .error _ _ => none

theorem Step.run_of_seen {α : Type} {look : StepResult → RunState ρ σ → α} {w : World ρ σ}
    {step : Step} {s : RunState ρ σ} {a : α} (h : step.seen look w s = some a) :
    ∃ r s', step.run w s = .ok r s' ∧ look r s' = a := by
  unfold Step.seen at h
  cases hrun : step.run w s with
  | error crash s' =>
    rw [hrun] at h
    cases h
  | ok r s' =>
    rw [hrun] at h
    exact ⟨r, s', rfl, Option.some.inj h⟩

end Scenario
