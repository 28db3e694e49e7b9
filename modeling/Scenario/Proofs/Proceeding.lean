import Scenario.Proofs.Leaves

/-!
# What a run asks of the outside

A run changes the outside by calls and by nothing else, and it never changes its settings. So all
that a run asks of the outside can be told from the calls that a single computation may make, and
that is proved once, along the steps of a case.

* `Outside.Called` — one call: a wait for an admissible number of seconds, a question, a request or
  a script.
* `RunState.Proceeds` — a run comes from one state to another by calls. It waits within the limit of
  its settings, and has a client only if there was one before or its settings can open one.
* `Exec.Proceeding` — computations that proceed; `workOf_proceeding` — the work of a step does, if
  the steps below it do.
* `Step.readyAll_proceeding`, `includedSteps_proceeding` — so do steps that are made ready, by
  induction on the step and on the number of inclusions.
* `runCase_proceeds` — **a run of a case** that does not break down.
-/

namespace Scenario

variable {ρ σ α β : Type}

/-! ### Calls -/

/-- **One call to the outside.** Only an admissible number of seconds is waited for. -/
inductive Outside.Called (o : Outside ρ) (admissible : Binary64 → Prop) (before : ρ) : ρ → Prop
  | slept {seconds : Binary64} : admissible seconds →
    Called o admissible before (o.sleep seconds before)
  | askedHost (project environment : String) :
    Called o admissible before (o.environmentHost project environment before).2
  | loaded (id : Int) : Called o admissible before (o.loadTrouble id before).2
  | sent (client : Http.Client) (request : Http.Request) :
    Called o admissible before (o.send client request before).2.2
  | ranScript (client : Http.Client) (job : ScriptJob) :
    Called o admissible before (o.runScript client job before).2.2

theorem Outside.Called.mono {o : Outside ρ} {admissible admissible' : Binary64 → Prop}
    (himp : ∀ {seconds}, admissible seconds → admissible' seconds) {before after : ρ}
    (h : o.Called admissible before after) : o.Called admissible' before after := by
  cases h with
  | slept hseconds => exact .slept (himp hseconds)
  | askedHost project environment => exact .askedHost project environment
  | loaded id => exact .loaded id
  | sent client request => exact .sent client request
  | ranScript client job => exact .ranScript client job

namespace Settings

/-- The numbers of seconds that a run waits for under the settings. -/
def Admits (settings : Settings) (seconds : Binary64) : Prop :=
  RunState.waitFlaw? settings.waitLimit seconds = none

/-- Settings with which a client can be opened. -/
def Opens (settings : Settings) : Prop := ∃ client, openClient settings = .ok client

end Settings

/-- **A run proceeds** from one state to another. -/
structure RunState.Proceeds (w : World ρ σ) (s t : RunState ρ σ) : Prop where
  settings : t.context.settings = s.context.settings
  outside : Relation.ReflTransGen (w.Called s.context.settings.Admits) s.outside t.outside
  /-- A client was there before, or has been opened. -/
  client : t.context.client.isSome = true →
    s.context.client.isSome = true ∨ s.context.settings.Opens

namespace RunState.Proceeds

variable {w : World ρ σ} {s t u : RunState ρ σ}

theorem trans (hst : s.Proceeds w t) (htu : t.Proceeds w u) : s.Proceeds w u where
  settings := htu.settings.trans hst.settings
  outside := hst.outside.trans (hst.settings ▸ htu.outside)
  client h := by
    obtain ht | ht := htu.client h
    · exact hst.client ht
    · exact .inr (hst.settings ▸ ht)

/-- What touches neither the settings nor the client and asks nothing. -/
theorem aside (hsettings : t.context.settings = s.context.settings)
    (hclient : t.context.client = s.context.client) (houtside : t.outside = s.outside) :
    s.Proceeds w t where
  settings := hsettings
  outside := houtside ▸ .refl
  client h := .inl (hclient ▸ h)

theorem rfl : s.Proceeds w s := aside (Eq.refl _) (Eq.refl _) (Eq.refl _)

/-- What changes the trace alone. -/
theorem of_silent (hcontext : t.context.silent = s.context.silent)
    (houtside : t.outside = s.outside) : s.Proceeds w t :=
  aside (congrArg Context.settings hcontext :) (congrArg Context.client hcontext :) houtside

/-- A call to the outside, by which nothing else changes. -/
theorem call (hcontext : t.context = s.context)
    (houtside : w.Called s.context.settings.Admits s.outside t.outside) : s.Proceeds w t where
  settings := congrArg Context.settings hcontext
  outside := .single houtside
  client h := .inl (hcontext ▸ h)

theorem extended (data : Json.Members) (scope : Scope) (s : RunState ρ σ) :
    s.Proceeds w (s.extend w data scope) := by
  have hcontext := s.extend_silent w data scope
  refine aside ?_ ?_ (s.extend_outside w data scope)
  · exact (congrArg Context.settings hcontext :).trans (by cases scope <;> exact Eq.refl _)
  · exact (congrArg Context.client hcontext :).trans (by cases scope <;> exact Eq.refl _)

end RunState.Proceeds

/-! ### Computations -/

namespace Exec

/-- **Computations that proceed,** however they end. -/
abbrev Proceeding (w : World ρ σ) (m : Exec ρ σ α) : Prop :=
  m.Moves fun f g => f.state.Proceeds w g.state

variable {w : World ρ σ} {m : Exec ρ σ α} {k : α → Exec ρ σ β}

protected theorem Proceeding.bind (hm : m.Proceeding w) (hk : ∀ a, (k a).Proceeding w) :
    (m >>= k).Proceeding w :=
  Moves.bind (fun hfg hgh => hfg.trans hgh) hm hk

theorem Proceeding.asking (hm : m.Moves (Frame.Asking w)) : m.Proceeding w := by
  refine hm.mono fun {f g} hfg => ?_
  refine { settings := ?_, outside := ?_, client := fun h => .inl ?_ }
  · exact (congrArg Context.settings hfg.context :)
  · refine Relation.ReflTransGen.mono ?_ _ _ hfg.outside
    rintro before _ ⟨project, environment, rfl⟩
    exact .askedHost project environment
  · exact (congrArg Context.client hfg.context :) ▸ h

protected theorem Proceeding.pure (a : α) : (pure a : Exec ρ σ α).Proceeding w := fun _ => .rfl

protected theorem Proceeding.fail (fault : Fault) : (fail fault : Exec ρ σ α).Proceeding w :=
  fun _ => .rfl

theorem Proceeding.amend (change : StepResult → StepResult) :
    (amend change : Exec ρ σ Unit).Proceeding w :=
  fun _ => .rfl

theorem Proceeding.act {f : RunState ρ σ → RunState ρ σ}
    (hf : ∀ s : RunState ρ σ, s.Proceeds w (f s)) :
    (act f).Proceeding w :=
  fun frame => hf frame.state

theorem Proceeding.lift {f : RunState ρ σ → α × RunState ρ σ}
    (hf : ∀ s : RunState ρ σ, s.Proceeds w (f s).2) :
    (lift f).Proceeding w :=
  fun frame => hf frame.state

theorem Proceeding.ofExcept (x : Except Fault α) : (ofExcept x : Exec ρ σ α).Proceeding w := by
  cases x with
  | ok a => exact .pure a
  | error fault => exact .fail fault

protected theorem Proceeding.get : (get : Exec ρ σ (Frame ρ σ)).Proceeding w := fun _ => .rfl

theorem Proceeding.context : (context : Exec ρ σ Context).Proceeding w := fun _ => .rfl

variable (w)

theorem log_proceeding (text : String) : (log w text).Proceeding w :=
  .act fun _ => .of_silent rfl rfl

theorem note_proceeding (notice : Notice) : (note w notice).Proceeding w :=
  .act fun _ => .of_silent rfl rfl

theorem now_proceeding : (now w).Proceeding w := fun _ => .rfl

theorem extend_proceeding (data : Json.Members) (scope : Scope) :
    (extend w data scope).Proceeding w :=
  .act (.extended data scope)

/-- **Waiting** proceeds within the limit; else nothing happens. -/
theorem sleep_proceeding (seconds : Binary64) : (sleep w seconds).Proceeding w := by
  refine .bind (.lift fun s => ?_) fun answer => .ofExcept answer
  unfold RunState.sleep
  split
  · exact .rfl
  · next hflaw =>
    exact RunState.Proceeds.trans (.of_silent rfl rfl : s.Proceeds w (s.log w _))
      (.call rfl (.slept hflaw))

/-- **The client** is there, or the settings open one. -/
theorem client_proceeding : (client w).Proceeding w := by
  refine .bind (.lift fun s => ?_) fun answer => ?_
  · unfold RunState.client
    split
    · exact .rfl
    · dsimp only
      split
      · next client hopen => exact ⟨rfl, .refl, fun _ => .inr ⟨client, hopen⟩⟩
      · exact .of_silent rfl rfl
  · cases answer with
    | ok client => exact .pure client
    | error crash => exact fun _ => .rfl

/-- A client that the step goes on with is the client of the run. -/
theorem client_connected {f g : Frame ρ σ} {client : Http.Client}
    (h : Exec.client w f = .ok client g) : g.state.context.client.isSome = true := by
  obtain ⟨answer, f', hanswer, h⟩ := bind_ok h
  obtain ⟨hclient, hstate⟩ : (f.state.client w).1 = answer ∧ (f.state.client w).2 = f'.state := by
    cases hanswer
    exact ⟨rfl, rfl⟩
  cases answer with
  | error crash => cases h
  | ok answer =>
    cases h
    rw [← hstate]
    unfold RunState.client at hclient ⊢
    cases hthere : f.state.context.client with
    | some there => exact congrArg Option.isSome hthere
    | none =>
      cases hopen : openClient f.state.context.settings with
      | ok opened => simp [RunState.note, hopen]
      | error crash => simp [RunState.note, hthere, hopen] at hclient

variable {w} in
/-- What is done with the client of a run. -/
theorem Proceeding.connected {use : Http.Client → RunState ρ σ → α × RunState ρ σ}
    (huse : ∀ client (s : RunState ρ σ), s.context.client.isSome = true →
      s.Proceeds w (use client s).2) :
    (do Exec.lift (use (← client w))).Proceeding w := by
  intro f
  -- the client that is used has just been asked for, so the run has one by then
  have hclient := client_proceeding w f
  cases h : client w f with
  | ok client g =>
    rw [h] at hclient
    rw [bind_eq_ok h]
    exact hclient.trans (huse client g.state (client_connected w h))
  | error stop g =>
    rw [h] at hclient
    rwa [bind_eq_error h]

/-! ### Leaf steps -/

theorem send_proceeding (request : Http.Request) : (send w request).Proceeding w :=
  .connected fun client _ hclient => ⟨rfl, .single (.sent client request), fun _ => .inl hclient⟩

theorem runScript_proceeding (code : String) : (runScript w code).Proceeding w :=
  .connected fun client _ hclient => ⟨rfl, .single (.ranScript client _), fun _ => .inl hclient⟩

theorem logPrinted_proceeding (lines : List String) : (logPrinted w lines).Proceeding w := by
  induction lines with
  | nil => exact .pure ()
  | cons line rest ih => exact .bind (log_proceeding w _) fun _ => ih

theorem logExtracted_proceeding (values : List (String × Json.Value)) :
    (logExtracted w values).Proceeding w := by
  induction values with
  | nil => exact .pure ()
  | cons entry rest ih => exact .bind (log_proceeding w _) fun _ => ih

theorem noteExtracted_proceeding (values : List (String × Json.Value)) :
    (noteExtracted w values).Proceeding w := by
  induction values with
  | nil => exact .pure ()
  | cons entry rest ih => exact .bind (note_proceeding w _) fun _ => ih

theorem check_proceeding (rules : Rules) (response : Response) (json : Option Json.Value) :
    (check w rules response json).Proceeding w := by
  refine .bind .context fun ctx => ?_
  refine .bind .get fun frame => ?_
  refine .bind (noteExtracted_proceeding w _) fun _ => ?_
  exact .bind (.amend _) fun _ => .pure _

theorem raise_proceeding (found : Option Fault) :
    (raise found : Exec ρ σ Unit).Proceeding w := by
  cases found with
  | none => exact .pure ()
  | some fault => exact .fail fault

theorem exchange_proceeding (request : Http.Request) : (exchange w request).Proceeding w := by
  refine .bind (note_proceeding w _) fun _ => ?_
  refine .bind (client_proceeding w) fun _ => ?_
  refine .bind (log_proceeding w _) fun _ => ?_
  refine .bind (now_proceeding w) fun started => ?_
  refine .bind (send_proceeding w request) fun answer => ?_
  cases answer with
  | error trouble =>
    refine .bind (note_proceeding w _) fun _ => ?_
    refine .bind (log_proceeding w _) fun _ => ?_
    exact .bind (note_proceeding w _) fun _ => .fail _
  | ok answer =>
    refine .bind (now_proceeding w) fun ended => ?_
    refine .bind (log_proceeding w _) fun _ => ?_
    exact .bind (note_proceeding w _) fun _ => .pure _

variable (step : StepFields)

theorem respond_proceeding (rules : Rules) (response : Response) :
    (respond w rules response).Proceeding w := by
  refine .bind (log_proceeding w _) fun _ => ?_
  refine .bind (note_proceeding w _) fun _ => ?_
  refine .bind (.amend _) fun _ => ?_
  refine .bind (.amend _) fun _ => ?_
  refine .bind (check_proceeding w rules response _) fun found => ?_
  refine .bind .get fun frame => ?_
  exact .bind (logExtracted_proceeding w _) fun _ => raise_proceeding w found

/-- **A request step** proceeds. -/
theorem requestStep_proceeding : (requestStep w step).Proceeding w := by
  rw [requestStep_eq]
  refine .bind (.asking (request_asking w step)) fun request => ?_
  refine .bind (.asking (rules_asking w step)) fun rules => ?_
  exact .bind (exchange_proceeding w request) fun response => respond_proceeding w rules response

theorem within_proceeding {action : Exec ρ σ Unit} (span : Span) (h : action.Proceeding w) :
    (within w span action).Proceeding w := by
  intro f
  have hnoted : f.state.Proceeds w (f.state.note w (.entered span)) := .of_silent rfl rfl
  have hmoved := hnoted.trans (h (f.mapState (RunState.note w (.entered span))))
  rw [within_eq]
  generalize action (f.mapState (RunState.note w (.entered span))) = x at hmoved ⊢
  cases x <;> exact hmoved.trans (.of_silent rfl rfl)

theorem deliver_proceeding (rules : Rules) (outcome : ScriptOutcome) :
    (deliver w step rules outcome).Proceeding w := by
  unfold deliver
  split
  · exact .amend _
  · refine .bind (note_proceeding w _) fun _ => ?_
    refine .bind (extend_proceeding w _ _) fun _ => ?_
    refine .bind (.amend _) fun _ => ?_
    refine .bind .get fun frame => ?_
    refine .bind (.amend _) fun _ => ?_
    exact .bind (check_proceeding w rules _ _) fun found => raise_proceeding w found

/-- **A script step** proceeds. -/
theorem scriptStep_proceeding : (scriptStep w step).Proceeding w := by
  rw [scriptStep_eq]
  refine .bind (.asking (scriptText_asking w step)) fun code => ?_
  refine .bind (.asking (rules_asking w step)) fun rules => ?_
  refine .bind (runScript_proceeding w code) fun ran => ?_
  cases ran with
  | error fault => exact .bind (log_proceeding w _) fun _ => .fail _
  | ok outcome =>
    exact .bind (logPrinted_proceeding w _) fun _ => deliver_proceeding w step rules outcome

/-- **A wait step** proceeds. -/
theorem wait_proceeding : (wait w step).Proceeding w := by
  unfold wait
  split
  · exact .fail _
  · exact .fail _
  · refine .bind (.asking (resolveValue_asking _)) fun v => ?_
    refine .bind (.ofExcept _) fun seconds => ?_
    exact .bind (sleep_proceeding w seconds) fun _ => .amend _

/-! ### Predicates -/

theorem actualValue_asking (declared : Json.Value) :
    (actualValue w declared).Moves (Frame.Asking w) := by
  refine .asking (resolveValue_asking _) fun found => ?_
  split
  · split
    · exact .silent (.valueOf _)
    · exact pure_asking _
  · exact pure_asking _

theorem evaluate_asking (condition : Condition) :
    (evaluate w condition).Moves (Frame.Asking w) := by
  refine .asking (actualValue_asking w _) fun actual => ?_
  refine .asking (resolveValue_asking _) fun expected => ?_
  refine .asking (ofExcept_asking _) fun holds => ?_
  exact .asking (Moves.silent fun _ => .log _) fun _ => pure_asking _

end Exec

/-! ### Steps that run others -/

/-- A step whose runs proceed. -/
def Ready.Proceeding (w : World ρ σ) (c : Ready ρ σ) : Prop :=
  ∀ s : RunState ρ σ, s.Proceeds w (endState (c.run s))

namespace Exec

variable (w : World ρ σ) {children : List (Ready ρ σ)}

theorem runChild_proceeding {child : Ready ρ σ} (h : child.Proceeding w) :
    (runChild child).Proceeding w := by
  intro f
  have hrun := h f.state
  unfold runChild
  cases hx : child.run f.state <;> rw [hx] at hrun <;> exact hrun

/-- **Steps that are run one after the other** proceed if each does. -/
theorem runChildren_proceeding (halt : Bool) (h : ∀ c ∈ children, c.Proceeding w) :
    (runChildren w halt children).Proceeding w :=
  .runChildren w halt (fun _ => .rfl) (fun hfg hgh => hfg.trans hgh)
    (fun _ _ => .of_silent rfl rfl) fun c hc => runChild_proceeding w (h c hc)

theorem settle_proceeding (container : String) (outcome : ChildrenOutcome) :
    (settle container outcome : Exec ρ σ Unit).Proceeding w := by
  cases outcome with
  | passed => exact .pure ()
  | failed => exact .fail _
  | aborted => exact .fail _

theorem announce_proceeding (text : String) : (announce w text).Proceeding w :=
  .bind (log_proceeding w text) fun _ => .amend _

theorem ordered_proceeding (h : ∀ c ∈ children, c.Proceeding w) :
    ∀ c ∈ Ready.ordered children, c.Proceeding w :=
  fun c hc => h c (mem_orderedBy.mp hc)

/-- **A condition step** proceeds. -/
theorem branch_proceeding (step : StepFields) (h : ∀ c ∈ children, c.Proceeding w) :
    (branch w step children).Proceeding w := by
  refine .bind (.ofExcept _) fun condition => ?_
  refine .bind (.asking (evaluate_asking w condition)) fun holds => ?_
  split
  · refine .bind (announce_proceeding w _) fun _ => ?_
    refine .bind (runChildren_proceeding w false (ordered_proceeding w h)) fun outcome => ?_
    exact settle_proceeding w _ outcome
  · exact announce_proceeding w _

/-- **A group** proceeds. -/
theorem group_proceeding (kind : StepKind) (h : ∀ c ∈ children, c.Proceeding w) :
    (group w kind children).Proceeding w := by
  have hrest : (do settle kind.name (← runChildren w false (Ready.ordered children)) :
      Exec ρ σ Unit).Proceeding w :=
    .bind (runChildren_proceeding w false (ordered_proceeding w h)) fun outcome =>
      settle_proceeding w _ outcome
  unfold group
  split
  · exact .bind (log_proceeding w _) fun _ => hrest
  · exact hrest

/-! #### Include steps -/

theorem includedCase_proceeding (step : StepFields) : (includedCase w step).Proceeding w := by
  unfold includedCase
  split
  · exact .fail _
  · next id _ =>
    refine .bind ?_ fun record => ?_
    · refine .bind (.lift fun s => .call rfl (.loaded id)) fun trouble => ?_
      split
      · exact .fail _
      · split
        · exact .pure _
        · exact .fail _
    · split
      · exact .pure _
      · exact .fail _

theorem enter_proceeding (id : Int) : (enter id : Exec ρ σ Unit).Proceeding w := by
  intro f
  by_cases hid : id ∈ f.state.context.including
  · rw [enter_eq_fault hid]
    exact .rfl
  · rw [enter_eq_ok hid]
    exact .aside rfl rfl rfl

theorem leave_proceeding (id : Int) : (leave id : Exec ρ σ Unit).Proceeding w := by
  refine .act fun s => ?_
  unfold Context.leave
  split
  · exact .aside rfl rfl rfl
  · exact .rfl

/-- **An include step** proceeds if the steps of cases do. -/
theorem inclusion_proceeding {ready : List Step → List (Ready ρ σ)}
    (hready : ∀ steps, ∀ c ∈ ready steps, c.Proceeding w) (step : StepFields) :
    (inclusion w ready step).Proceeding w := by
  refine .bind (includedCase_proceeding w step) fun found => ?_
  obtain ⟨id, record⟩ := found
  dsimp only
  split
  · exact .bind (log_proceeding w _) fun _ => .amend _
  · refine .bind (enter_proceeding w id) fun _ => ?_
    refine .bind (note_proceeding w _) fun _ => ?_
    refine .bind (log_proceeding w _) fun _ => ?_
    have hincluded := runChildren_proceeding w false (ordered_proceeding w (hready record.steps))
    refine .bind hincluded fun outcome => ?_
    exact .bind (leave_proceeding w id) fun _ => settle_proceeding w _ outcome

/-! #### Loops -/

variable {l : Loop ρ σ}

/-- **An iteration** proceeds if the steps in it do. -/
theorem iterate_proceeding (h : ∀ c ∈ l.children, c.Proceeding w) (i : Nat) (tally : Tally) :
    (iterate w l i tally).Proceeding w := by
  intro f
  -- numbers are all that is set before the steps run, and a line all that is logged after them
  have hnumbered : f.state.Proceeds w (l.numbered i f).state := by
    have hcontext := l.numbering_eq i f.state.context
    exact .aside (congrArg Context.settings hcontext :) (congrArg Context.client hcontext :) rfl
  have hrun := hnumbered.trans
    (runChildren_proceeding w (l.strategy ≠ .continue) h (l.numbered i f))
  have hnoted : ∀ g : Frame ρ σ, g.state.Proceeds w (l.noted w i g).state := by
    intro g
    unfold Loop.noted
    split
    · exact .of_silent rfl rfl
    · exact .of_silent rfl rfl
    · exact .rfl
  rw [iterate_eq]
  generalize runChildren w (l.strategy ≠ .continue) l.children (l.numbered i f) = x at hrun ⊢
  rcases x with ⟨_ | _ | _, g⟩ | ⟨stop, g⟩
  · exact hrun
  · cases hstrategy : l.strategy <;> exact hrun.trans (hnoted g)
  · exact hrun
  · exact hrun

theorem pause_proceeding : (pause w l).Proceeding w := by
  unfold pause
  split
  · exact sleep_proceeding w _
  · exact .pure ()

/-- **The iterations of a counting loop** proceed. -/
theorem countIterations_proceeding (h : ∀ c ∈ l.children, c.Proceeding w) (total left i : Nat)
    (tally : Tally) : (countIterations w l total left i tally).Proceeding w := by
  induction left generalizing i tally with
  | zero => exact .pure _
  | succ left ih =>
    refine .bind (log_proceeding w _) fun _ => ?_
    refine .bind (iterate_proceeding w h i tally) fun tally => ?_
    split
    · exact .pure _
    · split
      · exact .bind (pause_proceeding w) fun _ => ih _ _
      · exact ih _ _

theorem countLoop_proceeding (h : ∀ c ∈ l.children, c.Proceeding w) :
    (countLoop w l).Proceeding w := by
  unfold countLoop
  split
  · exact .fail _
  · exact .fail _
  · refine .bind (.asking (resolveValue_asking _)) fun v => ?_
    refine .bind (.ofExcept _) fun total => ?_
    refine .bind (log_proceeding w _) fun _ => ?_
    refine .bind (countIterations_proceeding w h total _ 1 {}) fun tally => ?_
    split
    · exact .bind (.fail _) fun _ => .pure _
    · exact .pure _

theorem source_proceeding (step : StepFields) : (source w step).Proceeding w := by
  unfold source
  split
  · exact .fail _
  · exact .fail _
  · refine .bind (.asking (resolveValue_asking _)) fun v => ?_
    split
    · split
      · exact .bind .context fun ctx => .ofExcept _
      · exact .pure _
    · exact .pure _

/-- **The iterations of a loop over a source** proceed. -/
theorem sourceIterations_proceeding (h : ∀ c ∈ l.children, c.Proceeding w)
    (injected : List Json.Members) (i : Nat) (tally : Tally) :
    (sourceIterations w l injected i tally).Proceeding w := by
  induction injected generalizing i tally with
  | nil => exact .pure _
  | cons first rest ih =>
    refine .bind (extend_proceeding w first .session) fun _ => ?_
    refine .bind (iterate_proceeding w h i tally) fun tally => ?_
    split
    · exact .pure _
    · split
      · exact .bind (pause_proceeding w) fun _ => ih _ _
      · exact ih _ _

theorem iterableLoop_proceeding (h : ∀ c ∈ l.children, c.Proceeding w) :
    (iterableLoop w l).Proceeding w := by
  refine .bind (source_proceeding w l.step) fun found => ?_
  split
  · exact .bind (log_proceeding w _) fun _ => .pure _
  · exact .bind (log_proceeding w _) fun _ => sourceIterations_proceeding w h _ 1 {}
  · exact .fail _
  · exact .fail _

theorem dictLoop_proceeding (h : ∀ c ∈ l.children, c.Proceeding w) :
    (dictLoop w l).Proceeding w := by
  refine .bind (source_proceeding w l.step) fun found => ?_
  split
  · exact .bind (log_proceeding w _) fun _ => .pure _
  · exact .bind (log_proceeding w _) fun _ => sourceIterations_proceeding w h _ 1 {}
  · exact .fail _

theorem timeIsUp_proceeding (timeout : Binary64) (started : Instant) :
    (timeIsUp w timeout started).Proceeding w := by
  unfold timeIsUp
  split
  · exact .bind (now_proceeding w) fun _ => .pure _
  · exact .pure _

theorem stillHolds_proceeding (condition : Condition) (i : Nat) :
    (stillHolds w condition i).Proceeding w := by
  intro f
  have hmoved := Proceeding.asking (evaluate_asking w condition) f
  change f.state.Proceeds w (endState (EStateM.tryCatch (evaluate w condition) _ f)).state
  unfold EStateM.tryCatch
  generalize evaluate w condition f = x at hmoved ⊢
  rcases x with ⟨holds, g⟩ | ⟨fault | crash, g⟩
  · exact hmoved
  -- a fault is caught and logged, a crash is not
  · exact hmoved.trans (.of_silent rfl rfl)
  · exact hmoved

/-- **What is done while there is time** proceeds with the look at the clock. -/
theorem inTime_proceeding (timeout : Binary64) (started : Instant) (text : String) (tally : Tally)
    {rest : Exec ρ σ Tally} (h : rest.Proceeding w) :
    (do
      if ← timeIsUp w timeout started then
        log w text
        pure tally
      else rest : Exec ρ σ Tally).Proceeding w := by
  refine .bind (timeIsUp_proceeding w timeout started) fun up => ?_
  split
  · exact .bind (log_proceeding w text) fun _ => .pure tally
  · exact h

/-- **The iterations of a loop with a predicate** proceed. -/
theorem conditionIterations_proceeding (h : ∀ c ∈ l.children, c.Proceeding w)
    (condition : Condition) (timeout : Binary64) (started : Instant) (left done : Nat)
    (tally : Tally) :
    (conditionIterations w l condition timeout started left done tally).Proceeding w := by
  induction left generalizing done tally with
  | zero =>
    unfold conditionIterations
    exact inTime_proceeding w timeout started _ tally (.fail _)
  | succ left ih =>
    unfold conditionIterations
    refine inTime_proceeding w timeout started _ tally ?_
    refine .bind (log_proceeding w _) fun _ => ?_
    refine .bind (iterate_proceeding w h (done + 1) tally) fun tally => ?_
    split
    · exact .pure _
    · refine .bind (stillHolds_proceeding w condition _) fun holds => ?_
      split
      · exact .bind (pause_proceeding w) fun _ => ih _ _
      · exact .bind (log_proceeding w _) fun _ => .pure _

theorem conditionLoop_proceeding (h : ∀ c ∈ l.children, c.Proceeding w) :
    (conditionLoop w l).Proceeding w := by
  have hrest : ∀ condition timeout, (do
      conditionIterations w l condition timeout (← now w) conditionLoopCeiling 0 {}).Proceeding w :=
    fun condition timeout => .bind (now_proceeding w) fun started =>
      conditionIterations_proceeding w h condition timeout started _ 0 {}
  refine .bind (.ofExcept _) fun condition => ?_
  dsimp only
  split
  · exact .bind (.fail _) fun _ => hrest condition _
  · exact hrest condition _

theorem conclude_proceeding (tally : Tally) : (conclude tally : Exec ρ σ Unit).Proceeding w := by
  refine .bind (.amend _) fun _ => ?_
  split
  · exact .fail _
  · split
    · exact .pure ()
    · exact .fail _

/-- **A loop step** proceeds. -/
theorem loop_proceeding (step : StepFields) (h : ∀ c ∈ children, c.Proceeding w) :
    (loop w step children).Proceeding w := by
  refine .bind (.ofExcept _) fun mode => ?_
  refine .bind (.ofExcept _) fun strategy => ?_
  refine .bind .context fun ctx => ?_
  refine .bind (.ofExcept _) fun interval => ?_
  refine .bind (note_proceeding w _) fun _ => ?_
  refine .bind ?_ fun tally => conclude_proceeding w tally
  have hchildren := ordered_proceeding w h
  cases mode with
  | count => exact countLoop_proceeding w hchildren
  | iterable => exact iterableLoop_proceeding w hchildren
  | dict => exact dictLoop_proceeding w hchildren
  | condition => exact conditionLoop_proceeding w hchildren

end Exec

/-! ### Steps -/

section

variable (w : World ρ σ) {ready : List Step → List (Ready ρ σ)} {children : List (Ready ρ σ)}

/-- **The work of a step** proceeds, if the steps that it runs do. -/
theorem workOf_proceeding (hready : ∀ steps, ∀ c ∈ ready steps, c.Proceeding w) (step : StepFields)
    (hchildren : ∀ c ∈ children, c.Proceeding w) : (workOf w ready step children).Proceeding w := by
  refine .bind (.ofExcept _) fun kind => ?_
  split
  · exact Exec.within_proceeding w _ (Exec.requestStep_proceeding w step)
  · exact Exec.scriptStep_proceeding w step
  · exact Exec.wait_proceeding w step
  · exact Exec.branch_proceeding w step hchildren
  · exact Exec.loop_proceeding w step hchildren
  · exact Exec.inclusion_proceeding w hready step
  · exact Exec.group_proceeding w _ hchildren

/-- **The life of a step** proceeds, if its work does. -/
theorem runStep_proceeding (step : StepFields) {work : Exec ρ σ Unit} (h : work.Proceeding w) :
    Ready.Proceeding w ⟨step, runStep w step work⟩ := by
  intro s
  have hentered : s.Proceeds w (s.openingFrame w step).state :=
    .aside (s.openingFrame_settings w step) (s.openingFrame_client w step)
      (s.openingFrame_outside w step)
  have hleft : ∀ f : Frame ρ σ,
      f.state.Proceeds w (concludeStep w step s.context (w.now s.outside) f).2 := by
    intro f
    have hcontext := concludeStep_silent w step s.context (w.now s.outside) f
    exact .aside (congrArg Context.settings hcontext :) (congrArg Context.client hcontext :)
      (concludeStep_outside w step s.context _ f)
  have hwork := hentered.trans (h (s.openingFrame w step))
  change s.Proceeds w (endState (runStep w step work s))
  rw [runStep_eq]
  generalize work (s.openingFrame w step) = x at hwork ⊢
  -- a crash is not concluded; a fault is recorded first, which makes no call
  rcases x with ⟨_, f⟩ | ⟨fault | crash, f⟩
  · exact hwork.trans (hleft f)
  · have hrecorded : f.state.Proceeds w (recordFault w fault f).state := .of_silent rfl rfl
    exact (hwork.trans hrecorded).trans (hleft (recordFault w fault f))
  · exact hwork

mutual

/-- **A step that is made ready** proceeds, if the steps of included cases do. -/
theorem Step.ready_proceeding (hready : ∀ steps, ∀ c ∈ ready steps, c.Proceeding w) :
    ∀ step : Step, (step.ready w ready).Proceeding w
  | ⟨fields, children⟩ =>
    runStep_proceeding w fields
      (workOf_proceeding w hready fields (Step.readyAll_proceeding hready children))

theorem Step.readyAll_proceeding (hready : ∀ steps, ∀ c ∈ ready steps, c.Proceeding w) :
    ∀ steps : List Step, ∀ c ∈ Step.readyAll w ready steps, c.Proceeding w
  | [] => fun _ hc => absurd hc List.not_mem_nil
  | step :: rest => List.forall_mem_cons.mpr
      ⟨Step.ready_proceeding hready step, Step.readyAll_proceeding hready rest⟩

end

/-- **The steps of included cases** proceed, however many inclusions are in each other. -/
theorem includedSteps_proceeding (depth : Nat) (steps : List Step) :
    ∀ c ∈ includedSteps w depth steps, c.Proceeding w := by
  -- the steps of a case that is included may include cases themselves, at one depth less
  induction depth generalizing steps with
  | zero => exact fun _ hc => absurd hc List.not_mem_nil
  | succ depth ih => exact Step.readyAll_proceeding w ih steps

end

/-! ### Cases -/

/-- **Roots** proceed. -/
theorem runRoots_proceeds (w : World ρ σ) (code : String) (total : Nat)
    {roots : List (Ready ρ σ)} (h : ∀ c ∈ roots, c.Proceeding w) (position : Nat)
    (s : RunState ρ σ) : s.Proceeds w (endState (runRoots w code total roots position s)) := by
  induction roots generalizing position s with
  | nil => exact .rfl
  | cons root rest ih =>
    obtain ⟨hroot, hrest⟩ := List.forall_mem_cons.mp h
    have hnoted : s.Proceeds w (s.note w (.rootReached position total root.fields.key)) :=
      .of_silent rfl rfl
    have hrun := hnoted.trans (hroot (s.note w (.rootReached position total root.fields.key)))
    rw [runRoots_cons]
    generalize root.run (s.note w (.rootReached position total root.fields.key)) = x at hrun ⊢
    cases x with
    | error crash t => exact hrun
    | ok r t =>
      dsimp only
      split
      · exact hrun.trans (.of_silent rfl rfl)
      · have hlast := hrun.trans (ih hrest (position + 1) t)
        generalize runRoots w code total rest (position + 1) t = y at hlast ⊢
        cases y <;> exact hlast

/-- The roots of a case do. -/
theorem rootsOf_proceeding (w : World ρ σ) (steps : List Step) :
    ∀ c ∈ rootsOf w steps, c.Proceeding w :=
  Exec.ordered_proceeding w (Step.readyAll_proceeding w (includedSteps_proceeding w _) steps)

/-- **A run of a case** that does not break down has made calls to the outside, and has a client
only if it was given one or its settings open one. -/
theorem runCase_proceeds (w : World ρ σ) {case : CaseHeader} {steps : List Step}
    {options : RunOptions} {client : Option Http.Client} {outside : ρ} {records : σ}
    {finished : Finished ρ σ}
    (h : runCase w case steps options client outside records = .ok finished) :
    Relation.ReflTransGen (w.Called options.settings.Admits) outside finished.outside ∧
      (finished.client.isSome = true → client.isSome = true ∨ options.settings.Opens) := by
  cases hvalid : validate steps with
  | error e =>
    rw [runCase_invalid hvalid] at h
    cases h
    exact ⟨.refl, .inl⟩
  | ok _ =>
    rcases hopen : openReport w case options (w.now outside)
      (w.note (.entered (.caseRun case.code)) records) with ⟨e | report, opened⟩
    · rw [runCase_refused hvalid hopen] at h
      cases h
      exact ⟨.refl, .inl⟩
    · rw [runCase_forest hvalid hopen, runForest_eq] at h
      have hroots := runRoots_proceeds w case.code (rootsOf w steps).length
        (rootsOf_proceeding w steps) 1 ((startState case options client report outside opened).note w
          (.caseStarted case.code (rootsOf w steps).length))
      generalize runRoots w case.code _ _ 1 _ = x at h hroots
      cases x with
      | error crash s => cases h
      | ok results s =>
        cases h
        refine ⟨?_, hroots.client⟩
        -- closing the client makes no call either
        have hclosed : (s.close w).outside = s.outside := by
          unfold RunState.close
          split <;> rfl
        change Relation.ReflTransGen _ outside (s.close w).outside
        rw [hclosed]
        exact hroots.outside

end Scenario
