import Mathlib.Logic.Relation
import Scenario.Proofs.Kin.Calm

/-!
# Inclusion is splicing

An include step does to a run what a group of the steps of its case would do in its place.
-/

namespace Scenario

variable {ρ σ : Type}

/-! ### The case of an include step -/

/-- **A step gets a case:** it names it, and the case can be loaded and is shared. -/
structure Outside.Gets (o : Outside ρ) (step : StepFields) (outside : ρ) (id : Int)
    (record : CaseRecord) : Prop where
  named : step.includedCase = some id
  loaded : (o.loadTrouble id outside).1 = none
  found : o.library.find? id = some record
  shared : record.visibility = .shared

/-- The frame after a question to the outside. -/
def Frame.asking (f : Frame ρ σ) (outside : ρ) : Frame ρ σ :=
  f.mapState fun s => { s with outside }

namespace Exec

variable (w : World ρ σ) {step : StepFields} {id : Int} {record : CaseRecord} {f : Frame ρ σ}

/-- Loading a case asks the outside, and then the library. -/
theorem loadCase_eq (id : Int) (f : Frame ρ σ) :
    loadCase w id f =
      match (w.loadTrouble id f.state.outside).1, w.library.find? id with
      | some reason, _ => fail (.execution (.caseNotLoaded id reason))
          (f.asking (w.loadTrouble id f.state.outside).2)
      | none, some record => .ok record (f.asking (w.loadTrouble id f.state.outside).2)
      | none, none => misfit (.includedCaseUnknown id)
          (f.asking (w.loadTrouble id f.state.outside).2) := by
  have hlift : ∀ l : Option String → Exec ρ σ CaseRecord,
      (lift (fun s : RunState ρ σ => ((w.loadTrouble id s.outside).1,
        { s with outside := (w.loadTrouble id s.outside).2 })) >>= l) f =
        l (w.loadTrouble id f.state.outside).1 (f.asking (w.loadTrouble id f.state.outside).2) :=
    fun _ => rfl
  refine (hlift _).trans ?_
  cases (w.loadTrouble id f.state.outside).1 with
  | some reason => rfl
  | none => cases w.library.find? id <;> rfl

theorem includedCase_eq_ok (h : w.Gets step f.state.outside id record) :
    includedCase w step f =
      .ok (id, record) (f.asking (w.loadTrouble id f.state.outside).2) := by
  unfold includedCase
  rw [h.named]
  change EStateM.bind (loadCase w id) _ f = _
  unfold EStateM.bind
  rw [loadCase_eq, h.loaded, h.found]
  dsimp only
  rw [h.shared]
  rfl

/-- An include step that does not get a case stops, and has asked for one at most. -/
theorem includedCase_eq_error (h : ∀ id record, ¬ w.Gets step f.state.outside id record) :
    ∃ fault outside, includedCase w step f = .error (.fault fault) (f.asking outside) := by
  unfold includedCase
  cases hid : step.includedCase with
  | none => exact ⟨_, f.state.outside, rfl⟩
  | some id =>
    change ∃ fault outside, EStateM.bind (loadCase w id) _ f = _
    unfold EStateM.bind
    rw [loadCase_eq]
    cases hload : (w.loadTrouble id f.state.outside).1 with
    | some reason => exact ⟨_, _, rfl⟩
    | none =>
      cases hrecord : w.library.find? id with
      | none => exact ⟨_, _, rfl⟩
      | some record =>
        dsimp only
        cases hv : record.visibility with
        | restricted => exact ⟨_, _, rfl⟩
        | shared => exact absurd ⟨hid, hload, hrecord, hv⟩ (h id record)

/-- The frame in which the steps of an included case start. -/
def visiting (id : Int) (record : CaseRecord) (f : Frame ρ σ) : Frame ρ σ :=
  (((f.asking (w.loadTrouble id f.state.outside).2).mapContext fun ctx =>
    { ctx with including := ctx.including ++ [id] }).mapState
      (RunState.note w (.included id record.steps.length))).mapState
        (RunState.log w ("including case " ++ toString id ++ " (" ++ record.header.code ++
          ") with " ++ toString record.steps.length ++ " root step(s)"))

/-- **An include step that gets its case** runs the steps of the case with the case on the stack. -/
theorem inclusion_eq (ready : List Step → List (Ready ρ σ))
    (h : w.Gets step f.state.outside id record) (hsteps : record.steps ≠ [])
    (hid : id ∉ f.state.context.including) :
    inclusion w ready step f =
      (runChildren w false (Ready.ordered (ready record.steps)) >>= fun outcome =>
        leave id >>= fun _ => settle "included case" outcome) (visiting w id record f) := by
  have hempty : record.steps.isEmpty = false := by simpa using hsteps
  unfold inclusion
  change EStateM.bind (includedCase w step) _ f = _
  unfold EStateM.bind
  rw [includedCase_eq_ok w h]
  dsimp only
  rw [hempty]
  change EStateM.bind (enter id) _ _ = _
  unfold EStateM.bind
  rw [enter_eq_ok (f := f.asking (w.loadTrouble id f.state.outside).2) hid]
  rfl

/-- **An include step in every other situation** runs nothing, and nothing changes but the trace, the
outside and its own words. -/
theorem inclusion_idle (ready : List Step → List (Ready ρ σ))
    (h : ∀ id record, w.Gets step f.state.outside id record → record.steps ≠ [] →
      id ∈ f.state.context.including) :
    ∃ stop g, inclusion w ready step f = raise stop g ∧
      g.state.context.silent = f.state.context.silent ∧
      g.result.children = f.result.children ∧ g.result.extracted = f.result.extracted := by
  unfold inclusion
  change ∃ stop g, EStateM.bind (includedCase w step) _ f = _ ∧ _
  unfold EStateM.bind
  by_cases hgets : ∃ id record, w.Gets step f.state.outside id record
  · obtain ⟨id, record, hgets⟩ := hgets
    rw [includedCase_eq_ok w hgets]
    dsimp only
    cases hempty : record.steps.isEmpty with
    | true => exact ⟨none, _, rfl, rfl, rfl, rfl⟩
    | false =>
      have hid : id ∈ (f.asking (w.loadTrouble id f.state.outside).2).state.context.including :=
        h id record hgets (by simpa using hempty)
      refine ⟨some (.configuration (.circularInclusion (f.state.context.including ++ [id]))),
        f.asking (w.loadTrouble id f.state.outside).2, ?_, rfl, rfl, rfl⟩
      change EStateM.bind (enter id) _ _ = _
      unfold EStateM.bind
      rw [enter_eq_fault hid]
      rfl
  · obtain ⟨fault, outside, hstop⟩ := includedCase_eq_error w
      fun id record hg => hgets ⟨id, record, hg⟩
    rw [hstop]
    exact ⟨some fault, _, rfl, rfl, rfl, rfl⟩

end Exec

/-! ### Steps that end -/

/-- The fault of a step of which some outcome below it came. -/
def ChildrenOutcome.fault? (container : String) : ChildrenOutcome → Option Fault
  | .passed => none
  | .failed => some (.execution (.childFailed container))
  | .aborted => some (.aborted (.inside container))

theorem Exec.settle_eq_raise (container : String) (outcome : ChildrenOutcome) :
    (Exec.settle container outcome : Exec ρ σ Unit) = Exec.raise (outcome.fault? container) := by
  cases outcome <;> rfl

/-! ### The cases that a step reaches -/

/-- **A step may include a case:** it is an include step of the case, or one below it is. Cases that
are not there or not shared do not count. -/
inductive Step.Includes (library : Library) : Step → Int → Prop
  | here {step : Step} {id : Int} {record : CaseRecord} : step.declaredKind = .ok .inclusion →
    step.includedCase = some id → library.find? id = some record → record.visibility = .shared →
    Includes library step id
  | child {step child : Step} {id : Int} : child ∈ step.children → Includes library child id →
    Includes library step id

/-- **The inclusion graph:** one case may include another one. -/
def Library.Leads (library : Library) (id next : Int) : Prop :=
  ∃ record, library.find? id = some record ∧ ∃ step ∈ record.steps, step.Includes library next

/-- A case that a step may include, or that may be included on the way. -/
def Step.Reaches (library : Library) (step : Step) (id : Int) : Prop :=
  ∃ first, step.Includes library first ∧ Relation.ReflTransGen library.Leads first id

/-- A step that reaches none of the cases on a stack, and no case that reaches itself. -/
def Step.Clear (library : Library) (stack : List Int) (step : Step) : Prop :=
  ∀ id, step.Reaches library id → id ∉ stack ∧ ¬ Relation.TransGen library.Leads id id

/-- Such steps fit, as do those that they run, if the other run is in fewer cases. -/
theorem Library.fits_clear (library : Library) :
    Fits library (fun _ => True) fun left right step => right ⊆ left ∧ step.Clear library left where
  key _ := trivial
  child hstep c hc := ⟨hstep.1, fun id ⟨first, hfirst, hway⟩ =>
    hstep.2 id ⟨first, .child hc hfirst, hway⟩⟩
  inclusion {left right step} hstep hkind id record hid hrecord hshared := by
    obtain ⟨hsubset, hclear⟩ := hstep
    have hhere := Step.Includes.here hkind hid hrecord hshared
    obtain ⟨hleft, hloop⟩ := hclear id ⟨id, hhere, .refl⟩
    have hsubset' : right ++ [id] ⊆ left ++ [id] := 
      List.append_subset.mpr ⟨fun x hx => List.mem_append_left _ (hsubset hx),
        List.subset_append_right _ _⟩
    refine .inr ⟨hleft, fun hr => hleft (hsubset hr), fun c hc => ⟨hsubset', fun x hx => ?_⟩⟩
    -- what the case reaches is reached through it, and it is not the case itself
    obtain ⟨first, hfirst, hway⟩ := hx
    have hfrom : Relation.TransGen library.Leads id x :=
      Relation.TransGen.head' ⟨record, hrecord, c, hc, hfirst⟩ hway
    have hne : x ≠ id := fun h => hloop (h ▸ hfrom)
    obtain ⟨hl, hx⟩ := hclear x ⟨id, hhere, hfrom.to_reflTransGen⟩
    exact ⟨by simp [hl, hne], hx⟩

/-! ### Children of different steps -/

/-- **The frames of two different steps** whose children correspond: their results are as they were
at first, but for these. -/
def Correspondence.beneath (C : Correspondence ρ σ τ) (p : C.Place) (own own' : StepResult) :
    Link ρ σ τ :=
  { C.link p with
    kept := fun f g => C.inside p f.state g.state ∧ ∃ children children',
      StepResult.MatchAll C.strict children children' ∧
        f.result = { own with children } ∧ g.result = { own' with children := children' } }

namespace Correspondence.Lawful

variable {C : Correspondence ρ σ τ} {p : C.Place} {w : World ρ σ} {r : Recorder τ}
variable (h : C.Lawful w r)

include h

/-- **Children that correspond** do so whichever steps they are the children of. -/
theorem runChildren_beneath (own own' : StepResult) (halt : Bool) {cs : List (Ready ρ σ)}
    {ds : List (Ready ρ τ)} (hcs : List.Forall₂ (C.Paired p) cs ds) :
    (C.beneath p own own').Holds Eq (Exec.runChildren w halt cs)
      (Exec.runChildren (w.recordedBy r) halt ds) := by
  have hnote : ∀ n, (C.beneath p own own').Holds Eq (Exec.note w n)
      (Exec.note (w.recordedBy r) n) := by
    refine fun n => .act (fun f g hfg => ⟨?_, hfg.2⟩) (fun _ hx => (h.tie p).lost hx n)
      fun _ hy => (h.tie p).lost' hy n
    exact ((h.tie p).note (f := ⟨f.state, default⟩) (g := ⟨g.state, default⟩) ⟨hfg.1, .rfl⟩ n).1
  have hchild : ∀ c d, C.Paired p c d → (C.beneath p own own').Holds
      (StepResult.Matches C.strict) (Exec.runChild c) (Exec.runChild d) := by
    refine fun c d hcd => ⟨fun f g hfg => ?_, .runChild hcd.left, .runChild hcd.right⟩
    obtain ⟨hst, children, children', hmatch, hf, hg⟩ := hfg
    have hend := hcd.run f.state g.state hst
    unfold Exec.runChild
    generalize c.run f.state = x, d.run g.state = y at hend
    cases hend with
    | @ok a b s t hab hst =>
      refine .ok hab ⟨hst, children ++ [a], children' ++ [b], ⟨?_, fun hs => ?_⟩, ?_, ?_⟩
      · simp [hmatch.erased, hab.erased]
      · rw [hmatch.same hs, hab.same hs]
      · simp [hf]
      · simp [hg]
    | crash hst => exact .crash hst
    | lost hx => exact .lost (by cases x <;> exact hx)
    | lost' hy => exact .lost' (by cases y <;> exact hy)
  exact .runChildren hnote halt (hcs.imp fun c d hcd => ⟨hcd.fields, hchild c d hcd⟩)

end Correspondence.Lawful

/-! ### Splicing -/

/-- **Steps that come to the same:** they have the same children, succeed or fail alike, and leave
behind what the rest of a run goes on with. Where their clocks do not agree, the times in their
results may differ. -/
inductive Spliced (strict : Prop) (near : Option Http.Client × ρ → Option Http.Client × ρ → Prop) :
    EStateM.Result Crash (RunState ρ σ) StepResult →
    EStateM.Result Crash (RunState ρ τ) StepResult → Prop
  | done {a b : StepResult} {s : RunState ρ σ} {t : RunState ρ τ}
    (children : StepResult.MatchAll strict a.children b.children)
    (success : a.success = b.success) (aborted : a.aborted = b.aborted)
    (sees : s.context.Sees t.context) (stack : s.context.including = t.context.including)
    (key : s.context.key = t.context.key) (iteration : s.context.iteration = t.context.iteration)
    (next : near (s.context.client, s.outside) (t.context.client, t.outside)) :
    Spliced strict near (.ok a s) (.ok b t)
  | crash {crash : Crash} {s : RunState ρ σ} {t : RunState ρ τ} :
    Spliced strict near (.error crash s) (.error crash t)

/-- What a container step leaves behind, when its children have been run. -/
theorem runStep_settled {w : World ρ σ} {step : StepFields} {work : Exec ρ σ Unit}
    {s : RunState ρ σ} {container : String} {outcome : ChildrenOutcome} {f : Frame ρ σ}
    {children : List StepResult}
    (h : work (s.openingFrame w step) = Exec.settle container outcome f)
    (hf : f.result = { (s.openingFrame w step).result with children }) :
    ∃ result s', runStep w step work s = .ok result s' ∧ result.children = children ∧
      result.success = decide (outcome = .passed) ∧
      result.aborted = decide (outcome = .aborted) ∧
      s'.context.silent = { f.state.context.silent with
        key := s.context.key, defined := s.context.defined, extract := s.context.extract } ∧
      s'.outside = f.state.outside := by
  rw [Exec.settle_eq_raise] at h
  obtain ⟨result, s', hrun, hchildren, hsuccess, haborted, hsilent, houtside⟩ := runStep_ended h
  rw [hf] at hchildren hsuccess haborted hsilent
  refine ⟨result, s', hrun, hchildren, hsuccess.trans ?_, haborted.trans ?_, hsilent, houtside⟩
  · cases outcome <;> rfl
  · cases outcome <;> rfl

namespace Kinship

variable {K : Kinship ρ σ τ} {w : World ρ σ} {w' : World ρ τ} {stack : List Int} {id : Int}
variable {key : Option String} {step step' : StepFields} {s : RunState ρ σ} {t : RunState ρ τ}

/-- **An include step and a group** come to the same if the steps below them do. -/
theorem spliced (hshared : ∀ key, K.shared key)
    (hkey : s.context.key = t.context.key) (hdefined : s.context.defined = t.context.defined)
    (hextract : s.context.extract = t.context.extract)
    {work : Exec ρ σ Unit} {work' : Exec ρ τ Unit} {m : Exec ρ σ ChildrenOutcome}
    {m' : Exec ρ τ ChildrenOutcome} {f : Frame ρ σ} {g : Frame ρ τ} {container container' : String}
    (hwork : work (s.openingFrame w step) =
      (m >>= fun outcome => Exec.leave id >>= fun _ => Exec.settle container outcome) f)
    (hwork' : work' (t.openingFrame w' step') =
      (m' >>= fun outcome => Exec.settle container' outcome) g)
    (hm : m.Faultless)
    (hend : (K.correspondence.beneath ⟨stack ++ [id], stack, key⟩ (s.openingFrame w step).result
      (t.openingFrame w' step').result).Ends Eq (m f) (m' g))
    (hl : ¬ K.lost (endState (m f)).state.records)
    (hr : ¬ K.lost' (endState (m' g)).state.records) :
    Spliced K.strict K.near (runStep w step work s) (runStep w' step' work' t) := by
  change work (s.openingFrame w step) = EStateM.bind m _ f at hwork
  change work' (t.openingFrame w' step') = EStateM.bind m' _ g at hwork'
  have hfault := hm f
  unfold EStateM.bind at hwork hwork'
  generalize m f = x, m' g = y at hend hwork hwork' hfault hl hr
  cases hend with
  | fault _ => exact absurd rfl (hfault _ _)
  | crash _ =>
    rw [runStep_eq, runStep_eq, hwork, hwork']
    exact .crash
  | lost hx => exact absurd hx hl
  | lost' hy => exact absurd hy hr
  | @ok outcome _ f g hsame hkept =>
    subst hsame
    obtain ⟨⟨hst, ⟨hleft, -⟩, hright, -⟩, children, children', hmatch, hf, hg⟩ := hkept
    -- the case is still on top of the stack, and is taken off it
    obtain ⟨a, s', hrun, hchildren, hsuccess, haborted, hsilent, houtside⟩ :=
      runStep_settled (f := f.mapContext fun ctx => ctx.leave id) hwork hf
    obtain ⟨b, t', hrun', hchildren', hsuccess', haborted', hsilent', houtside'⟩ :=
      runStep_settled hwork' hg
    rw [hrun, hrun']
    simp only [Frame.mapContext, Frame.mapState, Context.leave_concat hleft] at hsilent houtside
    -- each of them is left as it was found, but for what its children have done to the session
    have left : ∀ {α : Type} (view : Context → α), view s'.context.silent = view _ :=
      fun view => congrArg view hsilent
    have right : ∀ {α : Type} (view : Context → α), view t'.context.silent = view _ :=
      fun view => congrArg view hsilent'
    refine .done ?_ ?_ ?_ ⟨?_, ?_, ?_, ?_, ?_⟩ ?_ ?_ ?_ ?_
    · rw [hchildren, hchildren']
      exact hmatch
    · rw [hsuccess, hsuccess']
    · rw [haborted, haborted']
    · exact (left (·.environment)).trans (hst.sees.environment.trans (right (·.environment)).symm)
    · exact (left (·.settings)).trans (hst.sees.settings.trans (right (·.settings)).symm)
    · exact (left (·.defined)).trans (hdefined.trans (right (·.defined)).symm)
    · exact (left (·.session)).trans (hst.sees.session.trans (right (·.session)).symm)
    · exact (left (·.extract)).trans (hextract.trans (right (·.extract)).symm)
    · exact (left (·.including)).trans (hright.symm.trans (right (·.including)).symm)
    · exact (left (·.key)).trans (hkey.trans (right (·.key)).symm)
    · have hiteration : f.state.context.iteration = g.state.context.iteration :=
        funext fun k => hst.iterations k (hshared k)
      exact (left (·.iteration)).trans (hiteration.trans (right (·.iteration)).symm)
    · have hclient : s'.context.client = f.state.context.client := left (·.client)
      have hclient' : t'.context.client = g.state.context.client := right (·.client)
      rw [houtside, houtside', hclient, hclient']
      exact hst.near

end Kinship

/-! ### Runs of steps and their transcripts -/

/-- The state of a run at the start of a transcript. -/
def RunState.transcribing (s : RunState ρ σ) : RunState ρ (Transcript σ) :=
  ⟨s.context, s.outside, { records := s.records }⟩

/-- A run of a step in which the time of a condition loop was up. -/
def Step.TimesOut (w : World ρ σ) (step : Step) (s : RunState ρ σ) : Prop :=
  (endState (step.run w.transcribed s.transcribing)).records.TimedOut

/-- A run of a step is like the transcribed one. -/
theorem Step.run_transcribed (w : World ρ σ) (step : Step) (s : RunState ρ σ) :
    AlikeRun (fun t u => RunState.seen Transcript.records t = u)
      (fun t u => RunState.seen Transcript.records t = u)
      (step.run w.transcribed s.transcribing) (step.run w s) := by
  have hpaired := Coupling.step_paired
    ((w.toRecorder.transcribed_shows.coupling (w := w)).includedSteps_paired
      s.context.including) step
  have hend := hpaired.run s.context.key s.transcribing s ⟨⟨.rfl, rfl, rfl, rfl, rfl⟩, rfl⟩
  change AlikeRun _ _ (step.run w.transcribed s.transcribing) (step.run w s) at hend
  generalize step.run w.transcribed s.transcribing = x, step.run w s = y at hend
  cases hend with
  | ok h => exact .ok (Recorder.Shows.coupled_iff.mp h.1)
  | crash h => exact .crash (Recorder.Shows.coupled_iff.mp h)

/-- What steps come to does not depend on what is transcribed. -/
theorem Spliced.seen {strict : Prop}
    {near : Option Http.Client × ρ → Option Http.Client × ρ → Prop}
    {w : World ρ σ} {step step' : Step} {s : RunState ρ σ}
    (h : Spliced strict near (step.run w.transcribed s.transcribing)
      (step'.run w.transcribed s.transcribing)) :
    Spliced strict near (step.run w s) (step'.run w s) := by
  have hleft := Step.run_transcribed w step s
  have hright := Step.run_transcribed w step' s
  generalize step.run w.transcribed s.transcribing = x, step.run w s = y at h hleft
  generalize step'.run w.transcribed s.transcribing = x', step'.run w s = y' at h hright
  cases h with
  | done children success aborted sees stack key iteration next =>
    cases hleft with
    | ok hl =>
      cases hright with
      | ok hr =>
        subst hl
        subst hr
        exact .done children success aborted sees stack key iteration next
  | crash =>
    cases hleft with
    | crash _ =>
      cases hright with
      | crash _ => exact .crash

/-! ### Inclusion and splicing -/

section

variable (w : World ρ σ) {step : Step} {s : RunState ρ σ}

/-- The work of an include step. -/
theorem Step.run_included (hkind : step.declaredKind = .ok .inclusion) :
    step.run w = runStep w step.toStepFields
      (Exec.inclusion w (runnable w) step.toStepFields) := by
  rw [Step.run_eq w]
  unfold workOf
  rw [hkind]
  rfl

/-- The work of a group. -/
theorem Step.run_group (hkind : step.declaredKind = .ok .group) :
    step.run w = runStep w step.toStepFields
      (Exec.runChildren w false (Ready.ordered (runnable w step.children)) >>= fun outcome =>
        Exec.settle "group" outcome) := by
  rw [Step.run_eq w]
  unfold workOf
  rw [hkind]
  rfl

/-- **An include step that runs nothing** leaves everything but the trace as it was. -/
theorem Step.run_idle (hkind : step.declaredKind = .ok .inclusion)
    (h : ∀ id record, w.Gets step.toStepFields s.outside id record → record.steps ≠ [] →
      id ∈ s.context.including) :
    ∃ result s', step.run w s = .ok result s' ∧ result.children = [] ∧
      s'.context.silent = s.context.silent := by
  have hopening := RunState.enterStep_silent w step.toStepFields s
  have hopened : ∀ id record, w.Gets step.toStepFields
      (s.openingFrame w step.toStepFields).state.outside id record → record.steps ≠ [] →
      id ∈ (s.openingFrame w step.toStepFields).state.context.including := by
    rw [RunState.openingFrame_outside, RunState.openingFrame_including]
    exact h
  obtain ⟨stop, g, hwork, hsilent, hchildren, hextracted⟩ :=
    Exec.inclusion_idle w (runnable w) hopened
  obtain ⟨result, s', hrun, hresult, -, -, hleft, -⟩ := runStep_ended hwork
  rw [Step.run_included w hkind]
  refine ⟨result, s', hrun, hresult.trans hchildren, hleft.trans ?_⟩
  -- nothing was extracted, so nothing is merged into the session
  rw [hextracted]
  exact congrArg (fun ctx : Context => { ctx with
    key := s.context.key, defined := s.context.defined, extract := s.context.extract })
    (hsilent.trans hopening)

end

/-- Two runs of one world that may differ in the stack of cases. -/
abbrev Kinship.inOtherCases (σ : Type) (strict : Prop)
    (near : Option Http.Client × ρ → Option Http.Client × ρ → Prop) (home : Context) :
    Kinship ρ (Transcript σ) (Transcript σ) :=
  loose σ σ strict near (fun _ => True) (fun _ => 0) (fun _ => 0) home.reportCode home.reportCode
    home

/-- States that are the same but for the stack and the trace are kindred, if the next answers are. -/
theorem Kinship.inOtherCases_states {strict : Prop}
    {near : Option Http.Client × ρ → Option Http.Client × ρ → Prop}
    {s t : RunState ρ (Transcript σ)} (including : List Int)
    (hsame : s.context.silent = { t.context.silent with including })
    (hnear : near (s.context.client, s.outside) (t.context.client, t.outside)) :
    (inOtherCases σ strict near t.context).States s t where
  sees := ⟨(congrArg Context.environment hsame :), (congrArg Context.settings hsame :),
    (congrArg Context.defined hsame :), (congrArg Context.session hsame :),
    (congrArg Context.extract hsame :)⟩
  near := hnear
  stays := ⟨(congrArg Context.environment hsame :), (congrArg Context.settings hsame :),
    Iff.of_eq (congrArg Context.Connects hsame :)⟩
  stays' := ⟨rfl, rfl, Iff.rfl⟩
  iterations key _ := (congrArg (fun ctx : Context => ctx.iteration key) hsame :)
  counts _ h := absurd trivial h
  traces := trivial
  code := (congrArg Context.reportCode hsame :)
  code' := rfl
  records := trivial

/-- If time runs out in a part of what a step does, it does so in the step. -/
theorem timedOut_runStep {w : World ρ σ} {step : StepFields} {α : Type}
    {work : Exec ρ (Transcript σ) Unit} {m : Exec ρ (Transcript σ) α}
    {k : α → Exec ρ (Transcript σ) Unit} {s : RunState ρ (Transcript σ)}
    {f : Frame ρ (Transcript σ)}
    (hwork : work (s.openingFrame w.transcribed step) = (m >>= k) f)
    (hk : ∀ a, (k a).Keeps Transcript.TimedOut)
    (h : (endState (m f)).state.records.TimedOut) :
    (endState (runStep w.transcribed step work s)).records.TimedOut := by
  refine Correspondence.lost_runStep Transcript.TimedOut
    (fun hx => (Kinship.timedOut_told w hx).1) (fun hx => (Kinship.timedOut_told w hx).2)
    step work s ?_
  rw [hwork]
  exact Exec.Keeps.rest (P := fun _ => True) (fun _ _ _ _ => trivial) (fun a _ => hk a) h

/-- Settling for an outcome tells nobody. -/
theorem Exec.Keeps.settle {q : σ → Prop} (container : String) (outcome : ChildrenOutcome) :
    (Exec.settle container outcome : Exec ρ σ Unit).Keeps q := by
  cases outcome <;> exact fun _ h => h

/-- The children of an include step and those of a group start in kindred states. -/
theorem visiting_states (w : World ρ σ) (step group : StepFields) (s : RunState ρ σ) (id : Int)
    (record : CaseRecord) (strict : Prop)
    {near : Option Http.Client × ρ → Option Http.Client × ρ → Prop}
    (hnear : near (s.context.client, (w.loadTrouble id s.outside).2) (s.context.client, s.outside))
    (hkey : group.key = step.key) (hdefined : group.definedVariables = step.definedVariables) :
    (Kinship.inOtherCases σ strict near
      (s.transcribing.openingFrame w.transcribed group).state.context).correspondence.inside
      ⟨s.context.including ++ [id], s.context.including, some step.key⟩
      (Exec.visiting w.transcribed id record
        (s.transcribing.openingFrame w.transcribed step)).state
      (s.transcribing.openingFrame w.transcribed group).state := by
  have halike := s.transcribing.openingFrame_silent_congr w.transcribed hkey hdefined
  have hstack := s.transcribing.openingFrame_including w.transcribed step
  refine ⟨Kinship.inOtherCases_states (s.context.including ++ [id]) ?_ ?_, ⟨?_, ?_⟩, ?_, ?_⟩
  · -- the included case goes onto the stack, and nothing else of the context changes
    change { (s.transcribing.openingFrame w.transcribed step).state.context.silent with
      including :=
        (s.transcribing.openingFrame w.transcribed step).state.context.including ++ [id] } = _
    rw [hstack]
    exact congrArg (fun ctx : Context => { ctx with including := s.context.including ++ [id] })
      halike.symm
  · change near ((s.transcribing.openingFrame w.transcribed step).state.context.client,
        (w.loadTrouble id (s.transcribing.openingFrame w.transcribed step).state.outside).2)
      ((s.transcribing.openingFrame w.transcribed group).state.context.client,
        (s.transcribing.openingFrame w.transcribed group).state.outside)
    simp only [RunState.openingFrame_client, RunState.openingFrame_outside]
    exact hnear
  · exact congrArg (· ++ [id]) hstack
  · exact s.transcribing.openingFrame_key w.transcribed step
  · exact s.transcribing.openingFrame_including w.transcribed group
  · rw [s.transcribing.openingFrame_key w.transcribed group, hkey]

/-- The children of an include step and those of a group end alike, if they start in kindred states
and do not lead back to a case on the stack. -/
theorem visiting_ends {w : World ρ σ} {strict : Prop}
    {near : Option Http.Client × ρ → Option Http.Client × ρ → Prop}
    (hconcord : w.toOutside.Concord strict near) {home : Context} {stack : List Int} {id : Int}
    {key : Option String} {steps : List Step}
    (hclear : ∀ c ∈ steps, c.Clear w.library (stack ++ [id]))
    {f g : Frame ρ (Transcript σ)} (hst : (Kinship.inOtherCases σ strict near
      home).correspondence.inside ⟨stack ++ [id], stack, key⟩ f.state g.state)
    {own own' : StepResult} (hf : f.result = { own with children := [] })
    (hg : g.result = { own' with children := [] }) :
    ((Kinship.inOtherCases σ strict near home).correspondence.beneath
      ⟨stack ++ [id], stack, key⟩ own own').Ends Eq
      (Exec.runChildren w.transcribed false (Ready.ordered (runnable w.transcribed steps)) f)
      (Exec.runChildren w.transcribed false (Ready.ordered (runnable w.transcribed steps)) g) := by
  have hK : (Kinship.inOtherCases σ strict near home).Lawful w.transcribed
      w.toRecorder.transcribed :=
    Kinship.loose_lawful hconcord (fun _ => True) (fun _ => 0) (fun _ => 0) _ _ home
  have hfit : ∀ c ∈ steps, stack ⊆ stack ++ [id] ∧ c.Clear w.library (stack ++ [id]) :=
    fun c hc => ⟨List.subset_append_left _ _, hclear c hc⟩
  have hpaired := hK.runnable_paired w.library.fits_clear hfit key
  exact (hK.lawful.runChildren_beneath own own' false
    (Correspondence.Paired.ordered hpaired)).ends f g ⟨hst, [], [], .rfl, hf, hg⟩

/-- **Inclusion is splicing.** An include step that gets a case which is not on the stack, and whose
steps reach neither a case on the stack nor one that reaches itself, comes to the same as a group of
the steps of that case, with the key and the variables of the step. To get the case the step asks
the outside something that the group does not ask, so what comes after has to be answered alike;
and unless the clocks agree in spite of that, no condition loop may run out of time. In every other
situation an include step runs nothing, and it leaves everything but the trace as it was. -/
theorem Step.run_inclusion (w : World ρ σ) (step : Step) (s : RunState ρ σ)
    (hkind : step.declaredKind = .ok .inclusion) :
    (∀ id record, w.Gets step.toStepFields s.outside id record → record.steps ≠ [] →
      id ∉ s.context.including →
      (∀ c ∈ record.steps, c.Clear w.library (s.context.including ++ [id])) →
      ∀ (strict : Prop) near, w.toOutside.Concord strict near →
      near (s.context.client, (w.loadTrouble id s.outside).2) (s.context.client, s.outside) →
      ∀ group : Step, group.declaredKind = .ok .group → group.key = step.key →
      group.definedVariables = step.definedVariables → group.children = record.steps →
      (¬ strict → ¬ step.TimesOut w s ∧ ¬ group.TimesOut w s) →
      Spliced strict near (step.run w s) (group.run w s)) ∧
    ((∀ id record, w.Gets step.toStepFields s.outside id record → record.steps ≠ [] →
      id ∈ s.context.including) →
      ∃ result s', step.run w s = .ok result s' ∧ result.children = [] ∧
        s'.context.silent = s.context.silent) := by
  refine ⟨fun id record hgets hsteps hid hclear strict near hconcord hnear group hgroup hkey
    hdefined hchildren hcalm => Spliced.seen ?_, Step.run_idle w hkind⟩
  have hst := visiting_states w step.toStepFields group.toStepFields s id record strict hnear hkey
    hdefined
  have hresult : ∀ step : StepFields, (s.transcribing.openingFrame w.transcribed step).result =
      { (s.transcribing.openingFrame w.transcribed step).result with children := [] } :=
    fun _ => rfl
  have hend := visiting_ends hconcord hclear hst (hresult step.toStepFields)
    (hresult group.toStepFields)
  have hgets' : w.transcribed.Gets step.toStepFields
      (s.transcribing.openingFrame w.transcribed step.toStepFields).state.outside id record := by
    rw [RunState.openingFrame_outside]
    exact ⟨hgets.named, hgets.loaded, hgets.found, hgets.shared⟩
  have hid' : id ∉ (s.transcribing.openingFrame w.transcribed
      step.toStepFields).state.context.including := by
    rw [RunState.openingFrame_including]
    exact hid
  have hwork := Exec.inclusion_eq w.transcribed (runnable w.transcribed) hgets' hsteps hid'
  have hrun := Step.run_included w.transcribed hkind
  have hrun' := Step.run_group w.transcribed hgroup
  rw [hchildren] at hrun'
  rw [hrun, hrun']
  -- a run is lost only if time is up in it
  refine Kinship.spliced (fun _ => trivial) rfl rfl rfl hwork rfl (.runChildren _ _ _) hend
    (fun hlost => (hcalm hlost.1).1 ?_) fun hlost => (hcalm hlost.1).2 ?_
  · unfold Step.TimesOut
    rw [hrun]
    exact timedOut_runStep hwork (fun outcome => .bind (Correspondence.Lawful.keeps_leave _ id)
      fun _ => .settle _ outcome) hlost.2
  · unfold Step.TimesOut
    rw [hrun']
    exact timedOut_runStep rfl (fun outcome => .settle _ outcome) hlost.2

/-- An include step of a case. -/
def Step.includes (id : Int) : Step :=
  ⟨{ kind := some "quote", includedCase := some id, number := some 7 }, []⟩

/-- Two public cases: the first one includes the second one, which holds a group. -/
def Library.nested : Library := [
  { header := { id := some 1 }, visibility := .shared, steps := [.includes 2] },
  { header := { id := some 2 }, visibility := .shared, steps := [⟨{ kind := some "group" }, []⟩] }]

theorem Step.includes_only {library : Library} {id next : Int}
    (h : (Step.includes id).Includes library next) : next = id := by
  cases h with
  | here _ hid _ _ => exact (Option.some.inj hid).symm
  | child hchild _ => cases hchild

/-- Nothing is included but the second case by the first one. -/
theorem Library.nested_leads {id next : Int} (h : Library.nested.Leads id next) :
    id = 1 ∧ next = 2 := by
  obtain ⟨record, hrecord, step, hstep, hnext⟩ := h
  obtain ⟨hmem, hid⟩ := List.mem_filter.mp (List.mem_of_getLast? hrecord)
  simp only [nested, List.mem_cons, List.not_mem_nil, or_false] at hmem
  rcases hmem with rfl | rfl
  · obtain rfl : step = .includes 2 := List.mem_singleton.mp hstep
    exact ⟨(Option.some.inj (of_decide_eq_true hid)).symm, Step.includes_only hnext⟩
  · -- the group includes nothing
    obtain rfl := List.mem_singleton.mp hstep
    cases hnext with
    | here hkind _ _ _ => cases (show Except.ok StepKind.group = .ok .inclusion from hkind)
    | child hchild _ => cases hchild

/-- So the steps of the first case are clear while it is on the stack. -/
theorem Library.nested_clear : (Step.includes 2).Clear Library.nested [1] := by
  rintro id ⟨first, hfirst, hway⟩
  obtain rfl := Step.includes_only hfirst
  have stuck : ∀ {x}, ¬ Library.nested.Leads 2 x := fun h => by simpa using (nested_leads h).1
  obtain rfl : id = 2 := by
    cases hway.cases_head with
    | inl h => exact h.symm
    | inr h => exact absurd h.choose_spec.1 stuck
  refine ⟨by decide, fun h => ?_⟩
  obtain ⟨x, hx, -⟩ := Relation.TransGen.head'_iff.mp h
  exact stuck hx

/-- Including the first case comes to the same as a group of its steps, and in that case itself it
comes to nothing. -/
theorem Step.run_inclusion_nested :
    Spliced True Eq ((Step.includes 1).run (Site.world .nested) ⟨{}, {}, {}⟩)
      ((⟨{ kind := some "group", number := some 7 }, [.includes 2]⟩ : Step).run
        (Site.world .nested) ⟨{}, {}, {}⟩) ∧
    ∃ result s', (Step.includes 1).run (Site.world .nested) ⟨{ including := [1] }, {}, {}⟩ =
      .ok result s' ∧ result.children = [] ∧ s'.context.including = [1] := by
  constructor
  · refine (run_inclusion (Site.world .nested) (.includes 1) ⟨{}, {}, {}⟩ rfl).1 1
      { header := { id := some 1 }, visibility := .shared, steps := [.includes 2] }
      ⟨rfl, rfl, rfl, rfl⟩ (by simp) (by simp) ?_ True Eq (.rfl _) rfl _ rfl rfl rfl rfl
      fun h => absurd trivial h
    intro c hc
    exact List.mem_singleton.mp hc ▸ Library.nested_clear
  · obtain ⟨result, s', hrun, hchildren, hsilent⟩ :=
      (run_inclusion (Site.world .nested) (.includes 1) ⟨{ including := [1] }, {}, {}⟩ rfl).2
        fun id record hgets _ => by
          obtain rfl : 1 = id := Option.some.inj hgets.named
          exact List.mem_singleton_self _
    exact ⟨result, s', hrun, hchildren, (congrArg Context.including hsilent :)⟩

end Scenario
