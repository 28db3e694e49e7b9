import Scenario.Proofs.Link.Life

/-!
# The life of a step in coupled runs

Coupled runs correspond strictly, and none of them is ever lost. So every step that is run in both
worlds stays coupled, whatever it runs on its way. An include step runs the steps of its case with
one case more on the stack: what it asks of them is that they are paired *there*, and only if the
case was not on the stack before.

* `Coupling.correspondence` — coupled runs as a correspondence; `Coupling.tandem_iff`,
  `Coupling.paired_iff` — what stays coupled is what corresponds.
* `Coupling.work` — the work of a step of any kind, from the steps below it.
* `Coupling.life` — the life of a step whose work stays coupled.
* `Coupling.roots` — the roots of a case.
-/

namespace Scenario

namespace Coupling

variable {ρ σ τ α : Type} {w : World ρ σ} {r : Recorder τ} {K : Coupling w r} {including : List Int}
variable {place : Place}

/-! ### Coupled runs correspond -/

/-- **Coupled runs** as a correspondence: it is strict, and no run is ever lost. -/
def correspondence (K : Coupling w r) : Correspondence ρ σ τ where
  Place := Place
  strict := True
  inside := K.inside
  wrecks _ := K.states
  lost _ := False
  lost' _ := False
  left p := p.including
  right p := p.including
  into := Place.into
  within := Place.within
  numbered _ _ := True

theorem correspondence_link (place : Place) :
    K.correspondence.link place =
      Link.ofLockstep (fun _ => True) (K.frames place) K.wrecks :=
  K.correspondence.link_eq_ofLockstep trivial rfl rfl place

theorem correspondence_tie (place : Place) : Tie w r True (K.correspondence.link place) := by
  rw [correspondence_link]
  exact (bond place).tie (fun _ _ => wreck) fun _ _ h n => states_note h n

/-- What stays coupled at a place is what corresponds there. -/
theorem tandem_iff {m : Exec ρ σ α} {m' : Exec ρ τ α} :
    K.Tandem place m m' ↔ (K.correspondence.link place).Holds Eq m m' := by
  rw [correspondence_link]
  exact Lockstep.holds_iff.symm

/-- Steps stay coupled if they are run alike at every place with these cases. -/
theorem paired_iff {c : Ready ρ σ} {d : Ready ρ τ} :
    K.Paired including c d ↔ ∀ key, K.correspondence.Paired ⟨including, key⟩ c d := by
  constructor
  · intro h key
    refine ⟨h.fields, trivial, fun s t hst => ?_, fun _ h => h.elim, fun _ h => h.elim⟩
    have hend := h.run key s t hst
    generalize c.run s = x, d.run t = y at hend
    -- coupled runs are at one place, and their results are equal
    cases hend with
    | ok hst => exact .ok .rfl hst
    | crash hst => exact .crash hst
  · intro h
    refine ⟨(h none).fields, fun key s t hst => ?_⟩
    have hend := (h key).run s t hst
    generalize c.run s = x, d.run t = y at hend
    cases hend with
    | ok hr hst => exact hr.same trivial ▸ .ok hst
    | crash hst => exact .crash hst
    | lost h => exact h.elim
    | lost' h => exact h.elim

/-- The last line of a step, and the detail record right after it. -/
theorem inside_recordDetail {s : RunState ρ σ} {t : RunState ρ τ} {step : StepFields}
    (h : K.inside (place.within step.key) s t) (text : String) (result : StepResult)
    (started : Instant) :
    K.inside (place.within step.key) ((s.log w text).recordDetail w step result started)
      ((t.log (w.recordedBy r) text).recordDetail (w.recordedBy r) step result started) :=
  ⟨K.detail h.1 step (congrArg Place.key h.2) text result started,
    (congrArg Context.place
      (RunState.recordDetail_silent w step result started (s.log w text))).trans h.2⟩

/-- **The correspondence of coupled runs** lasts wherever steps are entered and left. -/
theorem correspondence_living (K : Coupling w r) : K.correspondence.Living w r where
  tie := correspondence_tie
  left_into _ _ := rfl
  right_into _ _ := rfl
  stacked h := ⟨inside_including h, h.1.agrees.including.symm.trans (inside_including h)⟩
  entered {p _ _} h id := ⟨states_mapContext
    (f := fun ctx => { ctx with including := p.including ++ [id] }) h.1 (fun _ => rfl)
    (fun _ => rfl) fun _ => rfl, congrArg (fun q : Place => (⟨p.including ++ [id], q.key⟩ : Place)) h.2⟩
  wrecked h := h
  left {p _ _ _} h := ⟨states_mapContext (f := fun ctx => { ctx with including := p.including }) h.1
    (fun _ => rfl) (fun _ => rfl) fun _ => rfl,
    congrArg (fun q : Place => (⟨p.including, q.key⟩ : Place)) h.2⟩
  keyed h key _ := ⟨states_mapContext (f := fun ctx => { ctx with key := some key }) h.1
    (fun _ => rfl) (fun _ => rfl) fun _ => rfl, congrArg (Place.within · key) h.2⟩
  opened h defined := inside_mapContext (f := fun ctx => { ctx with defined, extract := [] }) h
    (fun _ => rfl) (fun _ => rfl) (fun _ => rfl) fun _ => rfl
  merged h data := inside_mapContext (f := fun ctx => ctx.extend data .session) h (fun _ => rfl)
    (fun _ => rfl) (fun _ => rfl) fun _ => rfl
  iteration h key _ := congrFun h.1.agrees.iteration key
  counted h key _ i := inside_mapContext (f := fun ctx => ctx.setIteration key i) h (fun _ => rfl)
    (fun _ => rfl) (fun _ => rfl) fun _ => rfl
  detail {_ _ _ step} h text text' htext result result' hresult started started' hs := by
    obtain rfl := htext.eq trivial
    obtain rfl := hresult.same trivial
    obtain rfl := hs trivial
    exact inside_recordDetail h text result started
  restored {p s t} h key s' t' h' := by
    have hkey : s.context.key = p.key := congrArg Place.key h.2
    have hincluding : s'.context.including = p.including := (inside_including h' :)
    unfold RunState.leaveStep
    rw [← h.1.agrees.key, ← h.1.agrees.defined, ← h.1.agrees.extract]
    exact ⟨states_mapContext (f := fun ctx => { ctx with
        key := s.context.key, defined := s.context.defined, extract := s.context.extract }) h'.1
      (fun _ => rfl) (fun _ => rfl) fun _ => rfl, congrArg₂ Place.mk hincluding hkey⟩
  wrecked_within h := h
  lost_detail h := h.elim
  lost'_detail h := h.elim

/-! ### Steps -/

/-- What an include step needs to know of the steps of a case: they are paired with that case on the
stack, unless it was there before. -/
def PairedCases (K : Coupling w r) (including : List Int) (ready : List Step → List (Ready ρ σ))
    (ready' : List Step → List (Ready ρ τ)) : Prop :=
  ∀ id record, w.library.find? id = some record → id ∉ including →
    List.Forall₂ (K.Paired (including ++ [id])) (ready record.steps) (ready' record.steps)

/-- **The work of a step** stays coupled, if the steps below it do. -/
theorem work {ready : List Step → List (Ready ρ σ)} {ready' : List Step → List (Ready ρ τ)}
    (hr : K.PairedCases place.including ready ready') (step : StepFields) {cs : List (Ready ρ σ)}
    {ds : List (Ready ρ τ)} (h : List.Forall₂ (K.Paired place.including) cs ds) :
    K.Tandem place (workOf w ready step cs) (workOf (w.recordedBy r) ready' step ds) := by
  refine tandem_iff.mpr (K.correspondence_living.work step trivial (fun _ => ?_)
    (h.imp fun _ _ hcd => paired_iff.mp hcd place.key))
  intro id record _ hrecord _ _
  refine ⟨fun _ _ _ h => h.elim, fun _ _ _ h => h.elim, ?_⟩
  -- the stacks are one, so a case is on both of them or on neither
  by_cases hid : id ∈ place.including
  · exact .inl ⟨hid, rfl⟩
  · exact .inr ⟨hid, hid, (hr id record hrecord hid).imp fun _ _ hcd => paired_iff.mp hcd place.key⟩

/-- **The life of a step** stays coupled, if its work does. -/
theorem life (step : StepFields) {work : Exec ρ σ Unit} {work' : Exec ρ τ Unit}
    (hwork : ∀ key, K.Tandem (Place.within ⟨including, key⟩ step.key) work work') :
    K.Paired including ⟨step, runStep w step work⟩ ⟨step, runStep (w.recordedBy r) step work'⟩ :=
  paired_iff.mpr fun key => K.correspondence_living.life trivial (tandem_iff.mp (hwork key))

variable {s : RunState ρ σ} {t : RunState ρ τ}

/-! ### The roots of a case -/

/-- **Roots** stay coupled. -/
theorem roots (code : String) (total : Nat) {cs : List (Ready ρ σ)} {ds : List (Ready ρ τ)}
    (h : List.Forall₂ (K.Paired place.including) cs ds) (position : Nat)
    (hst : K.inside place s t) :
    AlikeRun (K.inside place) K.states (runRoots w code total cs position s)
      (runRoots (w.recordedBy r) code total ds position t) := by
  -- a notice changes the records alone
  have noted : ∀ {s t}, K.correspondence.inside place s t → ∀ n,
      K.correspondence.inside place (s.note w n) (t.note (w.recordedBy r) n) :=
    fun hst n => ⟨states_note hst.1 n, hst.2⟩
  have hst' : K.correspondence.inside place s t := hst
  have hend := K.correspondence_living.roots code code total total
    (h.imp fun _ _ hcd => paired_iff.mp hcd place.key) position position (fun hst _ _ => noted hst _)
    (fun hst _ => noted hst _) hst'
  generalize runRoots w code total cs position s = x,
    runRoots (w.recordedBy r) code total ds position t = y at hend
  cases hend with
  | ok hr hst => exact hr.same trivial ▸ .ok hst
  | crash hst => exact .crash hst
  | lost h => exact h.elim
  | lost' h => exact h.elim

end Coupling

end Scenario
