import Mathlib.Data.List.Forall2
import Scenario.Proofs.Coupling
import Scenario.Proofs.StepLife

/-!
# Corresponding runs

Two runs correspond place by place. A place says where they are — in which cases, on either side,
and in which step — and whatever else the correspondence holds on to. The states that correspond at
a place are tied, so everything a step does by itself keeps them so; what is left to say of a
correspondence is what becomes of it where a step is entered, where variables are injected and
iterations numbered, and where a case is entered and left.

* `Correspondence.Paired` — steps that are run alike at a place.
* `Correspondence.Lawful.work` — the work of a step of any kind, from the steps below it and, for an
  include step, from those of the case. Either both stacks have that case, and then they are one, or
  neither has it.
* `Correspondence.Lawful.enterStep` — where the work of a step starts.
-/

namespace Scenario

variable {ρ σ τ α β : Type}

/-- **A correspondence** between the states of two runs, by places. -/
structure Correspondence (ρ σ τ : Type) where
  Place : Type
  /-- Whether not even the time may differ. -/
  strict : Prop
  /-- The states that correspond at a place. -/
  inside : Place → RunState ρ σ → RunState ρ τ → Prop
  /-- What a crash at a place leaves behind. -/
  wrecks : Place → RunState ρ σ → RunState ρ τ → Prop
  /-- The records of a run on the left that is not compared any more. -/
  lost : σ → Prop
  /-- The records of a run on the right that is not compared any more. -/
  lost' : τ → Prop
  /-- The cases that are being run on the left. -/
  left : Place → List Int
  /-- The cases that are being run on the right. -/
  right : Place → List Int
  /-- The place inside a further case. -/
  into : Place → Int → Place
  /-- The place in a step with a key. -/
  within : Place → String → Place
  /-- The keys whose iterations are compared. -/
  numbered : Place → String → Prop

/-- Running steps one after the other, if running one of them is linked. -/
theorem Link.Holds.runChildren {L : Link ρ σ τ} {strict : Prop} {w : World ρ σ} {r : Recorder τ}
    (hnote : ∀ n, L.Holds Eq (Exec.note w n) (Exec.note (w.recordedBy r) n)) (halt : Bool)
    {cs : List (Ready ρ σ)} {ds : List (Ready ρ τ)}
    (hcs : List.Forall₂ (fun c d => c.fields = d.fields ∧
      L.Holds (StepResult.Matches strict) (Exec.runChild c) (Exec.runChild d)) cs ds) :
    L.Holds Eq (Exec.runChildren w halt cs) (Exec.runChildren (w.recordedBy r) halt ds) := by
  -- the results of a step on both sides have one verdict, so both sides branch alike
  induction hcs with
  | nil => exact .pure rfl
  | @cons c d cs ds hcd _ ih =>
    obtain ⟨hfields, hchild⟩ := hcd
    refine .bindRel hchild (fun _ => .rfl) fun a b hab => ?_
    rw [hab.aborted, hab.success, hfields]
    split
    · exact .bind (hnote _) fun _ => .pure rfl
    · split
      · exact ih
      · split
        · exact .pure rfl
        · refine .bind ih fun outcome => ?_
          cases outcome <;> exact .pure rfl

namespace Correspondence

section

variable (C : Correspondence ρ σ τ)

/-- The frames that correspond at a place. -/
def link (p : C.Place) : Link ρ σ τ where
  kept f g := C.inside p f.state g.state ∧ f.result.Matches C.strict g.result
  crashed f g := C.wrecks p f.state g.state
  allowed _ := True
  lost := C.lost
  lost' := C.lost'

/-- A strict correspondence without lost runs is a lockstep. -/
theorem link_eq_ofLockstep (hstrict : C.strict) (hlost : C.lost = fun _ => False)
    (hlost' : C.lost' = fun _ => False) (p : C.Place) :
    C.link p = Link.ofLockstep (fun _ => True)
      (fun f g => C.inside p f.state g.state ∧ f.result = g.result)
      fun f g => C.wrecks p f.state g.state := by
  have hkept : (C.link p).kept =
      fun f g => C.inside p f.state g.state ∧ f.result = g.result := by
    funext f g
    -- in a strict comparison results match if they are equal
    exact propext ⟨fun h => ⟨h.1, h.2.same hstrict⟩, fun h => ⟨h.1, h.2 ▸ .rfl⟩⟩
  unfold Link.ofLockstep
  rw [← hkept, ← hlost, ← hlost']
  rfl

/-- **Runs that end alike** at a place, with values that are related. -/
inductive RunEnds (p : C.Place) (V : α → α → Prop) : EStateM.Result Crash (RunState ρ σ) α →
    EStateM.Result Crash (RunState ρ τ) α → Prop
  | ok {a b : α} {s : RunState ρ σ} {t : RunState ρ τ} (hv : V a b) (h : C.inside p s t) :
    RunEnds p V (.ok a s) (.ok b t)
  | crash {crash : Crash} {s : RunState ρ σ} {t : RunState ρ τ} (h : C.wrecks p s t) :
    RunEnds p V (.error crash s) (.error crash t)
  | lost {x : EStateM.Result Crash (RunState ρ σ) α} {y : EStateM.Result Crash (RunState ρ τ) α}
    (h : C.lost (endState x).records) : RunEnds p V x y
  | lost' {x : EStateM.Result Crash (RunState ρ σ) α} {y : EStateM.Result Crash (RunState ρ τ) α}
    (h : C.lost' (endState y).records) : RunEnds p V x y

/-- **Steps that are run alike** at a place. -/
structure Paired (p : C.Place) (c : Ready ρ σ) (d : Ready ρ τ) : Prop where
  fields : c.fields = d.fields
  numbered : C.numbered p c.fields.key
  run : ∀ s t, C.inside p s t →
    C.RunEnds p (StepResult.Matches C.strict) (c.run s) (d.run t)
  left : c.Keeps C.lost
  right : d.Keeps C.lost'

/-- **What becomes of a correspondence** around the steps of a run. -/
structure Lawful (w : World ρ σ) (r : Recorder τ) : Prop where
  tie : ∀ p, Tie w r C.strict (C.link p)
  left_into : ∀ p id, C.left (C.into p id) = C.left p ++ [id]
  right_into : ∀ p id, C.right (C.into p id) = C.right p ++ [id]
  stacked : ∀ {p s t}, C.inside p s t →
    s.context.including = C.left p ∧ t.context.including = C.right p
  /-- A case is entered on both sides. -/
  entered : ∀ {p s t}, C.inside p s t → ∀ id,
    C.inside (C.into p id) { s with context := { s.context with including := C.left p ++ [id] } }
      { t with context := { t.context with including := C.right p ++ [id] } }
  /-- A crash leaves the same behind, in however many cases it happens. -/
  wrecked : ∀ {p id s t}, C.wrecks (C.into p id) s t → C.wrecks p s t
  /-- A case is left on both sides. -/
  left : ∀ {p id s t}, C.inside (C.into p id) s t →
    C.inside p { s with context := { s.context with including := C.left p } }
      { t with context := { t.context with including := C.right p } }
  /-- A step is entered on both sides. -/
  keyed : ∀ {p s t}, C.inside p s t → ∀ key, C.numbered p key →
    C.inside (C.within p key) { s with context := { s.context with key := some key } }
      { t with context := { t.context with key := some key } }
  /-- Its variables are put in force. -/
  opened : ∀ {p s t}, C.inside p s t → ∀ defined,
    C.inside p { s with context := { s.context with defined, extract := [] } }
      { t with context := { t.context with defined, extract := [] } }
  /-- Variables are written into the session. -/
  merged : ∀ {p s t}, C.inside p s t → ∀ data,
    C.inside p { s with context := s.context.extend data .session }
      { t with context := t.context.extend data .session }
  iteration : ∀ {p s t}, C.inside p s t → ∀ {key}, C.numbered p key →
    s.context.iteration key = t.context.iteration key
  /-- An iteration is numbered on both sides. -/
  counted : ∀ {p s t}, C.inside p s t → ∀ {key}, C.numbered p key → ∀ i,
    C.inside p { s with context := s.context.setIteration key i }
      { t with context := t.context.setIteration key i }

end

variable {C : Correspondence ρ σ τ} {p : C.Place}

/-- Steps in running order stay paired. -/
theorem Paired.ordered {cs : List (Ready ρ σ)} {ds : List (Ready ρ τ)}
    (h : List.Forall₂ (C.Paired p) cs ds) :
    List.Forall₂ (C.Paired p) (Ready.ordered cs) (Ready.ordered ds) :=
  orderedBy_forall₂ (fun _ _ hcd => by rw [hcd.fields]) h

/-- Paired steps keep lost runs lost. -/
theorem Paired.keeps {cs : List (Ready ρ σ)} {ds : List (Ready ρ τ)}
    (h : List.Forall₂ (C.Paired p) cs ds) :
    (∀ c ∈ cs, c.Keeps C.lost) ∧ ∀ d ∈ ds, d.Keeps C.lost' := by
  induction h with
  | nil => exact ⟨by simp, by simp⟩
  | cons hcd _ ih =>
    exact ⟨List.forall_mem_cons.mpr ⟨hcd.left, ih.1⟩, List.forall_mem_cons.mpr ⟨hcd.right, ih.2⟩⟩

theorem runChild {c : Ready ρ σ} {d : Ready ρ τ} (h : C.Paired p c d) :
    (C.link p).Holds (StepResult.Matches C.strict) (Exec.runChild c) (Exec.runChild d) where
  ends f g hfg := by
    have hend := h.run f.state g.state hfg.1
    unfold Exec.runChild
    generalize c.run f.state = x, d.run g.state = y at hend
    cases hend with
    | ok hr hst => exact .ok hr ⟨hst, hfg.2.child hr⟩
    | crash hst => exact .crash hst
    | lost hx => exact .lost (by cases x <;> exact hx)
    | lost' hy => exact .lost' (by cases y <;> exact hy)
  left := .runChild h.left
  right := .runChild h.right

/-- What an include step needs to know of the steps of a case: either both stacks have the case, and
then they are one, or the steps are paired with that case on top of both. A lost run may have any
stack, so the steps keep it lost in either case. -/
def Opens (C : Correspondence ρ σ τ) (library : Library) (p : C.Place)
    (ready : List Step → List (Ready ρ σ)) (ready' : List Step → List (Ready ρ τ))
    (step : StepFields) : Prop :=
  ∀ id record, step.includedCase = some id → library.find? id = some record →
    record.visibility = .shared → record.steps ≠ [] →
    (∀ c ∈ ready record.steps, c.Keeps C.lost) ∧ (∀ d ∈ ready' record.steps, d.Keeps C.lost') ∧
    ((id ∈ C.left p ∧ C.left p = C.right p) ∨
      (id ∉ C.left p ∧ id ∉ C.right p ∧
        List.Forall₂ (C.Paired (C.into p id)) (ready record.steps) (ready' record.steps)))

/-- Loops over paired steps. -/
structure PairedLoop (C : Correspondence ρ σ τ) (p : C.Place) (l : Loop ρ σ) (m : Loop ρ τ) :
    Prop where
  step : l.step = m.step
  numbered : C.numbered p m.step.key
  children : List.Forall₂ (C.Paired p) l.children m.children
  strategy : l.strategy = m.strategy
  interval : l.interval = m.interval

namespace Lawful

variable {w : World ρ σ} {r : Recorder τ} (h : C.Lawful w r)

include h

theorem runChildren (halt : Bool) {cs : List (Ready ρ σ)} {ds : List (Ready ρ τ)}
    (hcs : List.Forall₂ (C.Paired p) cs ds) :
    (C.link p).Holds Eq (Exec.runChildren w halt cs)
      (Exec.runChildren (w.recordedBy r) halt ds) :=
  .runChildren (h.tie p).noted halt (hcs.imp fun _ _ hcd => ⟨hcd.fields, runChild hcd⟩)

omit h in
theorem settle (container : String) (outcome : ChildrenOutcome) :
    (C.link p).Holds Eq (Exec.settle container outcome : Exec ρ σ Unit)
      (Exec.settle container outcome) :=
  Tie.settle (fun _ => trivial) container outcome

omit h in
/-- A value, or whatever fault in its place. -/
theorem ofExcept (x : Except Fault α) :
    (C.link p).Holds Eq (Exec.ofExcept x : Exec ρ σ α) (Exec.ofExcept x) :=
  .ofExcept fun _ _ => trivial

/-! ### Containers -/

theorem group (kind : StepKind) {cs : List (Ready ρ σ)} {ds : List (Ready ρ τ)}
    (hcs : List.Forall₂ (C.Paired p) cs ds) :
    (C.link p).Holds Eq (Exec.group w kind cs) (Exec.group (w.recordedBy r) kind ds) := by
  have children : (C.link p).Holds Eq
      (do Exec.settle kind.name (← Exec.runChildren w false (Ready.ordered cs)))
      (do Exec.settle kind.name (← Exec.runChildren (w.recordedBy r) false (Ready.ordered ds))) :=
    .bind (h.runChildren _ (Paired.ordered hcs)) fun outcome => settle _ _
  unfold Exec.group
  split
  · exact .bind ((h.tie p).log _) fun _ => children
  · exact children

theorem branch (step : StepFields) {cs : List (Ready ρ σ)} {ds : List (Ready ρ τ)}
    (hcs : List.Forall₂ (C.Paired p) cs ds) :
    (C.link p).Holds Eq (Exec.branch w step cs) (Exec.branch (w.recordedBy r) step ds) := by
  refine .bind (ofExcept _) fun condition => .bind ((h.tie p).evaluate _) fun holds => ?_
  split
  · refine .bind ((h.tie p).announce _) fun _ => ?_
    exact .bind (h.runChildren _ (Paired.ordered hcs)) fun outcome => settle _ _
  · exact (h.tie p).announce _

/-! ### Loops -/

theorem counted_all {keys : List String} (hkeys : ∀ key ∈ keys, C.numbered p key) (i : Nat)
    {s : RunState ρ σ} {t : RunState ρ τ} (hst : C.inside p s t) :
    C.inside p
      { s with context := keys.foldl (fun ctx key => ctx.setIteration key i) s.context }
      { t with context := keys.foldl (fun ctx key => ctx.setIteration key i) t.context } := by
  induction keys generalizing s t with
  | nil => exact hst
  | cons key rest ih =>
    obtain ⟨hkey, hrest⟩ := List.forall_mem_cons.mp hkeys
    exact ih hrest (h.counted hst hkey i)

variable {l : Loop ρ σ} {m : Loop ρ τ}

theorem number (hl : C.PairedLoop p l m) (i : Nat) :
    (C.link p).Holds Eq (Exec.number l i) (Exec.number m i) := by
  -- what is numbered are the keys of the children, which are the same on both sides
  have hkeys : l.children.map (fun c => c.fields.key) = m.children.map (fun c => c.fields.key) ∧
      ∀ key ∈ m.children.map (fun c => c.fields.key), C.numbered p key := by
    have hc := hl.children
    generalize l.children = cs, m.children = ds at hc
    induction hc with
    | nil => exact ⟨rfl, by simp⟩
    | cons hcd _ ih =>
      rw [List.map_cons, List.map_cons, hcd.fields, ih.1]
      exact ⟨rfl, List.forall_mem_cons.mpr ⟨hcd.fields ▸ hcd.numbered, ih.2⟩⟩
  refine .bind (.act (fun x y hxy => ?_) (fun _ hs => hs) fun _ hs => hs) fun _ => ?_
  · rw [hl.step]
    exact ⟨h.counted hxy.1 hl.numbered i, hxy.2⟩
  refine .bind (.amend fun x y hxy => ⟨hxy.1, ?_⟩) fun _ => ?_
  · exact hxy.2.change (f := fun r => { r with iteration := i }) fun r => by cases r; rfl
  refine .act (fun x y hxy => ?_) (fun _ hs => hs) fun _ hs => hs
  -- each side numbers its own children, so both are written as folds over the keys first
  have hfold := h.counted_all hkeys.2 i hxy.1
  simp only [Frame.mapState]
  rw [← List.foldl_map (f := fun c : Ready ρ σ => c.fields.key)
      (g := fun (ctx : Context) key => ctx.setIteration key i),
    ← List.foldl_map (f := fun c : Ready ρ τ => c.fields.key)
      (g := fun (ctx : Context) key => ctx.setIteration key i), hkeys.1]
  exact ⟨hfold, hxy.2⟩

theorem iterate (hl : C.PairedLoop p l m) (i : Nat) (tally : Tally) :
    (C.link p).Holds Eq (Exec.iterate w l i tally)
      (Exec.iterate (w.recordedBy r) m i tally) := by
  refine .bind (h.number hl i) fun _ => ?_
  rw [hl.strategy]
  refine .bind (h.runChildren _ hl.children) fun outcome => ?_
  cases outcome with
  | aborted => exact .fail trivial
  | passed => exact .pure rfl
  | failed =>
    -- on a failure the strategy goes on, breaks or stops
    dsimp only
    split
    · exact .bind ((h.tie p).log _) fun _ => .pure rfl
    · exact .bind ((h.tie p).log _) fun _ => .pure rfl
    · exact .fail trivial

theorem pause (hl : C.PairedLoop p l m) :
    (C.link p).Holds Eq (Exec.pause w l) (Exec.pause (w.recordedBy r) m) :=
  (h.tie p).pause _ _ hl.interval

theorem countIterations (hl : C.PairedLoop p l m) (total left i : Nat) (tally : Tally) :
    (C.link p).Holds Eq (Exec.countIterations w l total left i tally)
      (Exec.countIterations (w.recordedBy r) m total left i tally) := by
  induction left generalizing i tally with
  | zero => exact .pure rfl
  | succ left ih =>
    refine .bind ((h.tie p).log _) fun _ => .bind (h.iterate hl _ _) fun tally => ?_
    split
    · exact .pure rfl
    · dsimp only
      split
      · exact .bind (h.pause hl) fun _ => ih _ _
      · exact .bind (.pure (V := Eq) rfl) fun _ => ih _ _

theorem countLoop (hl : C.PairedLoop p l m) :
    (C.link p).Holds Eq (Exec.countLoop w l) (Exec.countLoop (w.recordedBy r) m) := by
  unfold Exec.countLoop
  rw [hl.step]
  split
  · exact (h.tie p).misfit _
  · exact (h.tie p).misfit _
  · refine .bind ((h.tie p).resolveValue _) fun v => .bind (ofExcept _) fun total => ?_
    refine .bind ((h.tie p).log _) fun _ => .bind (h.countIterations hl _ _ _ _) fun tally => ?_
    split
    · exact .bind (Link.Holds.fail trivial) fun _ => .pure rfl
    · exact .bind (.pure (V := Eq) rfl) fun _ => .pure rfl

/-- A line in corresponding states. -/
theorem inside_log {s : RunState ρ σ} {t : RunState ρ τ} (hst : C.inside p s t)
    {text text' : String} (htext : Retimed C.strict text text') :
    C.inside p (s.log w text) (t.log (w.recordedBy r) text') :=
  ((h.tie p).line (f := ⟨s, default⟩) (g := ⟨t, default⟩) ⟨hst, .rfl⟩ htext).1

theorem inside_extend {s : RunState ρ σ} {t : RunState ρ τ} (hst : C.inside p s t)
    (data : Json.Members) :
    C.inside p (s.extend w data .session) (t.extend (w.recordedBy r) data .session) := by
  unfold RunState.extend
  split
  · exact hst
  · exact h.inside_log (h.merged hst data) (.same _)

/-- Writing variables leaves the records of a lost run lost. -/
theorem lost_extend (p : C.Place) {s : RunState ρ σ} (hs : C.lost s.records) (data : Json.Members) :
    C.lost (s.extend w data .session).records := by
  unfold RunState.extend
  split
  · exact hs
  · exact (h.tie p).lost hs _

theorem lost'_extend (p : C.Place) {t : RunState ρ τ} (ht : C.lost' t.records) (data : Json.Members) :
    C.lost' (t.extend (w.recordedBy r) data .session).records := by
  unfold RunState.extend
  split
  · exact ht
  · exact (h.tie p).lost' ht _

/-- Writing variables into the session. -/
theorem extendSession (data : Json.Members) :
    (C.link p).Holds Eq (Exec.extend w data .session)
      (Exec.extend (w.recordedBy r) data .session) :=
  .act (fun _ _ hxy => ⟨h.inside_extend hxy.1 data, hxy.2⟩)
    (fun _ hs => h.lost_extend p hs data) fun _ ht => h.lost'_extend p ht data

theorem sourceIterations (hl : C.PairedLoop p l m) (injected : List Json.Members) (i : Nat)
    (tally : Tally) :
    (C.link p).Holds Eq (Exec.sourceIterations w l injected i tally)
      (Exec.sourceIterations (w.recordedBy r) m injected i tally) := by
  induction injected generalizing i tally with
  | nil => exact .pure rfl
  | cons data rest ih =>
    refine .bind (h.extendSession _) fun _ => .bind (h.iterate hl _ _) fun tally => ?_
    split
    · exact .pure rfl
    · dsimp only
      split
      · exact .bind (h.pause hl) fun _ => ih _ _
      · exact .bind (.pure (V := Eq) rfl) fun _ => ih _ _

theorem iterableLoop (hl : C.PairedLoop p l m) :
    (C.link p).Holds Eq (Exec.iterableLoop w l) (Exec.iterableLoop (w.recordedBy r) m) := by
  unfold Exec.iterableLoop
  rw [hl.step]
  refine .bind ((h.tie p).source _) fun found => ?_
  split
  · exact .bind ((h.tie p).log _) fun _ => .pure rfl
  · exact .bind ((h.tie p).log _) fun _ => h.sourceIterations hl _ _ _
  · exact (h.tie p).misfit _
  · exact (h.tie p).misfit _

theorem dictLoop (hl : C.PairedLoop p l m) :
    (C.link p).Holds Eq (Exec.dictLoop w l) (Exec.dictLoop (w.recordedBy r) m) := by
  unfold Exec.dictLoop
  rw [hl.step]
  refine .bind ((h.tie p).source _) fun found => ?_
  split
  · exact .bind ((h.tie p).log _) fun _ => .pure rfl
  · exact .bind ((h.tie p).log _) fun _ => h.sourceIterations hl _ _ _
  · exact (h.tie p).misfit _

theorem conditionIterations (hl : C.PairedLoop p l m) (condition : Condition)
    (timeout : Binary64) {started started' : Instant} (hs : C.strict → started = started')
    (left done : Nat) (tally : Tally) :
    (C.link p).Holds Eq (Exec.conditionIterations w l condition timeout started left done tally)
      (Exec.conditionIterations (w.recordedBy r) m condition timeout started' left done tally) := by
  induction left generalizing done tally with
  | zero =>
    unfold Exec.conditionIterations
    exact (h.tie p).expire timeout hs done tally (.fail trivial)
  | succ left ih =>
    unfold Exec.conditionIterations
    refine (h.tie p).expire timeout hs done tally ?_
    -- the time is not up, on either side
    refine .bind ((h.tie p).log _) fun _ => .bind (h.iterate hl _ _) fun tally => ?_
    split
    · exact .pure rfl
    · refine .bind ((h.tie p).stillHolds _ _) fun holds => ?_
      split
      · exact .bind (h.pause hl) fun _ => ih _ _
      · exact .bind ((h.tie p).log _) fun _ => .pure rfl

theorem conditionLoop (hl : C.PairedLoop p l m) :
    (C.link p).Holds Eq (Exec.conditionLoop w l) (Exec.conditionLoop (w.recordedBy r) m) := by
  unfold Exec.conditionLoop
  rw [hl.step]
  refine .bind (ofExcept _) fun condition => ?_
  -- whether the timeout is declared or not, the clock is read next and then the iterations come
  have iterations : ∀ timeout : Binary64, (C.link p).Holds Eq
      (Exec.now w >>= fun started =>
        Exec.conditionIterations w l condition timeout started conditionLoopCeiling 0 {})
      (Exec.now (w.recordedBy r) >>= fun started =>
        Exec.conditionIterations (w.recordedBy r) m condition timeout started
          conditionLoopCeiling 0 {}) := fun timeout =>
    .bindRel (h.tie p).clock (fun _ _ => rfl) fun _ _ hs => h.conditionIterations hl _ _ hs _ _ _
  dsimp only
  split
  · exact .bind ((h.tie p).misfit _) fun _ => iterations _
  · exact iterations _

theorem loop (step : StepFields) (hkey : C.numbered p step.key) {cs : List (Ready ρ σ)}
    {ds : List (Ready ρ τ)} (hcs : List.Forall₂ (C.Paired p) cs ds) :
    (C.link p).Holds Eq (Exec.loop w step cs) (Exec.loop (w.recordedBy r) step ds) := by
  refine .bind (ofExcept _) fun mode => .bind (ofExcept _) fun strategy => ?_
  refine (h.tie p).context fun c d hcd => ?_
  rw [hcd.settings]
  refine .bind (ofExcept _) fun interval => .bind ((h.tie p).noted _) fun _ => ?_
  have paired : C.PairedLoop p ⟨step, Ready.ordered cs, strategy, interval⟩
      ⟨step, Ready.ordered ds, strategy, interval⟩ := ⟨rfl, hkey, Paired.ordered hcs, rfl, rfl⟩
  refine .bind ?_ fun tally => (h.tie p).conclude _
  cases mode with
  | count => exact h.countLoop paired
  | iterable => exact h.iterableLoop paired
  | dict => exact h.dictLoop paired
  | condition => exact h.conditionLoop paired

/-! ### Inclusion -/

omit h in
/-- Entering a case changes the stack alone. -/
theorem endState_enter (id : Int) (f : Frame ρ σ) :
    (endState (Exec.enter id f)).state.records = f.state.records := by
  by_cases hid : id ∈ f.state.context.including
  · rw [Exec.enter_eq_fault hid]
    rfl
  · rw [Exec.enter_eq_ok hid]
    rfl

omit h in
theorem keeps_enter (lost : σ → Prop) (id : Int) : (Exec.enter id : Exec ρ σ Unit).Keeps lost :=
  fun f hf => by rwa [endState_enter]

omit h in
theorem keeps_leave (lost : σ → Prop) (id : Int) : (Exec.leave id : Exec ρ σ Unit).Keeps lost :=
  fun _ hf => hf

/-- What is done in an included case keeps the states in correspondence there, and the case is off
both stacks after it. -/
theorem visit {id : Int} (hid : id ∉ C.left p) (hid' : id ∉ C.right p) {m : Exec ρ σ α}
    {m' : Exec ρ τ α} (hm : (C.link (C.into p id)).Holds Eq m m') (hf : m.Faultless)
    {k : α → Exec ρ σ Unit} {k' : α → Exec ρ τ Unit}
    (hk : ∀ a, (C.link p).Holds Eq (k a) (k' a)) :
    (C.link p).Holds Eq
      (Exec.enter id >>= fun _ => m >>= fun a => Exec.leave id >>= fun _ => k a)
      (Exec.enter id >>= fun _ => m' >>= fun a => Exec.leave id >>= fun _ => k' a) := by
  refine ⟨fun f g hfg => ?_,
    .bind (keeps_enter _ id) fun _ => .bind hm.left fun a =>
      .bind (keeps_leave _ id) fun _ => (hk a).left,
    .bind (keeps_enter _ id) fun _ => .bind hm.right fun a =>
      .bind (keeps_leave _ id) fun _ => (hk a).right⟩
  obtain ⟨hleft, hright⟩ := h.stacked hfg.1
  have hf' : id ∉ f.state.context.including := by rw [hleft]; exact hid
  have hg' : id ∉ g.state.context.including := by rw [hright]; exact hid'
  change (C.link p).Ends _ (EStateM.bind (Exec.enter id) _ f) (EStateM.bind (Exec.enter id) _ g)
  unfold EStateM.bind
  have hf₀ : (f.mapContext fun ctx => { ctx with including := ctx.including ++ [id] }) =
      f.mapContext fun ctx => { ctx with including := C.left p ++ [id] } := by
    simp only [Frame.mapContext, Frame.mapState, hleft]
  have hg₀ : (g.mapContext fun ctx => { ctx with including := ctx.including ++ [id] }) =
      g.mapContext fun ctx => { ctx with including := C.right p ++ [id] } := by
    simp only [Frame.mapContext, Frame.mapState, hright]
  rw [Exec.enter_eq_ok hf', Exec.enter_eq_ok hg', hf₀, hg₀]
  -- the work in the included case starts with that case on both stacks
  have hin : (C.link (C.into p id)).kept
      (f.mapContext fun ctx => { ctx with including := C.left p ++ [id] })
      (g.mapContext fun ctx => { ctx with including := C.right p ++ [id] }) :=
    ⟨h.entered hfg.1 id, hfg.2⟩
  change (C.link p).Ends _
    (EStateM.bind m _ (f.mapContext fun ctx => { ctx with including := C.left p ++ [id] }))
    (EStateM.bind m' _ (g.mapContext fun ctx => { ctx with including := C.right p ++ [id] }))
  have hrest {f} := Exec.Keeps.rest (q := C.lost) (P := fun _ => True) (m := m) (f := f)
    (k := fun a => Exec.leave id >>= fun _ => k a) (fun _ _ _ _ => trivial)
    fun a _ f hf => (hk a).left _ hf
  have hrest' {g} := Exec.Keeps.rest (q := C.lost') (P := fun _ => True) (m := m') (f := g)
    (k := fun a => Exec.leave id >>= fun _ => k' a) (fun _ _ _ _ => trivial)
    fun a _ f hf => (hk a).right _ hf
  have hend := hm.ends _ _ hin
  have hfault := hf (f.mapContext fun ctx => { ctx with including := C.left p ++ [id] })
  have hlost := hrest (f := f.mapContext fun ctx => { ctx with including := C.left p ++ [id] })
  have hlost' := hrest' (g := g.mapContext fun ctx => { ctx with including := C.right p ++ [id] })
  unfold EStateM.bind at hlost hlost' ⊢
  generalize m _ = x, m' _ = y at hend hfault hlost hlost'
  cases hend with
  -- a fault would leave the case on the stack, but running steps does not raise any
  | fault _ => exact absurd rfl (hfault _ _)
  | crash hx => exact .crash (h.wrecked hx)
  | lost h => exact .lost (hlost h)
  | lost' h => exact .lost' (hlost' h)
  | @ok a b f₁ g₁ hab h₁ =>
    subst hab
    -- the steps have left the stacks as they found them, so the case is still on top
    obtain ⟨hleft₁, hright₁⟩ := h.stacked h₁.1
    rw [h.left_into] at hleft₁
    rw [h.right_into] at hright₁
    have hout : (C.link p).kept (f₁.mapContext fun ctx => ctx.leave id)
        (g₁.mapContext fun ctx => ctx.leave id) := by
      simp only [Frame.mapContext, Frame.mapState, Context.leave_concat hleft₁,
        Context.leave_concat hright₁]
      exact ⟨h.left h₁.1, h₁.2⟩
    exact (hk a).ends _ _ hout

/-- A case on both stacks is refused on both sides. -/
theorem refusal {id : Int} (hid : id ∈ C.left p) (hsame : C.left p = C.right p)
    (k : Unit → Exec ρ σ Unit) (k' : Unit → Exec ρ τ Unit) (hk : (k ()).Keeps C.lost)
    (hk' : (k' ()).Keeps C.lost') :
    (C.link p).Holds Eq (Exec.enter id >>= k) (Exec.enter id >>= k') where
  ends f g hfg := by
    obtain ⟨hleft, hright⟩ := h.stacked hfg.1
    have hf : id ∈ f.state.context.including := by rw [hleft]; exact hid
    have hg : id ∈ g.state.context.including := by rw [hright, ← hsame]; exact hid
    change (C.link p).Ends _ (EStateM.bind (Exec.enter id) k f) (EStateM.bind (Exec.enter id) k' g)
    unfold EStateM.bind
    rw [Exec.enter_eq_fault hf, Exec.enter_eq_fault hg, hleft, hright, hsame]
    exact .fault trivial hfg
  left := .bind (keeps_enter _ id) fun _ => hk
  right := .bind (keeps_enter _ id) fun _ => hk'

omit h in
/-- What comes after entering a case keeps a lost run lost. -/
theorem keeps_included {w : World ρ σ} {lost : σ → Prop}
    (hn : ∀ {x}, lost x → ∀ n, lost (w.note n x)) (id : Int) (record : CaseRecord)
    {cs : List (Ready ρ σ)} (hcs : ∀ c ∈ cs, c.Keeps lost) :
    Exec.Keeps (do
      Exec.note w (.included id record.steps.length)
      Exec.log w ("including case " ++ toString id ++ " (" ++ record.header.code ++ ") with " ++
        toString record.steps.length ++ " root step(s)")
      let outcome ← Exec.runChildren w false (Ready.ordered cs)
      Exec.leave id
      Exec.settle "included case" outcome) lost := by
  refine .bind (fun f hf => hn hf _) fun _ => .bind (fun f hf => hn hf _) fun _ => ?_
  refine .bind (.runChildren hn _ fun c hc => hcs c (mem_orderedBy.mp hc)) fun outcome => ?_
  refine .bind (keeps_leave _ id) fun _ => ?_
  cases outcome <;> exact fun _ hf => hf

/-- **An include step.** -/
theorem inclusion {ready : List Step → List (Ready ρ σ)} {ready' : List Step → List (Ready ρ τ)}
    (step : StepFields) (hr : C.Opens w.library p ready ready' step) :
    (C.link p).Holds Eq (Exec.inclusion w ready step)
      (Exec.inclusion (w.recordedBy r) ready' step) := by
  refine .bindOf ((h.tie p).includedCase step) (fun _ => rfl) (Tie.includedCase_gives w step)
    (Tie.includedCase_gives (w.recordedBy r) step) fun found _ hsame hfound _ => ?_
  subst hsame
  obtain ⟨id, record⟩ := found
  obtain ⟨hid, hrecord, hshared⟩ := hfound
  dsimp only
  split
  · exact .bind ((h.tie p).log _) fun _ => (h.tie p).say _
  · next hempty =>
    have hsteps : record.steps ≠ [] := fun hnil => hempty (by rw [hnil]; rfl)
    obtain ⟨hkeep, hkeep', hopen⟩ := hr id record hid hrecord hshared hsteps
    rcases hopen with ⟨hmem, hsame⟩ | ⟨hnot, hnot', hchildren⟩
    · exact h.refusal hmem hsame _ _ (keeps_included (h.tie p).lost id record hkeep)
        (keeps_included (w := w.recordedBy r) (h.tie p).lost' id record hkeep')
    · have visited := h.visit hnot hnot'
        (.bind ((h.tie _).noted (.included id record.steps.length)) fun _ =>
          .bind ((h.tie _).log ("including case " ++ toString id ++ " (" ++
            record.header.code ++ ") with " ++ toString record.steps.length ++ " root step(s)"))
              fun _ => h.runChildren false (Paired.ordered hchildren))
        (.bind (.act _) fun _ => .bind (.act _) fun _ => .runChildren _ _ _)
        fun outcome => settle "included case" outcome
      -- the work in the case is one computation there and a part of the step here
      simpa only [bind_assoc] using visited

/-! ### Steps of all kinds -/

/-- **The work of a step,** from the steps below it. -/
theorem work {ready : List Step → List (Ready ρ σ)} {ready' : List Step → List (Ready ρ τ)}
    (step : StepFields) (hkey : C.numbered p step.key)
    (hr : step.declaredKind = .ok .inclusion → C.Opens w.library p ready ready' step)
    {cs : List (Ready ρ σ)} {ds : List (Ready ρ τ)} (hcs : List.Forall₂ (C.Paired p) cs ds) :
    (C.link p).Holds Eq (workOf w ready step cs) (workOf (w.recordedBy r) ready' step ds) := by
  refine .bindOf (P := fun kind => step.declaredKind = .ok kind) (ofExcept _) (fun _ => rfl)
    (.ofExcept _) (.ofExcept _) fun kind _ hsame hkind _ => ?_
  subst hsame
  cases kind with
  | http => exact (h.tie p).within _ ((h.tie p).requestStep step)
  | script => exact (h.tie p).scriptStep step
  | wait => exact (h.tie p).wait step
  | condition => exact h.branch step hcs
  | loop => exact h.loop step hkey hcs
  | inclusion => exact h.inclusion step (hr hkind)
  | _ => exact h.group _ hcs

/-! ### Where a step starts -/

variable {s : RunState ρ σ} {t : RunState ρ τ} {step : StepFields}

theorem inside_logMissing (hst : C.inside p s t) (names : List String) :
    C.inside p (s.logMissing w names) (t.logMissing (w.recordedBy r) names) :=
  ((h.tie p).kept_logMissing names (f := ⟨s, default⟩) (g := ⟨t, default⟩) ⟨hst, .rfl⟩).1

theorem inside_sees (hst : C.inside p s t) : s.context.Sees t.context :=
  (h.tie p).sees (f := ⟨s, default⟩) (g := ⟨t, default⟩) ⟨hst, .rfl⟩

/-- **Entering a step** on both sides. -/
theorem enterStep (hst : C.inside p s t) (hkey : C.numbered p step.key) :
    C.inside (C.within p step.key) (s.enterStep w step) (t.enterStep (w.recordedBy r) step) := by
  have hsees := h.inside_sees hst
  have hforce : s.context.inForce step = t.context.inForce step := by
    unfold Context.inForce StepFields.declared
    rw [hsees.defined, hsees.lookup]
  have hnames : step.undeclared s.context = step.undeclared t.context := by
    unfold StepFields.undeclared
    rw [hsees.lookup]
  rw [RunState.enterStep_eq, RunState.enterStep_eq, hforce, hnames, h.iteration hst hkey]
  -- from the last change back to the first: a line, the variables, the lines of names, the key
  exact h.inside_log (h.opened (h.inside_logMissing (h.keyed hst step.key hkey) _) _) (.same _)

theorem lost_enterStep (p : C.Place) (hs : C.lost s.records) :
    C.lost (s.enterStep w step).records := by
  rw [RunState.enterStep_eq]
  exact (h.tie p).lost ((h.tie p).lost_logMissing (step.undeclared s.context)
    (s := { s with context := { s.context with key := some step.key } }) hs) _

theorem lost'_enterStep (p : C.Place) (ht : C.lost' t.records) :
    C.lost' (t.enterStep (w.recordedBy r) step).records := by
  rw [RunState.enterStep_eq]
  exact (h.tie p).lost' ((h.tie p).lost'_logMissing (step.undeclared t.context)
    (s := { t with context := { t.context with key := some step.key } }) ht) _

end Lawful

end Correspondence

end Scenario
