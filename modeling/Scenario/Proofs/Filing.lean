import Scenario.Proofs.History.Case
import Scenario.Proofs.Kin.Case
import Scenario.Proofs.Session

/-!
# What a run writes

A run that writes a report opens it, leaves one detail record for every step when the step has
ended, and closes the report. The records of a step come after those of the steps below it, so they
are in post-order, and there is one for every step that ended, in loops, in included cases and after
failures, whether the host keeps it or not.

* `Detail.Tells` — what a detail record says of the step that it is about.
* `Filed` — the writes of a run are those before some steps and one for each of these steps that
  ended. A step keeps the books in order: `Filing.life`; so do all steps: `watchedSteps_filing`.
* `runCase_writes` — what a run of a case writes, from its first write to its last one.
-/

namespace Scenario

/-! ### Steps in the order in which they ended -/

mutual

/-- **A history and all histories in it,** in the order in which their steps ended. -/
def History.postOrder : History → List History
  | ⟨step, before, opening, closing, after, result, children⟩ =>
    History.postOrderAll children ++ [⟨step, before, opening, closing, after, result, children⟩]

/-- The histories of a list, in the order in which their steps ended. -/
def History.postOrderAll : List History → List History
  | [] => []
  | h :: rest => History.postOrder h ++ History.postOrderAll rest

end

namespace History

theorem postOrderAll_append (hs hs' : List History) :
    postOrderAll (hs ++ hs') = postOrderAll hs ++ postOrderAll hs' := by
  induction hs with
  | nil => rfl
  | cons h rest ih => rw [List.cons_append, postOrderAll, ih, postOrderAll, List.append_assoc]

theorem postOrder_eq (h : History) : h.postOrder = postOrderAll h.children ++ [h] := by
  cases h
  rfl

/-- **The steps that ended,** in this order. -/
def completed (hs : List History) : List History :=
  (postOrderAll hs).filter fun h => h.result.isSome

theorem postOrderAll_eq (hs : List History) : postOrderAll hs = hs.flatMap postOrder := by
  induction hs with
  | nil => rfl
  | cons h rest ih => rw [postOrderAll, ih, List.flatMap_cons]

theorem completed_append (hs hs' : List History) :
    completed (hs ++ hs') = completed hs ++ completed hs' := by
  rw [completed, postOrderAll_append, List.filter_append, completed, completed]

/-- A step that ended comes after the steps below it. -/
theorem completed_ended {h : History} {r : StepResult} (hr : h.result = some r) :
    completed [h] = completed h.children ++ [h] := by
  rw [completed, postOrderAll, postOrderAll, List.append_nil, postOrder_eq, List.filter_append,
    List.filter_singleton, hr]
  rfl

/-- In a step that did not end, some steps below it may have ended. -/
theorem completed_broken {h : History} (hr : h.result = none) :
    completed [h] = completed h.children := by
  rw [completed, postOrderAll, postOrderAll, List.append_nil, postOrder_eq, List.filter_append,
    List.filter_singleton, hr]
  exact List.append_nil _

variable {ρ : Type} {o : Outside ρ} {h : History}

theorem Everywhere.postOrder {P : History → Prop} (hP : h.Everywhere P) :
    ∀ k ∈ h.postOrder, P k := by
  induction hP with
  | @intro h hP _ ih =>
    rw [postOrder_eq, postOrderAll_eq]
    intro k hk
    rcases List.mem_append.mp hk with hk | hk
    · obtain ⟨g, hg, hk⟩ := List.mem_flatMap.mp hk
      exact ih g hg k hk
    · exact List.mem_singleton.mp hk ▸ hP

theorem postOrderAll_results {hs : List History} (h : ∀ g ∈ hs, ∃ r, g.result = some r ∧
    g.postOrder.filterMap History.result = r.postOrder) :
    (postOrderAll hs).filterMap History.result =
      (hs.filterMap History.result).flatMap StepResult.postOrder := by
  induction hs with
  | nil => rfl
  | cons g rest ih =>
    obtain ⟨⟨r, hr, hg⟩, hrest⟩ := List.forall_mem_cons.mp h
    rw [postOrderAll, List.filterMap_append, List.filterMap_cons_some hr, List.flatMap_cons,
      ih hrest, hg]

/-- **The steps of a history have the results below its own,** in the same order. -/
theorem Everywhere.postOrder_results (hs : h.Everywhere (Sound o)) {r : StepResult}
    (hr : h.result = some r) : h.postOrder.filterMap History.result = r.postOrder := by
  have hall := hs.returned hr
  induction hs generalizing r with
  | @intro h hsound _ ih =>
    obtain ⟨events, ending, -, -, -, hconcluded⟩ := hsound.course
    have hbelow := postOrderAll_results fun g hg => by
      obtain ⟨r', hr'⟩ := (hall.children g hg).here
      exact ⟨r', hr', ih g hg hr' (hall.children g hg)⟩
    rw [postOrder_eq, StepResult.postOrder_eq, (hconcluded r hr).children, List.filterMap_append,
      hbelow, List.filterMap_cons_some hr, List.filterMap_nil]

/-- **If all roots ended,** so did all steps, and their results are those of the forest. -/
theorem completed_results {hs : List History} (h : ∀ g ∈ hs, g.Everywhere (Sound o))
    (hr : ∀ g ∈ hs, ∃ r, g.result = some r) :
    completed hs = postOrderAll hs ∧ (completed hs).filterMap History.result =
      (hs.filterMap History.result).flatMap StepResult.postOrder := by
  have hall : completed hs = postOrderAll hs := by
    rw [completed, List.filter_eq_self, postOrderAll_eq]
    intro k hk
    obtain ⟨g, hg, hk⟩ := List.mem_flatMap.mp hk
    obtain ⟨r, hr⟩ := hr g hg
    obtain ⟨r', hr'⟩ := ((h g hg).returned hr).postOrder k hk
    rw [hr']
    rfl
  refine ⟨hall, hall ▸ postOrderAll_results fun g hg => ?_⟩
  obtain ⟨r, hr⟩ := hr g hg
  exact ⟨r, hr, (h g hg).postOrder_results hr⟩

/-- A step that ended is shown under its key. -/
theorem completed_key {hs : List History} (h : ∀ g ∈ hs, g.Everywhere (Sound o)) :
    ∀ k ∈ completed hs, ∀ r, k.result = some r → r.key = k.step.key := by
  intro k hk r hr
  rw [completed, postOrderAll_eq] at hk
  obtain ⟨g, hg, hk⟩ := List.mem_flatMap.mp (List.mem_filter.mp hk).1
  obtain ⟨events, ending, -, -, -, hconcluded⟩ := ((h g hg).postOrder k hk).course
  exact (hconcluded r hr).marked.key

end History

/-! ### Detail records -/

/-- **What a detail record says** of a step that ended with a result. -/
structure Detail.Tells (code : String) (h : History) (r : StepResult) (d : Detail) : Prop where
  reportCode : d.reportCode = code
  key : d.key = h.step.key
  state : d.state = r.success
  error : d.error = r.error
  iteration : d.iteration = r.iteration
  extracted : d.extracted = r.extracted
  ledger : d.ledger = r.ledger
  /-- The session is that at the end of the step … -/
  session : d.session = h.after.session
  /-- … into which what the step extracted has just been merged. -/
  merged : d.session = Keyed.extend h.closing.session r.extracted

/-- **The books are in order:** what was written before, and then, in a run with a report, one
record for every step that ended. -/
def Filed (code : Option String) (base : List HostWrite) (hs : List History)
    (writes : List HostWrite) : Prop :=
  match code with
  | none => writes = base
  | some code => ∃ ds, List.Forall₂ (fun h d => ∃ r, h.result = some r ∧ Detail.Tells code h r d)
      (History.completed hs) ds ∧ writes = base ++ ds.map .detail

namespace Filed

variable {code : Option String} {base mid writes : List HostWrite} {hs hs' : List History}

theorem nil (code : Option String) (base : List HostWrite) : Filed code base [] base := by
  cases code with
  | none => rfl
  | some code => exact ⟨[], .nil, (List.append_nil _).symm⟩

theorem append (h : Filed code base hs mid) (h' : Filed code mid hs' writes) :
    Filed code base (hs ++ hs') writes := by
  cases code with
  | none => exact Eq.trans h' h
  | some code =>
    obtain ⟨ds, hds, rfl⟩ := h
    obtain ⟨ds', hds', rfl⟩ := h'
    refine ⟨ds ++ ds', ?_, by rw [List.map_append, List.append_assoc]⟩
    rw [History.completed_append]
    exact List.rel_append hds hds'

/-- A step that did not end leaves no record of its own. -/
theorem broken {h : History} (hr : h.result = none) (hfiled : Filed code base h.children writes) :
    Filed code base [h] writes := by
  cases code with
  | none => exact hfiled
  | some code =>
    obtain ⟨ds, hds, rfl⟩ := hfiled
    exact ⟨ds, History.completed_broken hr ▸ hds, rfl⟩

/-- A step that ended leaves its record after those of the steps below it. -/
theorem ended {h : History} {r : StepResult} (hr : h.result = some r)
    (hfiled : Filed code base h.children writes) {d : String → Detail}
    (hd : ∀ code, (d code).Tells code h r) :
    Filed code base [h] (writes ++ code.toList.map fun code => .detail (d code)) := by
  cases code with
  | none => exact (List.append_nil _).trans hfiled
  | some code =>
    obtain ⟨ds, hds, rfl⟩ := hfiled
    refine ⟨ds ++ [d code], ?_, by simp⟩
    rw [History.completed_ended hr]
    exact List.rel_append hds (.cons ⟨r, hr, hd code⟩ .nil)

end Filed

/-! ### Steps keep the books -/

variable {ρ σ : Type} {w : World ρ σ}

/-- A detail record is written, if there is a report. -/
theorem RunState.recordDetail_writes (step : StepFields) (result : StepResult) (started : Instant)
    (s : RunState ρ (Watch (Transcript σ))) :
    (s.recordDetail w.transcribed.watched step result started).records.records.writes =
      s.records.records.writes ++ s.context.reportCode.toList.map fun code =>
        .detail (s.detailOf w.transcribed.watched step result started code) := by
  unfold recordDetail
  cases s.context.reportCode with
  | none => exact (List.append_nil _).symm
  | some code =>
    dsimp only
    split <;> next h =>
    have hrecords := congrArg Prod.snd h
    dsimp only at hrecords
    subst hrecords
    rfl

theorem RunState.extend_writes (data : Json.Members) (scope : Scope)
    (s : RunState ρ (Watch (Transcript σ))) :
    (s.extend w.transcribed.watched data scope).records.records.writes =
      s.records.records.writes := by
  unfold extend
  split <;> rfl

/-- **Leaving a step** writes its record. -/
theorem concludeStep_writes (step : Step) (before : Context) (started : Instant)
    (f : Frame ρ (Watch (Transcript σ)))
    (hclosing : f.state.records.closing.session = f.state.context.session) :
    let left := concludeStep w.transcribed.watched step.toStepFields before started f
    ∃ d : String → Detail, (∀ code, (d code).Tells code
        (History.ended step before (.ok left.1 left.2)) left.1) ∧
      left.2.records.records.writes = f.state.records.records.writes ++
        f.state.context.reportCode.toList.map fun code => .detail (d code) := by
  intro left
  -- the state in which the record is written: the variables are merged and the last line is there
  obtain ⟨s, hs, hleft⟩ : ∃ s : RunState ρ (Watch (Transcript σ)),
      s.context.silent = (f.state.context.extend left.1.extracted .session).silent ∧
      (s.records.records.writes = f.state.records.records.writes) ∧
      left.2 = (s.recordDetail w.transcribed.watched step.toStepFields left.1 started).leaveStep
        before :=
    ⟨(f.state.extend w.transcribed.watched f.result.extracted .session).log
      w.transcribed.watched _, RunState.extend_silent w.transcribed.watched _ _ _,
      RunState.extend_writes _ _ _, rfl⟩
  obtain ⟨hwrites, hleft⟩ := hleft
  have hcode : s.context.reportCode = f.state.context.reportCode :=
    (congrArg Context.reportCode hs :)
  have hsession : s.context.session =
      Keyed.extend f.state.records.closing.session left.1.extracted := by
    rw [hclosing]
    exact (congrArg Context.session hs :)
  have hafter : left.2.context.session = s.context.session := by
    rw [hleft]
    exact (congrArg Context.session (s.recordDetail_silent w.transcribed.watched step.toStepFields
      left.1 started) :)
  refine ⟨s.detailOf w.transcribed.watched step.toStepFields left.1 started, fun code => ?_, ?_⟩
  · have hseen := unseen_concludeStep (w := w.transcribed) step.toStepFields before started f
    exact {
      reportCode := rfl
      key := rfl
      state := rfl
      error := rfl
      iteration := rfl
      extracted := rfl
      ledger := rfl
      session := hafter.symm
      merged := by
        change s.context.session = Keyed.extend left.2.records.closing.session left.1.extracted
        rw [hsession, hseen.2.2] }
  · rw [hleft]
    change (s.recordDetail _ _ _ _).records.records.writes = _
    rw [RunState.recordDetail_writes, hwrites, hcode]

/-- Where a run is, in which report it writes, and what it had written when the running step
started. -/
structure FilingPlace extends Place where
  code : Option String
  base : List HostWrite

/-- **A run that keeps the books** corresponds to itself. -/
def filing (ρ σ : Type) :
    Correspondence ρ (Watch (Transcript σ)) (Watch (Transcript σ)) where
  Place := FilingPlace
  strict := True
  inside p s t := s = t ∧ s.context.place = p.toPlace ∧ s.context.reportCode = p.code ∧
    Filed p.code p.base s.records.children s.records.records.writes
  wrecks p s t := s = t ∧ Filed p.code p.base s.records.children s.records.records.writes
  lost _ := False
  lost' _ := False
  left p := p.including
  right p := p.including
  into p id := { p with toPlace := p.toPlace.into id }
  within p key := { p with toPlace := p.toPlace.within key }
  numbered _ _ := True

namespace filing

variable {p : FilingPlace} {s t : RunState ρ (Watch (Transcript σ))}

/-- A change of the context that keeps the code of the report. -/
theorem mapContext (h : (filing ρ σ).inside p s t) {f : Context → Context} {q : FilingPlace}
    (hq : q.code = p.code ∧ q.base = p.base) (hplace : (f s.context).place = q.toPlace)
    (hcode : (f s.context).reportCode = s.context.reportCode) :
    (filing ρ σ).inside q { s with context := f s.context } { t with context := f t.context } := by
  obtain ⟨rfl, -, hcode', hfiled⟩ := h
  refine ⟨rfl, hplace, hcode.trans (hcode'.trans hq.1.symm), ?_⟩
  rw [hq.1, hq.2]
  exact hfiled

theorem bond (p : FilingPlace) : Bond w.transcribed.watched w.transcribed.toRecorder.watched
    (fun _ => True) fun f g => (filing ρ σ).inside p f.state g.state ∧ f.result = g.result where
  mild _ := trivial
  script _ _ _ _ _ := trivial
  agrees h := h.1.1 ▸ .rfl
  outside h := congrArg RunState.outside h.1.1
  result h := h.2
  note h n := ⟨⟨congrArg (RunState.note w.transcribed.watched n) h.1.1, h.1.2⟩, h.2⟩
  line h key line := ⟨mapContext (f := fun ctx => ctx.logged key line) h.1 ⟨rfl, rfl⟩
    h.1.2.1 rfl, h.2⟩
  asked h outside := ⟨⟨congrArg (fun s : RunState ρ (Watch (Transcript σ)) =>
    { s with outside }) h.1.1, h.1.2⟩, h.2⟩
  connected h client := ⟨mapContext (f := fun ctx => { ctx with client }) h.1 ⟨rfl, rfl⟩
    h.1.2.1 rfl, h.2⟩
  produced h extract := ⟨mapContext (f := fun ctx => { ctx with extract }) h.1 ⟨rfl, rfl⟩
    h.1.2.1 rfl, h.2⟩
  worded h change _ := ⟨h.1, congrArg change h.2⟩

theorem lawful : (filing ρ σ).Lawful w.transcribed.watched w.transcribed.toRecorder.watched where
  tie p := by
    rw [(filing ρ σ).link_eq_ofLockstep trivial rfl rfl]
    exact (bond p).tie (fun _ _ h => ⟨h.1.1, h.1.2.2.2⟩) fun _ _ h n =>
      ⟨congrArg (RunState.note w.transcribed.watched n) h.1, h.2⟩
  -- the books are kept in the records, so that a change of the context leaves them as they are
  left_into _ _ := rfl
  right_into _ _ := rfl
  stacked h := by
    obtain ⟨rfl, hplace, -⟩ := h
    exact ⟨congrArg Place.including hplace, congrArg Place.including hplace⟩
  entered {p _ _} h id := mapContext
    (f := fun ctx => { ctx with including := p.including ++ [id] }) h ⟨rfl, rfl⟩
    (congrArg (fun q : Place => (⟨p.including ++ [id], q.key⟩ : Place)) h.2.1) rfl
  wrecked h := h
  left {p _ _ _} h := mapContext (f := fun ctx => { ctx with including := p.including }) h
    ⟨rfl, rfl⟩ (congrArg (fun q : Place => (⟨p.including, q.key⟩ : Place)) h.2.1) rfl
  keyed h key _ := mapContext (f := fun ctx => { ctx with key := some key }) h ⟨rfl, rfl⟩
    (congrArg (Place.within · key) h.2.1) rfl
  opened h defined := mapContext (f := fun ctx => { ctx with defined, extract := [] }) h ⟨rfl, rfl⟩
    h.2.1 rfl
  merged h data := mapContext (f := fun ctx => ctx.extend data .session) h ⟨rfl, rfl⟩ h.2.1 rfl
  iteration h key _ := congrArg (fun s : RunState ρ (Watch (Transcript σ)) =>
    s.context.iteration key) h.1
  counted h key _ i := mapContext (f := fun ctx => ctx.setIteration key i) h ⟨rfl, rfl⟩ h.2.1 rfl

/-- A step that is left has its record written behind those of the steps below it. -/
theorem concluded {step : Step} (hs : (filing ρ σ).inside p s s)
    {f : Frame ρ (Watch (Transcript σ))}
    (hf : (filing ρ σ).inside ⟨p.toPlace.within step.key, p.code, s.records.records.writes⟩
      f.state f.state) (hclosing : f.state.records.closing.session = f.state.context.session)
    (started : Instant) :
    let left := concludeStep w.transcribed.watched step.toStepFields s.context started f
    (filing ρ σ).inside p (s.resume (History.ended step s.context (.ok left.1 left.2)) left.2)
      (s.resume (History.ended step s.context (.ok left.1 left.2)) left.2) := by
  intro left
  obtain ⟨-, hplace, hcode, hfiled⟩ := hs
  obtain ⟨-, hinside, hsame, hbelow⟩ := hf
  have hleave : left.2.context.silent = _ :=
    concludeStep_silent w.transcribed.watched step.toStepFields s.context started f
  obtain ⟨d, hd, hwrites⟩ := concludeStep_writes (w := w) step s.context started f hclosing
  have hchildren : left.2.records.children = f.state.records.children :=
    (unseen_concludeStep (w := w.transcribed) step.toStepFields s.context started f).1
  refine ⟨rfl, ?_, ((congrArg Context.reportCode hleave :).trans hsame), ?_⟩
  · -- the key is put back, and the stack is as it was in the step
    have hkey : left.2.context.key = s.context.key := (congrArg Context.key hleave :)
    have hincluding : left.2.context.including = p.including :=
      (congrArg Context.including hleave :).trans (congrArg Place.including hinside)
    exact (congrArg₂ Place.mk hincluding hkey).trans
      (congrArg (fun q : Place => (⟨p.including, q.key⟩ : Place)) hplace)
  · refine hfiled.append ?_
    change Filed p.code s.records.records.writes _ left.2.records.records.writes
    rw [hwrites, hsame]
    refine Filed.ended rfl ?_ hd
    change Filed p.code s.records.records.writes left.2.records.children _
    rw [hchildren]
    exact hbelow

/-- **The life of a step** keeps the books, if its work does. -/
theorem life {including : List Int} (step : Step) {work : Exec ρ (Watch (Transcript σ)) Unit}
    (hwork : ∀ p : FilingPlace, p.including = including →
      ((filing ρ σ).link ((filing ρ σ).within p step.key)).Holds Eq work work)
    (hp : p.including = including) :
    let child : Ready ρ (Watch (Transcript σ)) := ⟨step.toStepFields,
      watchRun step (runStep w.transcribed.watched step.toStepFields work.watched)⟩
    (filing ρ σ).Paired p child child := by
  intro child
  refine ⟨rfl, trivial, fun s t hst => ?_, fun _ h => h.elim, fun _ h => h.elim⟩
  obtain rfl := hst.1
  -- the step starts with nothing run below it, and with what has been written so far
  let q : FilingPlace := ⟨p.toPlace, p.code, s.records.records.writes⟩
  have hfresh : (filing ρ σ).inside q s.fresh s.fresh := ⟨rfl, hst.2.1, hst.2.2.1, .nil _ _⟩
  have hopening : (filing ρ σ).inside ((filing ρ σ).within q step.key)
      (openingFrame w.transcribed step.toStepFields s.fresh).state
      (openingFrame w.transcribed step.toStepFields s.fresh).state :=
    ⟨rfl, (lawful.enterStep hfresh trivial).2⟩
  have hend := (hwork q hp).ends _ _ ⟨hopening, .rfl⟩
  change (filing ρ σ).RunEnds p _ (watchRun step (runStep _ _ work.watched) s)
    (watchRun step (runStep _ _ work.watched) s)
  unfold watchRun
  rw [runStep_watched]
  generalize work (openingFrame w.transcribed step.toStepFields s.fresh) = x at hend
  cases hend with
  | @ok _ _ f _ _ h =>
    have hleft := concluded (w := w) (f := f.mapState RunState.closed) hst ⟨rfl, h.1.2⟩ rfl
      (w.now s.fresh.outside)
    exact .ok .rfl hleft
  | @fault fault f _ _ h =>
    -- a fault is written into the trace before the step is left
    have hleft := concluded (w := w) hst
      (f := recordFault w.transcribed.watched fault (f.mapState RunState.closed)) ⟨rfl, h.1.2⟩ rfl
      (w.now s.fresh.outside)
    exact .ok .rfl hleft
  | crash h => exact .crash ⟨rfl, hst.2.2.2.append (Filed.broken rfl h.2)⟩
  | lost h => exact h.elim
  | lost' h => exact h.elim

/-- What the books of the steps of a case need, that an include step may run. -/
def Cases (including : List Int) (library : Library)
    (ready : List Step → List (Ready ρ (Watch (Transcript σ)))) : Prop :=
  ∀ id record, library.find? id = some record → id ∉ including →
    ∀ p : FilingPlace, p.including = including ++ [id] →
      List.Forall₂ ((filing ρ σ).Paired p) (ready record.steps) (ready record.steps)

theorem Cases.opens {including : List Int} {library : Library}
    {ready : List Step → List (Ready ρ (Watch (Transcript σ)))}
    (hr : Cases including library ready) (hp : p.including = including) (step : StepFields) :
    (filing ρ σ).Opens library p ready ready step := by
  subst hp
  intro id record _ hrecord _ _
  refine ⟨fun _ _ _ h => h.elim, fun _ _ _ h => h.elim, ?_⟩
  by_cases hid : id ∈ p.including
  · exact .inl ⟨hid, rfl⟩
  · exact .inr ⟨hid, hid, hr id record hrecord hid _ rfl⟩

mutual

/-- **A step keeps the books,** if the steps of the cases that it may include do. -/
theorem step {including : List Int} {ready : List Step → List (Ready ρ (Watch (Transcript σ)))}
    (hr : Cases including w.library ready) : ∀ (step : Step) (p : FilingPlace),
    p.including = including →
    (filing ρ σ).Paired p (step.watched w.transcribed ready) (step.watched w.transcribed ready)
  | ⟨fields, children⟩, _, hp => life ⟨fields, children⟩ (fun q hq =>
      lawful.work (p := (filing ρ σ).within q fields.key) fields trivial
        (fun _ => hr.opens (p := (filing ρ σ).within q fields.key) hq fields) (steps hr children _ hq)) hp

theorem steps {including : List Int} {ready : List Step → List (Ready ρ (Watch (Transcript σ)))}
    (hr : Cases including w.library ready) : ∀ (steps : List Step) (p : FilingPlace),
    p.including = including →
    List.Forall₂ ((filing ρ σ).Paired p) (Step.watchedAll w.transcribed ready steps)
      (Step.watchedAll w.transcribed ready steps)
  | [], _, _ => .nil
  | s :: rest, p, hp => .cons (step hr s p hp) (steps hr rest p hp)

end

end filing

variable (w)

theorem watchedSteps_filing (including : List Int) {depth : Nat}
    (hd : (w.library.left including).length ≤ depth) :
    filing.Cases (ρ := ρ) (σ := σ) including w.library (watchedSteps w.transcribed depth) := by
  induction including using w.library.left_induction generalizing depth with
  | _ including ih =>
    intro id record hrecord hid p hp
    have hloadable := Library.mem_loadable_of_find? hrecord
    have hleft := Library.length_left_concat hloadable hid
    -- at the bottom there is no case left that could be entered
    obtain ⟨d, rfl⟩ : ∃ d, depth = d + 1 := ⟨depth - 1, by omega⟩
    exact filing.steps (ih id hloadable hid (by omega)) record.steps p hp

/-! ### Runs of cases -/

/-- **The roots of a case** keep the books, however their run ends; if it does not break down, it
still has its report. -/
theorem runRoots_filed (code : String) (steps : List Step) (s : RunState ρ (Transcript σ)) :
    let x := runRoots w.transcribed code (rootsOf w.transcribed steps).length
      (rootsOf w.transcribed steps) 1 s
    Filed s.context.reportCode s.records.writes (caseHistories w.transcribed code steps s)
        (endState x).records.writes ∧
      ∀ results s', x = .ok results s' → s'.context.reportCode = s.context.reportCode := by
  intro x
  let W := w.transcribed
  let roots := Ready.ordered (Step.watchedAll W (watchedSteps W W.library.length) steps)
  let p : FilingPlace := ⟨s.context.place, s.context.reportCode, s.records.writes⟩
  have hcases := watchedSteps_filing w s.context.including (w.library.length_left_le _)
  have hpaired : List.Forall₂ ((filing ρ σ).Paired p) roots roots :=
    Correspondence.Paired.ordered (filing.steps hcases steps p rfl)
  have hnoted : ∀ {s t}, (filing ρ σ).inside p s t → ∀ n,
      (filing ρ σ).inside p (s.note W.watched n) (t.note W.watched n) :=
    fun h n => ⟨congrArg (RunState.note W.watched n) h.1, h.2⟩
  have hend := filing.lawful.roots (w := W.watched) code code roots.length roots.length hpaired 1 1
    (fun h _ _ => hnoted h _) (fun h _ => hnoted h _) (s := s.watching) (t := s.watching)
    ⟨rfl, rfl, rfl, .nil _ _⟩
  -- the watched run is the run itself, seen through the watch
  have hwatched := Coupling.ordered (watchedAll_paired (watchedSteps_paired W s.context.including)
    steps)
  have halike := Coupling.roots (K := erasure W) code roots.length hwatched 1
    (⟨coupled_iff_unwatched.mpr rfl, rfl⟩ : (erasure W).inside s.context.place s.watching s)
  have hlength : (rootsOf W steps).length = roots.length := hwatched.length_eq.symm
  unfold caseHistories
  dsimp only [x]
  rw [hlength]
  change (filing ρ σ).RunEnds p _ (runRoots W.watched code roots.length roots 1 s.watching)
    (runRoots W.watched code roots.length roots 1 s.watching) at hend
  change AlikeRun _ _ (runRoots W.watched code roots.length roots 1 s.watching)
    (runRoots w.transcribed code roots.length (rootsOf w.transcribed steps) 1 s) at halike
  generalize runRoots W.watched code roots.length roots 1 s.watching = x at hend halike ⊢
  generalize runRoots w.transcribed code _ _ 1 s = y at halike ⊢
  cases halike with
  | ok hst =>
    obtain rfl := coupled_iff_unwatched.mp hst.1
    cases hend with
    | ok _ h =>
      refine ⟨h.2.2.2, ?_⟩
      rintro _ _ ⟨⟩
      exact h.2.2.1
    | lost h => exact h.elim
    | lost' h => exact h.elim
  | crash hst =>
    obtain rfl := coupled_iff_unwatched.mp hst
    cases hend with
    | crash h => exact ⟨h.2, by rintro _ _ ⟨⟩⟩
    | lost h => exact h.elim
    | lost' h => exact h.elim

/-- Opening a report is a write, whether it is refused or not. -/
theorem openReport_writes (case : CaseHeader) {options : RunOptions} (started : Instant)
    (y : Transcript σ) (hsave : options.saveReport = true) :
    (openReport w.transcribed case options started y).2.writes =
      y.writes ++ [.opened (openingOf case options.kind started)] := by
  unfold openReport
  rw [if_pos hsave]
  split <;> next h => exact congrArg (fun kept => kept.2.writes) h.symm

/-- The closing of the report on a run. -/
def CaseExecution.closing (run : CaseExecution) (code : String) (ended : Instant) :
    ReportClosing where
  reportCode := code
  endedAt := ended.stamp
  elapsed := Binary64.fixedStyle 3 run.elapsed
  state := run.success
  statistics := run.statistics

theorem keepState_writes (case : CaseHeader) (success : Bool) (y : Transcript σ) :
    (keepState w.transcribed case success y).writes =
      y.writes ++ case.id.toList.map fun id => .outcome id success := by
  unfold keepState
  cases case.id with
  | none => exact (List.append_nil _).symm
  | some id =>
    dsimp only
    split <;> next h =>
    have hrecords := congrArg Prod.snd h
    dsimp only at hrecords
    subst hrecords
    rfl

/-- **Closing a report:** the outcome of the case is kept, if it can be, whether the report could be
closed or not. -/
theorem closeReport_writes (run : CaseExecution) (ended : Instant) (y : Transcript σ) :
    (closeReport w.transcribed run ended y).writes = y.writes ++
      run.reportCode.toList.flatMap fun code => .closed (run.closing code ended) ::
        run.case.id.toList.map fun id => .outcome id run.success := by
  unfold closeReport
  cases run.reportCode with
  | none => exact (List.append_nil _).symm
  | some code =>
    dsimp only
    rw [keepState_writes]
    split <;> next h =>
    have hrecords := congrArg Prod.snd h
    dsimp only at hrecords
    subst hrecords
    change (y.writes ++ [_]) ++ _ = _
    simp [CaseExecution.closing]

/-- What is written after the roots. -/
theorem finish_writes (case : CaseHeader) (started : Instant) (results : List StepResult)
    (s : RunState ρ (Transcript σ)) :
    let run := executionOf case s.context.reportCode results s.context
      (secondsBetween started (w.now s.outside))
    (finish w.transcribed case started results s).outcome = .ok run ∧
      (finish w.transcribed case started results s).records.writes = s.records.writes ++
        s.context.reportCode.toList.flatMap fun code =>
          .closed (run.closing code (w.now s.outside)) ::
            case.id.toList.map fun id => .outcome id run.success := by
  -- the client is released, or there is none; the run does not show it
  unfold finish RunState.close
  cases s.context.client <;> exact ⟨rfl, closeReport_writes w _ _ _⟩

/-- **A forest** keeps the books until its roots have ended, and then its report is closed. -/
theorem runForest_writes (case : CaseHeader) (steps : List Step) (started : Instant)
    (s : RunState ρ (Transcript σ)) :
    ∃ ws, Filed s.context.reportCode s.records.writes
      (caseHistories w.transcribed case.code steps
        (s.note w.transcribed (.caseStarted case.code (rootsOf w.transcribed steps).length))) ws ∧
      ((∃ b, runForest w.transcribed case steps started s = .error b ∧ b.records.writes = ws) ∨
        ∃ f run ended, runForest w.transcribed case steps started s = .ok f ∧
          f.outcome = .ok run ∧ run.reportCode = s.context.reportCode ∧
          f.records.writes = ws ++ run.reportCode.toList.flatMap fun code =>
            .closed (run.closing code ended) ::
              case.id.toList.map fun id => .outcome id run.success) := by
  obtain ⟨hfiled, hcode⟩ := runRoots_filed w case.code steps
    (s.note w.transcribed (.caseStarted case.code (rootsOf w.transcribed steps).length))
  refine ⟨_, hfiled, ?_⟩
  rw [runForest_eq]
  -- a run that breaks down in its roots writes nothing after them
  generalize runRoots w.transcribed case.code _ _ 1 _ = x at hcode
  cases x with
  | error crash s' => exact .inl ⟨_, rfl, rfl⟩
  | ok results s' =>
    obtain ⟨hrun, hwrites⟩ := finish_writes w case started results s'
    exact .inr ⟨_, _, _, rfl, hrun, hcode _ _ rfl, hwrites⟩

/-- The details of the steps that ended, in post-order: each one says what the result of its step
says, and is filed under the code of the report. -/
def Details (code : String) (hs : List History) (details : List Detail) : Prop :=
  List.Forall₂ (fun h d => ∃ r, h.result = some r ∧ d.key = r.key ∧ Detail.Tells code h r d)
    (History.completed hs) details

/-- They are all filed under the code. -/
theorem Details.reportCode {code : String} {hs : List History} {details : List Detail}
    (h : Details code hs details) : ∀ d ∈ details, d.reportCode = code := by
  unfold Details at h
  generalize History.completed hs = ended at h
  induction h with
  | nil => exact fun _ h => nomatch h
  | cons hd _ ih =>
    obtain ⟨r, -, -, htells⟩ := hd
    exact List.forall_mem_cons.mpr ⟨htells.reportCode, ih⟩

/-- **What a run of a case writes,** given the opening of its report, the answer of the host to it,
and the histories of the roots. -/
inductive RunWrites {τ : Type} (case : CaseHeader) (steps : List Step) (options : RunOptions)
    (opening : ReportOpening) (answer : Except String String) (hs : List History) :
    Except (BrokenRun τ) (Finished ρ τ) → List HostWrite → Prop
  /-- Nothing, if the structure of the case is bad or no report is wanted. -/
  | nothing {x : Except (BrokenRun τ) (Finished ρ τ)} :
    (∃ e, validate steps = .error e) ∨ options.saveReport = false →
    RunWrites case steps options opening answer hs x []
  /-- Only the opening of the report, if the host refuses it: then no step runs. -/
  | refused {reason : String} {f : Finished ρ τ} : validate steps = .ok () →
    options.saveReport = true → answer = .error reason → hs = [] →
    f.outcome = .error (.reportNotCreated case.code reason) →
    RunWrites case steps options opening answer hs (.ok f) [.opened opening]
  /-- The opening, a detail for every result of the forest, and the closing; then the outcome of the
  case, if the case has an id. -/
  | closed {code : String} {f : Finished ρ τ} {run : CaseExecution} {details : List Detail}
    {closing : ReportClosing} : validate steps = .ok () → options.saveReport = true →
    answer = .ok code → f.outcome = .ok run → run.reportCode = some code →
    Details code hs details →
    (History.completed hs).filterMap History.result = run.results.flatMap StepResult.postOrder →
    closing.reportCode = code → closing.state = run.success →
    closing.statistics = run.statistics →
    RunWrites case steps options opening answer hs (.ok f)
      (.opened opening :: details.map .detail ++
        .closed closing :: case.id.toList.map fun id => .outcome id run.success)
  /-- A run that does not come back, since no client can be opened with its settings, has written the
  opening and the details of the steps that ended. -/
  | broken {code : String} {b : BrokenRun τ} {details : List Detail} : validate steps = .ok () →
    options.saveReport = true → answer = .ok code →
    (∀ client, openClient options.settings ≠ .ok client) → Details code hs details →
    RunWrites case steps options opening answer hs (.error b)
      (.opened opening :: details.map .detail)

/-- What the books show, if every result is shown under its key. -/
theorem Filed.details {o : Outside ρ} {code : String} {base : List HostWrite} {hs : List History}
    {writes : List HostWrite} (h : Filed (some code) base hs writes)
    (hsound : ∀ g ∈ hs, g.Everywhere (History.Sound o)) :
    ∃ details, Details code hs details ∧ writes = base ++ details.map .detail := by
  obtain ⟨ds, hds, rfl⟩ := h
  refine ⟨ds, ?_, rfl⟩
  refine ((List.forall₂_and_left _ _).mpr ⟨History.completed_key hsound, hds⟩).imp ?_
  rintro k d ⟨hkey, r, hr, hd⟩
  exact ⟨r, hr, hd.key.trans (hkey r hr).symm, hd⟩

section

variable {case : CaseHeader} {steps : List Step} {options : RunOptions}
  {client : Option Http.Client} {outside : ρ} {y : Transcript σ}

/-- A run whose report was opened, if it has one, keeps the books from there on. -/
theorem runCase_opened (client : Option Http.Client) (hvalid : validate steps = .ok ())
    {report : Option String}
    {opened : Transcript σ} (hopen : openReport w.transcribed case options (w.now outside)
      (w.transcribed.note (.entered (.caseRun case.code)) y) = (.ok report, opened)) :
    let x := runCase w.transcribed case steps options client outside y
    ∃ ws, Filed report opened.writes
      (runHistories w.transcribed case steps options client outside y) ws ∧
      ((∃ b, x = .error b ∧ b.records.writes = ws) ∨
        ∃ f run ended, x = .ok f ∧ f.outcome = .ok run ∧ run.reportCode = report ∧
          f.records.writes = ws ++ report.toList.flatMap fun code =>
            .closed (run.closing code ended) ::
              case.id.toList.map fun id => .outcome id run.success) := by
  intro x
  obtain ⟨ws, hfiled, hend⟩ := runForest_writes w case steps (w.now outside)
    (startState case options client report outside opened)
  refine ⟨ws, ?_, ?_⟩
  · unfold runHistories rootsState
    rw [hvalid]
    dsimp only
    rw [hopen]
    exact hfiled
  · have hx : x = _ := runCase_forest hvalid hopen
    rw [hx]
    -- a notice of the end is no write
    rcases hend with ⟨b, hb, hwrites⟩ | ⟨f, run, ended, hf, hrun, hreport, hwrites⟩
    · exact .inl ⟨b, by rw [hb]; rfl, hwrites⟩
    · rw [hf]
      rw [hreport] at hwrites
      exact .inr ⟨_, run, ended, rfl, hrun, hreport, hwrites⟩

variable {records : σ}

/-- A run whose report is refused has written its opening, and runs no step. -/
theorem runWrites_refused (hvalid : validate steps = .ok ()) (hsave : options.saveReport = true)
    {reason : String} (hanswer : (w.createReport (openingOf case options.kind (w.now outside))
      (w.note (.entered (.caseRun case.code)) records)).1 = .error reason) :
    let x := runCase w.transcribed case steps options client outside { records }
    RunWrites case steps options (openingOf case options.kind (w.now outside)) (.error reason)
      (runHistories w.transcribed case steps options client outside { records }) x
      (recordsOf x).writes := by
  intro x
  let entered : Transcript σ := w.transcribed.note (.entered (.caseRun case.code)) { records }
  have hwritten := openReport_writes w case (w.now outside) entered hsave
  have hresult := openReport_fst w.transcribed case options (w.now outside) entered
  rcases hopen : openReport w.transcribed case options (w.now outside) entered with ⟨result, opened⟩
  rw [hopen] at hwritten hresult
  -- a recorder with a transcript answers as before
  have hsame : (w.transcribed.createReport (openingOf case options.kind (w.now outside))
    entered).1 = .error reason := hanswer
  rw [if_pos hsave, hsame] at hresult
  obtain rfl : result = .error (.reportNotCreated case.code reason) := hresult
  have hx : x = _ := runCase_refused hvalid hopen
  have hnone : runHistories w.transcribed case steps options client outside { records } = [] := by
    unfold runHistories rootsState
    rw [hvalid]
    dsimp only
    rw [hopen]
  have hwrites : (recordsOf x).writes = [.opened (openingOf case options.kind (w.now outside))] := by
    rw [hx]
    exact hwritten
  rw [hwrites, hx, hnone]
  exact .refused hvalid hsave rfl rfl rfl

/-- A run whose report is opened keeps the books, and closes the report if it does not break down. -/
theorem runWrites_reported (hvalid : validate steps = .ok ()) (hsave : options.saveReport = true)
    {code : String} (hanswer : (w.createReport (openingOf case options.kind (w.now outside))
      (w.note (.entered (.caseRun case.code)) records)).1 = .ok code) :
    let x := runCase w.transcribed case steps options client outside { records }
    RunWrites case steps options (openingOf case options.kind (w.now outside)) (.ok code)
      (runHistories w.transcribed case steps options client outside { records }) x
      (recordsOf x).writes := by
  intro x
  let entered : Transcript σ := w.transcribed.note (.entered (.caseRun case.code)) { records }
  have hsound : ∀ h ∈ runHistories w.transcribed case steps options client outside { records },
      h.Everywhere (History.Sound w.transcribed.toOutside) :=
    fun h hh => (runHistories_sound w.transcribed h hh).1
  have hwritten := openReport_writes w case (w.now outside) entered hsave
  have hresult := openReport_fst w.transcribed case options (w.now outside) entered
  rcases hopen : openReport w.transcribed case options (w.now outside) entered with ⟨result, opened⟩
  rw [hopen] at hwritten hresult
  have hsame : (w.transcribed.createReport (openingOf case options.kind (w.now outside))
    entered).1 = .ok code := hanswer
  rw [if_pos hsave, hsame] at hresult
  obtain rfl : result = .ok (some code) := hresult
  obtain ⟨ws, hfiled, hend⟩ := runCase_opened w client hvalid hopen
  -- the books of the run are the details of its histories
  obtain ⟨details, hdetails, rfl⟩ := hfiled.details hsound
  obtain hwritten : opened.writes = [.opened _] := hwritten
  rw [hwritten] at hend
  rcases hend with ⟨b, hb, hwrites⟩ | ⟨f, run, ended, hf, hrun, hreport, hwrites⟩
  · obtain hb : x = .error b := hb
    rw [hb]
    change RunWrites case steps options _ _ _ _ b.records.writes
    rw [hwrites]
    -- without the books it is the same run, which has broken down at its client
    have hcrash : (⟨client, outside, records⟩ : Start ρ σ).run w case steps options =
        .error b.crash := by
      rw [← Start.run_transcribed]
      exact congrArg outcomeOf hb
    exact .broken hvalid hsave rfl (Start.run_broken hcrash).2 hdetails
  · obtain hf : x = .ok f := hf
    obtain ⟨⟨outcome, hpass⟩, hresults⟩ := runCase_ran w.transcribed hf hrun
    have hcompleted := (History.completed_results hsound
      (hpass.results (Option.some_ne_none _))).2
    rw [← hresults] at hcompleted
    rw [hf]
    change RunWrites case steps options _ _ _ _ f.records.writes
    rw [hwrites]
    simp only [Option.toList_some, List.flatMap_singleton, List.append_assoc]
    exact .closed hvalid hsave rfl hrun hreport hdetails hcompleted rfl rfl rfl

/-- A run that wants no report writes nothing. -/
theorem writes_unreported (hvalid : validate steps = .ok ()) (hsave : options.saveReport = false) :
    (recordsOf (runCase w.transcribed case steps options client outside { records })).writes =
      [] := by
  have hopen : openReport w.transcribed case options (w.now outside)
      (w.transcribed.note (.entered (.caseRun case.code)) { records }) = (.ok none, _) :=
    if_neg (by rw [hsave]; exact Bool.false_ne_true)
  obtain ⟨ws, hfiled, hend⟩ := runCase_opened w client hvalid hopen
  obtain rfl : ws = [] := hfiled
  rcases hend with ⟨b, hb, hwrites⟩ | ⟨f, run, ended, hf, -, -, hwrites⟩
  · rw [hb]
    exact hwrites
  · rw [hf]
    exact hwrites

/-- **A transcribed run** writes nothing, or an opening that is refused, or an opening, the details
and, unless it breaks down, a closing. -/
theorem transcribed_runWrites (case : CaseHeader) (steps : List Step) (options : RunOptions)
    (client : Option Http.Client) (outside : ρ) (records : σ) :
    let x := runCase w.transcribed case steps options client outside { records }
    RunWrites case steps options (openingOf case options.kind (w.now outside))
      (w.createReport (openingOf case options.kind (w.now outside))
        (w.note (.entered (.caseRun case.code)) records)).1
      (runHistories w.transcribed case steps options client outside { records }) x
      (recordsOf x).writes := by
  intro x
  -- in the order in which a run may stop: at the gate, at its options, at the answer of its host
  cases hvalid : validate steps with
  | error e =>
    have hx : x = _ := runCase_invalid hvalid
    rw [hx]
    exact .nothing (.inl ⟨e, hvalid⟩)
  | ok _ =>
    cases hsave : options.saveReport with
    | false =>
      rw [writes_unreported w hvalid hsave]
      exact .nothing (.inr hsave)
    | true =>
      cases hanswer : (w.createReport (openingOf case options.kind (w.now outside))
        (w.note (.entered (.caseRun case.code)) records)).1 with
      | error reason => exact runWrites_refused w hvalid hsave hanswer
      | ok code => exact runWrites_reported w hvalid hsave hanswer

end

end Scenario
