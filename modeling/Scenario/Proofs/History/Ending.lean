import Scenario.Proofs.Link.Bond
import Scenario.Proofs.StepLife

/-!
# How work ends

The work of a step finishes, or stops at a fault, or the run crashes in it. Which of these it is,
for work in which no other step is run, can be read off the context in which it is opened.

* `Ending` — how work ends; a fault says by itself whether it ends the case.
* `Context.branches` — what the predicate of a step says in a context. `Exec.Answers` relates a
  computation to such an answer: `Exec.Answers.evaluate`.
* `Context.Refuses` — why an include step does not get to its case: `Exec.includedCase_refuses`.
* `Idle` — the work of a step that runs no other step, kind by kind.
-/

namespace Scenario

variable {ρ σ α β : Type}

/-! ### Endings -/

/-- How the work of a step ends. -/
inductive Ending where
  | finished
  | faulted (fault : Fault)
  /-- At a crash of the run. -/
  | crashed

namespace Ending

/-- The fault at which work ended, if it did. -/
def fault? : Ending → Option Fault
  | faulted fault => some fault
  | _ => none

/-- Whether the case ends with the work. -/
def aborts (ending : Ending) : Bool := ending.fault?.any Fault.isAbort

@[simp] theorem aborts_finished : finished.aborts = false := rfl

@[simp] theorem aborts_faulted (fault : Fault) : (faulted fault).aborts = fault.isAbort := rfl

@[simp] theorem aborts_crashed : crashed.aborts = false := rfl

/-- Why a computation stopped, as the end of work. -/
def ofStop : Stop → Ending
  | .fault fault => .faulted fault
  | .crash _ => .crashed

/-- How a computation ended, as the end of work. -/
def of : Except Stop α → Ending
  | .ok _ => .finished
  | .error stop => ofStop stop

/-- The end of work that takes over what came of a list of steps; nothing comes of them in a
crash. -/
def ofOutcome (container : String) : Option ChildrenOutcome → Ending
  | none => .crashed
  | some .passed => .finished
  | some .failed => .faulted (.execution (.childFailed container))
  | some .aborted => .faulted (.aborted (.inside container))

/-- **The work does not end the case** unless a script does so by itself. -/
def Mild (o : Outside ρ) (ending : Ending) : Prop := o.Mild → ending.aborts = false

theorem mild_finished (o : Outside ρ) : finished.Mild o := fun _ => rfl

theorem mild_faulted {o : Outside ρ} {fault : Fault} (h : fault.isAbort = false) :
    (faulted fault).Mild o := fun _ => h

/-- The end of work at a mild fault. -/
theorem mild_of {o : Outside ρ} {x : Except Fault α} (hx : Scenario.Mild x) {fault : Fault}
    (h : x = .error fault) : (faulted fault).Mild o :=
  mild_faulted (hx fault h)

/-- Work that aborts has not finished. -/
theorem ne_finished {ending : Ending} (h : ending.aborts = true) : ending ≠ .finished := by
  rintro rfl
  cases h

theorem ofOutcome_ne_crashed {container : String} {outcome : Option ChildrenOutcome} :
    ofOutcome container outcome ≠ .crashed ↔ outcome ≠ none := by
  rcases outcome with _ | _ | _ | _ <;> simp [ofOutcome]

theorem ofOutcome_aborts {container : String} {outcome : Option ChildrenOutcome} :
    (ofOutcome container outcome).aborts = true ↔ outcome = some .aborted := by
  rcases outcome with _ | _ | _ | _ <;> simp [ofOutcome, Fault.isAbort]

theorem ofOutcome_finished {container : String} {outcome : Option ChildrenOutcome} :
    ofOutcome container outcome = .finished ↔ outcome = some .passed := by
  rcases outcome with _ | _ | _ | _ <;> simp [ofOutcome]

end Ending

/-! ### Predicates -/

namespace Context

/-- The value that a predicate looks at, as a step finds it. -/
def actual (ctx : Context) (declared : Json.Value) : Except Fault Json.Value :=
  match (Placeholder.resolveValue ctx.lookup declared).out with
  | .string s =>
    match Placeholder.bareReference? s.toList with
    | some body => ctx.valueOf (Placeholder.nameOf body)
    | none => .ok (.string s)
  | v => .ok v

/-- What a predicate says. -/
def decides (ctx : Context) (condition : Condition) : Except Fault Bool :=
  match ctx.actual condition.value with
  | .error fault => .error fault
  | .ok actual => Comparison.compareText actual condition.operation
      (Placeholder.resolveValue ctx.lookup condition.expected).out

/-- **What the predicate of a step says.** A step without a readable predicate is misconfigured. -/
def branches (ctx : Context) (step : StepFields) : Except Fault Bool :=
  match Condition.ofField step.conditions with
  | .error fault => .error fault
  | .ok condition => ctx.decides condition

theorem branches_mild (ctx : Context) (step : StepFields) : Mild (ctx.branches step) := by
  -- what a predicate compares, and what comes of the comparison
  have actual : ∀ declared, Mild (ctx.actual declared) := by
    intro declared
    unfold Context.actual
    split
    · split
      · exact .valueOf ctx _
      · exact .ok _
    · exact .ok _
  have decides : ∀ condition, Mild (ctx.decides condition) := by
    intro condition
    unfold Context.decides
    split
    · next fault hfault => exact .error (actual _ fault hfault)
    · exact .compareText _ _ _
  unfold branches
  split
  · next fault hfault => exact .error (Mild.condition _ fault hfault)
  · exact decides _

/-- What a name stands for depends on the lookup alone. -/
theorem valueOf_congr {c d : Context} (h : d.lookup = c.lookup) : d.valueOf = c.valueOf := by
  funext name
  unfold valueOf
  rw [h]

end Context

/-- **A computation answers** what is known beforehand, and leaves the variables as they are. -/
def Exec.Answers (m : Exec ρ σ α) (f : Frame ρ σ) (x : Except Fault α) : Prop :=
  match m f with
  | .ok a g => x = .ok a ∧ g.state.context.lookup = f.state.context.lookup
  | .error (.fault fault) _ => x = .error fault
  | .error (.crash _) _ => False

namespace Exec.Answers

variable {w : World ρ σ} {f : Frame ρ σ} {m : Exec ρ σ α} {x : Except Fault α}

protected theorem pure (a : α) : Answers (pure a : Exec ρ σ α) f (.ok a) := ⟨rfl, rfl⟩

theorem ofExcept (x : Except Fault α) : Answers (Exec.ofExcept x : Exec ρ σ α) f x := by
  cases x with
  | ok a => exact ⟨rfl, rfl⟩
  | error fault => exact (rfl : Except.error fault = Except.error fault)

protected theorem bind {k : α → Exec ρ σ β} {y : Except Fault β} (hm : Answers m f x)
    (hk : ∀ a g, x = .ok a → g.state.context.lookup = f.state.context.lookup → Answers (k a) g y)
    (herror : ∀ fault, x = .error fault → y = .error fault) : Answers (m >>= k) f y := by
  unfold Answers at hm ⊢
  rw [show (m >>= k) f = EStateM.bind m k f from rfl]
  unfold EStateM.bind
  rcases hx : m f with ⟨a, g⟩ | ⟨fault | _, g⟩
  · simp only [hx] at hm
    -- the rest answers in a frame with the same variables, and leaves them again
    have hend := hk a g hm.1 hm.2
    unfold Answers at hend
    dsimp only
    rcases hy : k a g with ⟨b, g'⟩ | ⟨_ | _, g'⟩ <;> simp only [hy] at hend
    · exact ⟨hend.1, hend.2.trans hm.2⟩
    · exact hend
  · simp only [hx] at hm
    exact herror fault hm
  · simp only [hx] at hm

/-- Resolving a value comes first. -/
theorem resolved {k : Json.Value → Exec ρ σ β} {y : Except Fault β} {v : Json.Value}
    (hk : ∀ g, g.state.context.lookup = f.state.context.lookup →
      Answers (k (Placeholder.resolveValue f.state.context.lookup v).out) g y) :
    Answers (Exec.resolveValue w v >>= k) f y := by
  have hresolve : Answers (Exec.resolveValue w v) f
      (.ok (Placeholder.resolveValue f.state.context.lookup v).out) :=
    ⟨rfl, (congrArg Context.lookup (RunState.logMissing_silent w _ f.state) :)⟩
  refine Answers.bind hresolve (fun a g ha hg => ?_) (by rintro _ ⟨⟩)
  cases ha
  exact hk g hg

/-- A line in the trace comes first. -/
theorem logged {k : Unit → Exec ρ σ β} {y : Except Fault β} {text : String}
    (hk : ∀ g, g.state.context.lookup = f.state.context.lookup → Answers (k ()) g y) :
    Answers (Exec.log w text >>= k) f y := by
  have hlog : Answers (Exec.log w text) f (.ok ()) := ⟨rfl, rfl⟩
  exact Answers.bind hlog (fun _ g _ hg => hk g hg) (by rintro _ ⟨⟩)

/-- A look at the context comes first. -/
theorem context {k : Context → Exec ρ σ β} {y : Except Fault β}
    (hk : Answers (k f.state.context) f y) : Answers (Exec.context >>= k) f y := hk

theorem actualValue (declared : Json.Value) :
    Answers (Exec.actualValue w declared) f (f.state.context.actual declared) := by
  unfold Exec.actualValue Context.actual
  refine resolved fun g hg => ?_
  generalize (Placeholder.resolveValue f.state.context.lookup declared).out = found
  cases found with
  | string s =>
    -- a text that is still a placeholder is the name of a variable
    dsimp only
    cases Placeholder.bareReference? s.toList with
    | none => exact .pure _
    | some body =>
      dsimp only
      rw [← Context.valueOf_congr hg]
      exact context (ofExcept _)
  | _ => exact .pure _

/-- **Evaluating a predicate** answers what it says in the context. -/
theorem evaluate (condition : Condition) :
    Answers (Exec.evaluate w condition) f (f.state.context.decides condition) := by
  unfold Exec.evaluate Context.decides
  refine Answers.bind (actualValue condition.value) (fun actual g ha hg => ?_)
    fun fault hfault => ?_
  · rw [ha]
    dsimp only
    refine resolved fun g' _ => ?_
    rw [hg]
    refine Answers.bind (ofExcept _) (fun holds g'' hholds _ => ?_) fun fault hfault => hfault
    rw [hholds]
    exact logged fun _ _ => .pure holds
  · rw [hfault]

end Exec.Answers

/-! ### Inclusion -/

/-- **Why an include step is refused,** and with which fault. -/
inductive Context.Refuses (o : Outside ρ) (ctx : Context) (step : StepFields) : Fault → Prop
  | unnamed : step.includedCase = none → Refuses o ctx step (.configuration .includedCaseMissing)
  /-- Loading the case has failed. -/
  | unloaded {id : Int} {reason : String} {outside : ρ} : step.includedCase = some id →
    (o.loadTrouble id outside).1 = some reason →
    Refuses o ctx step (.execution (.caseNotLoaded id reason))
  | unknown {id : Int} : step.includedCase = some id → o.library.find? id = none →
    Refuses o ctx step (.configuration (.includedCaseUnknown id))
  | restricted {id : Int} {record : CaseRecord} : step.includedCase = some id →
    o.library.find? id = some record → record.visibility = .restricted →
    Refuses o ctx step (.configuration (.includedCasePrivate id record.header.code))
  /-- The case is being run already. -/
  | running {id : Int} {record : CaseRecord} : step.includedCase = some id →
    o.library.find? id = some record → record.visibility = .shared → record.steps ≠ [] →
    id ∈ ctx.including →
    Refuses o ctx step (.configuration (.circularInclusion (ctx.including ++ [id])))

theorem Context.Refuses.mild {o : Outside ρ} {ctx : Context} {step : StepFields} {fault : Fault}
    (h : ctx.Refuses o step fault) : fault.isAbort = false := by
  cases h <;> rfl

/-- A case that cannot be loaded, or that is not in the library, is refused. -/
theorem Exec.loadCase_refuses {w : World ρ σ} {step : StepFields} {id : Int}
    (hid : step.includedCase = some id) {ctx : Context} {f g : Frame ρ σ} {stop : Stop}
    (h : Exec.loadCase w id f = .error stop g) :
    ∃ fault, stop = .fault fault ∧ ctx.Refuses w.toOutside step fault := by
  -- asking for the case does not stop by itself
  rcases Exec.bind_error h with hasked | ⟨trouble, f', hasked, hload⟩
  · cases hasked
  · have htrouble : (w.loadTrouble id f.state.outside).1 = trouble :=
      (EStateM.Result.ok.inj hasked).1
    cases trouble with
    | some reason =>
      cases hload
      exact ⟨_, rfl, .unloaded hid htrouble⟩
    | none =>
      cases hrecord : w.library.find? id with
      | some record =>
        simp only [hrecord] at hload
        cases hload
      | none =>
        simp only [hrecord] at hload
        cases hload
        exact ⟨_, rfl, .unknown hid hrecord⟩

/-- **An include step that finds no case to include** is refused. -/
theorem Exec.includedCase_refuses {w : World ρ σ} {step : StepFields} {f g : Frame ρ σ}
    {stop : Stop} (h : Exec.includedCase w step f = .error stop g) :
    ∃ fault, stop = .fault fault ∧ f.state.context.Refuses w.toOutside step fault := by
  unfold Exec.includedCase at h
  cases hid : step.includedCase with
  | none =>
    rw [hid] at h
    cases h
    exact ⟨_, rfl, .unnamed hid⟩
  | some id =>
    rw [hid] at h
    -- the record is loaded first, and then its visibility is looked at
    rcases Exec.bind_error h with hload | ⟨record, f', hload, h⟩
    · exact Exec.loadCase_refuses hid hload
    · have hrecord := Tie.loadCase_gives w id f record f' hload
      cases hv : record.visibility with
      | shared =>
        rw [hv] at h
        cases h
      | restricted =>
        rw [hv] at h
        cases h
        exact ⟨_, rfl, .restricted hid hrecord hv⟩

/-! ### Work that runs no step -/

/-- Whether steps of a kind never run other steps. -/
def StepKind.IsLeaf (kind : StepKind) : Prop := kind = .http ∨ kind = .script ∨ kind = .wait

/-- Whether the fields of a loop make no loop, and with which fault. -/
def StepFields.LoopFlaw (settings : Settings) (step : StepFields) (fault : Fault) : Prop :=
  Exec.loopMode step = .error fault ∨ Exec.loopStrategy step = .error fault ∨
    Exec.loopInterval settings step = .error fault

theorem StepFields.LoopFlaw.mild {settings : Settings} {step : StepFields} {fault : Fault}
    (h : step.LoopFlaw settings fault) : fault.isAbort = false := by
  rcases h with h | h | h
  · exact Mild.loopMode _ _ h
  · exact Mild.loopStrategy _ _ h
  · exact Mild.loopInterval _ _ _ h

/-- **Work that runs no step,** and how it ends. -/
inductive Idle (o : Outside ρ) (step : StepFields) (opening : Context) : Ending → Prop
  /-- The kind of the step is not known. -/
  | kindless {fault : Fault} : step.declaredKind = .error fault →
    Idle o step opening (.faulted fault)
  | leaf {kind : StepKind} {ending : Ending} : step.declaredKind = .ok kind → kind.IsLeaf →
    ending.Mild o → Idle o step opening ending
  /-- The predicate of a condition step says nothing, -/
  | undecided {fault : Fault} : step.declaredKind = .ok .condition →
    opening.branches step = .error fault → Idle o step opening (.faulted fault)
  /-- or it does not hold. -/
  | declined : step.declaredKind = .ok .condition → opening.branches step = .ok false →
    Idle o step opening .finished
  | refused {fault : Fault} : step.declaredKind = .ok .inclusion → opening.Refuses o step fault →
    Idle o step opening (.faulted fault)
  /-- The included case has no steps. -/
  | empty {id : Int} {record : CaseRecord} : step.declaredKind = .ok .inclusion →
    step.includedCase = some id → o.library.find? id = some record →
    record.visibility = .shared → record.steps = [] → Idle o step opening .finished
  | flawed {fault : Fault} : step.declaredKind = .ok .loop →
    step.LoopFlaw opening.settings fault → Idle o step opening (.faulted fault)

namespace Idle

variable {o : Outside ρ} {step : StepFields} {opening : Context} {ending : Ending}

theorem mild (h : Idle o step opening ending) : ending.Mild o := by
  cases h with
  | kindless hkind => exact Ending.mild_of (.declaredKind _) hkind
  | leaf _ _ hmild => exact hmild
  | undecided _ hbranches => exact Ending.mild_of (opening.branches_mild step) hbranches
  | declined => exact Ending.mild_finished o
  | refused _ hrefuses => exact Ending.mild_faulted hrefuses.mild
  | empty => exact Ending.mild_finished o
  | flawed _ hflaw => exact Ending.mild_faulted hflaw.mild

/-- A loop that runs no step because of its fields has not finished. -/
theorem loop (h : Idle o step opening ending) (hkind : step.declaredKind = .ok .loop) :
    ∃ fault, ending = .faulted fault ∧ step.LoopFlaw opening.settings fault := by
  cases h with
  | flawed _ hflaw => exact ⟨_, rfl, hflaw⟩
  | leaf hkind' hleaf =>
    obtain rfl := Except.ok.inj (hkind'.symm.trans hkind)
    simp [StepKind.IsLeaf] at hleaf
  | kindless hkind' | undecided hkind' | declined hkind' | refused hkind' | empty hkind' =>
    cases hkind'.symm.trans hkind

end Idle

end Scenario
