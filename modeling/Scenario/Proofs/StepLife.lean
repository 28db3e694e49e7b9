import Scenario.Run.Step

/-!
# The two ends of a step

What a step does to the context when it is entered and when it is left, whatever it does in between.

* `StepFields.declared` — the variables that a step declares, resolved in the context around it.
* `RunState.enterStep_silent` — entering a step puts them over the variables in force, empties the
  extracted variables and leaves the session and the stack of included cases alone.
* `concludeStep_silent` — leaving it merges what was extracted into the session and puts key,
  defined and extracted variables back.
-/

namespace Scenario

variable {ρ σ : Type} (w : World ρ σ)

namespace StepFields

/-- The variables that a step declares, resolved in the context around it. -/
def declared (step : StepFields) (around : Context) : Json.Members :=
  match step.definedVariables with
  | none => []
  | some own => (Placeholder.resolveMembers around.lookup own).out

/-- The names that a step asks for in vain when it declares its variables. -/
def undeclared (step : StepFields) (around : Context) : List String :=
  match step.definedVariables with
  | none => []
  | some own => (Placeholder.resolveMembers around.lookup own).missing

end StepFields

/-- **The variables in force in a step:** those around it, overridden by its own. -/
def Context.inForce (around : Context) (step : StepFields) : Json.Members :=
  Keyed.extend around.defined (step.declared around)

namespace RunState

theorem definedIn_eq (step : StepFields) (s : RunState ρ σ) :
    s.definedIn w step =
      (s.context.inForce step, s.logMissing w (step.undeclared s.context)) := by
  unfold definedIn Context.inForce StepFields.declared StepFields.undeclared
  cases step.definedVariables with
  | none => rfl
  | some own => rfl

/-- Entering a step, with the variables in force spelled out. -/
theorem enterStep_eq (step : StepFields) (s : RunState ρ σ) :
    s.enterStep w step =
      let keyed := { s with context := { s.context with key := some step.key } }
      let logged := keyed.logMissing w (step.undeclared s.context)
      { logged with context := { logged.context with
          defined := s.context.inForce step, extract := [] } }.log w
        ("start step '" ++ labelOf step ++ "' (" ++ step.kind.getD "?" ++ "), iteration " ++
          toString (s.context.iteration step.key)) := by
  unfold enterStep
  dsimp only
  rw [definedIn_eq]
  rfl

end RunState

/-! ### The context without its trace -/

/-- A context without its trace. -/
def Context.silent (ctx : Context) : Context := { ctx with logs := [] }

namespace RunState

@[simp] theorem logMissing_silent (names : List String) (s : RunState ρ σ) :
    (s.logMissing w names).context.silent = s.context.silent := by
  induction names generalizing s with
  | nil => rfl
  | cons name rest ih => exact ih (s.log w _)

@[simp] theorem recordDetail_silent (step : StepFields) (result : StepResult) (started : Instant)
    (s : RunState ρ σ) :
    (s.recordDetail w step result started).context.silent = s.context.silent := by
  unfold recordDetail
  split
  · rfl
  · split <;> rfl

@[simp] theorem recordDetail_outside (step : StepFields) (result : StepResult) (started : Instant)
    (s : RunState ρ σ) : (s.recordDetail w step result started).outside = s.outside := by
  unfold recordDetail
  split
  · rfl
  · split <;> rfl

/-- What is done about the answer to a detail record: one that is not kept leaves a word and a line.
-/
def recordAnswered (step : StepFields) (s : RunState ρ σ) : Except String Unit → RunState ρ σ
  | .ok () => s
  | .error reason => (s.note w (.detailLost step.key reason)).logTo w step.key
      ("failed to save step detail: " ++ reason)

theorem recordDetail_unreported {s : RunState ρ σ} (h : s.context.reportCode = none)
    (step : StepFields) (result : StepResult) (started : Instant) :
    s.recordDetail w step result started = s := by
  unfold recordDetail
  rw [h]

/-- A detail record is written, and then something is done about the answer. -/
theorem recordDetail_reported {s : RunState ρ σ} {code : String}
    (h : s.context.reportCode = some code) (step : StepFields) (result : StepResult)
    (started : Instant) :
    s.recordDetail w step result started =
      { s with records := (w.createDetail (s.detailOf w step result started code) s.records).2
        }.recordAnswered w step
          (w.createDetail (s.detailOf w step result started code) s.records).1 := by
  unfold recordDetail
  rw [h]
  dsimp only
  rcases w.createDetail (s.detailOf w step result started code) s.records with ⟨_ | _, _⟩ <;> rfl

/-- Writing variables changes their scope alone. -/
theorem extend_silent (data : Json.Members) (scope : Scope) (s : RunState ρ σ) :
    (s.extend w data scope).context.silent = (s.context.extend data scope).silent := by
  unfold extend
  split
  · next h =>
    obtain rfl : data = [] := List.isEmpty_iff.mp h
    cases scope <;> rfl
  · rfl

/-- **Entering a step** sets its key, puts its variables in force and empties what is extracted. -/
theorem enterStep_silent (step : StepFields) (s : RunState ρ σ) :
    (s.enterStep w step).context.silent = { s.context.silent with
      key := some step.key, defined := s.context.inForce step, extract := [] } := by
  rw [enterStep_eq]
  -- of the lines on the way nothing is left in a silent context
  have h := logMissing_silent w (step.undeclared s.context)
    { s with context := { s.context with key := some step.key } }
  exact congrArg (fun ctx : Context => { ctx with
    defined := s.context.inForce step, extract := [] }) h

@[simp] theorem logMissing_outside (names : List String) (s : RunState ρ σ) :
    (s.logMissing w names).outside = s.outside := by
  induction names generalizing s with
  | nil => rfl
  | cons name rest ih => exact ih (s.log w _)

/-- Entering a step asks nothing. -/
theorem enterStep_outside (step : StepFields) (s : RunState ρ σ) :
    (s.enterStep w step).outside = s.outside := by
  rw [enterStep_eq]
  exact logMissing_outside w (step.undeclared s.context)
    { s with context := { s.context with key := some step.key } }

end RunState

/-- **Leaving a step** merges what it extracted into the session and puts key, defined and extracted
variables back. -/
theorem concludeStep_silent (step : StepFields) (before : Context) (started : Instant)
    (frame : Frame ρ σ) :
    (concludeStep w step before started frame).2.context.silent =
      { (frame.state.context.extend frame.result.extracted .session).silent with
        key := before.key, defined := before.defined, extract := before.extract } := by
  rw [← RunState.extend_silent w]
  -- the detail record and the last line come between the merge and putting things back
  exact congrArg (fun ctx : Context => { ctx with
    key := before.key, defined := before.defined, extract := before.extract })
      (RunState.recordDetail_silent w step _ started _)

/-! ### The work in between -/

/-- The frame in which the work of a step starts. -/
def RunState.openingFrame (step : StepFields) (s : RunState ρ σ) : Frame ρ σ :=
  ⟨s.enterStep w step, { StepResult.of step with iteration := s.context.iteration step.key }⟩

@[simp] theorem RunState.openingFrame_including (step : StepFields) (s : RunState ρ σ) :
    (s.openingFrame w step).state.context.including = s.context.including :=
  (congrArg Context.including (s.enterStep_silent w step) :)

@[simp] theorem RunState.openingFrame_session (step : StepFields) (s : RunState ρ σ) :
    (s.openingFrame w step).state.context.session = s.context.session :=
  (congrArg Context.session (s.enterStep_silent w step) :)

@[simp] theorem RunState.openingFrame_settings (step : StepFields) (s : RunState ρ σ) :
    (s.openingFrame w step).state.context.settings = s.context.settings :=
  (congrArg Context.settings (s.enterStep_silent w step) :)

@[simp] theorem RunState.openingFrame_client (step : StepFields) (s : RunState ρ σ) :
    (s.openingFrame w step).state.context.client = s.context.client :=
  (congrArg Context.client (s.enterStep_silent w step) :)

@[simp] theorem RunState.openingFrame_key (step : StepFields) (s : RunState ρ σ) :
    (s.openingFrame w step).state.context.key = some step.key :=
  (congrArg Context.key (s.enterStep_silent w step) :)

@[simp] theorem RunState.openingFrame_outside (step : StepFields) (s : RunState ρ σ) :
    (s.openingFrame w step).state.outside = s.outside :=
  s.enterStep_outside w step

/-- Steps with the same key and the same variables are entered alike, but for the trace. -/
theorem RunState.openingFrame_silent_congr {step step' : StepFields} (hkey : step'.key = step.key)
    (hdefined : step'.definedVariables = step.definedVariables) (s : RunState ρ σ) :
    (s.openingFrame w step').state.context.silent =
      (s.openingFrame w step).state.context.silent := by
  have hforce : s.context.inForce step' = s.context.inForce step := by
    unfold Context.inForce StepFields.declared
    rw [hdefined]
  have hentered := s.enterStep_silent w step'
  rw [hkey, hforce] at hentered
  exact hentered.trans (s.enterStep_silent w step).symm

/-- A step is its work, and what is left to do after it. -/
theorem runStep_eq (step : StepFields) (work : Exec ρ σ Unit) (s : RunState ρ σ) :
    runStep w step work s =
      match work (s.openingFrame w step) with
      | .ok () frame =>
        .ok (concludeStep w step s.context (w.now s.outside) frame).1
          (concludeStep w step s.context (w.now s.outside) frame).2
      | .error (.fault fault) frame =>
        .ok (concludeStep w step s.context (w.now s.outside) (recordFault w fault frame)).1
          (concludeStep w step s.context (w.now s.outside) (recordFault w fault frame)).2
      | .error (.crash crash) frame => .error crash frame.state :=
  rfl

@[simp] theorem RunState.extend_outside (data : Json.Members) (scope : Scope) (s : RunState ρ σ) :
    (s.extend w data scope).outside = s.outside := by
  unfold extend
  split <;> rfl

/-- Leaving a step asks nothing. -/
theorem concludeStep_outside (step : StepFields) (before : Context) (started : Instant)
    (frame : Frame ρ σ) :
    (concludeStep w step before started frame).2.outside = frame.state.outside := by
  rw [← RunState.extend_outside w frame.result.extracted .session frame.state]
  exact RunState.recordDetail_outside w step _ started _

variable {w}

/-- **A step whose work ends,** with a fault or without one. -/
theorem runStep_ended {step : StepFields} {work : Exec ρ σ Unit} {s : RunState ρ σ}
    {stop : Option Fault} {f : Frame ρ σ}
    (h : work (s.openingFrame w step) = Exec.raise stop f) :
    ∃ result s', runStep w step work s = .ok result s' ∧
      result.children = f.result.children ∧
      result.success = (f.result.success && stop.isNone) ∧
      result.aborted = (f.result.aborted || stop.any Fault.isAbort) ∧
      s'.context.silent = { (f.state.context.extend f.result.extracted .session).silent with
        key := s.context.key, defined := s.context.defined, extract := s.context.extract } ∧
      s'.outside = f.state.outside := by
  rw [runStep_eq, h]
  cases stop with
  | none =>
    refine ⟨_, _, rfl, rfl, ?_, ?_, concludeStep_silent .., concludeStep_outside ..⟩
    · exact (Bool.and_true _).symm
    · exact (Bool.or_false _).symm
  | some fault =>
    refine ⟨_, _, rfl, rfl, ?_, rfl, concludeStep_silent .., concludeStep_outside ..⟩
    exact (Bool.and_false _).symm

end Scenario
