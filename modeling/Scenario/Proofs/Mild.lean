import Scenario.Run.Step
import Scenario.Host

/-!
# Mild faults

A fault is mild if it does not end the case. Only the containers raise faults that do: whatever else
a step asks for — its kind, its rules, a condition, a count, the seconds to wait — answers mildly.

* `Mild x` — `x` is no fault, or a mild one; closed under `pure`, `bind` and `mapM`.
* `Outside.Mild` — scripts answer mildly. `Site.outside_mild` says so of the outside that runs.
-/

namespace Scenario

/-- No fault, or a fault that does not end the case. -/
def Mild {α : Type} (x : Except Fault α) : Prop :=
  ∀ fault, x = .error fault → fault.isAbort = false

/-- The scripts of an outside answer mildly: what goes wrong in a script is the fault of its step
and nothing more. -/
def Outside.Mild {ρ : Type} (o : Outside ρ) : Prop :=
  ∀ client job outside, Scenario.Mild (o.runScript client job outside).1

namespace Mild

variable {α β : Type}

theorem ok (a : α) : Mild (.ok a) := by
  rintro _ ⟨⟩

theorem error {fault : Fault} (h : fault.isAbort = false) :
    Mild (.error fault : Except Fault α) := by
  intro fault' h'
  cases h'
  exact h

theorem misconfigured (cause : Misconfiguration) :
    Mild (Scenario.misconfigured cause : Except Fault α) :=
  error rfl

theorem bind {x : Except Fault α} {k : α → Except Fault β} (hx : Mild x) (hk : ∀ a, Mild (k a)) :
    Mild (x >>= k) := by
  cases x with
  | ok a => exact hk a
  | error fault => exact error (hx fault rfl)

theorem map {x : Except Fault α} (f : α → β) (hx : Mild x) : Mild (x.map f) := by
  cases x with
  | ok a => exact ok _
  | error fault => exact error (hx fault rfl)

theorem mapM {f : α → Except Fault β} (hf : ∀ a, Mild (f a)) (items : List α) :
    Mild (items.mapM f) := by
  induction items with
  | nil => exact ok _
  | cons item rest ih =>
    rw [List.mapM_cons]
    exact bind (hf _) fun _ => bind ih fun _ => ok _

/-! ### What steps ask for -/

theorem valueOf (ctx : Context) (name : String) : Mild (ctx.valueOf name) := by
  unfold Context.valueOf
  split
  · exact misconfigured _
  · split
    · exact ok _
    · exact error rfl

theorem declaredKind (step : StepFields) : Mild step.declaredKind := by
  unfold StepFields.declaredKind
  split
  · exact misconfigured _
  · split
    · exact misconfigured _
    · split
      · exact ok _
      · exact misconfigured _

theorem readRules {ρ : Type} (codec : Record.Codec ρ) (field : String)
    (declared : Option Json.Value) : Mild (Scenario.readRules codec field declared) := by
  have readRule : ∀ entry, Mild (Scenario.readRule codec field entry) := by
    intro entry
    unfold Scenario.readRule
    split
    · exact ok _
    · exact misconfigured _
  unfold Scenario.readRules
  split
  · exact ok _
  · exact ok _
  · exact mapM readRule _
  · exact bind (readRule _) fun _ => ok _
  · exact misconfigured _

theorem compare (actual : Json.Value) (op : Operator) (expected : Json.Value) :
    Mild (Comparison.compare actual op expected) := by
  cases op with
  | lengthEq =>
    -- the one operator that asks for an operand of some form
    unfold Comparison.compare
    dsimp only
    split
    · exact ok _
    · exact misconfigured _
  | _ => exact ok _

theorem compareText (actual : Json.Value) (operation : String) (expected : Json.Value) :
    Mild (Comparison.compareText actual operation expected) := by
  refine bind ?_ fun op => compare _ _ _
  unfold Operator.ofText
  dsimp only
  split
  · exact ok _
  · exact misconfigured _

theorem condition (field : Option Json.Value) : Mild (Condition.ofField field) := by
  refine bind ?_ fun found => ?_
  -- the field is a predicate or a text that is read as one, and then has its three members
  · unfold Condition.declared
    split
    · exact misconfigured _
    · exact misconfigured _
    · split
      · exact misconfigured _
      · unfold Condition.readText
        dsimp only
        split
        · exact ok _
        · exact misconfigured _
    · exact misconfigured _
    · exact ok _
    · exact ok _
  · split
    · dsimp only
      split
      · exact misconfigured _
      · split
        · exact ok _
        · exact misconfigured _
    · exact misconfigured _

theorem secondsOf (v : Json.Value) : Mild (Exec.secondsOf v) := by
  unfold Exec.secondsOf
  split
  · exact ok _
  · split
    · exact ok _
    · exact misconfigured _
  · exact misconfigured _

theorem sleep {ρ σ : Type} (w : World ρ σ) (seconds : Binary64) (s : RunState ρ σ) :
    Mild (s.sleep w seconds).1 := by
  unfold RunState.sleep
  split
  · exact misconfigured _
  · exact ok _

theorem methodOf (step : StepFields) : Mild (Scenario.methodOf step) := by
  unfold Scenario.methodOf
  dsimp only
  split
  · exact ok _
  · exact misconfigured _

theorem pairsOf (field : String) (v : Json.Value) : Mild (Scenario.pairsOf field v) := by
  unfold Scenario.pairsOf
  split
  · exact ok _
  · exact ok _
  · refine mapM (fun entry => ?_) _
    unfold Scenario.pairOf
    split
    · split
      · exact misconfigured _
      · exact ok _
    · exact misconfigured _
  · exact misconfigured _

/-! ### What loops ask for -/

theorem countOf (v : Json.Value) : Mild (Exec.countOf v) := by
  unfold Exec.countOf
  dsimp only
  split
  · exact ok _
  · exact misconfigured _

theorem loopMode (step : StepFields) : Mild (Exec.loopMode step) := by
  unfold Exec.loopMode
  split
  · exact misconfigured _
  · split
    · exact ok _
    · exact misconfigured _

theorem loopStrategy (step : StepFields) : Mild (Exec.loopStrategy step) := by
  unfold Exec.loopStrategy
  split
  · exact misconfigured _
  · split
    · exact ok _
    · exact misconfigured _

theorem loopInterval (settings : Settings) (step : StepFields) :
    Mild (Exec.loopInterval settings step) := by
  unfold Exec.loopInterval
  dsimp only
  split
  · exact ok _
  · exact misconfigured _

end Mild

/-! ### Scripts -/

/-- Whatever becomes of a script, it does not end the case. -/
theorem Script.runJob_mild {ρ : Type} (around : Script.Surroundings ρ) (client : Http.Client)
    (job : ScriptJob) (outside : ρ) : Mild (Script.runJob around client job outside).1 := by
  -- what a script has left behind is read as variables, or is the fault of the step
  have outcome : ∀ (v : Script.Value) (m : Script.Machine ρ), Mild (Script.outcomeOf v m) := by
    intro v m
    refine Mild.map _ ?_
    unfold Script.variablesOf
    split
    · exact .ok _
    · exact .ok _
    · exact .misconfigured _
  unfold Script.runJob
  split
  · exact .error rfl
  · dsimp only
    split
    · exact .misconfigured _
    · split
      · exact outcome _ _
      · exact .error rfl
      · exact outcome _ _
      · exact outcome _ _
      · exact outcome _ _

theorem Site.outside_mild (library : Library) : (Site.outside library).Mild :=
  fun client job outside => Script.runJob_mild Site.surroundings client job outside

end Scenario
