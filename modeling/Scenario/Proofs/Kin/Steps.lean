import Scenario.Proofs.Kin
import Scenario.Proofs.Termination

/-!
# Steps in kindred runs

Every step that both of two kindred runs may take is run alike in both: every step whose key is
shared, if it is not refused a case in one of the runs only, and if the same holds of the steps that
it runs.

* `Step.run_keeps` — a run that is lost stays so, whatever it runs.
* `Fits` — what has to hold of the steps; `Kinship.Lawful.paired` — then they are run alike. The
  induction is on the calls of steps.
* `Kinship.Lawful.runnable_paired` — so are the steps of a list.
-/

namespace Scenario

variable {ρ σ τ : Type}

/-! ### Lost runs -/

/-- A world and itself, while it is lost. -/
def losing (w : World ρ σ) (lost : σ → Prop) (hn : ∀ {x}, lost x → ∀ n, lost (w.note n x))
    (hd : ∀ {x}, lost x → ∀ d, lost (w.createDetail d x).2) : Coupling w w.toRecorder where
  traces := Eq
  codes := Eq
  records x y := x = y ∧ lost x
  note h n := ⟨congrArg (w.note n) h.1, hn h.2 n⟩
  line := Context.logged_congr
  detail {s t} h step _ text result started := by
    obtain rfl : s = t :=
      coupled_eq_iff.mp ⟨h.agrees, h.outside, h.traces, h.codes, h.records.1⟩
    exact ⟨.rfl, rfl, rfl, rfl, rfl,
      Correspondence.lost_recordDetail hn hd (hn h.records.2 _) step result started⟩

/-- **A run that is lost stays so.** -/
theorem Step.run_keeps (w : World ρ σ) {q : σ → Prop} (hn : ∀ {x}, q x → ∀ n, q (w.note n x))
    (hd : ∀ {x}, q x → ∀ d, q (w.createDetail d x).2) (step : Step) :
    Ready.Keeps ⟨step.toStepFields, step.run w⟩ q := by
  intro s hs
  have hpaired := Coupling.step_paired
    ((losing w q hn hd).includedSteps_paired s.context.including) step
  have hend := hpaired.run s.context.key s s ⟨⟨.rfl, rfl, rfl, rfl, rfl, hs⟩, rfl⟩
  change q (endState (step.run w s)).records
  change AlikeRun _ _ (step.run w s) (step.run w s) at hend
  generalize step.run w s = x at hend
  cases hend with
  | ok h => exact h.1.records.2
  | crash h => exact h.records.2

/-! ### Steps -/

/-- A step is run by the steps below it and those of the cases it may include, each of them run by
itself. -/
theorem Step.run_eq (w : World ρ σ) (step : Step) :
    step.run w = runStep w step.toStepFields
      (workOf w (runnable w) step.toStepFields (runnable w step.children)) := by
  have hready := (Step.run_unique w (runnable w)).mpr rfl
  have hstep := List.head_eq_of_cons_eq (hready [step])
  obtain ⟨fields, children⟩ := step
  rw [Step.ready, ← hready] at hstep
  exact (Ready.mk.inj hstep).2

/-- **What has to hold of the steps** of kindred runs, in the cases that these are in: their keys are
shared, and a case that a step may include is in neither of them, unless they are in the same
cases. -/
structure Fits (library : Library) (shared : String → Prop)
    (fit : List Int → List Int → Step → Prop) : Prop where
  key : ∀ {left right step}, fit left right step → shared step.key
  child : ∀ {left right step}, fit left right step → ∀ c ∈ step.children, fit left right c
  inclusion : ∀ {left right step}, fit left right step → step.declaredKind = .ok .inclusion →
    ∀ id record, step.includedCase = some id → library.find? id = some record →
    record.visibility = .shared → (id ∈ left ∧ left = right) ∨
      (id ∉ left ∧ id ∉ right ∧ ∀ c ∈ record.steps, fit (left ++ [id]) (right ++ [id]) c)

/-- All steps fit in two runs that share all keys and are in the same cases. -/
theorem Library.fits_all (library : Library) :
    Fits library (fun _ => True) fun left right _ => left = right where
  key _ := trivial
  child h _ _ := h
  inclusion {left right step} h _ id record _ _ _ := by
    obtain rfl := h
    by_cases hid : id ∈ left
    · exact .inl ⟨hid, rfl⟩
    · exact .inr ⟨hid, hid, fun _ _ => rfl⟩

namespace Kinship.Lawful

variable {K : Kinship ρ σ τ} {w : World ρ σ} {r : Recorder τ} (h : K.Lawful w r)

include h

/-- **Steps that fit** are run alike. -/
theorem paired {fit : List Int → List Int → Step → Prop} (hfit : Fits w.library K.shared fit)
    (step : Step) {left right : List Int} (hstep : fit left right step) (key : Option String) :
    K.correspondence.Paired ⟨left, right, key⟩ ⟨step.toStepFields, step.run w⟩
      ⟨step.toStepFields, step.run (w.recordedBy r)⟩ := by
  induction hcall : (step, left) using (Calls.wellFounded w.library).induction
    generalizing step left right key with
  | _ call ih =>
    subst hcall
    -- by induction on what a step may call: its children, and the steps of a case that it includes
    have all : ∀ (steps : List Step) {l m : List Int} (key : Option String),
        (∀ c ∈ steps, fit l m c ∧ Calls w.library (c, l) (step, left)) →
        List.Forall₂ (K.correspondence.Paired ⟨l, m, key⟩) (runnable w steps)
          (runnable (w.recordedBy r) steps) := by
      intro steps l m key hsteps
      rw [runnable, runnable, List.forall₂_map_left_iff, List.forall₂_map_right_iff,
        List.forall₂_same]
      exact fun c hc => ih _ (hsteps c hc).2 c (hsteps c hc).1 key rfl
    have hkeeps := Step.run_keeps w (q := K.lost) (fun hx => (h.lost hx).1)
      fun hx => (h.lost hx).2
    have hkeeps' := Step.run_keeps (w.recordedBy r) (q := K.lost') (fun hx => (h.lost' hx).1)
      fun hx => (h.lost' hx).2
    have hopens : step.declaredKind = .ok .inclusion → K.correspondence.Opens w.library
        (⟨left, right, some step.key⟩ : Place) (runnable w) (runnable (w.recordedBy r))
        step.toStepFields := by
      intro hkind id record hid hrecord hshared _
      refine ⟨fun c hc => ?_, fun d hd => ?_, ?_⟩
      · obtain ⟨c, -, rfl⟩ := List.mem_map.mp hc
        exact hkeeps c
      · obtain ⟨d, -, rfl⟩ := List.mem_map.mp hd
        exact hkeeps' d
      · rcases hfit.inclusion hstep hkind id record hid hrecord hshared with hin | ⟨hl, hr, hsteps⟩
        · exact .inl hin
        · exact .inr ⟨hl, hr, all record.steps _ fun c hc =>
            ⟨hsteps c hc, .inclusion hid hrecord hl hc⟩⟩
    have hchildren := all step.children (l := left) (m := right) (some step.key) fun c hc =>
      ⟨hfit.child hstep c hc, .child hc⟩
    rw [Step.run_eq w, Step.run_eq (w.recordedBy r)]
    exact h.living.life (hfit.key hstep)
      (h.lawful.work step.toStepFields (hfit.key hstep) hopens hchildren)

/-- So are the steps of a list. -/
theorem runnable_paired {fit : List Int → List Int → Step → Prop}
    (hfit : Fits w.library K.shared fit) {steps : List Step} {left right : List Int}
    (hsteps : ∀ step ∈ steps, fit left right step) (key : Option String) :
    List.Forall₂ (K.correspondence.Paired ⟨left, right, key⟩) (runnable w steps)
      (runnable (w.recordedBy r) steps) := by
  rw [runnable, runnable, List.forall₂_map_left_iff, List.forall₂_map_right_iff,
    List.forall₂_same]
  exact fun step hstep => h.paired hfit step (hsteps step hstep) key

end Kinship.Lawful

end Scenario
