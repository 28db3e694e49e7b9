import Scenario.Proofs.Coupling.Case

/-!
# Heedless recorders

A recorder may tell some of the records that it keeps from each other, and others not. If what the
watcher is told makes no difference to it, two runs from records that are the same to it are one run.

* `Recorder.Heedless` — records that are the same to a recorder.
* `heedless` — runs from such records are coupled, and differ in what is kept alone.
-/

namespace Scenario

variable {ρ σ : Type} {w : World ρ σ}

/-- **A heedless recorder** does not look at what the watcher is told: there are records that are the
same to it, whatever that is. -/
structure Recorder.Heedless (r : Recorder σ) (same : σ → σ → Prop) : Prop where
  refl : ∀ a, same a a
  note : ∀ {a b}, same a b → ∀ n n', same (r.note n a) (r.note n' b)
  detail : ∀ {a b}, same a b → ∀ d, (r.createDetail d a).1 = (r.createDetail d b).1 ∧
    same (r.createDetail d a).2 (r.createDetail d b).2

namespace Recorder.Heedless

variable {same : σ → σ → Prop} (h : w.toRecorder.Heedless same) {s : RunState ρ σ} {b : σ}

include h

/-- A detail record is kept alike. -/
theorem recordDetail (hb : same s.records b) (step : StepFields) (result : StepResult)
    (started : Instant) :
    Coupled Eq Eq same (s.recordDetail w step result started)
      (RunState.recordDetail w step result started { s with records := b }) := by
  cases hcode : s.context.reportCode with
  | none =>
    rw [RunState.recordDetail_unreported w hcode, RunState.recordDetail_unreported w (by exact hcode)]
    exact ⟨.rfl, rfl, rfl, rfl, hb⟩
  | some code =>
    obtain ⟨hanswer, hkept⟩ := h.detail hb (s.detailOf w step result started code)
    rw [RunState.recordDetail_reported w hcode, RunState.recordDetail_reported w (by exact hcode)]
    change Coupled Eq Eq same (RunState.recordAnswered w step _ _) (RunState.recordAnswered w step
      _ (w.createDetail (s.detailOf w step result started code) b).1)
    rw [← hanswer]
    cases (w.createDetail (s.detailOf w step result started code) s.records).1 with
    | ok _ => exact ⟨.rfl, rfl, rfl, rfl, hkept⟩
    | error reason => exact ⟨.rfl, rfl, rfl, rfl, h.note (h.note hkept _ _) _ _⟩

end Recorder.Heedless

/-- States that differ in what is kept alone. -/
theorem Coupled.differ {same : σ → σ → Prop} {s t : RunState ρ σ} (h : Coupled Eq Eq same s t) :
    ∃ b, same s.records b ∧ t = { s with records := b } :=
  ⟨t.records, h.records,
    coupled_eq_iff.mp ⟨h.agrees.symm, h.outside.symm, h.traces.symm, h.codes.symm, rfl⟩⟩

/-- A world and itself, with records that are the same to its recorder. -/
def heedless {same : σ → σ → Prop} (h : w.toRecorder.Heedless same) : Coupling w w.toRecorder where
  traces := Eq
  codes := Eq
  records := same
  note hab n := h.note hab n n
  line := Context.logged_congr
  detail {s t} hst step _ text result started := by
    obtain ⟨b, hb, rfl⟩ := hst.differ
    exact h.recordDetail (s := s.log w text) (h.note hb _ _) step result started

end Scenario
