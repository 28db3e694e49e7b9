import Scenario.Proofs.Link.Bond
import Scenario.Proofs.RunningOrder

/-!
# Coupled runs

What a run records never comes back to it. A `Coupling` says how the traces, report codes and
records of two worlds with one outside are related, and that a detail record keeps them so; then
every step run in both worlds gives the same result and goes through coupled states.

The place of a run — the cases that are being run, and the step — is an index of the relation, not a
part of what may vary: a step leaves it as it was, runs the steps below it at its own key, and an
include step with one case more. The cases are what an argument about the depth of inclusion can
hold on to; the key is where the trace has lines when a step leaves its detail record.

* `Coupling.Paired`, `Coupling.Tandem` — steps and pieces of work that stay coupled.
* `Coupling.bond` — everything a step does by itself stays coupled, since coupled frames are a bond.
-/

namespace Scenario

variable {ρ σ τ α β : Type}

/-- **Coupled states:** the same outside, contexts that agree, and the rest as told. -/
structure Coupled (traces : Trace → Trace → Prop) (codes : Option String → Option String → Prop)
    (records : σ → τ → Prop) (s : RunState ρ σ) (t : RunState ρ τ) : Prop where
  agrees : s.context.Agrees t.context
  outside : s.outside = t.outside
  traces : traces s.context.logs t.context.logs
  codes : codes s.context.reportCode t.context.reportCode
  records : records s.records t.records

/-- States that are coupled by equality are equal. -/
theorem coupled_eq_iff {s t : RunState ρ σ} : Coupled Eq Eq Eq s t ↔ s = t := by
  constructor
  · rintro ⟨ha, ho, hl, hc, hx⟩
    obtain ⟨c, o, x⟩ := s
    obtain ⟨d, o', y⟩ := t
    cases c
    cases d
    simp_all [Context.Agrees, Context.core]
  · rintro rfl
    exact ⟨.rfl, rfl, rfl, rfl, rfl⟩

/-- **Where a run is:** in which cases, outermost first, and in which step. -/
structure Place where
  including : List Int
  key : Option String

/-- The place inside a further case. -/
def Place.into (place : Place) (id : Int) : Place :=
  { place with including := place.including ++ [id] }

/-- The place in a step with a key. -/
def Place.within (place : Place) (key : String) : Place := { place with key := some key }

/-- Where a context is. -/
def Context.place (ctx : Context) : Place := ⟨ctx.including, ctx.key⟩

theorem Context.logged_congr {c d : Context} (h : c.logs = d.logs) (key : String)
    (line : LogLine) : (c.logged key line).logs = (d.logged key line).logs := by
  simp only [logged]
  rw [h]

/-- **A coupling** of a world with the same outside under another recorder. A detail record is left
by a step that has just written a line. -/
structure Coupling (w : World ρ σ) (r : Recorder τ) where
  traces : Trace → Trace → Prop
  codes : Option String → Option String → Prop
  records : σ → τ → Prop
  note : ∀ {a b}, records a b → ∀ n, records (w.note n a) (r.note n b)
  line : ∀ {c d : Context}, traces c.logs d.logs → ∀ key line,
    traces (c.logged key line).logs (d.logged key line).logs
  detail : ∀ {s : RunState ρ σ} {t : RunState ρ τ}, Coupled traces codes records s t →
    ∀ step : StepFields, s.context.key = some step.key → ∀ text result started,
      Coupled traces codes records ((s.log w text).recordDetail w step result started)
        ((t.log (w.recordedBy r) text).recordDetail (w.recordedBy r) step result started)

/-- Runs of a step that end alike. -/
inductive AlikeRun {S T : Type} (kept crashed : S → T → Prop) :
    EStateM.Result Crash S α → EStateM.Result Crash T α → Prop
  | ok {a : α} {s : S} {t : T} (h : kept s t) : AlikeRun kept crashed (.ok a s) (.ok a t)
  | crash {c : Crash} {s : S} {t : T} (h : crashed s t) :
    AlikeRun kept crashed (.error c s) (.error c t)

namespace Coupling

variable {w : World ρ σ} {r : Recorder τ} (K : Coupling w r)

/-- The states that a coupling relates. -/
def states (s : RunState ρ σ) (t : RunState ρ τ) : Prop :=
  Coupled K.traces K.codes K.records s t

/-- The states that a coupling relates at a place. -/
def inside (place : Place) (s : RunState ρ σ) (t : RunState ρ τ) : Prop :=
  K.states s t ∧ s.context.place = place

/-- The frames that a coupling relates at a place. -/
def frames (place : Place) (f : Frame ρ σ) (g : Frame ρ τ) : Prop :=
  K.inside place f.state g.state ∧ f.result = g.result

/-- The frames that a crash leaves behind. -/
def wrecks (f : Frame ρ σ) (g : Frame ρ τ) : Prop :=
  K.states f.state g.state

/-- Computations that stay coupled at a place. -/
abbrev Tandem (place : Place) (m : Exec ρ σ α) (m' : Exec ρ τ α) : Prop :=
  Lockstep (fun _ => True) (K.frames place) K.wrecks m m'

/-- Steps that stay coupled while certain cases are being included, whichever step they are in. -/
structure Paired (including : List Int) (c : Ready ρ σ) (d : Ready ρ τ) : Prop where
  fields : c.fields = d.fields
  run : ∀ key s t, K.inside ⟨including, key⟩ s t →
    AlikeRun (K.inside ⟨including, key⟩) K.states (c.run s) (d.run t)

variable {K} {including : List Int} {place : Place}

/-! ### Changes in step -/

/-- A change of the context that neither looks at what only records show nor touches it. -/
theorem states_mapContext {f : Context → Context} {s : RunState ρ σ} {t : RunState ρ τ}
    (h : K.states s t) (hc : ∀ c, (f c).core = f c.core) (hl : ∀ c, (f c).logs = c.logs)
    (hr : ∀ c, (f c).reportCode = c.reportCode) :
    K.states { s with context := f s.context } { t with context := f t.context } where
  agrees := by
    -- contexts agree by their cores, and the change goes through these
    unfold Context.Agrees
    rw [hc, hc, h.agrees]
  outside := h.outside
  traces := by rw [hl, hl]; exact h.traces
  codes := by rw [hr, hr]; exact h.codes
  records := h.records

theorem states_note {s : RunState ρ σ} {t : RunState ρ τ} (h : K.states s t) (n : Notice) :
    K.states (s.note w n) (t.note (w.recordedBy r) n) :=
  { h with records := K.note h.records n }

/-- Releasing the client in coupled states. -/
theorem states_close {s : RunState ρ σ} {t : RunState ρ τ} (h : K.states s t) :
    K.states (s.close w) (t.close (w.recordedBy r)) := by
  unfold RunState.close
  rw [h.agrees.client]
  split
  · exact h
  · rw [h.agrees.case]
    exact states_note (states_mapContext (f := fun ctx => { ctx with client := none }) h
      (fun _ => rfl) (fun _ => rfl) fun _ => rfl) _

theorem inside_including {s : RunState ρ σ} {t : RunState ρ τ} (h : K.inside place s t) :
    s.context.including = place.including :=
  congrArg Place.including h.2

/-- **Coupled frames are a bond** at every place. -/
theorem bond (place : Place) : Bond w r (fun _ => True) (K.frames place) where
  mild _ := trivial
  script _ _ _ _ _ := trivial
  agrees h := h.1.1.agrees
  outside h := h.1.1.outside
  result h := h.2
  note h n := ⟨⟨states_note h.1.1 n, h.1.2⟩, h.2⟩
  line h key line :=
    ⟨⟨{ h.1.1 with traces := K.line h.1.1.traces key line }, h.1.2⟩, h.2⟩
  asked h _ := ⟨⟨{ h.1.1 with outside := rfl }, h.1.2⟩, h.2⟩
  connected h client := ⟨⟨states_mapContext (f := fun c => { c with client }) h.1.1 (fun _ => rfl)
    (fun _ => rfl) fun _ => rfl, h.1.2⟩, h.2⟩
  produced h extract := ⟨⟨states_mapContext (f := fun c => { c with extract }) h.1.1 (fun _ => rfl)
    (fun _ => rfl) fun _ => rfl, h.1.2⟩, h.2⟩
  worded h change _ := ⟨h.1, congrArg change h.2⟩

theorem wreck {f : Frame ρ σ} {g : Frame ρ τ} (h : K.frames place f g) : K.wrecks f g := h.1.1

section

variable {s : RunState ρ σ} {t : RunState ρ τ}

/-- A change of the context that neither looks at what only records show nor touches it, nor the
place. -/
theorem inside_mapContext {f : Context → Context} (h : K.inside place s t)
    (hc : ∀ c, (f c).core = f c.core) (hl : ∀ c, (f c).logs = c.logs)
    (hr : ∀ c, (f c).reportCode = c.reportCode) (hp : ∀ c, (f c).place = c.place) :
    K.inside place { s with context := f s.context } { t with context := f t.context } :=
  ⟨states_mapContext h.1 hc hl hr, (hp _).trans h.2⟩

end

/-- Steps in running order stay paired. -/
theorem ordered {cs : List (Ready ρ σ)} {ds : List (Ready ρ τ)}
    (h : List.Forall₂ (K.Paired including) cs ds) :
    List.Forall₂ (K.Paired including) (Ready.ordered cs) (Ready.ordered ds) :=
  orderedBy_forall₂ (fun _ _ hcd => by rw [hcd.fields]) h

end Coupling

end Scenario
