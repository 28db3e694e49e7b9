import Scenario.Proofs.Link.Leaf

/-!
# Bonds are ties

In lockstep nothing differs but the records, so whoever is asked answers alike on both sides: the
clock, the client, requests and scripts. So a bond is a strict tie, in which no run is ever lost:
`Bond.tie`.
-/

namespace Scenario

namespace Lockstep

variable {ρ σ τ : Type} {w : World ρ σ} {r : Recorder τ}
variable {allowed : Fault → Prop} {kept crashed : Frame ρ σ → Frame ρ τ → Prop}
variable (b : Bond w r allowed kept)

include b

/-- A question to the outside. -/
theorem asked {α : Type} (ask : ρ → α × ρ) :
    Lockstep allowed kept crashed
      (Exec.lift fun s => ((ask s.outside).1, { s with outside := (ask s.outside).2 }))
      (Exec.lift fun s => ((ask s.outside).1, { s with outside := (ask s.outside).2 })) := by
  refine lift (fun x y h => ?_) fun x y h => ?_
  · rw [b.outside h]
  · have h' := b.asked h (ask y.state.outside).2
    simpa only [Frame.mapState, b.outside h] using h'

/-- The client is opened alike, or the run crashes alike. -/
theorem client (hc : ∀ f g, kept f g → crashed f g) :
    Lockstep allowed kept crashed (Exec.client w) (Exec.client (w.recordedBy r)) := by
  refine Lockstep.bind (lift (fun x y h => ?_) fun x y h => ?_) fun opened => ?_
  · have hcl := (b.agrees h).client
    have hs := (b.agrees h).settings
    simp only [RunState.client, RunState.note, hcl, hs]
    split
    · rfl
    · split <;> rfl
  -- a client that is there is kept; else one is opened, which is told before it can fail
  · have hn := b.note h (.clientOpened x.state.context.case.code)
    have hcl := (b.agrees h).client
    have hs := (b.agrees h).settings
    have hcase := (b.agrees h).case
    cases hx : x.state.context.client with
    | some client =>
      simpa only [Frame.mapState, RunState.client, ← hcl, hx] using h
    | none =>
      cases ho : openClient x.state.context.settings with
      | ok client =>
        simpa only [Frame.mapState, Frame.mapContext, RunState.client, RunState.note, ← hcl, hx,
          ← hs, ho, ← hcase] using b.connected hn (some client)
      | error c =>
        simpa only [Frame.mapState, RunState.client, RunState.note, ← hcl, hx, ← hs, ho,
          ← hcase] using hn
  · cases opened with
    | ok client => exact Lockstep.pure _
    | error c => exact fun f g h => .crash (hc f g h)

theorem send (hc : ∀ f g, kept f g → crashed f g) (request : Http.Request) :
    Lockstep allowed kept crashed (Exec.send w request) (Exec.send (w.recordedBy r) request) := by
  refine Lockstep.bind (client b hc) fun client => ?_
  refine lift (fun x y h => ?_) fun x y h => ?_
  · rw [b.outside h]
  · have h' := b.connected (b.asked h (w.send client request y.state.outside).2.2)
      (some (w.send client request y.state.outside).2.1)
    simpa only [Frame.mapState, Frame.mapContext, b.outside h] using h'

theorem runScript (hc : ∀ f g, kept f g → crashed f g) (code : String) :
    Lockstep allowed kept crashed (Exec.runScript w code)
      (Exec.runScript (w.recordedBy r) code) := by
  refine Lockstep.bind (client b hc) fun client => ?_
  -- the job is the same on both sides, and so is what comes back
  have job : ∀ {x : Frame ρ σ} {y : Frame ρ τ}, kept x y →
      (⟨code, x.state.context.defined, x.state.context.session, x.state.context.extract,
        x.state.context.settings.scriptOperations⟩ : ScriptJob) =
      ⟨code, y.state.context.defined, y.state.context.session, y.state.context.extract,
        y.state.context.settings.scriptOperations⟩ := by
    intro x y h
    rw [(b.agrees h).defined, (b.agrees h).session, (b.agrees h).extract, (b.agrees h).settings]
  refine lift (fun x y h => ?_) fun x y h => ?_
  · dsimp only
    rw [job h, b.outside h]
  · have h' := b.connected (b.asked h (w.runScript client
      ⟨code, y.state.context.defined, y.state.context.session, y.state.context.extract,
        y.state.context.settings.scriptOperations⟩ y.state.outside).2.2)
      (some (w.runScript client ⟨code, y.state.context.defined, y.state.context.session,
        y.state.context.extract, y.state.context.settings.scriptOperations⟩ y.state.outside).2.1)
    simpa only [Frame.mapState, Frame.mapContext, job h, b.outside h] using h'

end Lockstep

/-- **A bond is a strict tie:** in lockstep nothing differs, and no run is lost. -/
theorem Bond.tie {ρ σ τ : Type} {w : World ρ σ} {r : Recorder τ} {allowed : Fault → Prop}
    {kept crashed : Frame ρ σ → Frame ρ τ → Prop} (b : Bond w r allowed kept)
    (hc : ∀ f g, kept f g → crashed f g)
    (hn : ∀ f g, crashed f g → ∀ n, crashed (f.mapState (RunState.note w n))
      (g.mapState (RunState.note (w.recordedBy r) n))) :
    Tie w r True (Link.ofLockstep allowed kept crashed) where
  mild := b.mild
  script := b.script
  sees h := (b.agrees h).sees
  result h := ⟨congrArg _ (b.result h), fun _ => b.result h⟩
  now _ f g h := by rw [b.outside h]
  note := b.note
  line h text text' htext := by
    obtain rfl := htext.eq trivial
    exact b.kept_log text h
  slept {f g} h seconds := by
    have h' := b.asked h (w.sleep seconds g.state.outside)
    change kept _ _
    simpa only [Frame.mapState, b.outside h] using h'
  produced := b.produced
  worded {f g} h change change' hbare _ hmatch := by
    -- the two changes need not be one, but they make one result of this one
    have hsame : change g.result = change' g.result :=
      (hmatch _ _ .rfl).same trivial
    have hg : g.mapResult change = g.mapResult change' := by
      unfold Frame.mapResult
      rw [hsame]
    exact hg ▸ b.worded h change hbare
  client := (Lockstep.holds_iff.mpr (Lockstep.client b hc)).imp fun _ _ _ => trivial
  send request := Lockstep.holds_iff.mpr (Lockstep.send b hc request)
  runScript code := Lockstep.holds_iff.mpr (Lockstep.runScript b hc code)
  host project environment := Lockstep.holds_iff.mpr
    (Lockstep.asked b fun outside => w.environmentHost project environment outside)
  load id := Lockstep.holds_iff.mpr (Lockstep.asked b fun outside => w.loadTrouble id outside)
  wreck {f g} h n := hn f g h n
  lost h := h.elim
  lost' h := h.elim
  late h := absurd trivial h
  late' h := absurd trivial h

end Scenario
