import Scenario.Proofs.Link.Steps
import Scenario.Run.Case

/-!
# The life of a step in corresponding runs

`Correspondence.Living` adds what becomes of a correspondence where a step is left: its detail record
does not break it, and what the step had changed for itself is put back on both sides. Then a step
whose work corresponds is run alike: `Correspondence.Living.life`.
-/

namespace Scenario

variable {ρ σ τ : Type}

/-- Running a root and then the rest, without the monad. -/
theorem runRoots_cons {ρ σ : Type} (w : World ρ σ) (code : String) (total : Nat) (root : Ready ρ σ)
    (rest : List (Ready ρ σ)) (position : Nat) (s : RunState ρ σ) :
    runRoots w code total (root :: rest) position s =
      match root.run (s.note w (.rootReached position total root.fields.key)) with
      | .error crash s' => .error crash s'
      | .ok r s' =>
        if r.aborted then .ok [r] (s'.note w (.caseAborted code root.fields.key))
        else
          match runRoots w code total rest (position + 1) s' with
          | .ok results s'' => .ok (r :: results) s''
          | .error crash s'' => .error crash s'' := by
  rw [runRoots]
  change EStateM.bind root.run _ _ = _
  unfold EStateM.bind
  cases root.run (s.note w (.rootReached position total root.fields.key)) with
  | error crash s' => rfl
  | ok r s' =>
    dsimp only
    split
    · rfl
    · change EStateM.bind (runRoots w code total rest (position + 1)) _ s' = _
      unfold EStateM.bind
      cases runRoots w code total rest (position + 1) s' <;> rfl

namespace Correspondence

/-- **What becomes of a correspondence** where a step is left, too. -/
structure Living (C : Correspondence ρ σ τ) (w : World ρ σ) (r : Recorder τ) : Prop
    extends C.Lawful w r where
  /-- The last line of a step, and the detail record right after it. -/
  detail : ∀ {p s t} {step : StepFields}, C.inside (C.within p step.key) s t →
    ∀ {text text'}, Retimed C.strict text text' → ∀ {result result'},
    result.Matches C.strict result' → ∀ {started started'}, (C.strict → started = started') →
    C.inside (C.within p step.key) ((s.log w text).recordDetail w step result started)
      ((t.log (w.recordedBy r) text').recordDetail (w.recordedBy r) step result' started')
  /-- What the step had changed for itself is put back. -/
  restored : ∀ {p s t}, C.inside p s t → ∀ {key s' t'}, C.inside (C.within p key) s' t' →
    C.inside p (s'.leaveStep s.context) (t'.leaveStep t.context)
  /-- A crash in the step leaves the same behind around it. -/
  wrecked_within : ∀ {p key s t}, C.wrecks (C.within p key) s t → C.wrecks p s t
  lost_detail : ∀ {x}, C.lost x → ∀ d, C.lost (w.createDetail d x).2
  lost'_detail : ∀ {y}, C.lost' y → ∀ d, C.lost' (r.createDetail d y).2

/-- A detail record keeps a lost run lost. -/
theorem lost_recordDetail {lost : σ → Prop} {w : World ρ σ}
    (hn : ∀ {x}, lost x → ∀ n, lost (w.note n x))
    (hd : ∀ {x}, lost x → ∀ d, lost (w.createDetail d x).2) {s : RunState ρ σ}
    (hs : lost s.records) (step : StepFields) (result : StepResult) (started : Instant) :
    lost (s.recordDetail w step result started).records := by
  unfold RunState.recordDetail
  split
  · exact hs
  · next report _ =>
    have hkept := hd hs (s.detailOf w step result started report)
    split
    · next h =>
      rw [h] at hkept
      exact hkept
    -- the loss of a record is told and leaves a line
    · next h =>
      rw [h] at hkept
      exact hn (hn hkept _) _

/-- So does leaving a step. -/
theorem lost_concludeStep {lost : σ → Prop} {w : World ρ σ}
    (hn : ∀ {x}, lost x → ∀ n, lost (w.note n x))
    (hd : ∀ {x}, lost x → ∀ d, lost (w.createDetail d x).2) {f : Frame ρ σ}
    (hf : lost f.state.records) (step : StepFields) (before : Context) (started : Instant) :
    lost (concludeStep w step before started f).2.records := by
  have hextended : lost (f.state.extend w f.result.extracted .session).records := by
    unfold RunState.extend
    split
    · exact hf
    · exact hn hf _
  exact lost_recordDetail hn hd (hn hextended _) step _ started

/-- And so does all that comes after the work of a step. -/
theorem lost_runStep (lost : σ → Prop) {w : World ρ σ}
    (hn : ∀ {x}, lost x → ∀ n, lost (w.note n x))
    (hd : ∀ {x}, lost x → ∀ d, lost (w.createDetail d x).2) (step : StepFields)
    (work : Exec ρ σ Unit) (s : RunState ρ σ)
    (h : lost (endState (work (s.openingFrame w step))).state.records) :
    lost (endState (runStep w step work s)).records := by
  rw [runStep_eq]
  generalize work _ = x at h
  cases x with
  | ok _ f => exact lost_concludeStep hn hd h step s.context _
  | error stop f =>
    cases stop with
    | fault fault =>
      exact lost_concludeStep hn hd (f := recordFault w fault f) (hn h _) step s.context _
    | crash crash => exact h

/-- A run that is lost after a root is so after the other ones, if these keep it lost. -/
theorem lost_runRoots_cons {lost : σ → Prop} {w : World ρ σ}
    (hn : ∀ {x}, lost x → ∀ n, lost (w.note n x)) {code : String} {total : Nat} (c : Ready ρ σ)
    {rest : List (Ready ρ σ)} (position : Nat) (hrest : ∀ {s : RunState ρ σ}, lost s.records →
      lost (endState (runRoots w code total rest (position + 1) s)).records) (s : RunState ρ σ)
    (h : lost (endState (c.run (s.note w (.rootReached position total c.fields.key)))).records) :
    lost (endState (runRoots w code total (c :: rest) position s)).records := by
  rw [runRoots_cons]
  generalize c.run _ = x at h
  cases x with
  | error crash s' => exact h
  | ok result s' =>
    dsimp only
    split
    · exact hn h _
    · have hlast := hrest (s := s') h
      cases hy : runRoots w code total rest (position + 1) s' <;> rw [hy] at hlast <;> exact hlast

/-- Roots keep a lost run lost. -/
theorem lost_runRoots {q : σ → Prop} {w : World ρ σ} (hn : ∀ {x}, q x → ∀ n, q (w.note n x))
    (code : String) (total : Nat) {cs : List (Ready ρ σ)} (hcs : ∀ c ∈ cs, c.Keeps q)
    (position : Nat) {s : RunState ρ σ} (hs : q s.records) :
    q (endState (runRoots w code total cs position s)).records := by
  induction cs generalizing position s with
  | nil => exact hs
  | cons c rest ih =>
    obtain ⟨hc, hrest⟩ := List.forall_mem_cons.mp hcs
    exact lost_runRoots_cons hn c position (ih hrest _) s (hc _ (hn hs _))

/-- **Roots** that are run alike, in cases that may go by different codes and have other roots
before them or behind them. -/
theorem Lawful.roots {C : Correspondence ρ σ τ} {p : C.Place} {w : World ρ σ} {r : Recorder τ}
    (h : C.Lawful w r) (code code' : String) (total total' : Nat) {cs : List (Ready ρ σ)}
    {ds : List (Ready ρ τ)} (hcs : List.Forall₂ (C.Paired p) cs ds) (position position' : Nat)
    (hreached : ∀ {s t}, C.inside p s t → ∀ i key,
      C.inside p (s.note w (.rootReached (position + i) total key))
        (t.note (w.recordedBy r) (.rootReached (position' + i) total' key)))
    (haborted : ∀ {s t}, C.inside p s t → ∀ key, C.inside p (s.note w (.caseAborted code key))
      (t.note (w.recordedBy r) (.caseAborted code' key)))
    {s : RunState ρ σ} {t : RunState ρ τ} (hst : C.inside p s t) :
    C.RunEnds p (StepResult.MatchAll C.strict) (runRoots w code total cs position s)
      (runRoots (w.recordedBy r) code' total' ds position' t) := by
  induction hcs generalizing position position' s t with
  | nil => exact .ok .rfl hst
  | @cons c d cs ds hcd hcds ih =>
    -- what is lost at this root is still lost after the others
    have hkeep := lost_runRoots_cons (h.tie p).lost c position
      (lost_runRoots (h.tie p).lost code total (Paired.keeps hcds).1 _) s
    have hkeep' := lost_runRoots_cons (w := w.recordedBy r) (h.tie p).lost' d position'
      (lost_runRoots (w := w.recordedBy r) (h.tie p).lost' code' total' (Paired.keeps hcds).2 _) t
    have hend := hcd.run _ _ (hreached hst 0 d.fields.key)
    rw [runRoots_cons] at hkeep hkeep' ⊢
    rw [runRoots_cons]
    rw [hcd.fields] at hkeep ⊢
    generalize c.run _ = x, d.run _ = y at hend hkeep hkeep'
    cases hend with
    | crash hst => exact .crash hst
    | lost hx => exact .lost (hkeep hx)
    | lost' hy => exact .lost' (hkeep' hy)
    | @ok a b s' t' hab hst =>
      dsimp only
      rw [hab.aborted]
      split
      · exact .ok ⟨by simp [hab.erased], fun hs => by rw [hab.same hs]⟩ (haborted hst _)
      · have hlast := ih (position + 1) (position' + 1)
          (fun hst i key => by
            rw [Nat.add_right_comm, Nat.add_right_comm position', Nat.add_assoc, Nat.add_assoc]
            exact hreached hst (i + 1) key) hst
        generalize runRoots w code total cs (position + 1) s' = x',
          runRoots (w.recordedBy r) code' total' ds (position' + 1) t' = y' at hlast
        cases hlast with
        | ok hv hst =>
          refine .ok ⟨?_, fun hs => by rw [hab.same hs, hv.same hs]⟩ hst
          rw [List.map_cons, List.map_cons, hab.erased, hv.erased]
        | crash hst => exact .crash hst
        | lost hx => exact .lost (by cases x' <;> exact hx)
        | lost' hy => exact .lost' (by cases y' <;> exact hy)

namespace Living

variable {C : Correspondence ρ σ τ} {p : C.Place} {w : World ρ σ} {r : Recorder τ}
variable (h : C.Living w r) {s : RunState ρ σ} {t : RunState ρ τ} {step : StepFields}

include h

/-- **Leaving a step** on both sides. -/
theorem concludeStep (hst : C.inside p s t) {started started' : Instant}
    (hs : C.strict → started = started') {f : Frame ρ σ} {g : Frame ρ τ}
    (hfg : (C.link (C.within p step.key)).kept f g) :
    (concludeStep w step s.context started f).1.Matches C.strict
        (concludeStep (w.recordedBy r) step t.context started' g).1 ∧
      C.inside p (concludeStep w step s.context started f).2
        (concludeStep (w.recordedBy r) step t.context started' g).2 := by
  -- what was extracted is merged first, and then the clock is looked at
  have hmerged : (C.link (C.within p step.key)).kept
      (f.mapState fun state => state.extend w f.result.extracted .session)
      (g.mapState fun state => state.extend (w.recordedBy r) g.result.extracted .session) := by
    refine ⟨?_, hfg.2⟩
    have hextended := h.inside_extend hfg.1 f.result.extracted
    rwa [hfg.2.extracted] at hextended ⊢
  have hclock : C.strict →
      w.now (f.state.extend w f.result.extracted .session).outside =
        w.now (g.state.extend (w.recordedBy r) g.result.extracted .session).outside :=
    fun hstrict => (h.tie _).now hstrict hmerged
  have hresult := hfg.2.timed
    (x := secondsBetween started (w.now (f.state.extend w f.result.extracted .session).outside))
    (y := secondsBetween started'
      (w.now (g.state.extend (w.recordedBy r) g.result.extracted .session).outside))
    fun hstrict => by rw [hs hstrict, hclock hstrict]
  refine ⟨hresult, h.restored hst (h.detail hmerged.1 ?_ hresult hs)⟩
  -- the line tells the time before its last word
  change Retimed C.strict
    ("finish step '" ++ RunState.labelOf step ++ "': " ++
      (if f.result.success then "passed" else "failed") ++ " in " ++ _ ++ " s")
    ("finish step '" ++ RunState.labelOf step ++ "': " ++
      (if g.result.success then "passed" else "failed") ++ " in " ++ _ ++ " s")
  rw [hfg.2.success]
  exact .seconds (fun hstrict => by rw [hs hstrict, hclock hstrict]) _ _

/-- **The life of a step** whose work corresponds. -/
theorem life (hkey : C.numbered p step.key) {work : Exec ρ σ Unit} {work' : Exec ρ τ Unit}
    (hwork : (C.link (C.within p step.key)).Holds Eq work work') :
    C.Paired p ⟨step, runStep w step work⟩ ⟨step, runStep (w.recordedBy r) step work'⟩ where
  fields := rfl
  numbered := hkey
  left s hs := lost_runStep C.lost (h.tie p).lost h.lost_detail step work s
    (hwork.left _ (h.lost_enterStep p hs))
  right t ht := lost_runStep C.lost' (w := w.recordedBy r) (h.tie p).lost' h.lost'_detail step
    work' t (hwork.right _ (h.lost'_enterStep p ht))
  run s t hst := by
    have hiteration := h.iteration hst hkey
    have hclock : C.strict → w.now s.outside = w.now t.outside := fun hstrict =>
      (h.tie p).now hstrict (f := ⟨s, default⟩) (g := ⟨t, default⟩) ⟨hst, .rfl⟩
    have hend := hwork.ends (s.openingFrame w step) (t.openingFrame (w.recordedBy r) step)
      ⟨h.enterStep hst hkey, by unfold RunState.openingFrame; rw [hiteration]; exact .rfl⟩
    have hlost := lost_runStep C.lost (h.tie p).lost h.lost_detail step work s
    have hlost' := lost_runStep C.lost' (w := w.recordedBy r) (h.tie p).lost' h.lost'_detail step
      work' t
    rw [runStep_eq] at hlost hlost'
    change C.RunEnds p _ (runStep w step work s) (runStep (w.recordedBy r) step work' t)
    rw [runStep_eq, runStep_eq]
    generalize work _ = x, work' _ = y at hend hlost hlost'
    cases hend with
    | ok _ hfg =>
      obtain ⟨hresult, hstate⟩ := h.concludeStep hst hclock hfg
      exact .ok hresult hstate
    | @fault fault f g _ hfg =>
      -- a fault is written into the result, and then the step is left like any other
      have hrecorded : (C.link (C.within p step.key)).kept (recordFault w fault f)
          (recordFault (w.recordedBy r) fault g) :=
        ⟨h.inside_log hfg.1 (.same _), hfg.2.failed fault⟩
      obtain ⟨hresult, hstate⟩ := h.concludeStep hst hclock hrecorded
      exact .ok hresult hstate
    | crash hfg => exact .crash (h.wrecked_within hfg)
    | lost hx => exact .lost (hlost hx)
    | lost' hy => exact .lost' (hlost' hy)

end Living

end Correspondence

end Scenario
