import Scenario.Host
import Scenario.Proofs.Chaining.Parts
import Scenario.Proofs.Heedless
import Scenario.Proofs.Kin.Case
import Scenario.Proofs.Scopes

/-!
# Runs chain

A forest whose roots fall into early and late ones can be run in two runs: the early roots first,
and then the late ones in a second run that starts with the session of the first one.

* `Outside.Steady` — an outside whose answers depend on the questions alone.
* `Chained` — what comes of two runs and of the joint one.
* `early_ends`, `late_ends` — the early and the late roots of a run of all are run as in runs of
  their own.
* `runCase_chained` — **runs chain**.
-/

namespace Scenario

variable {ρ σ : Type}

/-- **A steady outside:** its answers depend on the questions alone. -/
structure Outside.Steady (o : Outside ρ) : Prop where
  host : ∀ project environment x y,
    (o.environmentHost project environment x).1 = (o.environmentHost project environment y).1
  load : ∀ id x y, (o.loadTrouble id x).1 = (o.loadTrouble id y).1
  send : ∀ a b request x y, (o.send a request x).1 = (o.send b request y).1
  script : ∀ a b job x y, (o.runScript a job x).1 = (o.runScript b job y).1

/-- It is in concord with itself at any times. -/
theorem Outside.Steady.concord {o : Outside ρ} (h : o.Steady) :
    o.Concord False fun _ _ => True where
  now := False.elim
  slept _ _ := trivial
  opened _ _ := trivial
  host _ _ _ := ⟨h.host _ _ _ _, trivial⟩
  load _ _ := ⟨h.load _ _ _, trivial⟩
  send _ _ := ⟨h.send _ _ _ _ _, trivial⟩
  script _ _ := ⟨h.script _ _ _ _ _, trivial⟩

/-! ### Roots, one after the other -/

variable {w : World ρ σ}

/-- A step that is left has put things back. -/
theorem Step.run_restored {step : Step} {s s' : RunState ρ σ} {r : StepResult}
    (h : step.run w s = .ok r s') : s.context.Restored s'.context := by
  obtain ⟨hresult, hafter⟩ := Step.history_ok w h
  have hrestored := History.Sound.restored (step.history_sound w s) hresult
  rwa [Step.history_before, hafter] at hrestored

theorem Context.Restored.trans {c d e : Context} (h : c.Restored d) (h' : d.Restored e) :
    c.Restored e :=
  ⟨h'.defined.trans h.defined, h'.extract.trans h.extract, h'.key.trans h.key,
    h'.including.trans h.including⟩

/-- So have all roots. -/
theorem runRoots_restored {code : String} {total : Nat} {steps : List Step} {position : Nat}
    {s s' : RunState ρ σ} {results : List StepResult}
    (h : runRoots w code total (runnable w steps) position s = .ok results s') :
    s.context.Restored s'.context := by
  induction steps generalizing position s results with
  | nil =>
    obtain ⟨-, rfl⟩ := EStateM.Result.ok.inj h
    exact ⟨rfl, rfl, rfl, rfl⟩
  | cons step rest ih =>
    change runRoots w code total (⟨step.toStepFields, step.run w⟩ :: runnable w rest) position s =
      .ok results s' at h
    rw [runRoots_cons] at h
    dsimp only at h
    cases hstep : step.run w (s.note w (.rootReached position total step.key)) with
    | error crash s₁ => rw [hstep] at h; cases h
    | ok r s₁ =>
      have hfirst : s.context.Restored s₁.context := (Step.run_restored hstep :)
      rw [hstep] at h
      dsimp only at h
      -- an abort ends the roots, otherwise the rest are run from where this one ends
      split at h
      · obtain ⟨-, rfl⟩ := EStateM.Result.ok.inj h
        exact hfirst
      · cases hrest : runRoots w code total (runnable w rest) (position + 1) s₁ with
        | error crash s₂ => rw [hrest] at h; cases h
        | ok more s₂ =>
          rw [hrest] at h
          obtain ⟨-, rfl⟩ := EStateM.Result.ok.inj h
          exact hfirst.trans (ih hrest)

/-! ### Chains -/

/-- **What comes of a joint run,** next to a first run of its early roots and, after it, a second run
of its late ones. -/
inductive Chained (second : Json.Members → CaseOutcome) : CaseOutcome → CaseOutcome → Prop
  /-- Both break down in the early roots. -/
  | crashed {crash : Crash} : Chained second (.error crash) (.error crash)
  /-- An early root aborts, and ends both. -/
  | aborted {first joint : CaseExecution} (haborted : ∃ r ∈ first.results, r.aborted = true)
    (results : joint.results.map StepResult.untimed = first.results.map StepResult.untimed)
    (session : joint.session = first.session) (success : joint.success = first.success)
    (statistics : joint.statistics = first.statistics) :
    Chained second (.ok (.ok first)) (.ok (.ok joint))
  /-- The joint run breaks down in the late roots, and so does the second one. -/
  | broken {first : CaseExecution} {crash : Crash}
    (hpassed : ∀ r ∈ first.results, r.aborted = false)
    (hsecond : second first.session = .error crash) :
    Chained second (.ok (.ok first)) (.error crash)
  /-- The joint run is the one after the other. -/
  | finished {first next joint : CaseExecution} (hpassed : ∀ r ∈ first.results, r.aborted = false)
    (hsecond : second first.session = .ok (.ok next))
    (results : joint.results.map StepResult.untimed =
      first.results.map StepResult.untimed ++ next.results.map StepResult.untimed)
    (session : joint.session = next.session) :
    Chained second (.ok (.ok first)) (.ok (.ok joint))

/-! ### The early roots and the late ones -/

section

variable {case : CaseHeader} {steps : List Step} {options : RunOptions} {early : Step → Bool}

/-- Runs of one world at any times, with certain keys in common. -/
abbrev Kinship.atAnyTime (ρ σ : Type) (shared : String → Prop) (counts counts' : String → Nat)
    (code code' : Option String) (home : Context) : Kinship ρ (Transcript σ) (Transcript σ) :=
  loose σ σ False (fun _ _ => True) shared counts counts' code code' home

theorem Kinship.atAnyTime_lawful (h : w.toOutside.Steady) (shared : String → Prop)
    (counts counts' : String → Nat) (code code' : Option String) (home : Context) :
    (atAnyTime ρ σ shared counts counts' code code' home).Lawful w.transcribed
      w.toRecorder.transcribed :=
  loose_lawful h.concord shared counts counts' code code' home

/-- Steps of a part fit in runs of a case. -/
theorem Library.touched_fit {library : Library} {part : List Step} :
    ∀ step ∈ Step.ordered part, case.id.toList = case.id.toList ∧
      ∀ key, step.Touches library case.id.toList key → library.Touched case part key :=
  fun step hstep => ⟨rfl, fun _ hkey => ⟨step, Step.mem_ordered.mp hstep, hkey⟩⟩

/-- The early roots of a run of all. -/
def Start.earlyRoots (x : Start ρ σ) (w : World ρ σ) (case : CaseHeader) (steps : List Step)
    (options : RunOptions) (early : Step → Bool) (report : Option String) (opened : σ) :
    EStateM.Result Crash (RunState ρ σ) (List StepResult) :=
  runRoots w case.code (rootsOf w steps).length (runnable w (Step.ordered (steps.filter early))) 1
    (x.rootsState w case steps options report opened)

/-- The late roots of a run of all, after the early ones. -/
def lateRoots (w : World ρ σ) (case : CaseHeader) (steps : List Step) (early : Step → Bool)
    (s : RunState ρ σ) : EStateM.Result Crash (RunState ρ σ) (List StepResult) :=
  runRoots w case.code (rootsOf w steps).length
    (runnable w (Step.ordered (steps.filter fun step => !early step)))
    (1 + (runnable w (Step.ordered (steps.filter early))).length) s

/-- **The early roots** are run alike in a run of all and in a run of their own. -/
theorem early_ends (hsteady : w.toOutside.Steady) (case : CaseHeader) (steps : List Step)
    (options : RunOptions) (early : Step → Bool) {x y : Start ρ σ}
    (hclient : x.client.isSome = y.client.isSome) (report report' : Option String)
    (opened opened' : Transcript σ) :
    (Kinship.atAnyTime ρ σ (w.library.Touched case (steps.filter early)) (fun _ => 1) (fun _ => 1)
      report report' (x.context case options report)).correspondence.RunEnds
      ⟨case.id.toList, case.id.toList, none⟩ (StepResult.MatchAll False)
      (x.transcribing.earlyRoots w.transcribed case steps options early report opened)
      (y.transcribing.roots w.transcribed case (steps.filter early) options report' opened') := by
  have hK := Kinship.atAnyTime_lawful hsteady (w.library.Touched case (steps.filter early))
    (fun _ => 1) (fun _ => 1) report report' (x.context case options report)
  rw [Start.roots_eq]
  exact hK.roots (w.library.fits_touching _) case.code case.code _ _ Library.touched_fit 1 1
    (Start.rootsState_kindred w.transcribed w.transcribed case steps (steps.filter early) options
      hclient trivial rfl (fun _ _ => ⟨rfl, rfl⟩) trivial opened opened' trivial)

/-- What a run has done so far with the early roots leaves nothing that the late ones could tell from
the start of a run of their own, but the session. -/
theorem late_states {x z : Start ρ σ} (hclient : x.client.isSome = z.client.isSome)
    {part rest : List Step}
    (hapart : ∀ key, ¬ (w.library.Touched case part key ∧ w.library.Touched case rest key))
    {report report' report'' : Option String} {s t : RunState ρ (Transcript σ)}
    (hst : (Kinship.atAnyTime ρ σ (w.library.Touched case part) (fun _ => 1) (fun _ => 1) report
      report' (x.context case options report)).States s t)
    (hrestored : (x.context case options report).Restored s.context) (opened : Transcript σ) :
    (Kinship.atAnyTime ρ σ (w.library.Touched case rest) s.context.iteration (fun _ => 1)
      s.context.reportCode report'' (x.context case options report)).States s
      (z.transcribing.rootsState w.transcribed case rest
        { options with session := t.context.session } report'' opened) where
  sees := ⟨hst.stays.environment, hst.stays.settings, hrestored.defined, hst.sees.session,
    hrestored.extract⟩
  near := trivial
  stays := hst.stays
  stays' := Start.context_stays hclient report report'' t.context.session
  -- the keys of the late roots have not been reached yet
  iterations key hrest := (hst.counts key fun hpart => hapart key ⟨hpart, hrest⟩).1
  counts _ _ := ⟨rfl, rfl⟩
  traces := trivial
  code := rfl
  code' := rfl
  records := trivial

/-- **The late roots** are run alike after the early ones, and in a run of their own that starts with
the session that a run of the early ones ends with. -/
theorem late_ends (hsteady : w.toOutside.Steady) (hsplits : Splits w.library case steps early)
    {x z : Start ρ σ} (hclient : x.client.isSome = z.client.isSome)
    {report report' : Option String} {s t : RunState ρ (Transcript σ)}
    (hst : (Kinship.atAnyTime ρ σ (w.library.Touched case (steps.filter early)) (fun _ => 1)
      (fun _ => 1) report report' (x.context case options report)).correspondence.inside
      ⟨case.id.toList, case.id.toList, none⟩ s t)
    (hrestored : (x.context case options report).Restored s.context) (report'' : Option String)
    (opened : Transcript σ) :
    (Kinship.atAnyTime ρ σ (w.library.Touched case (steps.filter fun step => !early step))
      s.context.iteration (fun _ => 1) s.context.reportCode report''
      (x.context case options report)).correspondence.RunEnds
      ⟨case.id.toList, case.id.toList, none⟩ (StepResult.MatchAll False)
      (lateRoots w.transcribed case steps early s)
      (z.transcribing.roots w.transcribed case (steps.filter fun step => !early step)
        { options with session := t.context.session } report'' opened) := by
  obtain ⟨hstates, hplace, -⟩ := hst
  have hK := Kinship.atAnyTime_lawful hsteady
    (w.library.Touched case (steps.filter fun step => !early step)) s.context.iteration
    (fun _ => 1) s.context.reportCode report'' (x.context case options report)
  rw [Start.roots_eq]
  exact hK.roots (w.library.fits_touching _) case.code case.code _ _ Library.touched_fit _ 1
    ⟨late_states hclient hsplits.apart hstates hrestored opened, hplace, rfl, rfl⟩

/-- The roots of a run of all are the early ones, and after them the late ones. -/
theorem Splits.roots_eq (hsplits : Splits w.library case steps early) (x : Start ρ σ)
    (options : RunOptions) (report : Option String) (opened : σ) :
    x.roots w case steps options report opened =
      match x.earlyRoots w case steps options early report opened with
      | .error crash s => .error crash s
      | .ok results s =>
        if results.any fun r => r.aborted then .ok results s
        else
          match lateRoots w case steps early s with
          | .error crash s => .error crash s
          | .ok more s => .ok (results ++ more) s := by
  -- sorting puts all early steps before the late ones
  have hroots : runnable w (Step.ordered steps) =
      runnable w (Step.ordered (steps.filter early)) ++
        runnable w (Step.ordered (steps.filter fun step => !early step)) := by
    rw [Step.ordered_parts hsplits.before]
    exact List.map_append
  rw [Start.roots_eq, hroots]
  exact runRoots_append w case.code _ _ _ 1 _

/-- Roots keep a run lost in which time is up. -/
theorem timedOut_runRoots (w : World ρ σ) (code : String) (total : Nat) (part : List Step)
    (position : Nat) {s : RunState ρ (Transcript σ)} (h : s.records.TimedOut) :
    (endState (runRoots w.transcribed code total (runnable w.transcribed part) position
      s)).records.TimedOut := by
  refine Correspondence.lost_runRoots (q := Transcript.TimedOut)
    (fun hx => (Kinship.timedOut_told w hx).1) code total (fun c hc => ?_) position h
  obtain ⟨step, -, rfl⟩ := List.mem_map.mp hc
  exact step.run_keeps w.transcribed (q := Transcript.TimedOut)
    (fun hx => (Kinship.timedOut_told w hx).1) fun hx => (Kinship.timedOut_told w hx).2

/-- The early roots put things back. -/
theorem Start.earlyRoots_restored {x : Start ρ σ} {report : Option String} {opened : σ}
    {results : List StepResult} {s : RunState ρ σ}
    (h : x.earlyRoots w case steps options early report opened = .ok results s) :
    (x.context case options report).Restored s.context :=
  (runRoots_restored h :)

/-- What a run of all gives back after its roots. -/
def Start.execution (x : Start ρ σ) (w : World ρ σ) (case : CaseHeader) {τ : Type}
    (results : List StepResult) (s : RunState ρ τ) : CaseOutcome :=
  .ok (.ok (executionOf case s.context.reportCode results s.context
    (secondsBetween (w.now x.outside) (w.now s.outside))))

/-- **A run of all** is what comes of its early roots and its late ones, and it runs out of time if
these do. -/
theorem Splits.run_eq (hsplits : Splits w.library case steps early) {x : Start ρ σ}
    (hx : x.Opens w case options) :
    ∃ report opened,
      (x.run w case steps options =
        match x.transcribing.earlyRoots w.transcribed case steps options early report opened with
        | .error crash _ => .error crash
        | .ok results s =>
          if results.any fun r => r.aborted then x.execution w case results s
          else
            match lateRoots w.transcribed case steps early s with
            | .error crash _ => .error crash
            | .ok more s => x.execution w case (results ++ more) s) ∧
      ((endState (x.transcribing.earlyRoots w.transcribed case steps options early report
        opened)).records.TimedOut → x.TimesOut w case steps options) ∧
      ∀ results s, x.transcribing.earlyRoots w.transcribed case steps options early report opened =
          .ok results s →
        (results.any fun r => r.aborted) = false →
        (endState (lateRoots w.transcribed case steps early s)).records.TimedOut →
        x.TimesOut w case steps options := by
  obtain ⟨report, opened, hopen⟩ := hx.transcribed
  obtain ⟨hrun, htime⟩ := Start.run_transcribed_roots hsplits.valid hopen
  have hroots := Splits.roots_eq (w := w.transcribed) hsplits x.transcribing options report opened
  rw [hroots] at hrun htime
  refine ⟨report, opened, ?_⟩
  generalize x.transcribing.earlyRoots w.transcribed case steps options early report opened = a
    at hrun htime
  cases a with
  | error crash s => exact ⟨hrun, htime, fun _ _ h => nomatch h⟩
  | ok results s =>
    dsimp only at hrun htime ⊢
    cases hany : results.any fun r => r.aborted with
    -- the late roots are not reached
    | true =>
      rw [hany] at hrun htime
      refine ⟨hrun, htime, fun results' s' h hnone => ?_⟩
      obtain ⟨rfl, -⟩ := EStateM.Result.ok.inj h
      rw [hany] at hnone
      cases hnone
    | false =>
      rw [hany] at hrun htime
      -- a time that is up among the early roots stays up through the late ones
      have hkeep : s.records.TimedOut →
          (endState (lateRoots w.transcribed case steps early s)).records.TimedOut :=
        timedOut_runRoots w _ _ _ _
      simp only [Bool.false_eq_true, if_false] at hrun htime ⊢
      have hlate : (endState (lateRoots w.transcribed case steps early s)).records.TimedOut →
          x.TimesOut w case steps options := by
        cases hb : lateRoots w.transcribed case steps early s <;> rw [hb] at htime <;> exact htime
      refine ⟨?_, fun h => hlate (hkeep h), fun results' s' h _ => ?_⟩
      · rw [hrun]
        cases lateRoots w.transcribed case steps early s <;> rfl
      · obtain ⟨-, rfl⟩ := EStateM.Result.ok.inj h
        exact hlate

/-- **A run of all** is chained up of the two runs of its parts, if no time is up in any of them. -/
theorem Splits.chained (hsplits : Splits w.library case steps early) (hsteady : w.toOutside.Steady)
    {x y z : Start ρ σ} (hclient : x.client.isSome = y.client.isSome)
    (hclient' : x.client.isSome = z.client.isSome) (hx : x.Opens w case options)
    (hy : y.Opens w case options) (hz : z.Opens w case options)
    (hcalm : ¬ x.TimesOut w case steps options)
    (hcalm' : ¬ y.TimesOut w case (steps.filter early) options)
    (hcalm'' : ∀ first, y.run w case (steps.filter early) options = .ok (.ok first) →
      ¬ z.TimesOut w case (steps.filter fun step => !early step)
        { options with session := first.session }) :
    Chained (fun session => z.run w case (steps.filter fun step => !early step)
        { options with session })
      (y.run w case (steps.filter early) options) (x.run w case steps options) := by
  obtain ⟨report, opened, hxrun, hxtime, hxlate⟩ := hsplits.run_eq hx
  obtain ⟨report', opened', hopen'⟩ := hy.transcribed
  obtain ⟨hyrun, hytime⟩ := Start.run_transcribed_roots hsplits.valid_early hopen'
  have hend := early_ends hsteady case steps options early hclient report report' opened opened'
  generalize ha : x.transcribing.earlyRoots w.transcribed case steps options early report opened = a
    at hxrun hxtime hxlate hend
  generalize y.transcribing.roots w.transcribed case (steps.filter early) options report' opened' = b
    at hyrun hytime hend
  -- first the early roots: in the run of all, and in a run of their own
  cases hend with
  | lost h => exact absurd (hxtime h.2) hcalm
  | lost' h => exact absurd (hytime h.2) hcalm'
  | crash _ =>
    rw [hxrun, hyrun]
    exact .crashed
  | @ok results results' s t hresults hst =>
    dsimp only at hxrun hyrun
    have hsame := StepResult.MatchAll.any_aborted hresults
    cases hany : results.any fun r => r.aborted with
    | true =>
      have haborted : ∃ r ∈ results', r.aborted = true := by simpa [hany] using hsame
      rw [hany, if_pos rfl] at hxrun
      rw [hxrun, hyrun]
      exact .aborted haborted hresults.erased hst.1.sees.session
        hresults.all_success (StepResult.MatchAll.statistics hresults)
    -- then the late ones: after these in the run of all, and in a run that starts with their session
    | false =>
      have hpassed : ∀ r ∈ results', r.aborted = false := by simpa [hany] using hsame
      rw [hany, if_neg Bool.false_ne_true] at hxrun
      have hz' : z.Opens w case { options with session := t.context.session } := hz
      obtain ⟨report'', opened'', hopen''⟩ := hz'.transcribed
      obtain ⟨hzrun, hztime⟩ := Start.run_transcribed_roots hsplits.valid_late hopen''
      have hend' := late_ends hsteady hsplits hclient' hst (Start.earlyRoots_restored ha) report''
        opened''
      have hlate := hxlate results s rfl hany
      generalize lateRoots w.transcribed case steps early s = c at hxrun hlate hend'
      generalize z.transcribing.roots w.transcribed case (steps.filter fun step => !early step)
        { options with session := t.context.session } report'' opened'' = d at hzrun hztime hend'
      rw [hyrun]
      cases hend' with
      | lost h => exact absurd (hlate h.2) hcalm
      | lost' h => exact absurd (hztime h.2) (hcalm'' _ hyrun)
      | crash _ =>
        rw [hxrun]
        exact .broken hpassed hzrun
      | @ok more more' s' t' hmore hst' =>
        rw [hxrun]
        refine .finished hpassed hzrun ?_ hst'.1.sees.session
        change (results ++ more).map _ = _
        rw [List.map_append, hresults.erased, hmore.erased]
        rfl

/-! ### Early roots that end a run -/

/-- To a heedless recorder, the early roots of a run of all are those of a run of their own. -/
theorem heedless_ends {same : σ → σ → Prop} (h : w.toRecorder.Heedless same) (x : Start ρ σ)
    (case : CaseHeader) (steps : List Step) (options : RunOptions) (early : Step → Bool)
    (report : Option String) (opened : σ) :
    (heedless h).correspondence.RunEnds ⟨case.id.toList, none⟩ (StepResult.MatchAll True)
      (x.earlyRoots w case steps options early report opened)
      (x.roots w case (steps.filter early) options report opened) := by
  have hpaired := (heedless h).rootsOf_paired case.id.toList (steps.filter early)
  rw [rootsOf_eq] at hpaired
  rw [Start.roots_eq]
  have noted : ∀ {s t : RunState ρ σ}, Coupled Eq Eq same s t → ∀ n n',
      Coupled Eq Eq same (s.note w n) (t.note w n') :=
    fun hst n n' => { hst with records := h.note hst.records n n' }
  exact (heedless h).correspondence_living.roots case.code case.code _ _
    (hpaired.imp fun _ _ hcd => Coupling.paired_iff.mp hcd none) 1 1
    (fun hst _ _ => ⟨noted hst.1 _ _, hst.2⟩) (fun hst _ => ⟨noted hst.1 _ _, hst.2⟩)
    ⟨⟨.rfl, rfl, rfl, rfl, h.note (h.refl opened) _ _⟩, rfl⟩

/-- **If an early root aborts,** a run of all is the run of the early ones. -/
theorem Splits.cut (hsplits : Splits w.library case steps early) {same : σ → σ → Prop}
    (h : w.toRecorder.Heedless same) {x : Start ρ σ} {first : CaseExecution}
    (hfirst : x.run w case (steps.filter early) options = .ok (.ok first))
    (haborted : ∃ r ∈ first.results, r.aborted = true) :
    x.run w case steps options = x.run w case (steps.filter early) options := by
  -- both runs open their report in the same way
  rcases hopen : x.opened w case options with ⟨e | report, opened⟩
  · unfold Start.run at hfirst
    rw [runCase_refused hsplits.valid_early hopen] at hfirst
    cases hfirst
  · rw [Start.run_roots hsplits.valid_early hopen] at hfirst ⊢
    rw [Start.run_roots hsplits.valid hopen, hsplits.roots_eq]
    have hend := heedless_ends h x case steps options early report opened
    generalize x.earlyRoots w case steps options early report opened = a,
      x.roots w case (steps.filter early) options report opened = b at hfirst hend
    cases hend with
    | crash _ => cases hfirst
    | lost h => exact h.elim
    | lost' h => exact h.elim
    | @ok results results' s t hresults hst =>
      -- what the recorder is told beforehand differs, and it does not heed that
      obtain rfl := hresults.same trivial
      obtain ⟨b, -, rfl⟩ := Coupled.differ hst.1
      obtain rfl := Except.ok.inj (Except.ok.inj hfirst)
      have hany : (results.any fun r => r.aborted) = true :=
        List.any_eq_true.mpr haborted
      dsimp only
      rw [hany, if_pos rfl]

/-- **Runs chain.** A good forest falls into early roots and late ones, which touch no key in common.
Outside, everything is answered by what is asked. Then a run of all is a run of the early roots and,
unless one of these aborts, a run of the late ones after it, that starts with the session that the
first one ends with — whenever these runs take place, if each has a report to write to or wants none,
and no condition loop runs out of time. And if an early root aborts, a run of all is in every respect
a run of the early roots, if the host does not look at what the watcher is told. -/
theorem runCase_chained (w : World ρ σ) (case : CaseHeader) (steps : List Step)
    (options : RunOptions) (early : Step → Bool) (hsplits : Splits w.library case steps early) :
    (w.toOutside.Steady → ∀ x y z : Start ρ σ, x.client.isSome = y.client.isSome →
      x.client.isSome = z.client.isSome →
      x.Opens w case options → y.Opens w case options → z.Opens w case options →
      ¬ x.TimesOut w case steps options → ¬ y.TimesOut w case (steps.filter early) options →
      (∀ first, y.run w case (steps.filter early) options = .ok (.ok first) →
        ¬ z.TimesOut w case (steps.filter fun step => !early step)
          { options with session := first.session }) →
      Chained (fun session => z.run w case (steps.filter fun step => !early step)
          { options with session })
        (y.run w case (steps.filter early) options) (x.run w case steps options)) ∧
    ∀ same, w.toRecorder.Heedless same → ∀ (x : Start ρ σ) (first : CaseExecution),
      x.run w case (steps.filter early) options = .ok (.ok first) →
      (∃ r ∈ first.results, r.aborted = true) →
      x.run w case steps options = x.run w case (steps.filter early) options :=
  ⟨fun hsteady _ _ _ hclient hclient' hx hy hz hcalm hcalm' hcalm'' =>
    hsplits.chained hsteady hclient hclient' hx hy hz hcalm hcalm' hcalm'',
    fun _ h _ _ hfirst haborted => hsplits.cut h hfirst haborted⟩

end

/-! ### A chain of loops -/

/-- An outside in which nothing moves. -/
def Outside.still : Outside Unit where
  now _ := 0
  sleep _ x := x
  environmentHost _ _ x := (.ok none, x)
  library := []
  loadTrouble _ x := (none, x)
  send client _ x := (.error .unbuildable, client, x)
  runScript client job x := (.ok ⟨some job.session, []⟩, client, x)

theorem Outside.still_steady : Outside.still.Steady :=
  ⟨fun _ _ _ _ => rfl, fun _ _ _ => rfl, fun _ _ _ _ _ => rfl, fun _ _ _ _ _ => rfl⟩

/-- A store is heedless: it keeps what the watcher is told, and looks at what it keeps else. -/
theorem Store.recorder_heedless : Store.recorder.Heedless fun a b =>
    ({ a with notices := [] } : Store) = { b with notices := [] } where
  refl _ := rfl
  note h _ _ := h
  detail {a b} h d := by
    have hrefusals : a.refusals = b.refusals := (congrArg Store.refusals h :)
    change (a.createDetail d).1 = (b.createDetail d).1 ∧
      ({ (a.createDetail d).2 with notices := [] } : Store) = { (b.createDetail d).2 with notices := [] }
    unfold Store.createDetail Store.keep
    rw [← hrefusals]
    cases Keyed.find? "create_detail" a.refusals with
    | some reason => exact ⟨rfl, h⟩
    | none => exact ⟨rfl, congrArg (fun s : Store => { s with details := s.details ++ [d] }) h⟩

/-- A still world with a store. -/
def World.still : World Unit Store := { Outside.still, Store.recorder with }

/-- A run from scratch in it. -/
def Start.still : Start Unit Store := ⟨none, (), {}⟩

/-- A loop over two items, that stops at failures. -/
def Step.over (code : String) (number : Int) (children : List Step) : Step :=
  ⟨{ kind := some "loop", code := some code, number := some number
     loopMode := some "iterable", loopOnError := some "stop"
     loopIterable := some (.array [.null, .bool true]) }, children⟩

/-- Two such loops. The first one has nothing to do, or it fails. -/
def Step.loops (fails : Bool) : List Step :=
  [.over "first" 1 (if fails then [⟨{ kind := some "wait", code := some "inner" }, []⟩] else []),
    .over "second" 2 []]

/-- Nothing is touched by a step without children, where no case can be included, but its key. -/
theorem Step.touches_leaf {fields : StepFields} {including : List Int} {key : String}
    (h : Step.Touches [] including ⟨fields, []⟩ key) : key = fields.key := by
  rcases touches_iff.mp h with hkey | ⟨c, stack, hbelow, -⟩
  · exact hkey.symm
  · cases hbelow with
    | child hchild => cases hchild
    | included _ _ hrecord => cases hrecord

/-- The two loops touch keys of their own. -/
theorem Splits.loops (fails : Bool) :
    Splits [] {} (Step.loops fails) fun step => step.rank = 1 where
  valid := by cases fails <;> rfl
  before := by cases fails <;> decide
  apart := by
    -- the first loop touches its own key and that of its step, the second one its own
    rintro key ⟨⟨p, hp, hkey⟩, q, hq, hkey'⟩
    obtain rfl : q = .over "second" 2 [] := List.mem_singleton.mp hq
    obtain rfl : key = "second" := Step.touches_leaf hkey'
    obtain rfl := List.mem_singleton.mp hp
    rcases Step.touches_iff.mp hkey with h | ⟨c, stack, hbelow, h⟩
    · simp [Step.over, StepFields.key, stepKey] at h
    · cases hbelow with
      | included _ _ hrecord => cases hrecord
      | child hchild =>
        cases fails with
        | false => cases hchild
        | true =>
          obtain rfl := List.mem_singleton.mp hchild
          have hinner := Step.touches_leaf h
          simp [StepFields.key, stepKey] at hinner

/-- A word that does not begin like one about a condition loop. -/
def Notice.calm : Notice → Bool
  | .logged _ text => text.toList.take 4 ≠ "cond".toList
  | _ => true

theorem timeoutLine_take (done : Nat) (timeout : Binary64) :
    (timeoutLine done timeout).toList.take 4 = "cond".toList := by
  have hstart : "condition loop: timed out after ".toList =
      "cond".toList ++ "ition loop: timed out after ".toList := by decide +kernel
  unfold timeoutLine
  simp only [String.toList_append, hstart, List.append_assoc]
  exact List.take_left' (by decide +kernel)

/-- If all words are such, time was not up. -/
theorem Transcript.calm_of_all {transcript : Transcript σ}
    (h : transcript.notices.all Notice.calm = true) : ¬ transcript.TimedOut := by
  rintro ⟨n, hn, hout⟩
  have hcalm := List.all_eq_true.mp h n hn
  cases n <;> try exact hout
  obtain ⟨done, timeout, rfl⟩ := hout
  exact of_decide_eq_true hcalm (timeoutLine_take done timeout)

/-- **A chain of two loops.** The second one starts with the variables that the first one leaves. And
if the first one fails, the second one is not run. -/
theorem runCase_chained_loops :
    (Chained (fun session => Start.still.run World.still {} [.over "second" 2 []] { session })
        (Start.still.run World.still {} [.over "first" 1 []] {})
        (Start.still.run World.still {} (Step.loops false) {})) ∧
      Start.still.run World.still {} (Step.loops true) {} =
        Start.still.run World.still {} ((Step.loops true).take 1) {} := by
  have hopens : Start.still.Opens World.still {} {} := ⟨_, rfl⟩
  constructor
  · refine (runCase_chained World.still {} (Step.loops false) {} _ (.loops false)).1
      Outside.still_steady Start.still Start.still Start.still rfl rfl hopens hopens hopens ?_ ?_ ?_
    -- no time is up in any of the three runs, which shows when they are run
    · refine Transcript.calm_of_all ?_
      rw [runCase_forest rfl rfl, runForest_eq, rootsOf_eq, Step.ordered, orderedBy,
        List.mergeSort_of_pairwise (by decide)]
      decide +kernel
    · refine Transcript.calm_of_all ?_
      decide +kernel
    · intro first hfirst
      refine Transcript.calm_of_all ?_
      have hcheck : ((Start.still.run World.still {} [.over "first" 1 []] {}).toOption.bind
          Except.toOption).all (fun first => (recordsOf (runCase World.still.transcribed {}
            [.over "second" 2 []] { session := first.session } none ()
            Start.still.transcribing.records)).notices.all Notice.calm) = true := by decide +kernel
      refine (Option.all_eq_true _ _).mp hcheck first ?_
      rw [show Start.still.run World.still {} [.over "first" 1 []] {} = .ok (.ok first) from hfirst]
      rfl
  · have hcheck : ((Start.still.run World.still {} ((Step.loops true).take 1) {}).toOption.bind
        Except.toOption).any (fun first => first.results.any fun r => r.aborted) = true := by
      decide +kernel
    rcases hrun : Start.still.run World.still {} ((Step.loops true).take 1) {} with
      crash | error | first
    · rw [hrun] at hcheck
      cases hcheck
    · rw [hrun] at hcheck
      cases hcheck
    · rw [hrun] at hcheck
      simp only [Except.toOption, Option.bind_some, Option.any_some] at hcheck
      rw [← hrun]
      exact (runCase_chained World.still {} (Step.loops true) {} _ (.loops true)).2 _
        Store.recorder_heedless Start.still first hrun (List.any_eq_true.mp hcheck)

end Scenario
