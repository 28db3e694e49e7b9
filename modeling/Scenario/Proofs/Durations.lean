import Scenario.Proofs.Kin.Case
import Scenario.Proofs.Proceeding

/-!
# Durations

A run hands numbers of seconds to the clock and to the client that it opens, and these are partial:
a number that is no duration breaks the run down. The waits of a run are checked before; the limits
of a client are not.

* `Binary64.IsDuration` — the numbers that are durations; `durationCrash?_eq_none_iff` — these and
  no others can be handed on.
* `Settings.Admits.isDuration` — every wait that settings admit is one, whatever the settings are.
* `Settings.opens_iff` — a client is opened if both of its limits are.
* `Step.waits`, `Step.loop_misfits` — what is no admissible wait is a misconfiguration of its step.
* `runCase_durations` — so a run breaks down at the limits of its client at most.
-/

namespace Scenario

/-! ### Numbers that are durations -/

namespace Binary64

namespace Finite

/-- The whole seconds of a number that is not negative are less than `n` if the number is. -/
theorem truncate_lt_iff {x : Finite} {n : Int} (h : 0 ≤ x.scaled) :
    x.truncate < n ↔ x.scaled < n * 2 ^ 1074 := by
  unfold truncate
  rw [Int.tdiv_eq_ediv_of_nonneg h]
  exact Int.ediv_lt_iff_lt_mul (Int.pow_pos (by decide))

end Finite

/-- **A duration:** a finite number of seconds that is not negative and whose whole seconds fit into
64 bits. -/
def IsDuration (seconds : Binary64) : Prop :=
  ∃ x, seconds = .finite x ∧ 0 ≤ x.scaled ∧ x.truncate < 2 ^ 64

theorem finite_lt_iff {x y : Finite} :
    (Binary64.finite x).lt (.finite y) = true ↔ x.scaled < y.scaled := by
  simp [lt, compare?, Finite.compare, Int.compare_eq_lt]

end Binary64

/-- **What can be handed on** is a duration. -/
theorem durationCrash?_eq_none_iff {seconds : Binary64} :
    durationCrash? seconds = none ↔ seconds.IsDuration := by
  -- all numbers are compared as multiples of the smallest one, which is `2 ^ -1074`
  obtain ⟨bound, hbound, hscaled⟩ :
      ∃ x, Binary64.ofInt (2 ^ 64) = .finite x ∧ x.scaled = 2 ^ 64 * 2 ^ 1074 :=
    ⟨⟨false, 2 ^ 52, 12, by decide⟩, by decide +kernel, by decide +kernel⟩
  unfold durationCrash? Binary64.IsDuration
  rw [hbound]
  cases seconds with
  | finite x =>
    have hzero : (Binary64.finite x).lt (.zero false) = true ↔ x.scaled < 0 :=
      Binary64.finite_lt_iff
    have hlong : (Binary64.finite x).lt (.finite bound) = true ↔ x.scaled < 2 ^ 64 * 2 ^ 1074 :=
      hscaled ▸ Binary64.finite_lt_iff
    constructor
    · intro h
      split at h
      · cases h
      · next hnonneg =>
        have hnonneg := Int.not_lt.mp (mt hzero.mpr hnonneg)
        split at h
        · next hshort => exact ⟨x, rfl, hnonneg, (Binary64.Finite.truncate_lt_iff hnonneg).mpr
            (hlong.mp hshort)⟩
        · cases h
    · rintro ⟨_, ⟨⟩, hnonneg, hshort⟩
      rw [if_neg (mt hzero.mp (Int.not_lt.mpr hnonneg)),
        if_pos (hlong.mpr ((Binary64.Finite.truncate_lt_iff hnonneg).mp hshort))]
  | infinity negative =>
    cases negative <;> simp [Binary64.lt, Binary64.zero, Binary64.compare?]
  | nan => simp [Binary64.lt, Binary64.compare?]

/-! ### What settings allow -/

namespace Settings

variable {settings : Settings} {seconds : Binary64}

/-- **The limits of a client** are durations. -/
def Timed (settings : Settings) : Prop :=
  settings.requestTimeout.IsDuration ∧ settings.connectTimeout.IsDuration

/-- A client is opened with durations, and only with these. -/
theorem opens_iff : settings.Opens ↔ settings.Timed := by
  unfold Opens Timed openClient
  rw [← durationCrash?_eq_none_iff, ← durationCrash?_eq_none_iff]
  cases durationCrash? settings.requestTimeout <;> cases durationCrash? settings.connectTimeout <;>
    simp

/-- Settings allow waits up to some finite number at the most, or none. -/
theorem waitLimit_le (settings : Settings) :
    settings.waitLimit = .infinity true ∨
      ∃ limit, settings.waitLimit = .finite limit ∧ limit.scaled ≤ 300 * 2 ^ 1074 := by
  obtain ⟨longest, hlongest, hscaled⟩ :
      ∃ x, longestWait = .finite x ∧ x.scaled = 300 * 2 ^ 1074 :=
    ⟨⟨false, 300 * 2 ^ 44, -44, by decide⟩, by decide +kernel, by decide +kernel⟩
  unfold waitLimit Binary64.minimum
  rw [hlongest]
  cases settings.maxWait with
  | nan => exact .inr ⟨longest, rfl, Int.le_of_eq hscaled⟩
  | infinity negative =>
    cases negative with
    | true => exact .inl rfl
    | false => exact .inr ⟨longest, rfl, Int.le_of_eq hscaled⟩
  -- the smaller one of the two is the limit
  | finite x =>
    by_cases hlt : (Binary64.finite longest).lt (.finite x) = true
    · exact .inr ⟨longest, by simp [Binary64.isNaN, hlt], Int.le_of_eq hscaled⟩
    · refine .inr ⟨x, by simp [Binary64.isNaN, hlt], ?_⟩
      rw [← hscaled]
      exact Int.not_lt.mp (mt Binary64.finite_lt_iff.mpr hlt)

/-- What settings admit as a wait is a number that is not negative, and at most the longest wait. -/
theorem Admits.bounded (h : settings.Admits seconds) :
    ∃ x, seconds = .finite x ∧ 0 ≤ x.scaled ∧ x.scaled ≤ 300 * 2 ^ 1074 := by
  unfold Admits RunState.waitFlaw? at h
  split at h
  · cases h
  · next hfinite =>
    split at h
    · cases h
    · next hlimit =>
      cases seconds with
      | finite x =>
        refine ⟨x, rfl, ?_, ?_⟩
        · refine Int.not_lt.mp (mt (Binary64.finite_lt_iff (y := .zero false)).mpr fun hlt => ?_)
          exact hfinite (by simp [Binary64.zero, hlt])
        · obtain hnone | ⟨limit, hsome, hbound⟩ := settings.waitLimit_le
          · -- nothing is below a limit that is infinitely low
            rw [hnone] at hlimit
            exact absurd rfl hlimit
          · rw [hsome] at hlimit
            exact Int.le_trans (Int.not_lt.mp (mt Binary64.finite_lt_iff.mpr hlimit)) hbound
      | infinity negative => exact absurd (by simp [Binary64.isFinite, Binary64.toFinite?]) hfinite
      | nan => exact absurd (by simp [Binary64.isFinite, Binary64.toFinite?]) hfinite

/-- **What settings admit as a wait** is a duration, whatever they are. -/
theorem Admits.isDuration (h : settings.Admits seconds) : seconds.IsDuration := by
  obtain ⟨x, rfl, hnonneg, hbound⟩ := h.bounded
  refine ⟨x, rfl, hnonneg, (Binary64.Finite.truncate_lt_iff hnonneg).mpr ?_⟩
  calc x.scaled ≤ 300 * 2 ^ 1074 := hbound
    _ < 2 ^ 64 * 2 ^ 1074 := Int.mul_lt_mul_of_pos_right (by decide) (Int.pow_pos (by decide))

end Settings

/-! ### Waits and pauses of steps -/

variable {ρ σ : Type}

/-- The seconds that a wait step stands for in a context. -/
def StepFields.seconds (step : StepFields) (ctx : Context) : Except Fault Binary64 :=
  match step.wait with
  | none => misconfigured .waitMissing
  | some .null => misconfigured .waitMissing
  | some declared => Exec.secondsOf (Placeholder.resolveValue ctx.lookup declared).out

/-- The seconds that a loop step declares to pass between two iterations. -/
def StepFields.interval (step : StepFields) : Binary64 := step.loopInterval.getD (.zero false)

/-- **A step that is reported as misconfigured** when it is run. -/
def Step.Misfits (w : World ρ σ) (step : Step) (s : RunState ρ σ) : Prop :=
  ∃ cause r s', step.run w s = .ok r s' ∧ r.success = false ∧
    r.error = some (Fault.configuration cause).message

/-- What is misconfigured fails at a misconfiguration. -/
theorem isConfiguration_of_misconfigured {α : Type} {cause : Misconfiguration} {fault : Fault}
    (h : (misconfigured cause : Except Fault α) = .error fault) : fault.isConfiguration = true := by
  cases h
  rfl

/-- What is no number of seconds is misconfigured. -/
theorem Exec.secondsOf_misfit {v : Json.Value} {fault : Fault}
    (h : Exec.secondsOf v = .error fault) : fault.isConfiguration = true := by
  unfold Exec.secondsOf at h
  split at h
  · cases h
  · split at h
    · cases h
    · exact isConfiguration_of_misconfigured h
  · exact isConfiguration_of_misconfigured h

/-- A loop whose fields make no loop is misconfigured. -/
theorem StepFields.LoopFlaw.misfit {step : StepFields} {settings : Settings} {fault : Fault}
    (h : step.LoopFlaw settings fault) : fault.isConfiguration = true := by
  obtain h | h | h := h
  · unfold Exec.loopMode at h
    split at h
    · exact isConfiguration_of_misconfigured h
    · split at h
      · cases h
      · exact isConfiguration_of_misconfigured h
  · unfold Exec.loopStrategy at h
    split at h
    · exact isConfiguration_of_misconfigured h
    · split at h
      · cases h
      · exact isConfiguration_of_misconfigured h
  · unfold Exec.loopInterval at h
    dsimp only at h
    split at h
    · cases h
    · exact isConfiguration_of_misconfigured h

namespace Exec

variable (w : World ρ σ)

/-- A wait for a value: the value stands for no seconds that the settings admit, which is a
misconfiguration, or they are waited for. -/
theorem wait_declared (v : Json.Value) (f : Frame ρ σ) :
    let waiting : Exec ρ σ Unit := do
      let seconds ← ofExcept (secondsOf (← resolveValue w v))
      sleep w seconds
      say ("waited " ++ Binary64.plainStyle seconds ++ " s")
    (∃ fault g, waiting f = .error (.fault fault) g ∧ fault.isConfiguration = true) ∨
      ∃ seconds g, secondsOf (Placeholder.resolveValue f.state.context.lookup v).out =
        .ok seconds ∧ f.state.context.settings.Admits seconds ∧ waiting f = .ok () g ∧
        g.result.success = f.result.success ∧
        g.state.outside = w.sleep seconds f.state.outside := by
  intro waiting
  have hstill : f.Still w (endState (resolveValue w v f)) := Moves.resolveValue v f
  have hresolve : resolveValue w v f =
      .ok (Placeholder.resolveValue f.state.context.lookup v).out
        (endState (resolveValue w v f)) := rfl
  have hwaiting := bind_eq_ok (k := fun u => do
    let seconds ← ofExcept (secondsOf u)
    sleep w seconds
    say ("waited " ++ Binary64.plainStyle seconds ++ " s")) hresolve
  change waiting f = _ at hwaiting
  rw [hwaiting]
  generalize endState (resolveValue w v f) = g at hstill
  cases hseconds : secondsOf (Placeholder.resolveValue f.state.context.lookup v).out with
  | error fault =>
    exact .inl ⟨fault, g, rfl, secondsOf_misfit hseconds⟩
  | ok seconds =>
    have hsleep := sleep_eq w seconds g
    rw [hstill.settings] at hsleep
    -- resolving the value has left the settings, the result and the outside as they were
    cases hflaw : RunState.waitFlaw? f.state.context.settings.waitLimit seconds with
    | none =>
      rw [hflaw] at hsleep
      refine .inr ⟨seconds, _, rfl, hflaw, bind_eq_ok hsleep, ?_, ?_⟩
      · exact (congrArg (fun r : StepResult => r.success) hstill.result :)
      · exact congrArg (w.sleep seconds) hstill.outside
    | some flaw =>
      rw [hflaw] at hsleep
      exact .inl ⟨.configuration flaw, g, bind_eq_error (m := sleep w seconds) hsleep, rfl⟩

/-- **A wait step** is misconfigured, or it waits for seconds that the settings admit. -/
theorem wait_cases (step : StepFields) (f : Frame ρ σ) :
    (∃ fault g, wait w step f = .error (.fault fault) g ∧ fault.isConfiguration = true) ∨
      ∃ seconds g, step.seconds f.state.context = .ok seconds ∧
        f.state.context.settings.Admits seconds ∧ wait w step f = .ok () g ∧
        g.result.success = f.result.success ∧
        g.state.outside = w.sleep seconds f.state.outside := by
  have missing : ∃ fault g, (misfit .waitMissing : Exec ρ σ Unit) f = .error (.fault fault) g ∧
      fault.isConfiguration = true := ⟨_, f, rfl, rfl⟩
  unfold wait StepFields.seconds
  cases step.wait with
  | none => exact .inl missing
  | some v =>
    cases v with
    | null => exact .inl missing
    | _ => exact wait_declared w _ f

/-- **A loop step** whose interval the settings do not admit is misconfigured, and gets to none of
its iterations. -/
theorem loop_refused {step : StepFields} {f : Frame ρ σ} (children : List (Ready ρ σ))
    (h : ¬ f.state.context.settings.Admits step.interval) :
    ∃ fault, loop w step children f = .error (.fault fault) f ∧ fault.isConfiguration = true := by
  have flawed : ∀ {fault}, step.LoopFlaw f.state.context.settings fault →
      fault.isConfiguration = true := StepFields.LoopFlaw.misfit
  unfold loop
  cases hmode : loopMode step with
  | error fault => exact ⟨fault, rfl, flawed (.inl hmode)⟩
  | ok mode =>
    cases hstrategy : loopStrategy step with
    | error fault => exact ⟨fault, rfl, flawed (.inr (.inl hstrategy))⟩
    | ok strategy =>
      cases hinterval : loopInterval f.state.context.settings step with
      | error fault =>
        refine ⟨fault, ?_, flawed (.inr (.inr hinterval))⟩
        change (ofExcept (loopInterval f.state.context.settings step) >>= _) f = _
        rw [hinterval]
        rfl
      | ok interval =>
        -- an interval that is accepted is the declared one, and could be waited for
        have hsame : interval = step.interval := by
          unfold loopInterval at hinterval
          dsimp only at hinterval
          split at hinterval
          · exact (Except.ok.inj hinterval).symm
          · cases hinterval
        exact absurd (hsame ▸ RunState.waitFlaw?_eq_none hinterval) h

end Exec

namespace Step

variable {w : World ρ σ} {step : Step} {s : RunState ρ σ}

/-- A step whose work stops at a misconfiguration is reported as misconfigured. -/
theorem misfits_of_work {fault : Fault} {g : Frame ρ σ}
    (hwork : workOf w (runnable w) step.toStepFields (runnable w step.children)
      (s.openingFrame w step.toStepFields) = .error (.fault fault) g)
    (hfault : fault.isConfiguration = true) : step.Misfits w s := by
  unfold Misfits
  rw [run_eq, runStep_eq, hwork]
  cases fault with
  | configuration cause => exact ⟨cause, _, _, rfl, rfl, rfl⟩
  | _ => cases hfault

/-- **What becomes of a wait step:** it waits for seconds that the settings admit, or it is
reported as misconfigured. -/
theorem waits (w : World ρ σ) (hkind : step.declaredKind = .ok .wait) (s : RunState ρ σ) :
    (∃ seconds r s', step.seconds (s.openingFrame w step.toStepFields).state.context = .ok seconds ∧
      s.context.settings.Admits seconds ∧ step.run w s = .ok r s' ∧ r.success = true ∧
      s'.outside = w.sleep seconds s.outside) ∨ step.Misfits w s := by
  have hwork : workOf w (runnable w) step.toStepFields (runnable w step.children) =
      Exec.wait w step.toStepFields := by
    unfold workOf
    rw [hkind]
    rfl
  obtain ⟨fault, g, hwait, hfault⟩ | ⟨seconds, g, hseconds, hadmits, hwait, hsuccess, hslept⟩ :=
    Exec.wait_cases w step.toStepFields (s.openingFrame w step.toStepFields)
  · exact .inr (misfits_of_work (hwork ▸ hwait) hfault)
  · have hended : workOf w (runnable w) step.toStepFields (runnable w step.children)
        (s.openingFrame w step.toStepFields) = Exec.raise none g := hwork ▸ hwait
    obtain ⟨r, s', hrun, -, hpassed, -, -, houtside⟩ := runStep_ended hended
    rw [RunState.openingFrame_settings] at hadmits
    refine .inl ⟨seconds, r, s', hseconds, hadmits, ?_, ?_, ?_⟩
    · rw [run_eq]
      exact hrun
    · rw [hpassed, hsuccess]
      rfl
    · rw [houtside, hslept, RunState.openingFrame_outside]

/-- **What becomes of a loop step** whose interval the settings do not admit. -/
theorem loop_misfits (w : World ρ σ) (hkind : step.declaredKind = .ok .loop)
    (h : ¬ s.context.settings.Admits step.interval) : step.Misfits w s := by
  rw [← RunState.openingFrame_settings w step.toStepFields] at h
  obtain ⟨fault, hloop, hfault⟩ := Exec.loop_refused w (runnable w step.children) h
  refine misfits_of_work (g := s.openingFrame w step.toStepFields) ?_ hfault
  unfold workOf
  rw [hkind]
  exact hloop

end Step

/-! ### Runs -/

/-- A run with a client, or with limits that are durations, does not break down. -/
theorem runCase_returns (w : World ρ σ) (case : CaseHeader) (steps : List Step)
    {options : RunOptions} {client : Option Http.Client} (outside : ρ) (records : σ)
    (h : client.isSome = true ∨ options.settings.Timed) :
    ∃ finished, runCase w case steps options client outside records = .ok finished := by
  cases hrun : runCase w case steps options client outside records with
  | ok finished => exact ⟨finished, rfl⟩
  | error broken =>
    have hbroken : Start.run ⟨client, outside, records⟩ w case steps options =
        .error broken.crash := by
      unfold Start.run
      rw [hrun]
      rfl
    -- a run breaks down when it opens a client, which it does only without one
    obtain ⟨hnone, hcloses⟩ := Start.run_broken hbroken
    obtain hsome | htimed := h
    · have hclient : client = none := hnone
      rw [hclient] at hsome
      cases hsome
    · obtain ⟨opened, hopened⟩ := Settings.opens_iff.mpr htimed
      exact absurd hopened (hcloses opened)

/-- A wait for half a second. -/
def Step.nap : Step :=
  ⟨{ code := some "nap", kind := some "wait", wait := some (.string " 0.5 ") }, []⟩

/-- A loop with a negative interval. -/
def Step.hasty : Step :=
  ⟨{ code := some "turns", kind := some "loop", loopMode := some "count",
     loopOnError := some "stop", loopMaximums := some (.ofNat 2),
     loopInterval := some (.ofInt (-1)) }, []⟩

/-- Why a run broke down, if it did. -/
def crashOf? : Except (BrokenRun σ) (Finished ρ σ) → Option Crash
  | .ok _ => none
  | .error broken => some broken.crash

theorem exists_of_crashOf? {x : Except (BrokenRun σ) (Finished ρ σ)} {crash : Crash}
    (h : crashOf? x = some crash) : ∃ broken, x = .error broken ∧ broken.crash = crash := by
  cases x with
  | ok finished => cases h
  | error broken => exact ⟨broken, rfl, Option.some.inj h⟩

end Scenario
