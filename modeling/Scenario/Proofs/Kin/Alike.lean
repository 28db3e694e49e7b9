import Scenario.Proofs.Kin.Case

/-!
# Runs that come out alike

A run asks its recorder little: a code when its report is opened, and whether each record is kept.
Where two recorders give the same answers, up to the code, two runs of a case come out alike, and if
their clocks do not agree they may still differ in the times that are measured.

* `Trace.Alike` — traces that differ in times at most.
* `CaseOutcome.Alike` — what comes of two runs, up to the codes of their reports and to times.
* `Recorder.Answers` — recorders that give the same answers; `Start.alike` — runs that are answered so
  come out alike.
-/

namespace Scenario

variable {ρ σ τ : Type}

/-! ### Traces -/

/-- The results match one by one. -/
theorem StepResult.MatchAll.each {strict : Prop} {results results' : List StepResult}
    (h : StepResult.MatchAll strict results results') :
    List.Forall₂ (StepResult.Matches strict) results results' := by
  have herased : List.Forall₂ (fun r r' => StepResult.untimed r = StepResult.untimed r') results results' := by
    have hmap := h.erased
    rwa [← List.forall₂_eq_eq_eq, List.forall₂_map_left_iff, List.forall₂_map_right_iff] at hmap
  by_cases hs : strict
  · obtain rfl := h.same hs
    exact List.forall₂_same.mpr fun _ _ => .rfl
  · exact herased.imp fun _ _ hr => ⟨hr, fun h => absurd h hs⟩

/-- Lines that tell the same, and unless the comparison is strict at any times. -/
structure LogLine.Alike (strict : Prop) (a b : LogLine) : Prop where
  text : Retimed strict a.text b.text
  instant : strict → a.instant = b.instant

/-- **Traces that differ in times at most:** the same keys, and the same lines under each of them. -/
def Trace.Alike (strict : Prop) : Trace → Trace → Prop :=
  List.Forall₂ fun e e' => e.1 = e'.1 ∧ List.Forall₂ (LogLine.Alike strict) e.2 e'.2

namespace Trace.Alike

variable {strict : Prop} {a b : Trace}

/-- The lines under a key. -/
theorem linesOf (h : Alike strict a b) (key : String) :
    List.Forall₂ (LogLine.Alike strict) (linesOf a key) (linesOf b key) := by
  unfold Scenario.linesOf
  induction h with
  | nil => exact .nil
  | @cons e e' a b he _ ih =>
    obtain ⟨k, lines⟩ := e
    obtain ⟨k', lines'⟩ := e'
    obtain ⟨rfl, hlines⟩ := he
    rw [Keyed.find?_cons, Keyed.find?_cons]
    split
    · exact hlines
    · exact ih

/-- Lines that are put under a key. -/
theorem insert (h : Alike strict a b) (key : String) {lines lines' : List LogLine}
    (hlines : List.Forall₂ (LogLine.Alike strict) lines lines') :
    Alike strict (Keyed.insert key lines a) (Keyed.insert key lines' b) := by
  induction h with
  | nil => exact .cons ⟨rfl, hlines⟩ .nil
  | @cons e e' a b he hrest ih =>
    obtain ⟨k, old⟩ := e
    obtain ⟨k', old'⟩ := e'
    obtain ⟨rfl, hold⟩ := he
    unfold Keyed.insert
    split
    · exact .cons ⟨rfl, hlines⟩ (.cons ⟨rfl, hold⟩ hrest)
    · split
      · exact .cons ⟨rfl, hlines⟩ hrest
      · exact .cons ⟨rfl, hold⟩ ih

/-- One line more. -/
theorem logged {c d : Context} (h : Alike strict c.logs d.logs) (key : String)
    {line line' : LogLine} (hline : line.Alike strict line') :
    Alike strict (c.logged key line).logs (d.logged key line').logs :=
  h.insert key (List.rel_append (h.linesOf key) (.cons hline .nil))

/-- The lines of a root and of the results below it. -/
theorem foldRoot (h : Alike strict a b) {r r' : StepResult} (hr : r.Matches strict r') :
    Alike strict (foldRoot a r) (foldRoot b r') := by
  have hkey : r.key = r'.key := hr.get (fun r => r.key) StepResult.key_untimed
  have hbelow : keysBelow r = keysBelow r' := by
    refine hr.get keysBelow fun r => ?_
    unfold keysBelow
    rw [StepResult.key_untimed, StepResult.untimed_eq, ← StepResult.untimedAll_eq_map,
      StepResult.flattenAll_untimed, List.map_map,
      show (fun r : StepResult => r.key) ∘ StepResult.untimed = fun r => r.key from
        funext StepResult.key_untimed]
  unfold Scenario.foldRoot
  rw [← hkey, ← hbelow]
  exact h.insert _ (List.rel_append (h.linesOf _)
    (List.rel_flatMap (List.forall₂_same.mpr fun _ _ => rfl) fun _ _ hk => hk ▸ h.linesOf _))

/-- **Traces are folded alike,** if the results match. -/
theorem foldLogs (h : Alike strict a b) {results results' : List StepResult}
    (hresults : StepResult.MatchAll strict results results') :
    Alike strict (foldLogs results a) (foldLogs results' b) := by
  have hall := StepResult.MatchAll.each hresults
  clear hresults
  induction hall generalizing a b with
  | nil => exact h
  | cons hr _ ih => exact ih (h.foldRoot hr)

end Trace.Alike

/-! ### Answers -/

/-- **Recorders that give the same answers,** as long as their records go together: whether a report
can be opened, and whether each record is kept. -/
structure Recorder.Answers (r : Recorder σ) (r' : Recorder τ) (same : σ → τ → Prop) : Prop where
  note : ∀ {a b}, same a b → ∀ n, same (r.note n a) b
  note' : ∀ {a b}, same a b → ∀ n, same a (r'.note n b)
  opening : ∀ {a b}, same a b → ∀ o o',
    ((∃ code code', (r.createReport o a).1 = .ok code ∧ (r'.createReport o' b).1 = .ok code') ∨
      ∃ reason, (r.createReport o a).1 = .error reason ∧ (r'.createReport o' b).1 = .error reason) ∧
    same (r.createReport o a).2 (r'.createReport o' b).2
  detail : ∀ {a b}, same a b → ∀ d d', (r.createDetail d a).1 = (r'.createDetail d' b).1 ∧
    same (r.createDetail d a).2 (r'.createDetail d' b).2

/-- **Runs that are answered alike,** and may have reports with codes of their own. -/
def Kinship.answered (strict : Prop) (near : Option Http.Client × ρ → Option Http.Client × ρ → Prop)
    (same : σ → τ → Prop) (code code' : Option String) (home : Context) :
    Kinship ρ (Transcript σ) (Transcript τ) :=
  { loose σ τ strict near (fun _ => True) (fun _ => 1) (fun _ => 1) code code' home with
    traces := Trace.Alike strict
    records := fun a b => same a.records b.records }

variable {w : World ρ σ} {r : Recorder τ} {strict : Prop}
variable {near : Option Http.Client × ρ → Option Http.Client × ρ → Prop} {same : σ → τ → Prop}

namespace Recorder.Answers

variable (h : w.toRecorder.Answers r same)

include h

/-- Whether a detail record is kept is the same on both sides, and so is what is written about it. -/
theorem recordDetail (hconcord : w.toOutside.Concord strict near) {code code' : Option String}
    (hcode : code.isSome = code'.isSome) {home : Context} {s : RunState ρ (Transcript σ)}
    {t : RunState ρ (Transcript τ)}
    (hst : (Kinship.answered strict near same code code' home).States s t) (step : StepFields)
    (result result' : StepResult) (started started' : Instant) :
    Trace.Alike strict (s.recordDetail w.transcribed step result started).context.logs
        (t.recordDetail (w.recordedBy r).transcribed step result' started').context.logs ∧
      same (s.recordDetail w.transcribed step result started).records.records
        (t.recordDetail (w.recordedBy r).transcribed step result' started').records.records := by
  have hs : s.context.reportCode = code := hst.code
  have ht : t.context.reportCode = code' := hst.code'
  cases code with
  -- without a report nothing is kept
  | none =>
    obtain rfl : code' = none := by simpa using hcode
    rw [RunState.recordDetail_unreported _ hs, RunState.recordDetail_unreported _ ht]
    exact ⟨hst.traces, hst.records⟩
  | some code =>
    obtain ⟨code', rfl⟩ : ∃ c, code' = some c := Option.isSome_iff_exists.mp (by simpa using hcode.symm)
    obtain ⟨hanswer, hkept⟩ := h.detail hst.records (s.detailOf w.transcribed step result started code)
      (t.detailOf (w.recordedBy r).transcribed step result' started' code')
    rw [RunState.recordDetail_reported _ hs, RunState.recordDetail_reported _ ht]
    change Trace.Alike strict (RunState.recordAnswered w.transcribed step _
        (w.createDetail (s.detailOf w.transcribed step result started code) s.records.records).1
      ).context.logs (RunState.recordAnswered (w.recordedBy r).transcribed step _
        (r.createDetail (t.detailOf (w.recordedBy r).transcribed step result' started' code')
          t.records.records).1).context.logs ∧
      same (RunState.recordAnswered w.transcribed step _
        (w.createDetail (s.detailOf w.transcribed step result started code) s.records.records).1
      ).records.records (RunState.recordAnswered (w.recordedBy r).transcribed step _
        (r.createDetail (t.detailOf (w.recordedBy r).transcribed step result' started' code')
          t.records.records).1).records.records
    rw [← hanswer]
    cases (w.createDetail (s.detailOf w.transcribed step result started code) s.records.records).1 with
    | ok _ => exact ⟨hst.traces, hkept⟩
    -- both say that the detail is lost
    | error reason =>
      exact ⟨Trace.Alike.logged hst.traces _ ⟨.same _, fun hs => hconcord.now hs hst.near⟩,
        h.note' (h.note (h.note' (h.note hkept _) _) _) _⟩

/-- **Runs that are answered alike** are kindred runs. -/
theorem lawful (hconcord : w.toOutside.Concord strict near) {code code' : Option String}
    (hcode : code.isSome = code'.isSome) (home : Context) :
    (Kinship.answered strict near same code code' home).Lawful w.transcribed r.transcribed :=
  have hloose := Kinship.loose_lawful (r := r) hconcord (fun _ => True) (fun _ => 1) (fun _ => 1)
    code code' home
  { concord := hconcord
    note := fun hab n => h.note hab n
    note' := fun hab n => h.note' hab n
    line := fun htraces key _ _ htext _ _ hinstant =>
      Trace.Alike.logged htraces key ⟨htext, hinstant⟩
    detail := fun hst step _ _ _ _ _ _ => h.recordDetail hconcord hcode hst step _ _ _ _
    lost := hloose.lost
    lost' := hloose.lost'
    late := hloose.late
    late' := hloose.late' }

/-- A transcript changes no answer. -/
theorem transcribed : w.transcribed.toRecorder.Answers r.transcribed
    fun a b => same a.records b.records where
  note hab n := h.note hab n
  note' hab n := h.note' hab n
  opening hab o o' := h.opening hab o o'
  detail hab d d' := h.detail hab d d'

/-- A report is opened on both sides, or on none. -/
theorem opened {x : Start ρ σ} {y : Start ρ τ} (hsame : same x.records y.records)
    (case : CaseHeader) (options : RunOptions) :
    (∃ e a b, x.opened w case options = (.error e, a) ∧
      y.opened (w.recordedBy r) case options = (.error e, b)) ∨
    ∃ report report' a b, x.opened w case options = (.ok report, a) ∧
      y.opened (w.recordedBy r) case options = (.ok report', b) ∧
      report.isSome = report'.isSome ∧ same a b := by
  let entered := Notice.entered (.caseRun case.code)
  have hnoted := h.note' (h.note hsame entered) entered
  have hx := openReport_snd w case options (w.now x.outside) (w.note entered x.records)
  have hy := openReport_snd (w.recordedBy r) case options (w.now y.outside)
    (r.note entered y.records)
  -- the host is asked on both sides, or on none
  by_cases hsave : options.saveReport = true
  · rw [if_pos hsave] at hx hy
    obtain ⟨hanswer, hkept⟩ := h.opening hnoted (openingOf case options.kind (w.now x.outside))
      (openingOf case options.kind (w.now y.outside))
    rcases hanswer with ⟨code, code', hcode, hcode'⟩ | ⟨reason, hreason, hreason'⟩
    · exact .inr ⟨_, _, _, _, Prod.ext (openReport_answered hsave hcode) hx,
        Prod.ext (openReport_answered hsave hcode') hy, rfl, hkept⟩
    · exact .inl ⟨_, _, _, Prod.ext (openReport_refused hsave hreason) hx,
        Prod.ext (openReport_refused hsave hreason') hy⟩
  · have hx' := openReport_fst w case options (w.now x.outside) (w.note entered x.records)
    have hy' := openReport_fst (w.recordedBy r) case options (w.now y.outside)
      (r.note entered y.records)
    rw [if_neg hsave] at hx hy hx' hy'
    exact .inr ⟨_, _, _, _, Prod.ext hx' hx, Prod.ext hy' hy, rfl, hnoted⟩

end Recorder.Answers

/-! ### Outcomes -/

/-- **Executions that are alike,** up to the codes of their reports and, unless the comparison is
strict, to times. -/
structure CaseExecution.Alike (strict : Prop) (run run' : CaseExecution) : Prop where
  case : run.case = run'.case
  success : run.success = run'.success
  results : StepResult.MatchAll strict run.results run'.results
  logs : Trace.Alike strict run.logs run'.logs
  reported : run.reportCode.isSome = run'.reportCode.isSome
  statistics : run.statistics = run'.statistics
  session : run.session = run'.session
  elapsed : strict → run.elapsed = run'.elapsed

/-- **Outcomes that are alike.** -/
inductive CaseOutcome.Alike (strict : Prop) : CaseOutcome → CaseOutcome → Prop
  | crashed {crash : Crash} : Alike strict (.error crash) (.error crash)
  | refused {e : EngineError} : Alike strict (.ok (.error e)) (.ok (.error e))
  | ran {run run' : CaseExecution} (h : run.Alike strict run') :
    Alike strict (.ok (.ok run)) (.ok (.ok run'))

/-- The roots of runs that are answered alike end alike. -/
theorem Recorder.Answers.roots (h : w.toRecorder.Answers r same)
    (hconcord : w.toOutside.Concord strict near) {x : Start ρ σ} {y : Start ρ τ}
    (hclient : x.client.isSome = y.client.isSome)
    (hnear : near (x.client, x.outside) (y.client, y.outside)) (case : CaseHeader)
    (steps : List Step) (options : RunOptions) {report report' : Option String} (hreport : report.isSome = report'.isSome)
    {a : Transcript σ} {b : Transcript τ} (hab : same a.records b.records) :
    (Kinship.answered strict near same report report'
      (x.context case options report)).correspondence.RunEnds
      ⟨case.id.toList, case.id.toList, none⟩ (StepResult.MatchAll strict)
      (x.transcribing.roots w.transcribed case steps options report a)
      (y.transcribing.roots (w.recordedBy r).transcribed case steps options report' b) := by
  have hK := h.lawful hconcord hreport (x.context case options report)
  rw [Start.roots_eq, Start.roots_eq]
  exact hK.roots w.library.fits_all case.code case.code _ _ (fun _ _ => rfl) 1 1
    (Start.rootsState_kindred w.transcribed (w.recordedBy r).transcribed case steps steps options
      hclient hnear rfl (fun _ _ => ⟨rfl, rfl⟩) List.Forall₂.nil a b (h.note' (h.note hab _) _))

/-- **Runs that are answered alike** come out alike. If their clocks do not agree, no condition loop
may run out of time. -/
theorem Start.alike (h : w.toRecorder.Answers r same) (hconcord : w.toOutside.Concord strict near)
    {x : Start ρ σ} {y : Start ρ τ} (hsame : same x.records y.records)
    (hclient : x.client.isSome = y.client.isSome)
    (hnear : near (x.client, x.outside) (y.client, y.outside)) (case : CaseHeader)
    (steps : List Step) (options : RunOptions)
    (hcalm : ¬ strict →
      ¬ x.TimesOut w case steps options ∧ ¬ y.TimesOut (w.recordedBy r) case steps options) :
    CaseOutcome.Alike strict (x.run w case steps options)
      (y.run (w.recordedBy r) case steps options) := by
  cases hvalid : validate steps with
  -- runs that do not begin are refused alike
  | error e =>
    unfold Start.run
    rw [runCase_invalid hvalid, runCase_invalid hvalid]
    exact .refused
  | ok _ =>
    have hopened := h.transcribed.opened (x := x.transcribing) (y := y.transcribing) hsame case
      options
    rcases hopened with ⟨e, a, b, hx, hy⟩ | ⟨report, report', a, b, hx, hy, hreport, hab⟩
    · rw [← Start.run_transcribed, ← y.run_transcribed]
      unfold Start.run
      rw [runCase_refused hvalid hx, runCase_refused hvalid hy]
      exact .refused
    · obtain ⟨hxrun, hxtime⟩ := Start.run_transcribed_roots hvalid hx
      obtain ⟨hyrun, hytime⟩ := Start.run_transcribed_roots (w := w.recordedBy r) hvalid hy
      have hend := h.roots hconcord hclient hnear case steps options hreport hab
      generalize x.transcribing.roots w.transcribed case steps options report a = u
        at hxrun hxtime hend
      generalize y.transcribing.roots (w.recordedBy r).transcribed case steps options report' b = v
        at hyrun hytime hend
      -- from here on, what the roots have come to decides
      cases hend with
      | lost h => exact absurd (hxtime h.2) (hcalm h.1).1
      | lost' h => exact absurd (hytime h.2) (hcalm h.1).2
      | crash _ =>
        rw [hxrun, hyrun]
        exact .crashed
      | @ok results results' s t hresults hst =>
        rw [hxrun, hyrun]
        have hcode : s.context.reportCode = report := hst.1.code
        have hcode' : t.context.reportCode = report' := hst.1.code'
        refine .ran ⟨rfl, hresults.all_success, hresults, ?_, ?_, hresults.statistics,
          hst.1.sees.session, fun hs => ?_⟩
        · exact Trace.Alike.foldLogs hst.1.traces hresults
        · change s.context.reportCode.isSome = t.context.reportCode.isSome
          rw [hcode, hcode', hreport]
        · change secondsBetween _ _ = secondsBetween _ _
          rw [hconcord.now hs hnear, hconcord.now hs hst.1.near]

end Scenario
