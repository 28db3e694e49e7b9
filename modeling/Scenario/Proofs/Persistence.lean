import Scenario.Proofs.Coupling.Case

/-!
# Records that are not kept

Whether the host keeps what it is told makes no difference to a run. A detail record that is not
kept leaves a line in the trace, and nothing else; a report that cannot be closed, and an outcome of
a case that is not kept, leave nothing. So two runs in one outside are the same but for these lines,
whatever their hosts refuse to keep. Without a report nothing is told, which is one more such run.

* `Trace.lossless` — a trace without the lines about details that were not kept;
  `RunState.recordDetail_lossless`, `foldLogs_lossless`.
* `lossy` — the coupling of two worlds with one outside whose recorders have nothing in common.
* `SameRun` — runs of cases that come to the same.
* `runCase_persistence` — runs of a case do, if their reports were opened alike, or if only one of
  them had a report to open.
-/

namespace Scenario

/-! ### Traces -/

/-- Whether a line tells of a detail record that was not kept. -/
def LogLine.isLoss (line : LogLine) : Bool :=
  "failed to save step detail: ".toList.isPrefixOf line.text.toList

theorem LogLine.isLoss_lost (instant : Instant) (reason : String) :
    LogLine.isLoss ⟨instant, "failed to save step detail: " ++ reason⟩ = true := by
  rw [isLoss, String.toList_append]
  exact List.isPrefixOf_iff_prefix.mpr (List.prefix_append _ _)

/-- The lines that do not tell of a detail record that was not kept. -/
def LogLine.kept (lines : List LogLine) : List LogLine := lines.filter fun line => !line.isLoss

theorem LogLine.kept_append (lines lines' : List LogLine) :
    kept (lines ++ lines') = kept lines ++ kept lines' :=
  List.filter_append lines lines'

/-- **A trace without the lines about details that were not kept.** -/
def Trace.lossless (trace : Trace) : Trace := Keyed.mapValues LogLine.kept trace

theorem linesOf_lossless (trace : Trace) (key : String) :
    linesOf trace.lossless key = LogLine.kept (linesOf trace key) := by
  rw [linesOf, Trace.lossless, Keyed.find?_mapValues, linesOf]
  cases Keyed.find? key trace <;> rfl

theorem Context.logged_lossless (ctx : Context) (key : String) (line : LogLine) :
    (ctx.logged key line).logs.lossless =
      Keyed.insert key (Scenario.linesOf ctx.logs.lossless key ++ LogLine.kept [line])
        ctx.logs.lossless := by
  rw [linesOf_lossless, ← LogLine.kept_append]
  exact Keyed.mapValues_insert _ _ _ _

theorem Context.logged_lossless_congr {c d : Context} (h : c.logs.lossless = d.logs.lossless)
    (key : String) (line : LogLine) :
    (c.logged key line).logs.lossless = (d.logged key line).logs.lossless := by
  rw [logged_lossless, logged_lossless, h]

/-- A line about a detail record that was not kept does not show among other lines of its key. -/
theorem Context.logged_lost (ctx : Context) (key : String) (line lost : LogLine)
    (hlost : lost.isLoss = true) :
    ((ctx.logged key line).logged key lost).logs.lossless =
      (ctx.logged key line).logs.lossless := by
  have hkept : LogLine.kept [lost] = [] := by simp [LogLine.kept, hlost]
  -- the lines of the key are written again as they are
  rw [logged_lossless, hkept, List.append_nil, logged_lossless]
  unfold Scenario.linesOf
  rw [Keyed.find?_insert, if_pos rfl, Keyed.insert_insert]
  rfl

theorem foldRoot_lossless (trace : Trace) (root : StepResult) :
    Trace.lossless (foldRoot trace root) = foldRoot trace.lossless root := by
  have hbelow : LogLine.kept ((keysBelow root).flatMap (linesOf trace)) =
      (keysBelow root).flatMap (linesOf trace.lossless) := by
    rw [LogLine.kept, List.filter_flatMap]
    exact List.flatMap_congr fun key _ => (linesOf_lossless trace key).symm
  unfold foldRoot
  rw [linesOf_lossless, ← hbelow, ← LogLine.kept_append]
  exact Keyed.mapValues_insert _ _ _ _

/-- **Folding a trace** puts its lines together and looks at none of them. -/
theorem foldLogs_lossless (results : List StepResult) (trace : Trace) :
    Trace.lossless (foldLogs results trace) = foldLogs results trace.lossless := by
  induction results generalizing trace with
  | nil => rfl
  | cons root rest ih =>
    change Trace.lossless (foldLogs rest (foldRoot trace root)) = _
    rw [ih, foldRoot_lossless]
    rfl

/-! ### Coupled runs -/

variable {ρ σ τ : Type}

/-- **A detail record** that is left right after a line of its step leaves no other trace than a
line about its loss. -/
theorem RunState.recordDetail_lossless (w : World ρ σ) (s : RunState ρ σ) {step : StepFields}
    (hkey : s.context.key = some step.key) (text : String) (result : StepResult)
    (started : Instant) :
    ((s.log w text).recordDetail w step result started).context.logs.lossless =
      (s.log w text).context.logs.lossless := by
  unfold recordDetail
  split
  · rfl
  · split
    · rfl
    · next reason _ _ =>
      have hlost := Context.logged_lost s.context step.key ⟨w.now s.outside, text⟩
        ⟨w.now s.outside, "failed to save step detail: " ++ reason⟩
        (LogLine.isLoss_lost (w.now s.outside) reason)
      unfold log
      rw [hkey]
      exact hlost

/-- **Worlds that keep records in ways of their own** are coupled but for the lines about lost
details. The reports have certain codes, or there are none. -/
def lossy (w : World ρ σ) (r : Recorder τ) (code code' : Option String) : Coupling w r where
  traces a b := a.lossless = b.lossless
  codes c c' := c = code ∧ c' = code'
  records _ _ := True
  note _ _ := trivial
  line := Context.logged_lossless_congr
  detail {s t} h step hkey text result started := by
    have hkey' : t.context.key = some step.key := h.agrees.key.symm.trans hkey
    have hsilent := (s.log w text).recordDetail_silent w step result started
    have hsilent' := (t.log (w.recordedBy r) text).recordDetail_silent (w.recordedBy r) step result
      started
    constructor
    case agrees =>
      -- a core is silent, and has no report
      have core : ∀ {c d : Context}, c.silent = d.silent → c.core = d.core :=
        congrArg fun c : Context => { c with reportCode := none }
      exact (core hsilent).trans (Eq.trans h.agrees (core hsilent').symm)
    case outside =>
      rw [RunState.recordDetail_outside, RunState.recordDetail_outside]
      exact h.outside
    case traces =>
      rw [s.recordDetail_lossless w hkey, t.recordDetail_lossless (w.recordedBy r) hkey']
      have hline := Context.logged_lossless_congr h.traces (t.context.key.getD "")
        ⟨w.now t.outside, text⟩
      simpa only [RunState.log, RunState.logTo, RunState.note, h.agrees.key, h.outside] using hline
    case codes =>
      exact ⟨(congrArg Context.reportCode hsilent :).trans h.codes.1,
        (congrArg Context.reportCode hsilent' :).trans h.codes.2⟩
    case records => trivial

/-! ### Runs of cases -/

/-- **Executions that say the same,** but for lines about lost details and the code of the report.
-/
structure CaseExecution.Same (run run' : CaseExecution) : Prop where
  case : run.case = run'.case
  success : run.success = run'.success
  results : run.results = run'.results
  logs : run.logs.lossless = run'.logs.lossless
  statistics : run.statistics = run'.statistics
  session : run.session = run'.session
  elapsed : run.elapsed = run'.elapsed

/-- **Runs of cases that come to the same,** in outsides that end alike. Their hosts may have kept
anything. -/
inductive SameRun (codes : Option String → Option String → Prop) :
    Except (BrokenRun σ) (Finished ρ σ) → Except (BrokenRun τ) (Finished ρ τ) → Prop
  /-- Both broke down. -/
  | broke {crash : Crash} {records : σ} {records' : τ} :
    SameRun codes (.error ⟨crash, records⟩) (.error ⟨crash, records'⟩)
  /-- Neither was allowed to start. -/
  | refused {error : EngineError} {client : Option Http.Client} {outside : ρ} {records : σ}
    {records' : τ} :
    SameRun codes (.ok ⟨.error error, client, outside, records⟩)
      (.ok ⟨.error error, client, outside, records'⟩)
  | ran {run run' : CaseExecution} {client : Option Http.Client} {outside : ρ} {records : σ}
    {records' : τ} : run.Same run' → codes run.reportCode run'.reportCode →
    SameRun codes (.ok ⟨.ok run, client, outside, records⟩)
      (.ok ⟨.ok run', client, outside, records'⟩)

namespace SameRun

variable {codes codes' : Option String → Option String → Prop}
variable {x : Except (BrokenRun σ) (Finished ρ σ)} {y : Except (BrokenRun τ) (Finished ρ τ)}

theorem imp (h : SameRun codes x y) (hcodes : ∀ c c', codes c c' → codes' c c') :
    SameRun codes' x y := by
  cases h with
  | broke => exact .broke
  | refused => exact .refused
  | ran hrun hcode => exact .ran hrun (hcodes _ _ hcode)

/-- Each side may tell its host something more. -/
theorem told (h : SameRun codes x y) (tell : σ → σ) (tell' : τ → τ) :
    SameRun codes (x.map fun f => { f with records := tell f.records })
      (y.map fun f => { f with records := tell' f.records }) := by
  cases h with
  | broke => exact .broke
  | refused => exact .refused
  | ran hrun hcode => exact .ran hrun hcode

end SameRun

section

variable {w : World ρ σ} {r : Recorder τ} {code code' : Option String}
variable {s : RunState ρ σ} {t : RunState ρ τ}

/-- **A forest** that is run from coupled states comes to the same. -/
theorem runForest_same (case : CaseHeader) (steps : List Step) (started : Instant)
    (h : (lossy w r code code').states s t) :
    SameRun (fun c c' => c = code ∧ c' = code') (runForest w case steps started s)
      (runForest (w.recordedBy r) case steps started t) := by
  have hend := Coupling.forest case steps started h
  generalize runForest w case steps started s = x,
    runForest (w.recordedBy r) case steps started t = y at hend
  cases hend with
  | broke _ _ => exact .broke
  | @finished s' t' results hst =>
    have hclosed := Coupling.states_close hst
    unfold finish
    dsimp only
    rw [hst.agrees.client, hclosed.outside]
    refine .ran ?_ hclosed.codes
    exact {
      case := rfl
      success := rfl
      results := rfl
      -- the hosts may lose different details, and the lines about these are left out
      logs := by
        change Trace.lossless (foldLogs _ _) = Trace.lossless (foldLogs _ _)
        rw [foldLogs_lossless, foldLogs_lossless, hclosed.traces]
      statistics := rfl
      session := hclosed.agrees.session
      elapsed := rfl }

/-- **Runs whose reports are opened alike,** or not at all, come to the same. -/
theorem runCase_same (case : CaseHeader) (steps : List Step) (options : RunOptions)
    (saves saves' : Bool) (client : Option Http.Client) (outside : ρ) (records : σ) (records' : τ)
    {x y : Except EngineError (Option String)}
    (hx : (openReport w case { options with saveReport := saves } (w.now outside)
      (w.note (.entered (.caseRun case.code)) records)).1 = x)
    (hy : (openReport (w.recordedBy r) case { options with saveReport := saves' } (w.now outside)
      (r.note (.entered (.caseRun case.code)) records')).1 = y)
    {codes : Option String → Option String → Prop}
    (hcodes : (∃ e, x = .error e ∧ y = .error e) ∨ ∃ c c', x = .ok c ∧ y = .ok c' ∧ codes c c') :
    SameRun codes
      (runCase w case steps { options with saveReport := saves } client outside records)
      (runCase (w.recordedBy r) case steps { options with saveReport := saves' } client outside
        records') := by
  unfold runCase
  refine SameRun.told ?_ _ _
  cases validate steps with
  | error e => exact .refused
  | ok _ =>
    dsimp only
    rcases hopen : openReport w case { options with saveReport := saves } (w.now outside)
      (w.note (.entered (.caseRun case.code)) records) with ⟨x', opened⟩
    rcases hopen' : openReport (w.recordedBy r) case { options with saveReport := saves' }
      (w.now outside) (r.note (.entered (.caseRun case.code)) records') with ⟨y', opened'⟩
    rw [hopen] at hx
    rw [hopen'] at hy
    obtain rfl : x' = x := hx
    obtain rfl : y' = y := hy
    -- the roots start in coupled states, whatever code each of the reports has
    rcases hcodes with ⟨e, rfl, rfl⟩ | ⟨c, c', rfl, rfl, hcodes⟩
    · exact .refused
    · have hstart : (lossy w r c c').states
          (startState case { options with saveReport := saves } client c outside opened)
          (startState case { options with saveReport := saves' } client c' outside opened') :=
        ⟨rfl, rfl, rfl, ⟨rfl, rfl⟩, trivial⟩
      refine (runForest_same case steps (w.now outside) hstart).imp ?_
      rintro _ _ ⟨rfl, rfl⟩
      exact hcodes

/-- **What the host does not keep changes nothing.** Two runs of a case in one outside come to the
same, whatever their hosts keep, if the host of a run that writes a report opens it, or refuses to,
in the same way. So do a run without a report and one whose report was opened. -/
theorem runCase_persistence (w : World ρ σ) (r : Recorder τ) (case : CaseHeader)
    (steps : List Step) (options : RunOptions) (client : Option Http.Client) (outside : ρ)
    (records : σ) (records' : τ) :
    let opening := openingOf case options.kind (w.now outside)
    let answer := (w.createReport opening (w.note (.entered (.caseRun case.code)) records)).1
    let answer' := (r.createReport opening (r.note (.entered (.caseRun case.code)) records')).1
    ((options.saveReport = true → answer = answer') →
      SameRun Eq (runCase w case steps options client outside records)
        (runCase (w.recordedBy r) case steps options client outside records')) ∧
    ∀ code, answer' = .ok code → SameRun (fun c c' => c = none ∧ c' = some code)
      (runCase w case steps { options with saveReport := false } client outside records)
      (runCase (w.recordedBy r) case steps { options with saveReport := true } client outside
        records') := by
  intro opening answer answer'
  refine ⟨fun hanswer => ?_, fun code hcode => ?_⟩
  · refine runCase_same case steps options options.saveReport options.saveReport client outside
      records records' rfl rfl ?_
    have hopen := openReport_congr hanswer
    rcases h : (openReport w case options (w.now outside)
      (w.note (.entered (.caseRun case.code)) records)).1 with e | c
    · exact .inl ⟨e, rfl, hopen.symm.trans h⟩
    · exact .inr ⟨c, c, rfl, hopen.symm.trans h, rfl⟩
  -- one run opens no report, the other has the code that its host gave it
  · refine runCase_same case steps options false true client outside records records'
      (openReport_fst ..) (openReport_fst ..) (.inr ⟨none, some code, rfl, ?_, rfl, rfl⟩)
    have hopened : (r.createReport opening (r.note (.entered (.caseRun case.code)) records')).1 =
      .ok code := hcode
    rw [if_pos rfl, hopened]

end

/-- A store that opens reports and keeps nothing else. -/
def Store.reluctant : Store :=
  { refusals := [("create_detail", "disk full"), ("update_case_state", "disk full"),
      ("update_report", "disk full")] }

/-- A group writes two lines. With a store that keeps no details there is a third one, and the runs
are the same but for this; and so is a run without a report. -/
theorem runCase_persistence_reluctant :
    let case : CaseHeader := { id := some 1, code := "login" }
    let run (saves : Bool) (store : Store) :=
      runCase (Site.world []) case [⟨{ kind := some "group" }, []⟩] { saveReport := saves } none {}
        store
    let lines (saves : Bool) (store : Store) :=
      (run saves store).toOption.bind fun finished => finished.outcome.toOption.map fun run =>
        run.logs.map fun entry => entry.2.length
    SameRun Eq (run true {}) (run true Store.reluctant) ∧
      SameRun (fun c c' => c = none ∧ c' = some "RPT-login-0001") (run false {})
        (run true Store.reluctant) ∧
      lines true {} = some [2] ∧ lines true Store.reluctant = some [3] := by
  intro case run lines
  obtain ⟨hsame, hsilent⟩ := runCase_persistence (Site.world []) Store.recorder case
    [⟨{ kind := some "group" }, []⟩] {} none {} {} Store.reluctant
  exact ⟨hsame fun _ => rfl, hsilent "RPT-login-0001" (by decide +kernel), by decide +kernel,
    by decide +kernel⟩

end Scenario
