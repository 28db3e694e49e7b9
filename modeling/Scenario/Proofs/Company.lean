import Scenario.Proofs.Filing
import Scenario.Proofs.Heedless
import Scenario.Proofs.Kin.Alike
import Scenario.Proofs.Store

/-!
# Runs that share a host

Any number of runs write to one store, and their writes are interleaved in any way. A scheduler says
whose turn it is, again and again, and the run whose turn it is makes its next write.

* `Amid` — the store as a run finds it, amid the writes of the others.
* `Company` — a host and the runs that share it; `Company.scheduled` — the writes that have been made
  after some turns.
* `Company.underway` — however the turns are taken, every run has made its first writes, in its own
  order.
* `Company.isolated` — a run is not disturbed by the others, and what is stored under its code is its
  own.
-/

namespace Scenario

variable {ι ρ σ : Type} [DecidableEq ι]

/-! ### A run amid others -/

/-- **A store amid others:** as it is at some time, and the writes that are still to come. -/
structure Amid (ι : Type) where
  store : Store
  ahead : List (ι × HostWrite)

/-- The code under which a detail or a closing is written. -/
def HostWrite.code? : HostWrite → Option String
  | .detail d => some d.reportCode
  | .closed closing => some closing.reportCode
  | _ => none

/-- The writes of one run in a schedule. -/
def own (i : ι) (schedule : List (ι × HostWrite)) : List HostWrite :=
  schedule.filterMap fun entry => if entry.1 = i then some entry.2 else none

namespace Amid

/-- What the others write before a run is on. -/
def reach (i : ι) : Store → List (ι × HostWrite) → Amid ι
  | store, [] => ⟨store, []⟩
  | store, (j, write) :: rest => if j = i then ⟨store, rest⟩ else reach i (store.wrote write) rest

/-- **A call of a run:** the others go first, until the run is on. -/
def call {α : Type} (i : ι) (serve : Store → α × Store) (amid : Amid ι) : α × Amid ι :=
  let reached := reach i amid.store amid.ahead
  ((serve reached.store).1, { reached with store := (serve reached.store).2 })

/-- **The recorder of a run amid others.** The watcher of a run is its own, so what is told to it is
no matter of the store. -/
def recorder (i : ι) : Recorder (Amid ι) where
  createReport opening := call i (Store.createReport opening)
  updateReport closing := call i (Store.updateReport closing)
  createDetail detail := call i (Store.createDetail detail)
  updateCaseState id success := call i (Store.updateCaseState id success)
  note _ amid := amid

end Amid

/-! ### What a run finds -/

@[simp] theorem own_nil (i : ι) : own i [] = [] := rfl

theorem own_append (i : ι) (schedule schedule' : List (ι × HostWrite)) :
    own i (schedule ++ schedule') = own i schedule ++ own i schedule' :=
  List.filterMap_append ..

theorem own_cons_self (i : ι) (write : HostWrite) (rest : List (ι × HostWrite)) :
    own i ((i, write) :: rest) = write :: own i rest := by
  simp [own]

theorem own_cons_ne {i j : ι} (h : j ≠ i) (write : HostWrite) (rest : List (ι × HostWrite)) :
    own i ((j, write) :: rest) = own i rest := by
  simp [own, h]

theorem mem_own {i : ι} {schedule : List (ι × HostWrite)} {write : HostWrite} :
    write ∈ own i schedule ↔ (i, write) ∈ schedule := by
  simp only [own, List.mem_filterMap]
  constructor
  · rintro ⟨⟨j, _⟩, hmem, h⟩
    split at h
    · next hj =>
      obtain rfl : j = i := hj
      obtain rfl := Option.some.inj h
      exact hmem
    · cases h
  · exact fun hmem => ⟨_, hmem, if_pos rfl⟩

namespace Amid

variable (i : ι) (store : Store)

/-- What is refused stays so. -/
theorem reach_refusals (ahead : List (ι × HostWrite)) :
    (reach i store ahead).store.refusals = store.refusals := by
  induction ahead generalizing store with
  | nil => rfl
  | cons entry rest ih =>
    obtain ⟨j, write⟩ := entry
    unfold reach
    split
    · rfl
    · exact (ih (store.wrote write)).trans (store.wrote_spec write).refusals

/-- There are as many reports as before, or more. -/
theorem reach_reports (ahead : List (ι × HostWrite)) :
    store.reports.length ≤ (reach i store ahead).store.reports.length := by
  induction ahead generalizing store with
  | nil => exact Nat.le_refl _
  | cons entry rest ih =>
    obtain ⟨j, write⟩ := entry
    unfold reach
    split
    · exact Nat.le_refl _
    · exact Nat.le_trans (store.after_reports [(j, write)]).length_le (ih (store.wrote write))

/-- A run that has been on finds what it has found, whatever comes later. -/
theorem reach_append {ahead : List (ι × HostWrite)} (h : own i ahead ≠ [])
    (later : List (ι × HostWrite)) :
    (reach i store (ahead ++ later)).store = (reach i store ahead).store := by
  induction ahead generalizing store with
  | nil => exact absurd rfl h
  | cons entry rest ih =>
    obtain ⟨j, write⟩ := entry
    rw [List.cons_append]
    unfold reach
    split
    · rfl
    · next hj =>
      rw [own_cons_ne hj] at h
      exact ih (store.wrote write) h

/-- **Two runs that open reports** do not find equally many of them. -/
theorem reach_apart {i j : ι} (hij : i ≠ j) {schedule : List (ι × HostWrite)}
    {store : Store} (hgrants : store.refuses "create_report" = false)
    {o o' : ReportOpening} (hi : (own i schedule).head? = some (.opened o))
    (hj : (own j schedule).head? = some (.opened o')) :
    (reach i store schedule).store.reports.length ≠
      (reach j store schedule).store.reports.length := by
  induction schedule generalizing store with
  | nil => cases hi
  | cons entry rest ih =>
    obtain ⟨k, write⟩ := entry
    -- a report that is opened is one more
    have hmore : ∀ {o : ReportOpening}, write = .opened o →
        (store.wrote write).reports.length = store.reports.length + 1 := by
      rintro o rfl
      rw [(store.wrote_spec _).reports, hgrants]
      simp [HostWrite.opening?]
    unfold reach
    by_cases hki : k = i
    · subst hki
      rw [own_cons_self] at hi
      have hlater := reach_reports j (store.wrote write) rest
      rw [hmore (Option.some.inj hi)] at hlater
      rw [if_pos rfl, if_neg hij]
      exact Nat.ne_of_lt hlater
    · by_cases hkj : k = j
      · subst hkj
        rw [own_cons_self] at hj
        have hlater := reach_reports i (store.wrote write) rest
        rw [hmore (Option.some.inj hj)] at hlater
        rw [if_pos rfl, if_neg hki]
        exact Nat.ne_of_gt hlater
      · rw [own_cons_ne hki] at hi
        rw [own_cons_ne hkj] at hj
        rw [if_neg hki, if_neg hkj]
        refine ih ?_ hi hj
        rw [← hgrants]
        exact store.after_refuses [(k, write)] "create_report"

/-! ### Answers -/

variable {i : ι}

/-- **A run amid others is answered as by a store alone,** up to the codes of reports. -/
theorem recorder_answers : (recorder i).Answers Store.recorder
    fun amid store => amid.store.refusals = store.refusals where
  note h _ := h
  note' h _ := h
  opening {amid store} h o o' := by
    have hreached := (reach_refusals i amid.store amid.ahead).trans h
    refine ⟨?_, ((Store.wrote_spec _ (.opened o)).refusals.trans hreached).trans
      (store.wrote_spec (.opened o')).refusals.symm⟩
    -- the others have been on before an opening is answered, and leave the refusals as they are
    change (∃ code code', ((reach i amid.store amid.ahead).store.createReport o).1 = .ok code ∧
        (store.createReport o').1 = .ok code') ∨
      ∃ reason, ((reach i amid.store amid.ahead).store.createReport o).1 = .error reason ∧
        (store.createReport o').1 = .error reason
    unfold Store.createReport
    rw [Store.keep_fst, Store.keep_fst, hreached]
    cases Keyed.find? "create_report" store.refusals with
    | none => exact .inl ⟨_, _, rfl, rfl⟩
    | some reason => exact .inr ⟨reason, rfl, rfl⟩
  detail {amid store} h d d' := by
    have hreached := (reach_refusals i amid.store amid.ahead).trans h
    refine ⟨?_, ((Store.wrote_spec _ (.detail d)).refusals.trans hreached).trans
      (store.wrote_spec (.detail d')).refusals.symm⟩
    change ((reach i amid.store amid.ahead).store.createDetail d).1 = (store.createDetail d').1
    unfold Store.createDetail
    rw [Store.keep_fst, Store.keep_fst, hreached]

/-- Amid which others a run is makes no difference to it: it looks at its code and at what is
refused. -/
theorem recorder_heedless : (recorder i).transcribed.Heedless fun a b =>
    a.writes = b.writes ∧ a.records.store.refusals = b.records.store.refusals where
  refl _ := ⟨rfl, rfl⟩
  note h _ _ := h
  detail {a b} h d := by
    have hreached := (reach_refusals i a.records.store a.records.ahead).trans
      (h.2.trans (reach_refusals i b.records.store b.records.ahead).symm)
    refine ⟨?_, congrArg (· ++ [HostWrite.detail d]) h.1,
      ((Store.wrote_spec _ (.detail d)).refusals.trans hreached).trans
        (Store.wrote_spec _ (.detail d)).refusals.symm⟩
    change ((reach i a.records.store a.records.ahead).store.createDetail d).1 =
      ((reach i b.records.store b.records.ahead).store.createDetail d).1
    unfold Store.createDetail
    rw [Store.keep_fst, Store.keep_fst, hreached]

end Amid

/-- A run shows the code with which its report was opened. -/
theorem Start.run_report {x : Start ρ σ} {w : World ρ σ} {case : CaseHeader} {steps : List Step}
    {options : RunOptions} {run : CaseExecution}
    (h : x.run w case steps options = .ok (.ok run)) :
    (x.opened w case options).1 = .ok run.reportCode := by
  cases hvalid : validate steps with
  -- a run with a result was neither invalid nor refused
  | error e =>
    unfold Start.run at h
    rw [runCase_invalid hvalid] at h
    cases h
  | ok _ =>
    rcases hopen : x.opened w case options with ⟨e | report, opened⟩
    · unfold Start.run at h
      rw [runCase_refused hvalid hopen] at h
      cases h
    · obtain ⟨kept, hopen'⟩ := x.opened_transcribed w case options (congrArg Prod.fst hopen)
      obtain ⟨ws, -, hend⟩ := runCase_opened w x.client hvalid hopen'
      rw [← x.run_transcribed] at h
      rcases hend with ⟨b, hb, -⟩ | ⟨f, run', ended, hf, hrun, hreport, -⟩
      · have hx : x.transcribing.run w.transcribed case steps options = .error b.crash :=
          congrArg outcomeOf hb
        rw [hx] at h
        cases h
      · have hx : x.transcribing.run w.transcribed case steps options = .ok f.outcome :=
          congrArg outcomeOf hf
        rw [hx, hrun] at h
        obtain rfl := Except.ok.inj (Except.ok.inj h)
        exact congrArg Except.ok hreport.symm

/-! ### Runs that share a host -/

/-- **What a host in memory is made with:** base addresses, cases, and the calls that it refuses. No
call changes any of that. -/
structure Host where
  environments : List ((String × String) × String) := []
  library : Library := []
  refusals : Keyed String := []

/-- The store of a host to which nothing has been written. -/
def Host.fresh (host : Host) : Store := { refusals := host.refusals }

/-- An outside with a host, which has the base addresses and the cases. -/
def Outside.hosted (o : Outside ρ) (host : Host) : Outside ρ :=
  { o with
    library := host.library
    environmentHost := fun project environment x =>
      ((Site.environmentHost project environment
        { environments := host.environments, refusals := host.refusals }).1, x)
    loadTrouble := fun _ x => (Keyed.find? "load_case" host.refusals, x) }

/-- **A run that is a guest at a host:** its case, and its own clock, replies and scripts. -/
structure Guest (ρ : Type) where
  case : CaseHeader
  steps : List Step
  options : RunOptions := {}
  client : Option Http.Client := none
  answers : Outside ρ
  outside : ρ

/-- The world of a guest. -/
def Guest.world (guest : Guest ρ) (host : Host) (r : Recorder σ) : World ρ σ :=
  { guest.answers.hosted host, r with }

/-- **A host and the runs that share it.** -/
structure Company (ι ρ : Type) where
  host : Host
  guests : ι → Guest ρ

namespace Company

variable (c : Company ι ρ) (schedule : List (ι × HostWrite)) (i : ι)

/-- The world of a run in company. -/
def world : World ρ (Amid ι) := (c.guests i).world c.host (Amid.recorder i)

/-- A run starts amid a schedule of writes. -/
def start : Start ρ (Amid ι) :=
  ⟨(c.guests i).client, (c.guests i).outside, ⟨c.host.fresh, schedule⟩⟩

/-- **What comes of a run in company.** If it has not made all of its writes in the schedule, it goes
on after it. -/
def outcome : CaseOutcome :=
  (c.start schedule i).run (c.world i) (c.guests i).case (c.guests i).steps (c.guests i).options

/-- The time of a condition loop is up in it. -/
def TimesOut : Prop :=
  (c.start schedule i).TimesOut (c.world i) (c.guests i).case (c.guests i).steps
    (c.guests i).options

/-- The writes of a run in company. -/
def writes : List HostWrite :=
  (recordsOf (runCase (c.world i).transcribed (c.guests i).case (c.guests i).steps
    (c.guests i).options (c.guests i).client (c.guests i).outside
    { records := ⟨c.host.fresh, schedule⟩ })).writes

/-- The code of its report, if it has one. -/
def code? : Option String :=
  ((c.start schedule i).opened (c.world i) (c.guests i).case (c.guests i).options).1.toOption.join

/-- The next write of a run, if it has not made all. -/
def next : Option HostWrite := (c.writes schedule i)[(own i schedule).length]?

/-- **A turn:** a run makes its next write. -/
def turn : List (ι × HostWrite) :=
  schedule ++ (c.next schedule i).toList.map fun write => (i, write)

/-- **The writes that have been made** after some turns. -/
def scheduled (turns : List ι) : List (ι × HostWrite) := turns.foldl c.turn []

/-- **What comes of the run alone,** on a host of its own of the same make, at another time. -/
def aloneStart (outside : ρ) : Start ρ Store := ⟨(c.guests i).client, outside, c.host.fresh⟩

def alone (outside : ρ) : CaseOutcome :=
  (c.aloneStart i outside).run ((c.guests i).world c.host Store.recorder) (c.guests i).case
    (c.guests i).steps (c.guests i).options

def AloneTimesOut (outside : ρ) : Prop :=
  (c.aloneStart i outside).TimesOut ((c.guests i).world c.host Store.recorder) (c.guests i).case
    (c.guests i).steps (c.guests i).options

/-- **A run in company comes out as it does alone.** -/
theorem outcome_alike {strict : Prop}
    {near : Option Http.Client × ρ → Option Http.Client × ρ → Prop}
    (hconcord : ((c.guests i).answers.hosted c.host).Concord strict near) {outside : ρ}
    (hnear : near ((c.guests i).client, (c.guests i).outside) ((c.guests i).client, outside))
    (hcalm : ¬ strict → ¬ c.TimesOut schedule i ∧ ¬ c.AloneTimesOut i outside) :
    CaseOutcome.Alike strict (c.outcome schedule i) (c.alone i outside) :=
  Start.alike (w := c.world i) Amid.recorder_answers hconcord rfl rfl hnear _ _ _ hcalm

/-! ### The writes of a run -/

/-- The opening of the report of a run. -/
def opening : ReportOpening :=
  openingOf (c.guests i).case (c.guests i).options.kind ((c.guests i).answers.now (c.guests i).outside)

/-- A run that is well-formed and wants a report. -/
def Reports : Prop := validate (c.guests i).steps = .ok () ∧ (c.guests i).options.saveReport = true

/-- The answer of the store to the opening of a report. -/
theorem answer_eq : ((c.world i).createReport (c.opening i) ⟨c.host.fresh, schedule⟩).1 =
    match Keyed.find? "create_report" c.host.refusals with
    | some reason => .error reason
    | none => .ok (Store.codeOf (c.guests i).case.code
        ((Amid.reach i c.host.fresh schedule).store.reports.length + 1)) := by
  change ((Amid.reach i c.host.fresh schedule).store.createReport (c.opening i)).1 = _
  unfold Store.createReport
  rw [Store.keep_fst, Amid.reach_refusals]
  rfl

/-- The code of a report is this answer. -/
theorem code?_eq (hsave : (c.guests i).options.saveReport = true) :
    c.code? schedule i =
      (((c.world i).createReport (c.opening i) ⟨c.host.fresh, schedule⟩).1).toOption := by
  -- what a run takes for its code of what comes of the opening of its report
  let codeIn (opened : Except EngineError (Option String)) : Option String := opened.toOption.join
  cases hanswer : ((c.world i).createReport (c.opening i) ⟨c.host.fresh, schedule⟩).1 with
  | ok code => exact congrArg codeIn (openReport_answered hsave hanswer)
  | error reason => exact congrArg codeIn (openReport_refused hsave hanswer)

/-- Runs with the same code have got the same answer. -/
theorem answer_congr {schedule schedule' : List (ι × HostWrite)} {i : ι}
    (hsave : (c.guests i).options.saveReport = true)
    (h : c.code? schedule i = c.code? schedule' i) :
    ((c.world i).createReport (c.opening i) ⟨c.host.fresh, schedule⟩).1 =
      ((c.world i).createReport (c.opening i) ⟨c.host.fresh, schedule'⟩).1 := by
  rw [c.code?_eq _ _ hsave, c.code?_eq _ _ hsave, answer_eq, answer_eq] at h
  rw [answer_eq, answer_eq]
  cases hfind : Keyed.find? "create_report" c.host.refusals with
  | none =>
    rw [hfind] at h
    exact congrArg Except.ok (Option.some.inj h)
  | some reason => rfl

/-- **A run writes nothing, or an opening first,** and after that under its code alone. -/
theorem writes_shape : (¬ c.Reports i ∧ c.writes schedule i = []) ∨
    c.Reports i ∧ ∃ rest, c.writes schedule i = .opened (c.opening i) :: rest ∧
      ∀ write ∈ rest, ∀ code, write.code? = some code → c.code? schedule i = some code := by
  have hwrites := transcribed_runWrites (c.world i) (c.guests i).case (c.guests i).steps
    (c.guests i).options (c.guests i).client (c.guests i).outside
    (⟨c.host.fresh, schedule⟩ : Amid ι)
  change RunWrites _ _ _ (c.opening i)
    ((c.world i).createReport (c.opening i) ⟨c.host.fresh, schedule⟩).1 _ _ (c.writes schedule i)
    at hwrites
  generalize c.writes schedule i = writes at hwrites ⊢
  generalize runCase (c.world i).transcribed _ _ _ _ _ _ = x at hwrites
  -- details carry the code of the report that was opened
  have coded : ∀ {details : List Detail} {code : String} {hs : List History},
      Details code hs details →
      ∀ write ∈ details.map HostWrite.detail, ∀ code', write.code? = some code' → code' = code := by
    intro details code hs hdetails write hwrite code' hcode
    obtain ⟨d, hd, rfl⟩ := List.mem_map.mp hwrite
    exact (Option.some.inj hcode).symm.trans (hdetails.reportCode d hd)
  -- and that is the code of the run
  have answered : ∀ {code : String}, (c.guests i).options.saveReport = true →
      ((c.world i).createReport (c.opening i) ⟨c.host.fresh, schedule⟩).1 = .ok code →
      c.code? schedule i = some code := by
    intro code hsave hanswer
    rw [c.code?_eq schedule i hsave, hanswer]
    rfl
  cases hwrites with
  -- of the ways that the writes of a run may look, one has no opening
  | nothing hnone =>
    refine .inl ⟨fun hreports => ?_, rfl⟩
    rcases hnone with ⟨e, hinvalid⟩ | hsave
    · rw [hreports.1] at hinvalid
      cases hinvalid
    · rw [hreports.2] at hsave
      cases hsave
  | refused hvalid hsave _ _ _ =>
    exact .inr ⟨⟨hvalid, hsave⟩, [], rfl, fun _ h => nomatch h⟩
  | broken hvalid hsave hanswer _ hdetails =>
    refine .inr ⟨⟨hvalid, hsave⟩, _, rfl, fun write hwrite code hcode => ?_⟩
    rw [coded hdetails write hwrite code hcode]
    exact answered hsave hanswer
  | closed hvalid hsave hanswer _ _ hdetails _ hcode' _ _ =>
    refine .inr ⟨⟨hvalid, hsave⟩, _, rfl, fun write hwrite code hcode => ?_⟩
    rcases List.mem_append.mp hwrite with hwrite | hwrite
    · rw [coded hdetails write hwrite code hcode]
      exact answered hsave hanswer
    · rcases List.mem_cons.mp hwrite with rfl | hwrite
      · obtain rfl := Option.some.inj hcode
        rw [hcode']
        exact answered hsave hanswer
      · obtain ⟨id, -, rfl⟩ := List.mem_map.mp hwrite
        cases hcode

/-- A forest that is run from what is the same to the recorder writes the same. -/
theorem forest_writes_congr (case : CaseHeader) (steps : List Step) (started : Instant)
    {s : RunState ρ (Transcript (Amid ι))} {b : Transcript (Amid ι)}
    (hwrites : s.records.writes = b.writes)
    (hrefusals : s.records.records.store.refusals = b.records.store.refusals) :
    (recordsOf (runForest (c.world i).transcribed case steps started s)).writes =
      (recordsOf (runForest (c.world i).transcribed case steps started
        { s with records := b })).writes := by
  have hheedless : (c.world i).transcribed.toRecorder.Heedless _ := Amid.recorder_heedless
  -- the recorder heeds refusals alone, and these are the same
  have hend := (heedless hheedless).forest case steps started
    (⟨.rfl, rfl, rfl, rfl, hwrites, hrefusals⟩ : (heedless hheedless).states s
      { s with records := b })
  change Coupling.ForestEnds _ case started (runForest (c.world i).transcribed case steps started s)
    (runForest (c.world i).transcribed case steps started { s with records := b }) at hend
  generalize runForest (c.world i).transcribed case steps started s = x,
    runForest (c.world i).transcribed case steps started { s with records := b } = y at hend
  cases hend with
  | broke _ hst => exact hst.records.1
  | finished results hst =>
    obtain ⟨b, hb, rfl⟩ := Coupled.differ hst
    change (finish (c.world i).transcribed case started results _).records.writes =
      (finish (c.world i).transcribed case started results _).records.writes
    rw [(finish_writes _ case started results _).2, (finish_writes _ case started results _).2, hb.1]

/-- **What a run writes depends on the others by its code alone.** -/
theorem writes_congr {schedule schedule' : List (ι × HostWrite)} {i : ι}
    (h : c.code? schedule i = c.code? schedule' i) : c.writes schedule i = c.writes schedule' i := by
  let W := (c.world i).transcribed
  let entered (schedule : List (ι × HostWrite)) : Transcript (Amid ι) :=
    W.note (.entered (.caseRun (c.guests i).case.code)) { records := ⟨c.host.fresh, schedule⟩ }
  let opened (schedule : List (ι × HostWrite)) : Except EngineError (Option String) × Transcript _ :=
    openReport W (c.guests i).case (c.guests i).options (W.now (c.guests i).outside)
      (entered schedule)
  have hresult : (opened schedule).1 = (opened schedule').1 :=
    openReport_congr (r := W.toRecorder) fun hsave => c.answer_congr hsave h
  obtain ⟨hwrites, hrefusals⟩ : (opened schedule).2.writes = (opened schedule').2.writes ∧
      (opened schedule).2.records.store.refusals = (opened schedule').2.records.store.refusals := by
    dsimp only [opened]
    rw [openReport_snd, openReport_snd]
    split
    · refine ⟨rfl, ?_⟩
      exact ((Store.wrote_spec _ (.opened _)).refusals.trans (Amid.reach_refusals ..)).trans
        ((Store.wrote_spec _ (.opened _)).refusals.trans (Amid.reach_refusals ..)).symm
    · exact ⟨rfl, rfl⟩
  unfold writes
  cases hvalid : validate (c.guests i).steps with
  | error e =>
    rw [runCase_invalid hvalid, runCase_invalid hvalid]
    rfl
  | ok _ =>
    rcases hopen : opened schedule with ⟨result, a⟩
    rcases hopen' : opened schedule' with ⟨result', b⟩
    rw [hopen, hopen'] at hresult hwrites hrefusals
    obtain rfl : result = result' := hresult
    cases result with
    | error e =>
      rw [runCase_refused hvalid hopen, runCase_refused hvalid hopen']
      exact hwrites
    | ok report =>
      have hforest := c.forest_writes_congr i (c.guests i).case (c.guests i).steps
        (W.now (c.guests i).outside) (s := startState (c.guests i).case (c.guests i).options
          (c.guests i).client report (c.guests i).outside a) hwrites hrefusals
      -- what the watcher is told in the end is no write
      have hleft : ∀ x : Except (BrokenRun (Transcript (Amid ι))) (Finished ρ (Transcript (Amid ι))),
          (recordsOf (x.map fun f => { f with records := W.note .left f.records })).writes =
            (recordsOf x).writes := by
        intro x
        cases x <;> rfl
      rw [runCase_forest hvalid hopen, runCase_forest hvalid hopen', hleft, hleft]
      exact hforest

/-! ### Turns -/

/-- Every run has made its first writes, in its own order. -/
def Underway : Prop := ∀ i, own i schedule <+: c.writes schedule i

/-- The code of a run that has opened its report stays. -/
theorem code?_stable {schedule : List (ι × HostWrite)} {i : ι} (h : own i schedule ≠ [])
    (later : List (ι × HostWrite)) : c.code? (schedule ++ later) i = c.code? schedule i := by
  cases hsave : (c.guests i).options.saveReport with
  | true =>
    rw [c.code?_eq _ _ hsave, c.code?_eq _ _ hsave, answer_eq, answer_eq,
      Amid.reach_append i c.host.fresh h]
  | false =>
    unfold code? Start.opened openReport
    rw [if_neg (by rw [hsave]; exact Bool.false_ne_true), if_neg (by rw [hsave]; exact Bool.false_ne_true)]

/-- The first write of a run is the same amid whatever others. -/
theorem writes_head (schedule schedule' : List (ι × HostWrite)) (i : ι) :
    (c.writes schedule i).head? = (c.writes schedule' i).head? := by
  rcases c.writes_shape schedule i with ⟨hnone, hwrites⟩ | ⟨hsome, rest, hwrites, -⟩ <;>
    rcases c.writes_shape schedule' i with ⟨hnone', hwrites'⟩ | ⟨hsome', rest', hwrites', -⟩
  · rw [hwrites, hwrites']
  · exact absurd hsome' hnone
  · exact absurd hsome hnone'
  · rw [hwrites, hwrites']
    rfl

/-- What comes next in a list, after a part of it. -/
theorem prefix_concat {α : Type} {as bs : List α} {b : α} (h : as <+: bs)
    (hb : bs[as.length]? = some b) : as ++ [b] <+: bs := by
  obtain ⟨rest, rfl⟩ := h
  rw [List.getElem?_append_right (Nat.le_refl _), Nat.sub_self] at hb
  cases rest with
  | nil => cases hb
  | cons a rest =>
    obtain rfl : a = b := Option.some.inj hb
    exact ⟨rest, by rw [List.append_assoc]; rfl⟩

/-- **A turn** leaves every run underway. -/
theorem underway_turn {schedule : List (ι × HostWrite)} (h : c.Underway schedule) (i : ι) :
    c.Underway (c.turn schedule i) := by
  unfold turn
  cases hnext : c.next schedule i with
  | none => simpa using h
  -- the run whose turn it is comes one write further, the others stay where they are
  | some write =>
    intro j
    change own j (schedule ++ [(i, write)]) <+: c.writes (schedule ++ [(i, write)]) j
    rw [own_append]
    by_cases hopened : own j schedule = []
    · -- a run that has not been on may begin now, as it would have begun before
      rw [hopened, List.nil_append]
      by_cases hij : i = j
      · subst hij
        have hfirst : (c.writes schedule i)[(own i schedule).length]? = some write := hnext
        rw [hopened, List.length_nil, ← List.head?_eq_getElem?,
          c.writes_head schedule (schedule ++ [(i, write)]), List.head?_eq_getElem?] at hfirst
        rw [own_cons_self]
        exact prefix_concat List.nil_prefix hfirst
      · rw [own_cons_ne hij]
        exact List.nil_prefix
    · -- one that has its report goes on as it would have gone on
      rw [c.writes_congr (c.code?_stable hopened [(i, write)])]
      by_cases hij : i = j
      · subst hij
        rw [own_cons_self]
        exact prefix_concat (h i) hnext
      · rw [own_cons_ne hij, own_nil, List.append_nil]
        exact h j

/-- **However the turns are taken,** every run is underway. -/
theorem underway (turns : List ι) : c.Underway (c.scheduled turns) := by
  have hturns : ∀ schedule, c.Underway schedule → c.Underway (turns.foldl c.turn schedule) := by
    induction turns with
    | nil => exact fun _ h => h
    | cons i rest ih => exact fun schedule h => ih _ (c.underway_turn h i)
  exact hturns [] fun _ => List.nil_prefix

/-! ### What is stored -/

variable {c schedule}

/-- A run that has been on has opened its report first. -/
theorem Underway.head (h : c.Underway schedule) {i : ι} (hon : own i schedule ≠ []) :
    c.Reports i ∧ (own i schedule).head? = some (.opened (c.opening i)) := by
  obtain ⟨later, hlater⟩ := h i
  rcases c.writes_shape schedule i with ⟨-, hnone⟩ | ⟨hreports, rest, hwrites, -⟩
  · rw [hnone] at hlater
    exact absurd (List.append_eq_nil_iff.mp hlater).1 hon
  · refine ⟨hreports, ?_⟩
    rw [hwrites] at hlater
    cases hown : own i schedule with
    | nil => exact absurd hown hon
    | cons write more =>
      rw [hown] at hlater
      exact congrArg some (List.cons.inj hlater).1

/-- What it writes is written under its code. -/
theorem Underway.coded (h : c.Underway schedule) {i : ι} {write : HostWrite}
    (hwrite : write ∈ own i schedule) {code : String} (hcode : write.code? = some code) :
    c.code? schedule i = some code := by
  have hmem := (h i).subset hwrite
  rcases c.writes_shape schedule i with ⟨-, hnone⟩ | ⟨-, rest, hwrites, hcoded⟩
  · rw [hnone] at hmem
    cases hmem
  · rw [hwrites] at hmem
    rcases List.mem_cons.mp hmem with rfl | hmem
    · cases hcode
    · exact hcoded write hmem code hcode

/-- **Two runs have two codes.** -/
theorem Underway.codes_apart (h : c.Underway schedule) {i j : ι} (hij : i ≠ j)
    (hi : own i schedule ≠ []) (hj : own j schedule ≠ []) {code : String}
    (hcode : c.code? schedule i = some code) : c.code? schedule j ≠ some code := by
  intro hcode'
  obtain ⟨hreports, hhead⟩ := h.head hi
  obtain ⟨hreports', hhead'⟩ := h.head hj
  rw [c.code?_eq schedule i hreports.2, answer_eq] at hcode
  rw [c.code?_eq schedule j hreports'.2, answer_eq] at hcode'
  cases hgrants : Keyed.find? "create_report" c.host.refusals with
  -- a host that refuses openings gives no codes at all
  | some reason =>
    rw [hgrants] at hcode
    cases hcode
  -- the codes of a fresh host are counted, and no two openings come at one place
  | none =>
    rw [hgrants] at hcode hcode'
    have hsame := Store.codeOf_inj ((Option.some.inj hcode).trans (Option.some.inj hcode').symm)
    have hfresh : c.host.fresh.refuses "create_report" = false := by
      unfold Store.refuses Host.fresh
      rw [hgrants]
      rfl
    exact Amid.reach_apart hij hfresh hhead hhead' (Nat.succ.inj hsame)

/-- **What is written under the code of a run** is what it has written, in its order. -/
theorem Underway.under (h : c.Underway schedule) {i : ι} (hon : own i schedule ≠ []) {code : String}
    (hcode : c.code? schedule i = some code) {α : Type} (part : HostWrite → Option α)
    (codeOf : α → String)
    (hpart : ∀ write a, part write = some a → write.code? = some (codeOf a)) :
    (schedule.filterMap fun e => part e.2).filter (fun a => codeOf a = code) =
      (own i schedule).filterMap part := by
  unfold own
  rw [List.filter_filterMap, List.filterMap_filterMap]
  -- both sides select entries of the schedule, so that one entry can be looked at at a time
  refine List.filterMap_congr fun entry hentry => ?_
  obtain ⟨j, write⟩ := entry
  cases ha : part write with
  | none => by_cases hj : j = i <;> simp [hj, ha]
  | some a =>
    have hmem : write ∈ own j schedule := mem_own.mpr hentry
    have hcode' : c.code? schedule j = some (codeOf a) := h.coded hmem (hpart write a ha)
    by_cases hj : j = i
    · subst hj
      obtain rfl : code = codeOf a := Option.some.inj (hcode.symm.trans hcode')
      simp [ha]
    · have hne : codeOf a ≠ code := fun heq =>
        h.codes_apart (Ne.symm hj) hon (List.ne_nil_of_mem hmem) hcode (heq ▸ hcode')
      simp [hj, hne]

/-- What a run gives back shows the code of its report. -/
theorem outcome_code {run : CaseExecution} (h : c.outcome schedule i = .ok (.ok run)) :
    run.reportCode = c.code? schedule i := by
  have hopened := (c.start schedule i).run_report h
  unfold code?
  rw [hopened]
  rfl

variable (c)

/-- A run that is not on any more has made all of its writes. -/
theorem own_eq_writes (turns : List ι) {i : ι} (h : c.next (c.scheduled turns) i = none) :
    own i (c.scheduled turns) = c.writes (c.scheduled turns) i := by
  have hfirst := c.underway turns i
  exact hfirst.eq_of_length (Nat.le_antisymm hfirst.length_le (List.getElem?_eq_none_iff.mp h))

/-- **Runs that share a host are isolated.** Any number of runs share a host, and they take turns in
any way. Then at every time each of them comes out as it does alone, on a host of its own of the same
make, up to the code of its report — and up to times, if its clock does not tell the same then, as
long as no condition loop runs out of time. The codes that have been given out are distinct. And
what is stored under the code of a run is what this run has written so far, in its order; if its next
turn is none, that is all that it writes. -/
theorem isolated (c : Company ι ρ) (turns : List ι) :
    let schedule := c.scheduled turns
    let kept := c.host.fresh.after schedule
    (∀ i, (∀ run, c.outcome schedule i = .ok (.ok run) → run.reportCode = c.code? schedule i) ∧
      ∀ (strict : Prop) near outside,
        ((c.guests i).answers.hosted c.host).Concord strict near →
        near ((c.guests i).client, (c.guests i).outside) ((c.guests i).client, outside) →
        (¬ strict → ¬ c.TimesOut schedule i ∧ ¬ c.AloneTimesOut i outside) →
        CaseOutcome.Alike strict (c.outcome schedule i) (c.alone i outside)) ∧
    (kept.reports.map Prod.fst).Nodup ∧
    (∀ i j code, own i schedule ≠ [] → own j schedule ≠ [] →
      c.code? schedule i = some code → c.code? schedule j = some code → i = j) ∧
    ∀ i, own i schedule <+: c.writes schedule i ∧
      (c.next schedule i = none → own i schedule = c.writes schedule i) ∧
      ∀ code, own i schedule ≠ [] → c.code? schedule i = some code →
        (kept.details.filter fun d => d.reportCode = code) =
          (if c.host.fresh.refuses "create_detail" then []
            else (own i schedule).filterMap HostWrite.detail?) ∧
        (kept.updates.filter fun closing => closing.reportCode = code) =
          if c.host.fresh.refuses "update_report" then []
          else (own i schedule).filterMap HostWrite.closing? := by
  intro schedule kept
  have hunderway : c.Underway schedule := c.underway turns
  refine ⟨fun i => ⟨fun _ hrun => outcome_code i hrun, fun strict near outside hconcord hnear hcalm =>
    c.outcome_alike schedule i hconcord hnear hcalm⟩, ?_, ?_, fun i => ⟨hunderway i,
      c.own_eq_writes turns, fun code hon hcode => ⟨?_, ?_⟩⟩⟩
  -- a host that is fresh has no reports, and counts on from there
  · have hfresh : c.host.fresh.Numbered := fun _ _ h => nomatch h
    exact (hfresh.after schedule).nodup
  · intro i j code hi hj hcode hcode'
    by_contra hij
    exact hunderway.codes_apart hij hi hj hcode hcode'
  -- what a host keeps of details is the part of the schedule that is details, if it keeps any
  · rw [Store.after_details]
    split
    · rfl
    · refine hunderway.under hon hcode HostWrite.detail? Detail.reportCode fun write d hd => ?_
      cases write <;> cases hd
      rfl
  · rw [Store.after_updates]
    split
    · rfl
    · refine hunderway.under hon hcode HostWrite.closing? ReportClosing.reportCode
        fun write closing hclosing => ?_
      cases write <;> cases hclosing
      rfl

/-- **Two runs of a group.** The code of one case looks like the code of a report on the other. -/
def pair : Company Bool Site where
  host := {}
  guests first :=
    { case := { id := some 1, code := if first then "1" else "1-0001" }
      steps := [⟨{ kind := some "group" }, []⟩]
      answers := Site.outside []
      outside := {} }

/-- They take turns until one of them has made all of its writes. Each comes out as it does alone, and
has its detail under its code. -/
theorem isolated_pair :
    let schedule := pair.scheduled [true, false, true, false, true, true, true]
    let kept := pair.host.fresh.after schedule
    (∀ first, CaseOutcome.Alike True (pair.outcome schedule first) (pair.alone first {})) ∧
      pair.code? schedule true = some "RPT-1-0001" ∧
      pair.code? schedule false = some "RPT-1-0001-0002" ∧
      own true schedule = pair.writes schedule true ∧
      (kept.details.filter fun d => d.reportCode = "RPT-1-0001") =
        (own true schedule).filterMap HostWrite.detail? ∧
      kept.details.map Detail.reportCode = ["RPT-1-0001", "RPT-1-0001-0002"] ∧
      kept.updates.map ReportClosing.reportCode = ["RPT-1-0001"] := by
  intro schedule kept
  obtain ⟨halone, -, -, hkept⟩ := pair.isolated [true, false, true, false, true, true, true]
  have hcode : pair.code? schedule true = some "RPT-1-0001" := by decide +kernel
  have hon : own true schedule ≠ [] := List.ne_nil_of_length_pos (by decide +kernel)
  have hlast : pair.next schedule true = none :=
    Option.isNone_iff_eq_none.mp (by decide +kernel)
  obtain ⟨-, hall, hunder⟩ := hkept true
  exact ⟨fun first => (halone first).2 True Eq {} (.rfl _) rfl fun h => absurd trivial h, hcode,
    by decide +kernel, hall hlast, (hunder _ hon hcode).1, by decide +kernel, by decide +kernel⟩

end Company

end Scenario
