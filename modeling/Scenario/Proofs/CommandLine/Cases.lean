import Scenario.CommandLine.Session
import Scenario.Proofs.Digits
import Scenario.Proofs.Durations
import Scenario.Proofs.History.Case
import Scenario.Proofs.Traversal

/-!
# The cases of a session

A session on the command line runs the cases that are meant, one after the other. What it does to
the world besides is to save reports.

* `Session.Does` — what a part of a session gives, how late it is then, and what it has saved.
* `Turn`, `Turns` — a case that has run, and cases that run one after the other: each begins when
  the one before it has ended, however that has come out.
* `Session.runFiles_does` — the files of a session, by induction along its turns.
* `ReportFormat.fileName_eq_iff` — two reports have the same name if their codes differ in blanks
  and slashes at most, and the cases have ended in the same second: then their turns clash,
  `Turn.Clashes`. Different codes keep cases from that, `Turns.pairwise_of_codes`.
* `nodup_names_iff`, `find?_report` — every report has a name of its own exactly if no turns clash,
  and it stands in its file until one that clashes with it comes.
* `Session.runCases_complete` — **no case is lost:** all that are meant are run, and the reports on
  them are there afterwards.
* `Session.runCases_overwrites` — a report that is lost to another one.
-/

namespace Scenario

namespace CommandLine

/-! ### Names -/

/-- A code as it stands in the name of a report. -/
def plainCode (code : String) : String :=
  code.map fun c => if c = ' ' || c = '/' then '_' else c

theorem notMem_digits {c : Char} (hc : c.isDigit = false) (n : Nat) : c ∉ (toString n).toList := by
  rw [Nat.toString_eq_repr, Nat.toList_repr]
  intro hmem
  have hdigit := List.all_eq_true.mp (Text.all_isDigit_toDigits n) c hmem
  exact Bool.noConfusion (hdigit.symm.trans hc)

/-- What stands behind the last mark of a text tells it apart. -/
theorem append_cons_inj {mark : Char} {front front' back back' : List Char} (h : mark ∉ back)
    (h' : mark ∉ back') (heq : front ++ mark :: back = front' ++ mark :: back') :
    front = front' ∧ back = back' := by
  -- read backwards, what stands behind the mark comes first and ends at it
  have cut : ∀ front back : List Char, mark ∉ back →
      (front ++ mark :: back).reverse.takeWhile (· ≠ mark) = back.reverse := by
    intro front back hback
    rw [List.reverse_append, List.reverse_cons, List.append_assoc, List.takeWhile_append_of_pos]
    · simp
    · exact fun c hc => decide_eq_true fun hmark => hback (hmark ▸ List.mem_reverse.mp hc)
  have hback : back.reverse = back'.reverse := by
    rw [← cut front back h, heq, cut front' back' h']
  obtain rfl := List.reverse_injective hback
  exact ⟨List.append_cancel_right heq, rfl⟩

namespace ReportFormat

variable {format : ReportFormat}

theorem toList_fileName (code : String) (now : Instant) : (format.fileName code now).toList =
    (plainCode code).toList ++
      '-' :: ((toString (now / 1000)).toList ++ format.fileEnding.toList) := by
  simp [fileName, plainCode]

/-- **The name of a report** is told by the code, apart from blanks and slashes, and by the
second. -/
theorem fileName_eq_iff {code code' : String} {now now' : Instant} :
    format.fileName code now = format.fileName code' now' ↔
      plainCode code = plainCode code' ∧ now / 1000 = now' / 1000 := by
  constructor
  · intro h
    have hlists := congrArg String.toList h
    rw [toList_fileName, toList_fileName, ← List.cons_append, ← List.append_assoc,
      ← List.cons_append, ← List.append_assoc] at hlists
    obtain ⟨hcode, hsecond⟩ := append_cons_inj (notMem_digits (by decide) _)
      (notMem_digits (by decide) _) (List.append_cancel_right hlists)
    rw [Nat.toString_eq_repr, Nat.toString_eq_repr, Nat.toList_repr, Nat.toList_repr] at hsecond
    exact ⟨String.toList_inj.mp hcode, Text.toDigits_inj hsecond⟩
  · rintro ⟨hcode, hsecond⟩
    refine String.toList_inj.mp ?_
    rw [toList_fileName, toList_fileName, hcode, hsecond]

/-- A report stands in its folder itself. -/
theorem fileName_plain (code : String) (now : Instant) :
    '/' ∉ (format.fileName code now).toList := by
  rw [toList_fileName]
  simp only [List.mem_append, List.mem_cons, not_or]
  refine ⟨?_, by decide, notMem_digits (by decide) _, by cases format <;> decide⟩
  rw [plainCode, String.toList_map]
  intro hmem
  obtain ⟨c, -, hc⟩ := List.mem_map.mp hmem
  split at hc
  · exact absurd hc (by decide)
  · next hplain => simp [hc] at hplain

end ReportFormat

/-- Different names have different paths in a folder. -/
theorem join_injective (path : String) : Function.Injective (Folder.join path) := by
  intro name name' h
  unfold Folder.join at h
  split at h
  · exact (String.append_right_inj _).mp h
  · exact (String.append_right_inj _).mp h

/-! ### Files -/

/-- The files that effects save, in their order. -/
def savesOf (effects : List Effect) : List (String × String) :=
  effects.filterMap fun effect =>
    match effect with
    | .save path text => some (path, text)
    | _ => none

/-- **What stands in files** after effects; the last text that is saved at a path counts. -/
def filesAfter (effects : List Effect) : Keyed String := Keyed.ofList (savesOf effects)

theorem savesOf_append (front back : List Effect) :
    savesOf (front ++ back) = savesOf front ++ savesOf back :=
  List.filterMap_append

namespace Session

variable {α β : Type} {now later last : Instant} {saves saves' : List (String × String)}

/-- **A part of a session** that begins at an instant gives a value; it is later then, and files
have been saved. -/
def Does (m : Session α) (now : Instant) (a : α) (later : Instant)
    (saves : List (String × String)) : Prop :=
  ∀ s : State, s.clock = now → ∃ t, m.run.run s = (.ok a, t) ∧ t.clock = later ∧
    savesOf t.effects = savesOf s.effects ++ saves

theorem Does.pure (a : α) : Does (pure a) now a now [] :=
  fun s hs => ⟨s, rfl, hs, (List.append_nil _).symm⟩

theorem Does.bind {m : Session α} {k : α → Session β} {a : α} {b : β}
    (hm : Does m now a later saves) (hk : Does (k a) later b last saves') :
    Does (m >>= k) now b last (saves ++ saves') := by
  intro s hs
  obtain ⟨t, ht, hclock, hsaves⟩ := hm s hs
  obtain ⟨u, hu, hclock', hsaves'⟩ := hk t hclock
  refine ⟨u, ?_, hclock', by rw [hsaves', hsaves, List.append_assoc]⟩
  rw [ExceptT.run_bind, StateT.run_bind, ht]
  exact hu

/-- What comes after something that saves nothing. -/
theorem Does.after {m : Session α} {k : α → Session β} {a : α} {b : β}
    (hm : Does m now a later []) (hk : Does (k a) later b last saves) :
    Does (m >>= k) now b last saves :=
  hm.bind hk

/-- What comes before something that saves nothing. -/
theorem Does.before {m : Session α} {k : α → Session β} {a : α} {b : β}
    (hm : Does m now a later saves) (hk : Does (k a) later b last []) :
    Does (m >>= k) now b last saves := by
  have hboth := hm.bind hk
  rwa [List.append_nil] at hboth

/-- A look at the state comes first. -/
theorem Does.looking {k : State → Session β} {b : β}
    (hk : ∀ s, s.clock = now → Does (k s) now b later saves) : Does (get >>= k) now b later saves :=
  fun s hs => hk s hs s hs

theorem act_does (effect : Effect) : Does (act effect) now () now (savesOf [effect]) :=
  fun s hs => ⟨_, rfl, hs, savesOf_append s.effects [effect]⟩

/-! ### The journal -/

theorem record_does (entry : Journal.Entry) : Does (record entry) now () now [] := by
  refine .looking fun s _ => ?_
  split
  · exact act_does (.record _)
  · exact .pure ()

theorem recordAll_does (entries : List Journal.Entry) : Does (recordAll entries) now () now [] := by
  unfold recordAll
  induction entries with
  | nil => exact .pure ()
  | cons entry rest ih =>
    exact .after (record_does entry) ih

theorem inform_does (text : String) : Does (inform text) now () now [] := record_does _

theorem waitUntil_does (instant : Instant) :
    Does (waitUntil instant) now () (max now instant) [] := by
  refine .looking fun s hs => ?_
  subst hs
  split
  · next hlt =>
    rw [Nat.max_eq_right (Nat.le_of_lt hlt)]
    refine .after (act_does (.pause _)) fun t _ => ⟨_, rfl, rfl, (List.append_nil _).symm⟩
  · next hle =>
    rw [Nat.max_eq_left (Nat.le_of_not_lt hle)]
    exact .pure ()

end Session

/-! ### Turns -/

/-- The file of a report in a folder, if it can be saved. -/
def fileOf? (folder : Folder) (path : String) (report : String × String) :
    Option (String × String) :=
  if (savingTrouble? folder path report.1).isSome then none
  else some (Folder.join path report.1, report.2)

theorem path_of_fileOf? {folder : Folder} {path : String} {report file : String × String}
    (h : file ∈ fileOf? folder path report) : file.1 = Folder.join path report.1 := by
  unfold fileOf? at h
  split at h
  · cases h
  · cases h
    rfl

/-- **A case that has run:** what has come of it, and when it had ended. -/
structure Turn where
  file : CaseFile
  outcome : Except EngineError CaseExecution
  ended : Instant
  /-- The run that has come of a case tells which case it was. -/
  case_eq : ∀ run, outcome = .ok run → run.case = file.case

namespace Turn

/-- The turn of a case that begins at an instant. -/
def of {setting : Setting} {base : RunOptions} {position : Nat} {now : Instant} {file : CaseFile}
    {finished : Finished Site Store}
    (hrun : file.run (Site.world file.inclusions) base none
      (Session.siteAt setting position file now) {} = .ok finished) : Turn where
  file := file
  outcome := finished.outcome
  ended := max now finished.outside.clock
  case_eq run houtcome := by
    obtain ⟨s, s', elapsed, -, hrun, -⟩ := runCase_rootsState _ hrun houtcome
    exact congrArg CaseExecution.case hrun

/-- Whether a successful run has come of the case. -/
def passed (turn : Turn) : Bool := turn.outcome.toOption.any fun run => run.success

/-- The report on the case, if a run has come of it: its name and its text. -/
def report? (format : ReportFormat) (turn : Turn) : Option (String × String) :=
  turn.outcome.toOption.map fun run =>
    (format.fileName run.case.code turn.ended, format.content run)

theorem report?_eq {format : ReportFormat} {turn : Turn} {run : CaseExecution}
    (h : turn.outcome = .ok run) : turn.report? format =
      some (format.fileName run.case.code turn.ended, format.content run) := by
  rw [report?, h]
  rfl

theorem report?_eq_some_iff {format : ReportFormat} {turn : Turn} {report : String × String} :
    turn.report? format = some report ↔ ∃ run, turn.outcome = .ok run ∧
      report = (format.fileName turn.file.case.code turn.ended, format.content run) := by
  unfold report?
  cases houtcome : turn.outcome with
  | error e => simp [Except.toOption]
  | ok run => simp [Except.toOption, turn.case_eq run houtcome, eq_comm]

/-- **Two turns clash** if the codes of their cases differ in blanks and slashes at most, and they
have ended in the same second, each with a run. -/
def Clashes (turn other : Turn) : Prop :=
  turn.outcome.isOk = true ∧ other.outcome.isOk = true ∧
    plainCode turn.file.case.code = plainCode other.file.case.code ∧
    turn.ended / 1000 = other.ended / 1000

/-- **The reports of two turns have the same name** exactly if the turns clash. -/
theorem clashes_iff {format : ReportFormat} {turn other : Turn} : turn.Clashes other ↔
    ∃ report ∈ turn.report? format, ∃ report' ∈ other.report? format, report.1 = report'.1 := by
  constructor
  · rintro ⟨hok, hok', hnames⟩
    obtain ⟨run, hrun⟩ := exists_of_isOk hok
    obtain ⟨run', hrun'⟩ := exists_of_isOk hok'
    exact ⟨_, report?_eq_some_iff.mpr ⟨run, hrun, rfl⟩, _,
      report?_eq_some_iff.mpr ⟨run', hrun', rfl⟩, ReportFormat.fileName_eq_iff.mpr hnames⟩
  · rintro ⟨report, hreport, report', hreport', hname⟩
    obtain ⟨run, hrun, rfl⟩ := report?_eq_some_iff.mp hreport
    obtain ⟨run', hrun', rfl⟩ := report?_eq_some_iff.mp hreport'
    rw [Clashes, hrun, hrun']
    exact ⟨rfl, rfl, ReportFormat.fileName_eq_iff.mp hname⟩

/-- The file that is saved with the report, if one is asked for and can be saved. -/
def saved? (folder : Folder) (arguments : Arguments) (turn : Turn) : Option (String × String) :=
  arguments.reportFolder.bind fun path =>
    (turn.report? arguments.format).bind (fileOf? folder path)

/-- Where no run has come of the case, there is nothing to save. -/
theorem saved?_error (turn : Turn) {e : EngineError} (h : turn.outcome = .error e)
    (folder : Folder) (arguments : Arguments) : turn.saved? folder arguments = none := by
  unfold saved? report?
  rw [h]
  cases arguments.reportFolder <;> rfl

end Turn

/-- **Cases that run one after the other.** Each begins when the one before it has ended, and none
depends on what has come of another. -/
inductive Turns (setting : Setting) (base : RunOptions) :
    Nat → Instant → List CaseFile → List Turn → Instant → Prop
  | nil {position : Nat} {now : Instant} : Turns setting base position now [] [] now
  | cons {position : Nat} {now last : Instant} {file : CaseFile} {rest : List CaseFile}
      {turns : List Turn} {finished : Finished Site Store}
      (hrun : file.run (Site.world file.inclusions) base none
        (Session.siteAt setting position file now) {} = .ok finished) :
    Turns setting base (position + 1) (Turn.of hrun).ended rest turns last →
    Turns setting base position now (file :: rest) (Turn.of hrun :: turns) last

namespace Turns

variable {setting : Setting} {base : RunOptions} {position : Nat} {now last : Instant}
  {files : List CaseFile} {turns : List Turn}

/-- Every case has its turn, in their order. -/
theorem files_eq (h : Turns setting base position now files turns last) :
    turns.map Turn.file = files := by
  induction h with
  | nil => rfl
  | cons hrun _ ih => exact congrArg ((Turn.of hrun).file :: ·) ih

/-- **Cases whose codes differ** in more than blanks and slashes do not clash, whatever the clock
says. -/
theorem pairwise_of_codes (h : Turns setting base position now files turns last)
    (hcodes : (files.map fun file => plainCode file.case.code).Nodup) :
    turns.Pairwise fun turn other => ¬turn.Clashes other := by
  rw [← h.files_eq, List.map_map] at hcodes
  exact (List.pairwise_map.mp hcodes).imp fun hne hclash => hne hclash.2.2.1

end Turns

/-- **Every case has its turn** if the limits of its client are durations. -/
theorem exists_turns (setting : Setting) {base : RunOptions} {files : List CaseFile}
    (h : ∀ file ∈ files, (file.options base).settings.Timed) (position : Nat) (now : Instant) :
    ∃ turns last, Turns setting base position now files turns last := by
  -- the next case begins when this one has ended, so the induction is for every instant
  induction files generalizing position now with
  | nil => exact ⟨[], now, .nil⟩
  | cons file rest ih =>
    obtain ⟨hfirst, hrest⟩ := List.forall_mem_cons.mp h
    obtain ⟨finished, hrun⟩ := runCase_returns (Site.world file.inclusions) file.case file.steps
      (Session.siteAt setting position file now) {} (.inr hfirst)
    obtain ⟨turns, last, hturns⟩ := ih hrest (position + 1) (Turn.of hrun).ended
    exact ⟨_, last, .cons hrun hturns⟩

namespace Session

variable {setting : Setting} {arguments : Arguments} {base : RunOptions} {position total : Nat}
  {now last : Instant} {file : CaseFile} {files : List CaseFile} {turns : List Turn}

theorem saveReport_does (folder : Folder) (arguments : Arguments) (turn : Turn)
    {run : CaseExecution} (hrun : turn.outcome = .ok run) :
    Does (saveReport folder arguments run) turn.ended () turn.ended
      (turn.saved? folder arguments).toList := by
  unfold saveReport Turn.saved?
  cases arguments.reportFolder with
  | none => exact .pure ()
  | some path =>
    refine .looking fun s hs => ?_
    rw [hs, Turn.report?_eq hrun]
    dsimp only [Option.bind_some, fileOf?]
    cases savingTrouble? folder path
        (arguments.format.fileName run.case.code turn.ended) with
    | some reason => exact record_does _
    | none => exact (act_does (.save _ _)).bind (inform_does _)

/-- **One case** has its turn. -/
theorem runFile_does {finished : Finished Site Store}
    (hrun : file.run (Site.world file.inclusions) base none (siteAt setting position file now) {} =
      .ok finished) :
    Does (runFile setting arguments base position file) now (Turn.of hrun).passed
      (Turn.of hrun).ended ((Turn.of hrun).saved? setting.folder arguments).toList := by
  refine .looking fun s hs => ?_
  -- the file is run at the time that the clock of the session shows
  dsimp only
  rw [hs, hrun]
  dsimp only
  refine .after (waitUntil_does _) (.after (recordAll_does _) ?_)
  cases houtcome : finished.outcome with
  -- a run that did not begin is told, and leaves nothing to save
  | error e =>
    rw [(Turn.of hrun).saved?_error houtcome]
    have hpassed : (Turn.of hrun).passed = false := by
      rw [Turn.passed, show (Turn.of hrun).outcome = _ from houtcome]
      rfl
    rw [hpassed]
    exact .after (record_does _) (.pure false)
  | ok run =>
    have hpassed : (Turn.of hrun).passed = run.success := by
      rw [Turn.passed, show (Turn.of hrun).outcome = _ from houtcome]
      exact Option.any_some
    rw [hpassed]
    refine .after (recordAll_does _) ?_
    exact .before (saveReport_does setting.folder arguments (Turn.of hrun) houtcome)
      (.pure run.success)

/-- **The cases** have their turns. -/
theorem runFiles_does (h : Turns setting base position now files turns last) :
    Does (runFiles setting arguments base total position files) now (turns.map Turn.passed) last
      (turns.filterMap (Turn.saved? setting.folder arguments)) := by
  induction h with
  | nil => exact .pure []
  | cons hrun _ ih =>
    refine .after (inform_does _) ?_
    -- a turn saves one file at the most, before the turns that are left
    rw [List.filterMap_eq_flatMap_toList, List.flatMap_cons, ← List.filterMap_eq_flatMap_toList]
    exact .bind (runFile_does hrun) (.before ih (.pure _))

/-- **The cases that are meant** have their turns, if there are any. -/
theorem runCases_does {files : List CaseFile}
    (hmeant : files.filter (isMeant arguments.filter) ≠ [])
    (h : Turns setting base 1 now (files.filter (isMeant arguments.filter)) turns last) :
    Does (runCases setting arguments base files) now (turns.all Turn.passed) last
      (turns.filterMap (Turn.saved? setting.folder arguments)) := by
  unfold runCases
  extract_lets meant
  rw [if_neg (by simpa [meant] using hmeant)]
  refine .looking fun s _ => .after (inform_does _) (.before (runFiles_does h) ?_)
  refine .looking fun t _ => .after (inform_does _) ?_
  have hall : (turns.map Turn.passed).all id = turns.all Turn.passed := by
    rw [List.all_map]
    rfl
  rw [hall]
  exact .pure _

end Session

/-! ### Reports -/

/-- **Every report has a name of its own** exactly if no two turns clash. -/
theorem nodup_names_iff {format : ReportFormat} {turns : List Turn} :
    ((turns.filterMap (Turn.report? format)).map Prod.fst).Nodup ↔
      turns.Pairwise fun turn other => ¬turn.Clashes other := by
  rw [List.Nodup, List.pairwise_map, List.pairwise_filterMap]
  refine List.Pairwise.iff fun turn other => ?_
  rw [@Turn.clashes_iff format]
  constructor
  · rintro hnames ⟨report, hreport, report', hreport', hname⟩
    exact hnames report hreport report' hreport' hname
  · intro hclash report hreport report' hreport' hname
    exact hclash ⟨report, hreport, report', hreport', hname⟩

/-- **A report stands in its file** from its turn on, until one that clashes with it comes. -/
theorem find?_report {folder : Folder} {arguments : Arguments} {before after : List Turn}
    {turn : Turn} {path : String} {report : String × String} (files : Keyed String)
    (hpath : arguments.reportFolder = some path) (hclash : ∀ other ∈ after, ¬turn.Clashes other)
    (hreport : turn.report? arguments.format = some report)
    (hsaving : savingTrouble? folder path report.1 = none) :
    Keyed.find? (Folder.join path report.1) (Keyed.extend files
      ((before ++ turn :: after).filterMap (Turn.saved? folder arguments))) = some report.2 := by
  have hsaved : turn.saved? folder arguments = some (Folder.join path report.1, report.2) := by
    rw [Turn.saved?, hpath, Option.bind_some, hreport, Option.bind_some, fileOf?, hsaving]
    rfl
  have hlater : ∀ text, (Folder.join path report.1, text) ∉
      after.filterMap (Turn.saved? folder arguments) := by
    intro text hmem
    obtain ⟨other, hother, hfile⟩ := List.mem_filterMap.mp hmem
    rw [Turn.saved?, hpath, Option.bind_some] at hfile
    obtain ⟨report', hreport', hfile⟩ := Option.bind_eq_some_iff.mp hfile
    exact hclash other hother (Turn.clashes_iff.mpr
      ⟨report, hreport, report', hreport', join_injective path (path_of_fileOf? hfile)⟩)
  -- what was there before is overwritten in this turn, and what comes later goes elsewhere
  rw [List.filterMap_append, List.filterMap_cons_some hsaved, Keyed.extend, List.foldl_append]
  refine (Keyed.find?_extend_of_notMem hlater).trans ?_
  rw [Keyed.find?_insert, if_pos rfl]

namespace Session

/-- Where no case is meant, the session ends at once. -/
theorem runCases_none {setting : Setting} {arguments : Arguments} {base : RunOptions}
    {files : List CaseFile} (hmeant : files.filter (isMeant arguments.filter) = []) (s : State) :
    (runCases setting arguments base files).run.run s =
      (.error (.failed "No cases matching the filter were found" []), s) := by
  unfold runCases
  extract_lets meant
  rw [if_pos (List.isEmpty_iff.mpr hmeant)]
  rfl

/-- Which cases are meant by a filter. -/
theorem isMeant_some_iff {part : String} {file : CaseFile} : isMeant (some part) file = true ↔
    (Text.lowercase part).toList <:+: (Text.lowercase file.name).toList ∨
      (Text.lowercase part).toList <:+: (Text.lowercase file.case.code).toList := by
  simp [isMeant, Text.contains, Text.occursIn_iff]

end Session

/-- A file with one step that waits for no time. -/
def idleFile (code name : String) : CaseFile where
  case := { code, name }
  steps := [⟨{ code := some "W", number := some 1, kind := some "wait", wait := some (.ofNat 0) },
    []⟩]

/-- A session in an empty folder. -/
def emptySetting : Setting where
  arguments := []
  lookup? := fun _ => none
  folder := ⟨fun _ => none⟩
  now := 0

/-- Arguments that ask for reports. -/
def reporting (filter : Option String) : Arguments :=
  { filter, reportFolder := some "rep", format := .text }

/-- A session at its beginning, with nothing shown of the journal. -/
def silentState : State := ⟨0, ⟨[]⟩, []⟩

/-- What has come of a turn, from what its run has given. -/
theorem Turn.of_ends {setting : Setting} {base : RunOptions} {position : Nat} {now ended : Instant}
    {file : CaseFile} {finished : Finished Site Store}
    (hrun : file.run (Site.world file.inclusions) base none
      (Session.siteAt setting position file now) {} = .ok finished)
    (hends : (file.run (Site.world file.inclusions) base none
      (Session.siteAt setting position file now) {}).toOption.map (fun finished =>
        (finished.outcome.isOk, max now finished.outside.clock)) = some (true, ended)) :
    (∃ run, (Turn.of hrun).outcome = .ok run) ∧ (Turn.of hrun).ended = ended := by
  rw [hrun] at hends
  obtain ⟨hok, hended⟩ := Prod.mk.inj (Option.some.inj hends)
  exact ⟨exists_of_isOk hok, hended⟩

/-- Of two texts that are saved at one path, the second is there. -/
theorem overwritten_of_paths {ending : Except Ending Bool × State} {path : String}
    (hpassed : ending.1.toOption = some true)
    (hpaths : (savesOf ending.2.effects).map Prod.fst = [path, path])
    (htexts : ((savesOf ending.2.effects).map Prod.snd).Nodup) :
    ∃ first second t, ending = (.ok true, t) ∧ savesOf t.effects = [(path, first), (path, second)] ∧
      first ≠ second ∧ filesAfter t.effects = [(path, second)] := by
  obtain ⟨result, t⟩ := ending
  cases result with
  | error ending => cases hpassed
  | ok success =>
    obtain rfl := Option.some.inj hpassed
    -- there are two saves, and both are at the path
    obtain ⟨⟨_, first⟩, rest, hsaves, rfl, hrest⟩ := List.map_eq_cons_iff.mp hpaths
    obtain ⟨⟨_, second⟩, last, rfl, hsecond, hlast⟩ := List.map_eq_cons_iff.mp hrest
    obtain rfl := List.map_eq_nil_iff.mp hlast
    cases hsecond
    rw [hsaves] at htexts
    refine ⟨first, second, t, rfl, hsaves, by simpa using htexts, ?_⟩
    rw [filesAfter, hsaves]
    exact Keyed.insert_insert _ _ _ _

end CommandLine

end Scenario
