import Scenario.CaseFile.Loading
import Scenario.CommandLine.CaseReport
import Scenario.Journal.Filter
import Scenario.Text.Case

/-!
# A session on the command line

`perform` is the whole program as a function: from the arguments, the environment variables, the
folders and the time it finds what is printed, what is written into files, how long the program
waits, and the status with which it ends.

Cases run one after the other, each on a host of its own that knows what its file says. A case that
does not pass makes the session end with status 1, and so does anything that keeps cases from being
run; arguments that cannot be read give status 2.
-/

namespace Scenario

namespace CommandLine

/-- What a session finds. -/
structure Setting where
  arguments : List String
  /-- The environment variables. -/
  lookup? : String → Option String
  folder : Folder
  now : Instant
  /-- What is around the case at a position when it begins at an instant: a clock, a network and a
  source of random numbers. Nothing can be reached, unless something else is said. -/
  around : Nat → Instant → Site := fun _ now =>
    { clock := now, seed := now, server := { reachable := false } }

/-- What a session does. -/
inductive Effect where
  /-- Prints a line. -/
  | print (line : String)
  /-- Prints an entry of the journal. -/
  | record (entry : Journal.Entry)
  /-- Prints a line where errors are printed. -/
  | complain (line : String)
  /-- Waits some milliseconds. -/
  | pause (milliseconds : Nat)
  /-- Writes a file, and the folders around it. -/
  | save (path text : String)

/-- What comes of a session. -/
structure Outcome where
  effects : List Effect
  status : Nat

/-- Why a session ends early. -/
inductive Ending where
  | failed (message : String) (causes : List String)
  | broken (crash : Crash)

/-- The state of a session. -/
structure State where
  clock : Instant
  filter : Journal.Filter
  effects : List Effect := []

/-- What a part of a session does. -/
abbrev Session := ExceptT Ending (StateM State)

namespace Session

/-- Does something. -/
def act (effect : Effect) : Session Unit :=
  modify fun s => { s with effects := s.effects ++ [effect] }

/-- Writes an entry into the journal, as far as it is shown. -/
def record (entry : Journal.Entry) : Session Unit := do
  match (← get).filter.apply entry with
  | some shown => act (.record shown)
  | none => return ()

/-- Writes entries into the journal. -/
def recordAll (entries : List Journal.Entry) : Session Unit :=
  entries.forM record

/-- Writes a line into the journal. -/
def inform (text : String) : Session Unit :=
  record (entryOf .info text)

/-- Ends the session. -/
def fail {α : Type} (message : String) (causes : List String) : Session α :=
  throw (.failed message causes)

/-! ### Variables -/

/-- A variable of the form `key=value`; a value that is no JSON text is a string. -/
def variableOf (item : String) : Session (String × Json.Value) :=
  match Text.splitOnce? '=' item with
  | none => fail ("--var expects KEY=VALUE, got '" ++ item ++ "'") []
  | some (key, value) =>
    let key := Text.trim key
    if key.isEmpty then fail ("--var expects a non-empty key, got '" ++ item ++ "'") []
    else return (key, (Json.Value.ofText? value).getD (.string value))

/-- The options of all runs. -/
def optionsOf (arguments : Arguments) : Session RunOptions := do
  let values ← arguments.values.mapM variableOf
  let settings : Settings := match arguments.timeout with
    | some seconds => { requestTimeout := seconds }
    | none => {}
  return {
    session := Keyed.ofList values
    environment := arguments.environment
    settings }

/-! ### Cases -/

/-- Carries out a loading; `message` says what has failed if it fails. -/
def load {α : Type} (message : String) (loading : CaseFile.Loading α) : Session α := do
  let (result, entries) := loading.run
  recordAll entries
  match result with
  | .ok a => return a
  | .error trouble => fail message (trouble.message :: trouble.causes)

/-- Further folders with cases, where they exist. -/
def furtherPaths : List String := ["tests/cases", "testcase/cases"]

/-- The case files that the arguments ask for. -/
def filesFor (folder : Folder) (path : Option String) : Session (List CaseFile) := do
  let files ← match path with
    | some path =>
      if !folder.holds path then fail ("Path does not exist: " ++ path) []
      else if folder.isFile path then
        load ("Failed to load case: " ++ path) ((fun f => [f]) <$> CaseFile.load folder path)
      else
        load ("Failed to load cases from directory: " ++ path) (CaseFile.loadFolder folder path)
    | none =>
      load "" (CaseFile.loadAll folder (CaseFile.usualPaths ++ furtherPaths.filter folder.holds))
  if files.isEmpty then fail "No case files found" [] else return files

/-- Whether a file is meant by a filter: its name or its code has the filter in it, in any case. -/
def isMeant (filter : Option String) (file : CaseFile) : Bool :=
  filter.all fun part =>
    let part := Text.lowercase part
    Text.contains (Text.lowercase file.name) part ||
      Text.contains (Text.lowercase file.case.code) part

/-- Saves the report on a run. -/
def saveReport (folder : Folder) (arguments : Arguments) (run : CaseExecution) :
    Session Unit := do
  match arguments.reportFolder with
  | none => return ()
  | some path => do
    let name := arguments.format.fileName run.case.code (← get).clock
    match savingTrouble? folder path name with
    | some reason => record (entryOf .error ("Failed to save report: " ++ reason))
    | none => do
      act (.save (Folder.join path name) (arguments.format.content run))
      inform ("Report saved: " ++ Folder.join path name)

/-- The site of a file: it knows the base addresses of the file, and answers every call. -/
def siteAt (setting : Setting) (position : Nat) (file : CaseFile) (now : Instant) : Site :=
  { setting.around position now with environments := file.site.environments, refusals := [] }

/-- Lets the time pass until an instant. -/
def waitUntil (instant : Instant) : Session Unit := do
  let s ← get
  if s.clock < instant then
    act (.pause (instant - s.clock))
    modify fun s => { s with clock := instant }

/-- **Running the case of a file.** The result says whether the case has passed. -/
def runFile (setting : Setting) (arguments : Arguments) (base : RunOptions) (position : Nat)
    (file : CaseFile) : Session Bool := do
  let site := siteAt setting position file (← get).clock
  match file.run (Site.world file.inclusions) base none site {} with
  | .error broken => do
    recordAll (Journal.Entry.ofNotices broken.records.notices.reverse)
    throw (.broken broken.crash)
  | .ok finished => do
    waitUntil finished.outside.clock
    recordAll (Journal.Entry.ofNotices finished.records.notices.reverse)
    match finished.outcome with
    | .ok run => do
      recordAll (caseEntries arguments.verbose run)
      saveReport setting.folder arguments run
      return run.success
    | .error e => do
      record (entryOf .error ("Case execution error: " ++ file.name ++ " - " ++ e.message))
      return false

/-- Runs the cases of files; `position` is the number of the first. -/
def runFiles (setting : Setting) (arguments : Arguments) (base : RunOptions) (total : Nat) :
    (position : Nat) → List CaseFile → Session (List Bool)
  | _, [] => return []
  | position, file :: rest => do
    inform ("Case " ++ toString position ++ "/" ++ toString total ++ ": " ++ file.name)
    let passed ← runFile setting arguments base position file
    return passed :: (← runFiles setting arguments base total (position + 1) rest)

/-- The end of the journal. -/
def summaryText (outcomes : List Bool) (milliseconds : Nat) : String :=
  let passed := outcomes.count true
  "Summary:\n  Total: " ++ toString outcomes.length ++ "\n  Passed: " ++ toString passed ++
    "\n  Failed: " ++ toString (outcomes.length - passed) ++ "\n  Duration: " ++
    toString milliseconds ++ " ms"

/-- **Runs the cases that are meant** among those of some files. The result says whether all of them
have passed. -/
def runCases (setting : Setting) (arguments : Arguments) (base : RunOptions)
    (files : List CaseFile) : Session Bool := do
  let meant := files.filter (isMeant arguments.filter)
  if meant.isEmpty then fail "No cases matching the filter were found" []
  let started := (← get).clock
  inform ("Running " ++ toString meant.length ++ " case(s)...")
  let outcomes ← runFiles setting arguments base meant.length 1 meant
  inform (summaryText outcomes ((← get).clock - started))
  return outcomes.all id

/-- Runs what the arguments ask for. -/
def runAll (setting : Setting) (arguments : Arguments) : Session Bool := do
  let base ← optionsOf arguments
  runCases setting arguments base (← filesFor setting.folder arguments.path)

end Session

/-- The lines for an ending. -/
def Ending.lines : Ending → List String
  | failed message [] => ["Error: " ++ message]
  | failed message [cause] => ["Error: " ++ message, "", "Caused by:", "    " ++ cause]
  | failed message causes => ["Error: " ++ message, "", "Caused by:"] ++
    causes.zipIdx.map fun (cause, n) => "    " ++ toString n ++ ": " ++ cause
  | broken crash => [crash.message]

/-- The status of an ending. -/
def Ending.status : Ending → Nat
  | failed .. => 1
  | broken _ => 101

/-- What is shown of the journal, and complaints about what was asked for: a variable decides, or
else the talkative form shows everything but traces and the other one what matters. -/
def filterFor (arguments : Arguments) (lookup? : String → Option String) :
    Journal.Filter × List String :=
  match lookup? "RUST_LOG" with
  | some text => Journal.Filter.ofText text
  | none => (⟨[⟨"", if arguments.verbose then 4 else 3⟩]⟩, [])

/-- A session that runs cases. -/
def performRun (setting : Setting) (arguments : Arguments) : Outcome :=
  let arguments := arguments.completed setting.lookup?
  let (filter, complaints) := filterFor arguments setting.lookup?
  let start : State :=
    { clock := setting.now, filter, effects := complaints.map Effect.complain }
  match StateT.run (ExceptT.run (Session.runAll setting arguments)) start with
  | (.ok success, s) => ⟨s.effects, if success then 0 else 1⟩
  | (.error ending, s) => ⟨s.effects ++ ending.lines.map Effect.complain, ending.status⟩

/-- The paths that a session may look at, apart from what is in the folders among them. -/
def pathsFor (arguments : List String) (lookup? : String → Option String) : List String :=
  match Request.ofArguments arguments with
  | .ok (.run arguments) =>
    let arguments := arguments.completed lookup?
    (match arguments.path with
      | some path => [path]
      | none => CaseFile.usualPaths ++ Session.furtherPaths) ++
      arguments.reportFolder.toList.flatMap Folder.around
  | _ => []

/-- **A session on the command line.** -/
def perform (setting : Setting) : Outcome :=
  match Request.ofArguments setting.arguments with
  | .error misuse => ⟨(misuseLines misuse).map Effect.complain, 2⟩
  | .ok .help => ⟨(helpLines setting.lookup?).map Effect.print, 0⟩
  | .ok .version => ⟨[.print versionLine], 0⟩
  | .ok (.run arguments) => performRun setting arguments

end CommandLine

end Scenario
