import Std.Time.DateTime.Timestamp
import Scenario.CommandLine.Session

/-!
# The program

Looks at the files that a session may need, performs the session and does what comes of it, effect by
effect. Waiting is real: the program sleeps as long as the session says before it goes on. Every
entry of the journal is printed behind the time.
-/

namespace Scenario

namespace CommandLine

/-- A path for the file system. -/
def systemPath (path : String) := ({ root := ".", fileName := path } : IO.FS.DirEntry).path

/-- What stands at a path. -/
def lookAt (path : String) : IO (Option FolderEntry) := do
  let p := systemPath path
  if path.isEmpty || !(← p.pathExists) then return none
  else if ← p.isDir then
    try
      return some (.folder ((← p.readDir).toList.map IO.FS.DirEntry.fileName))
    catch _ => return some (.folder [])
  else
    try
      return some (.file (some (← IO.FS.readFile p)))
    catch _ => return some (.file none)

/-- What stands at some paths, and in the folders among them. -/
def lookAround (paths : List String) : IO (List (String × FolderEntry)) := do
  let mut seen := []
  for path in paths do
    match ← lookAt path with
    | none => pure ()
    | some (.folder names) =>
      seen := (path, .folder names) :: seen
      for name in names do
        if let some entry ← lookAt (Folder.join path name) then
          seen := (Folder.join path name, entry) :: seen
    | some entry => seen := (path, entry) :: seen
  return seen

/-- The environment variables that a session asks for. -/
def environmentVariables : IO (List (String × String)) := do
  let names := "RUST_LOG" :: Switch.all.filterMap Switch.standIn?
  names.filterMapM fun name => do
    return (← IO.getEnv name).map fun value => (name, value)

/-- The milliseconds since the beginning of 1970. -/
def currentInstant : IO Instant := do
  return (← Std.Time.Timestamp.now).toMillisecondsSinceUnixEpoch.val.toNat

/-- An instant in front of an entry of the journal. -/
def timeOf (t : Instant) : String :=
  t.day ++ "T" ++ t.time ++ "." ++ Instant.padded 3 t.millisecond ++ "000Z"

/-- A level with a width of five characters. -/
def paddedLevel (level : Journal.Level) : String :=
  String.ofList (List.replicate (5 - level.name.length) ' ') ++ level.name

/-- Carries out an effect. -/
def carryOut : Effect → IO Unit
  | .print line => IO.println line
  | .record entry => do
    IO.println (timeOf (← currentInstant) ++ " " ++ paddedLevel entry.level ++ " " ++ entry.body)
  | .complain line => IO.eprintln line
  | .pause milliseconds => IO.sleep milliseconds.toUInt32
  | .save path text => do
    if let some folder := (systemPath path).parent then IO.FS.createDirAll folder
    IO.FS.writeFile (systemPath path) text

end CommandLine

end Scenario

/-- **The program.** -/
def main (arguments : List String) : IO UInt32 := do
  let known ← Scenario.CommandLine.environmentVariables
  let lookup? (name : String) : Option String := (known.find? (·.1 = name)).map Prod.snd
  let seen ← Scenario.CommandLine.lookAround
    (Scenario.CommandLine.pathsFor arguments lookup?)
  let outcome := Scenario.CommandLine.perform {
    arguments, lookup?
    folder := ⟨fun path => (seen.find? (·.1 = path)).map Prod.snd⟩
    now := ← Scenario.CommandLine.currentInstant }
  for effect in outcome.effects do
    Scenario.CommandLine.carryOut effect
  return outcome.status.toUInt32
