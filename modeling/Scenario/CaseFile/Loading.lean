import Scenario.CaseFile
import Scenario.Folder
import Scenario.Journal

/-!
# Loading case files

Case files are found in folders by their names. A file whose name ends in `.json` holds JSON text,
any other file a document.

* `load` reads one file.
* `loadFolder` reads the case files of a folder in the order of their names, and passes over those
  that cannot be read.
* `loadAll` reads several folders, and passes over what is no folder.

What happens is written into the journal.
-/

namespace Scenario

namespace CaseFile

/-- Why case files cannot be loaded. -/
inductive LoadTrouble where
  | notRead (path : String)
  | notJson (path : String)
  | notDocument (path : String)
  | folderNotRead (path : String)
deriving DecidableEq, Repr

namespace LoadTrouble

/-- The wording. -/
def message : LoadTrouble → String
  | notRead path => "Failed to read case file: " ++ path
  | notJson path => "Failed to parse case file " ++ path
  | notDocument path => "Failed to parse case file " ++ path
  | folderNotRead path => "Failed to read directory: " ++ path

/-- What lies behind it. -/
def causes : LoadTrouble → List String
  | notRead _ => []
  | notJson _ => ["Failed to parse case JSON"]
  | notDocument _ => ["Failed to parse case YAML"]
  | folderNotRead _ => []

/-- The wording with what lies behind. -/
def fullMessage (trouble : LoadTrouble) : String :=
  ": ".intercalate (trouble.message :: trouble.causes)

end LoadTrouble

/-- Loading writes into the journal and may fail. -/
abbrev Loading := ExceptT LoadTrouble (StateM (List Journal.Entry))

/-- Writes into the journal. -/
def tell (level : Journal.Level) (text : String) : Loading Unit :=
  modify (· ++ [{ level, topic := .loading, text }])

/-- Whether a name is one of a case file. -/
def isCaseFile (path : String) : Bool :=
  (Folder.extension? path).any fun e => e = "yaml" || e = "yml" || e = "json"

/-- The case file in a text from a path. -/
def ofTextAt (path text : String) : Except LoadTrouble CaseFile :=
  if Folder.extension? path = some "json" then (ofJsonText? text).elim (.error (.notJson path)) .ok
  else (ofYamlText? text).elim (.error (.notDocument path)) .ok

/-- **Reading a case file.** -/
def load (folder : Folder) (path : String) : Loading CaseFile := do
  tell .info ("Loading case from " ++ path)
  match folder.text? path with
  | none => throw (.notRead path)
  | some text =>
    match ofTextAt path text with
    | .error trouble => throw trouble
    | .ok file =>
      tell .debug ("Loaded case " ++ file.name ++ " with " ++ toString file.steps.length ++
        " root step(s)")
      return file

/-- Reads case files and passes over those that cannot be read. -/
def loadEach (folder : Folder) : List String → Loading (List CaseFile)
  | [] => return []
  | path :: rest => do
    let first ← tryCatch (some <$> load folder path) fun trouble => do
      tell .debug ("Failed to load case from " ++ path ++ ": " ++ trouble.fullMessage)
      return none
    return first.toList ++ (← loadEach folder rest)

/-- The paths of the case files in a folder, in the order of their names. -/
def pathsIn (folder : Folder) (path : String) (names : List String) : List String :=
  ((names.mergeSort fun a b => !(b < a)).map (Folder.join path)).filter fun p =>
    folder.isFile p && isCaseFile p

/-- **Reading the case files of a folder.** -/
def loadFolder (folder : Folder) (path : String) : Loading (List CaseFile) := do
  tell .info ("Loading cases from directory: " ++ path)
  match folder.look path with
  | some (.folder names) => do
    let files ← loadEach folder (pathsIn folder path names)
    tell .info ("Loaded " ++ toString files.length ++ " case(s) from " ++ path)
    return files
  | _ => throw (.folderNotRead path)

/-- Reads the folders among some paths. -/
def loadFolders (folder : Folder) : List String → Loading (List CaseFile)
  | [] => return []
  | path :: rest => do
    let files ← if folder.isFolder path then loadFolder folder path else pure []
    return files ++ (← loadFolders folder rest)

/-- **Reading all case files of several folders.** -/
def loadAll (folder : Folder) (paths : List String) : Loading (List CaseFile) := do
  let files ← loadFolders folder paths
  tell .info ("Loaded " ++ toString files.length ++ " case(s) in total")
  return files

/-- Where case files are looked for. -/
def usualPaths : List String := ["cases"]

/-- What loading gives, and what it writes into the journal. -/
def Loading.run {α : Type} (loading : Loading α) : Except LoadTrouble α × List Journal.Entry :=
  StateT.run (ExceptT.run loading) []

end CaseFile

end Scenario
