import Scenario.Keyed
import Scenario.Text.Blank

/-!
# Folders

What can be seen of a file system: for a path, whether a file or a folder stands there, the text of a
file and the names in a folder.

`Folder.ofFiles` is a folder of files that are given by their paths.
-/

namespace Scenario

/-- What stands at a path. -/
inductive FolderEntry where
  /-- A file; its bytes may make up no text. -/
  | file (text : Option String)
  | folder (names : List String)

/-- What can be seen of a file system. -/
structure Folder where
  look : String → Option FolderEntry

namespace Folder

/-- Whether something stands at a path. -/
def holds (folder : Folder) (path : String) : Bool :=
  (folder.look path).isSome

/-- Whether a file stands at a path. -/
def isFile (folder : Folder) (path : String) : Bool :=
  match folder.look path with
  | some (.file _) => true
  | _ => false

/-- Whether a folder stands at a path. -/
def isFolder (folder : Folder) (path : String) : Bool :=
  match folder.look path with
  | some (.folder _) => true
  | _ => false

/-- The text of the file at a path. -/
def text? (folder : Folder) (path : String) : Option String :=
  match folder.look path with
  | some (.file text) => text
  | _ => none

/-- The path of a name in a folder. -/
def join (path name : String) : String :=
  if path.isEmpty || path.endsWith "/" then path ++ name else path ++ "/" ++ name

/-- The name at the end of a path. -/
def nameOf (path : String) : String :=
  ((Text.split '/' (Text.trimEnd (· = '/') path)).getLast?).getD ""

/-- What stands behind the last dot of a name, unless the dot begins the name. -/
def extension? (path : String) : Option String :=
  let parts := Text.split '.' (nameOf path)
  if parts.length < 2 || nameOf path = ".." || (parts.length = 2 && parts.head? = some "") then none
  else parts.getLast?

/-- The folders around a path and the path itself, as paths. -/
def around (path : String) : List String :=
  let parts := Text.split '/' path
  (List.range parts.length).map fun n => "/".intercalate (parts.take (n + 1))

/-! ### Folders of given files -/

/-- What stands below a path of names: a file, or else a folder if some path leads through it. -/
def entryAt (files : Keyed String) (paths : List (List String)) (names : List String) :
    Option FolderEntry :=
  match List.find? (fun entry => Text.split '/' entry.1 = names) files with
  | some (_, text) => some (.file (some text))
  | none =>
    let below := paths.filterMap fun path =>
      if names.isPrefixOf path then some (path.drop names.length) else none
    if below.isEmpty && !names.isEmpty then none
    else some (.folder (below.filterMap List.head?).eraseDups)

/-- Follows the parts of a path from a folder on; `here` are the names that lead to it, the last one
first. Only folders have parts. -/
def follow (at_ : List String → Option FolderEntry) :
    (here : List String) → List String → Option FolderEntry
  | here, [] => at_ here.reverse
  | here, part :: rest =>
    match at_ here.reverse with
    | some (.folder _) =>
      if part.isEmpty || part = "." then follow at_ here rest
      else if part = ".." then (if here.isEmpty then none else follow at_ (here.drop 1) rest)
      else follow at_ (part :: here) rest
    | _ => none

/-- **The folder of some files and empty folders,** given by their paths. -/
def ofFiles (files : Keyed String) (empty : List String) : Folder where
  look path :=
    let paths := (files.map Prod.fst ++ empty).map (Text.split '/')
    if path.isEmpty || path.startsWith "/" then none
    else follow (entryAt files paths) [] (Text.split '/' path)

end Folder

end Scenario
