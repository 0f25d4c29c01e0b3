import Pascaline.Source.Path

/-!
# File stores

Builds and commands ask a store for files and directories. A store may be the disk of the machine
or a `Disk`, which is a value: entries by absolute path.
-/

namespace Pascaline

/-- Why a store refused. -/
inductive FileCause where
  | notFound
  | notDirectory
  | isDirectory
  | other (reason : String)
deriving Repr, DecidableEq, Inhabited

def FileCause.message : FileCause → String
  | notFound => "no such file or directory"
  | notDirectory => "not a directory"
  | isDirectory => "is a directory"
  | other reason => reason

/-- A refusal: what was asked of which path, as it was given. -/
structure FileError where
  action : String
  path : String
  cause : FileCause
deriving Repr, DecidableEq, Inhabited

def FileError.message (e : FileError) : String := e.action ++ " " ++ e.path ++ ": " ++ e.cause.message

inductive EntryKind where
  | file | directory
deriving Repr, DecidableEq, Inhabited

/-- What a build needs of a store. Paths that are not absolute are seen from the working
directory. -/
class FileStore (m : Type → Type) where
  workingDir : m String
  /-- No more files than this are in the store. -/
  fileBound : m Nat
  stat : String → m (Except FileError EntryKind)
  read : String → m (Except FileError Bytes)
  /-- Makes a file or replaces its content; the directory has to be there. -/
  write : String → Bytes → m (Except FileError Unit)
  /-- Makes a directory and those above it. -/
  makeDirs : String → m (Except FileError Unit)
  /-- Removes an entry and everything below it; nothing is removed if it is not there. -/
  removeTree : String → m (Except FileError Unit)

namespace FileStore

variable {m : Type → Type} [Monad m] [FileStore m]

/-- A path as seen from the root. -/
def absolute (path : String) : m String := do return Path.absolute (← workingDir) path

/-- Whether a path leads to a file. -/
def isFile (path : String) : m Bool := do
  match ← stat path with
  | .ok .file => return true
  | _ => return false

end FileStore

/-! ## Disks -/

inductive DiskEntry where
  | file (content : Bytes)
  | directory
deriving Repr, DecidableEq, Inhabited

def DiskEntry.kind : DiskEntry → EntryKind
  | file _ => .file
  | directory => .directory

/-- Files and directories by absolute clean path; the root is always there. -/
structure Disk where
  workingDir : String := "/"
  entries : List (String × DiskEntry) := []
deriving Repr, Inhabited

namespace Disk

def entry? (d : Disk) (path : String) : Option DiskEntry :=
  if path = "/" then some .directory else d.entries.lookup path

/-- Goes from a directory along the steps of a path. Every step but the last has to be there. -/
def walk (d : Disk) : (here : String) → List String → Except FileCause String
  | here, [] => .ok here
  | here, s :: rest =>
    match d.entry? here with
    | none => .error .notFound
    | some (.file _) => .error .notDirectory
    | some .directory =>
      d.walk (if s = "" || s = "." then here else if s = ".." then Path.dir here
        else Path.join here s) rest

/-- The place that a path leads to. -/
def locate (d : Disk) (path : String) : Except FileCause String :=
  if path = "" then .error .notFound
  else if Path.isAbsolute path then d.walk "/" (Path.steps path)
  else d.walk d.workingDir (Path.steps path)

def find (d : Disk) (path : String) : Except FileCause DiskEntry := do
  match d.entry? (← d.locate path) with
  | some e => return e
  | none => throw .notFound

/-- Enters something at a place. -/
def put (d : Disk) (place : String) (e : DiskEntry) : Disk :=
  { d with entries := (place, e) :: d.entries.filter (·.1 ≠ place) }

def stat (d : Disk) (path : String) : Except FileError EntryKind :=
  match d.find path with
  | .ok e => .ok e.kind
  | .error c => .error ⟨"stat", path, c⟩

def read (d : Disk) (path : String) : Except FileError Bytes :=
  match d.find path with
  | .ok (.file content) => .ok content
  | .ok .directory => .error ⟨"read", path, .isDirectory⟩
  | .error c => .error ⟨"open", path, c⟩

def write (d : Disk) (path : String) (content : Bytes) : Except FileError Disk :=
  match d.locate path with
  | .error c => .error ⟨"open", path, c⟩
  | .ok place =>
    if d.entry? place = some .directory then .error ⟨"open", path, .isDirectory⟩
    else .ok (d.put place (.file content))

/-- Makes the directories of a path one after the other; `done` holds the steps before. -/
def makeDirsFrom (d : Disk) : (done rest : List String) → Except FileError Disk
  | _, [] => .ok d
  | done, s :: rest =>
    let done := done ++ [s]
    let path := "/".intercalate done
    if s = "" then d.makeDirsFrom done rest
    else match d.find path with
      | .ok .directory => d.makeDirsFrom done rest
      | .ok (.file _) => .error ⟨"mkdir", path, .notDirectory⟩
      | .error _ => match d.locate path with
        | .ok place => (d.put place .directory).makeDirsFrom done rest
        | .error c => .error ⟨"mkdir", path, c⟩

def makeDirs (d : Disk) (path : String) : Except FileError Disk :=
  if path = "" then .error ⟨"mkdir", path, .notFound⟩ else d.makeDirsFrom [] (Path.steps path)

/-- Whether a path lies below a place. -/
def isBelow (place path : String) : Bool := path.startsWith (if place = "/" then "/" else place ++ "/")

/-- Removes what is at a path and below it. -/
def removeTree (d : Disk) (path : String) : Except FileError Disk :=
  match d.locate path with
  | .ok place =>
    .ok { d with entries := d.entries.filter fun (p, _) => !(p = place || isBelow place p) }
  | .error .notFound => .ok d
  | .error c => .error ⟨"unlinkat", path, c⟩

/-- Removes a file or an empty directory. -/
def remove (d : Disk) (path : String) : Except FileError Disk :=
  match d.locate path with
  | .error c => .error ⟨"remove", path, c⟩
  | .ok place =>
    if (d.entry? place).isNone then .error ⟨"remove", path, .notFound⟩
    else if d.entries.any fun (p, _) => isBelow place p then
      .error ⟨"remove", path, .other "directory not empty"⟩
    else .ok { d with entries := d.entries.filter (·.1 ≠ place) }

/-- Writes a file and makes the directories it needs. -/
def install (d : Disk) (path : String) (content : Bytes) : Except FileError Disk := do
  (← d.makeDirs (Path.dir path)).write path content

/-- Cuts a file to a length, or fills it up with zeros. -/
def truncate (d : Disk) (path : String) (length : Nat) : Except FileError Disk := do
  let content ← d.read path
  d.write path (content.take length ++ List.replicate (length - content.length) 0)

/-- Writes the content of one file into another. -/
def copy (d : Disk) (source target : String) : Except FileError Disk := do
  d.write target (← d.read source)

/-- The files below a place, as seen from there, in order. -/
def filesBelow (d : Disk) (place : String) : List String :=
  (d.entries.filterMap fun (p, e) =>
    if e.kind = .file && isBelow place p then some (String.ofList (p.toList.drop (place.length + 1)))
    else none).mergeSort fun a b => decide (a ≤ b)

/-- Applies a change that may be refused. -/
def change (f : Disk → Except FileError Disk) : StateM Disk (Except FileError Unit) := fun d =>
  match f d with
  | .ok d => (.ok (), d)
  | .error e => (.error e, d)

instance : FileStore (StateM Disk) where
  workingDir := do return (← get).workingDir
  fileBound := do return (← get).entries.length
  stat path := do return (← get).stat path
  read path := do return (← get).read path
  write path content := change (·.write path content)
  makeDirs path := change (·.makeDirs path)
  removeTree path := change (·.removeTree path)

end Disk

end Pascaline
