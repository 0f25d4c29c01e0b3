import Pascaline.FileStore
import Pascaline.Text.Quoted
import Pascaline.Text.Utf8
import Pascaline.Text.Toml

/-!
# Project manifests

A project has a file `blaise.toml` at its root. It names the program that is run, the directories
that units are looked for in, and limits. The manifest of a directory is the nearest one on the way
up.
-/

namespace Pascaline

/-- What a manifest says; paths are absolute. -/
structure Manifest where
  root : String := ""
  name : String := ""
  /-- The program that is run, or empty. -/
  main : String := ""
  /-- Where units are looked for. -/
  search : List String := []
  /-- Where compiled units are kept. -/
  cache : String := ""
  jobs : Int := 0
  heapBudget : Int := 0
  maxFrames : Int := 0
deriving Repr, Inhabited

/-- Why there is no manifest at a path where one should be. -/
inductive ManifestError where
  | notStated (path : String) (e : FileError)
  | unreadable (path : String) (e : FileError)
  /-- No TOML, or a value of the wrong type. -/
  | malformed (path : String)
  | noPackage (path : String)
  | unknownKeys (path : String) (keys : List Toml.KeyPath)
  | negativeLimits (path : String)
deriving Repr

def ManifestError.message : ManifestError → String
  | notStated path e => "failed to stat " ++ quoted path ++ ": " ++ e.message
  | unreadable path e => path ++ ": failed to parse TOML: " ++ e.message
  | malformed path => path ++ ": failed to parse TOML"
  | noPackage path => path ++ ": missing [package]"
  | unknownKeys path keys => path ++ ": unknown keys: " ++ ", ".intercalate (keys.map Toml.pathText)
  | negativeLimits path => path ++ ": negative limits are not allowed"

namespace Manifest

def fileName : String := "blaise.toml"

/-- Where compiled units are kept, seen from the root, unless the manifest says otherwise. -/
def defaultCache : String := ".blaise/cache"

/-! ## Fields -/

/-- The sections and their fields. -/
def sections : List (String × List String) :=
  [("package", ["name"]), ("run", ["main"]), ("build", ["search", "cache", "jobs"]),
    ("vm", ["heap_budget", "max_frames"])]

/-- The ASCII letter that a character is a form of. Two other characters are forms of letters: the
long s and the Kelvin sign. -/
def plainLetter (c : Char) : Char :=
  if c.toNat = 0x17f then 's' else if c.toNat = 0x212a then 'k' else c.toLower

/-- The name that a key stands for. Letter case does not matter. -/
def matching? (names : List String) (key : String) : Option String :=
  let plain := String.ofList (key.toList.map plainLetter)
  names.find? (· == plain)

def textItem? : Toml.Item → Option String
  | .text s => some s
  | _ => none

/-- Gives a field its value, which has to be of the right type. -/
def setField (m : Manifest) (sec field : String) (item : Toml.Item) : Option Manifest :=
  match sec, field, item with
  | "package", "name", .text s => some { m with name := s }
  | "run", "main", .text s => some { m with main := s }
  | "build", "search", .list xs => (xs.mapM textItem?).map fun search => { m with search }
  | "build", "cache", .text s => some { m with cache := s }
  | "build", "jobs", .int n => some { m with jobs := n }
  | "vm", "heap_budget", .int n => some { m with heapBudget := n }
  | "vm", "max_frames", .int n => some { m with maxFrames := n }
  | _, _, _ => none

/-- Takes over what a section says, together with the keys that were understood. -/
def setSection (m : Manifest) (key sec : String) (fields : List String) (entries : Toml.Table) :
    Option (Manifest × List Toml.KeyPath) :=
  entries.foldlM (fun (m, known) (k, item) =>
    match matching? fields k with
    | none => some (m, known)
    | some field => (m.setField sec field item).map fun m => (m, [key, k] :: known)) (m, [[key]])

/-- What a document says, and the keys that were understood. -/
def ofTable (root : Toml.Table) : Option (Manifest × List Toml.KeyPath) :=
  root.foldlM (fun (m, known) (k, item) =>
    match matching? (sections.map (·.1)) k, item with
    | none, _ => some (m, known)
    | some sec, .table entries =>
      (m.setSection k sec ((sections.lookup sec).getD []) entries).map fun (m, more) =>
        (m, more ++ known)
    | some _, _ => none) ({}, [])

/-! ## Reading -/

/-- A path of the manifest, seen from the root of its project. -/
def resolve (root p : String) : String := if Path.isAbsolute p then Path.clean p else Path.join root p

/-- The manifest with its paths made absolute. -/
def atRoot (m : Manifest) (root : String) : Manifest :=
  { m with
    root
    name := trimText m.name
    main := if m.main = "" then "" else resolve root m.main
    search := m.search.map (resolve root)
    cache := resolve root (if m.cache = "" then defaultCache else m.cache) }

/-- Reads the text of the manifest at a path. -/
def parse (path : String) (content : Bytes) : Except ManifestError Manifest := do
  let some doc := Toml.Document.parse? content | throw (.malformed path)
  let some (m, known) := ofTable doc.root | throw (.malformed path)
  if (doc.root.lookup "package").isNone then throw (.noPackage path)
  let unknown := doc.keys.filter fun k => !known.contains k
  if !unknown.isEmpty then throw (.unknownKeys path unknown)
  if m.heapBudget < 0 || m.maxFrames < 0 || m.jobs < 0 then throw (.negativeLimits path)
  return m.atRoot (Path.dir path)

/-! ## Finding -/

/-- A directory and those above it. -/
def upwards (dir : String) : List String :=
  let steps := (Path.steps dir).filter (· ≠ "")
  (List.range (steps.length + 1)).reverse.map fun n => "/" ++ "/".intercalate (steps.take n)

variable {m : Type → Type} [Monad m] [FileStore m]

/-- The first manifest in a list of directories. -/
def findIn : List String → m (Except ManifestError (Option String))
  | [] => return .ok none
  | dir :: rest => do
    let candidate := Path.join dir fileName
    match ← FileStore.stat candidate with
    | .ok _ => return .ok (some candidate)
    | .error e =>
      if e.cause = .notFound then findIn rest else return .error (.notStated candidate e)

/-- The path of the nearest manifest. -/
def find (start : String) : m (Except ManifestError (Option String)) := do
  findIn (upwards (← FileStore.absolute (if start = "" then "." else start)))

/-- The root of the project that a directory belongs to. -/
def findRoot (start : String) : m (Except ManifestError (Option String)) := do
  return (← find start).map (·.map Path.dir)

/-- The nearest manifest. -/
def discover (start : String) : m (Except ManifestError (Option Manifest)) := do
  match ← find start with
  | .error e => return .error e
  | .ok none => return .ok none
  | .ok (some path) =>
    match ← FileStore.read path with
    | .error e => return .error (.unreadable path e)
    | .ok content => return (parse path content).map some

end Manifest

end Pascaline
