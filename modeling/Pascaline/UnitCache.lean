import Pascaline.CompiledUnit.Storage
import Pascaline.FileStore

/-!
# Stored units

Compiled units are kept in a directory, one file each. A stored unit is used again as long as it was
compiled from the same source at the same path, against units with the same digests.
-/

namespace Pascaline

/-- What was found where a unit may be stored. -/
inductive StoredUnit where
  | missing
  | corrupt (path : String) (e : UnitError)
  | found (u : CompiledUnit)

/-- Why a stored unit has to be compiled again. -/
inductive StaleCause where
  | otherPath (name path : String)
  | sourceChanged (display : String)
  | dependenciesChanged (display : String)
  | dependencyChanged (display dep : String)
deriving Repr, DecidableEq

def StaleCause.message (c : StaleCause) : String :=
  (match c with
  | otherPath name path => name ++ ": compiled from " ++ path
  | sourceChanged display => display ++ ": source changed"
  | dependenciesChanged display => display ++ ": dependency list changed"
  | dependencyChanged display dep => display ++ ": unit " ++ dep ++ " changed") ++
    ": stale compiled unit"

namespace CompiledUnit

/-- Compares a unit with its source and the units it uses as they are now. -/
def checkFresh (u : CompiledUnit) (source : Digest) (deps : List (String × Digest)) :
    Except StaleCause Unit := do
  if u.source ≠ source then throw (.sourceChanged u.display)
  if u.deps.length ≠ u.imports.length then throw (.dependenciesChanged u.display)
  match u.deps.find? fun d => deps.lookup d.name ≠ some d.digest with
  | some d => throw (.dependencyChanged u.display d.name)
  | none => return ()

end CompiledUnit

/-- Why nothing can be taken from the cache, if not because nothing is there. -/
inductive CacheMiss where
  | corrupt (path : String) (e : UnitError)
  | stale (c : StaleCause)

def CacheMiss.message : CacheMiss → String
  | corrupt path e => path ++ ": " ++ e.message
  | stale c => c.message

/-- The unit to be used again, if it is there and fresh. -/
def StoredUnit.fresh (stored : StoredUnit) (name path : String) (source : Digest)
    (deps : List (String × Digest)) : Except CacheMiss (Option CompiledUnit) :=
  match stored with
  | missing => .ok none
  | corrupt file e => .error (.corrupt file e)
  | found u =>
    if u.path ≠ path then .error (.stale (.otherPath name u.path))
    else match u.checkFresh source deps with
      | .ok _ => .ok (some u)
      | .error c => .error (.stale c)

namespace UnitCache

/-- The file of a unit. -/
def fileName (name : String) : String := name ++ ".bcu"

variable {m : Type → Type} [Monad m] [FileStore m]

/-- Reads a stored unit. A directory in its place is no unit either. -/
def loadFile (path : String) : m (Except FileError StoredUnit) := do
  match ← FileStore.read path with
  | .ok content => return .ok (match CompiledUnit.decode content with
    | .ok u => .found u
    | .error e => .corrupt path e)
  | .error e =>
    if e.cause = .notFound then return .ok .missing
    else if e.cause = .isDirectory then return .ok (.corrupt path (.unreadable (.refused e.message)))
    else return .error e

/-- Reads the unit of a name; without a directory nothing is stored. -/
def load (dir name : String) : m (Except FileError StoredUnit) :=
  if dir = "" then return .ok .missing else loadFile (Path.join dir (fileName name))

/-- Stores a unit. -/
def save (dir : String) (u : CompiledUnit) : m (Except FileError Unit) := do
  match ← FileStore.makeDirs dir with
  | .error e => return .error e
  | .ok _ => FileStore.write (Path.join dir (fileName u.name)) u.encode

end UnitCache

end Pascaline
