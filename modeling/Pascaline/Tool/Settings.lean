import Pascaline.Build
import Pascaline.Tool.Session

/-!
# Settings of a command

What a command works on: the program, and limits. A manifest tells them, and flags override it.
-/

namespace Pascaline.Tool

structure Settings where
  /-- The file that a build starts from. -/
  entry : String := ""
  base : String := ""
  search : List String := []
  cache : String := ""
  jobs : Int := 0
  heapBudget : Int := 0
  maxFrames : Int := 0
deriving Repr, Inhabited

namespace Settings

/-- The settings that a manifest tells. -/
def ofManifest (m : Manifest) : Settings :=
  { entry := m.main, base := m.root, search := m.search, cache := m.cache, jobs := m.jobs,
    heapBudget := m.heapBudget, maxFrames := m.maxFrames }

variable {m : Type → Type} [Monad m] [FileStore m]

/-- What the operand names: a file to start from, or else a directory to look in. -/
def locate (operands : List String) : CommandM m (String × String) := do
  let operand := operands.headD ""
  if operand = "" then return ("", ".")
  match ← CommandM.orFail (.notStated operand) (FileStore.stat operand) with
  | .directory => return ("", operand)
  | .file => return (operand, Path.dir operand)

/-- Finds the program: the operand if it is a file, else what the manifest says. -/
def resolve (operands : List String) : CommandM m Settings := do
  let (file, start) ← locate operands
  let manifest ← CommandM.orFail .manifest (Manifest.discover start)
  let s := (manifest.map ofManifest).getD {}
  let s := if file = "" then s else { s with entry := file }
  if s.entry = "" then
    CommandM.fail (match manifest with
      | some m => .noMain m.root
      | none => .noEntry)
  let entry ← (FileStore.absolute s.entry : m String)
  let base := if s.base = "" then Path.dir entry else s.base
  return { s with entry, base
                  cache := if s.cache = "" then Path.join base Manifest.defaultCache else s.cache }

/-- Lets the flags that are given override the settings. -/
def applyFlags (s : Settings) (i : Invocation) : Except CommandError Settings :=
  let number := fun (name : String) (n : Int) => if i.isGiven name then i.number name else n
  let cache := if i.isGiven "cache-dir" then i.word "cache-dir" else s.cache
  let s := { s with jobs := number "jobs" s.jobs
                    heapBudget := number "heap-budget" s.heapBudget
                    maxFrames := number "max-frames" s.maxFrames
                    cache := if i.switch "no-cache" then "" else cache }
  if s.jobs < 0 || s.heapBudget < 0 || s.maxFrames < 0 then .error .negativeLimits else .ok s

/-- The settings of a command line. -/
def ofInvocation (i : Invocation) : CommandM m Settings := do
  match (← resolve i.operands).applyFlags i with
  | .ok s => return s
  | .error e => CommandM.fail e

/-- How a path is told: from the base on if it lies under it, and not in a hidden directory. -/
def display (s : Settings) (path : String) : String :=
  match Path.relative? s.base path with
  | some rel => if rel = "" || rel.startsWith "." || Path.isAbsolute rel then path else rel
  | none => path

/-- The build that the settings ask for. -/
def request (s : Settings) (limit : Int) (level : Journal.Level) : BuildRequest :=
  { target := s.entry, base := s.base, search := s.search, cache := s.cache, limit, level }

end Settings

end Pascaline.Tool
