import Pascaline.FileStore
import Pascaline.Journal
import Pascaline.Tool.Session

/-!
# Watching a command

Flags may ask for profiles of a command, and for a journal of the build. Profiles are opened before
anything else and closed at the very end. Nothing is measured, so they stay empty.
-/

namespace Pascaline.Tool

variable {m : Type → Type} [Monad m] [FileStore m]

/-! ## Profiles -/

/-- Opens a profile if its flag is given. -/
def openProfile (i : Invocation) (flag : String) : m (Except FileError Unit) :=
  let path := i.word flag
  if path = "" then return .ok () else FileStore.write path []

/-- Writes the profile of the end. That it cannot be written is told and nothing more. -/
def closeProfiles (i : Invocation) : CommandM m Unit := do
  match ← (openProfile i "mem-profile" : m _) with
  | .ok _ => return ()
  | .error e => CommandM.err (utf8 ("profiling: " ++ e.message ++ "\n"))

/-- Does something with profiles open. If the last of them cannot be opened, those before are
closed. -/
def profiled {α : Type} (i : Invocation) (body : CommandM m α) : CommandM m α := do
  CommandM.orFail .file (openProfile i "cpu-profile")
  match ← (openProfile i "runtime-trace" : m _) with
  | .ok _ => CommandM.finally_ body (closeProfiles i)
  | .error e =>
    let _ ← (openProfile i "mem-profile" : m _)
    CommandM.fail (.file e)

/-! ## Journals -/

/-- Where a journal goes and what it holds. -/
structure JournalPlan where
  level : Journal.Level := .off
  format : Journal.Format := .text
  /-- The file, or a dash for the channel of errors. -/
  path : String := "-"

namespace JournalPlan

/-- Reads the flags. A file without a level means that passes are recorded. -/
def ofInvocation (i : Invocation) : Except CommandError JournalPlan := do
  let path := i.word "trace"
  let level ← (Journal.Level.parse (i.word "trace-level" "off")).mapError .traceLevel
  let level := if level = .off && path ≠ "" then .phase else level
  if level = .off then return {}
  else
    let format ← (Journal.Format.parse (i.word "trace-format" "auto")).mapError .traceFormat
    let path := if path = "" then "-" else path
    return { level, format := format.resolve path, path }

def isFile (p : JournalPlan) : Bool := p.level ≠ .off && p.path ≠ "-"

/-- Makes ready for a journal. -/
def prepare (i : Invocation) : CommandM m JournalPlan := do
  match ofInvocation i with
  | .error e => CommandM.fail e
  | .ok p =>
    if p.isFile then CommandM.orFail .traceFile (FileStore.write p.path [])
    return p

/-- Writes what was recorded. A journal that cannot be written does not stop a build. -/
def write (p : JournalPlan) (r : Journal.Recorder) : CommandM m Unit := do
  let content := utf8 (String.join (r.events.toList.map (·.render p.format)))
  if p.isFile then
    let _ ← (FileStore.write p.path content : m _)
  else CommandM.err content

end JournalPlan

end Pascaline.Tool
