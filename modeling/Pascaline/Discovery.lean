import Pascaline.FileStore
import Pascaline.Text.LetterCase
import Pascaline.Tree.Parser
import Pascaline.UnitGraph

/-!
# Finding the sources of a program

Discovery starts from one file and goes on to the units that it uses, depth first. A unit is looked
for beside the file that uses it, then in the search directories. What is found comes with what is
used in front, and the file that discovery started from last.
-/

namespace Pascaline

/-- A source file that was found. There is no tree if it could not be parsed. -/
structure FoundSource where
  summary : SourceSummary
  file : Nat := 0
  tree : Option Tree.File := none
  report : Report := {}
deriving Inhabited

namespace FoundSource

/-- Whether the source must not be bound. -/
def failed (s : FoundSource) : Bool := s.tree.isNone || s.report.hasErrors

/-- The display name and the path. -/
def render (s : FoundSource) : String := s.summary.display ++ " (" ++ s.summary.path ++ ")"

def add (s : FoundSource) (d : Diagnostic) : FoundSource := { s with report := s.report.add d }

/-- Gives a source the name it was used by. -/
def named (s : FoundSource) (name : String) : FoundSource :=
  { s with summary := { s.summary with name } }

/-- What a source in the library says about itself. One that cannot be parsed is named after its
file. -/
def ofFile (limit : Int) (path : String) (f : SourceFile) : FoundSource :=
  let parsed := Tree.File.parse f
  let report := parsed.errors.foldl Report.add (Report.withLimit limit)
  match parsed.file with
  | none =>
    let last := Path.base path
    let stem := String.ofList (last.toList.take (last.length - (Path.ext path).length))
    { summary := { name := lowerText stem, display := stem, path := f.path, content := f.digest },
      file := f.id, report }
  | some tree =>
    { summary := { name := tree.name.name, display := tree.name.text, path := f.path,
                   kind := if tree.kind = .unit then .unit else .program, span := tree.name.span,
                   uses := tree.allUses.map fun u => ⟨u.name, u.span⟩, content := f.digest },
      file := f.id, tree, report }

end FoundSource

/-- Discovery under way. `chain` are the sources whose uses are being followed, the nearest first,
and `found` those that are done. -/
structure Discovery where
  library : SourceLibrary := {}
  search : List String := []
  /-- The limit of each report. -/
  limit : Int := 100
  chain : List SourceSummary := []
  found : List FoundSource := []

namespace Discovery

def extension : String := ".pas"

/-! ## Reports -/

/-- The chain from a unit back to itself. -/
def cycleText (d : Discovery) (name : String) : String :=
  let upTo := d.chain.takeWhile (·.name ≠ name)
  let closing := ((d.chain.find? (·.name == name)).map (·.display)).getD ""
  " -> ".intercalate (closing :: (upTo.reverse.map (·.display)) ++ [closing])

def circular (d : Discovery) (u : Tree.Ident) : Diagnostic :=
  .error ⟨4001⟩ u.span (utf8 ("circular unit reference: " ++ d.cycleText u.name))

def notFound (u : Tree.Ident) : Diagnostic :=
  .error ⟨4002⟩ u.span (utf8 ("unit " ++ u.text ++ " not found"))

def unreadable (u : Tree.Ident) (e : FileError) : Diagnostic :=
  .error ⟨4007⟩ u.span (utf8 ("cannot read unit " ++ u.text ++ ": " ++ e.message))

def mismatch (path : String) (dep : FoundSource) (u : Tree.Ident) : Diagnostic :=
  .error ⟨4005⟩ dep.summary.span
    (utf8 ("file " ++ Path.base path ++ " declares " ++ dep.summary.display ++ ", expected " ++ u.text))
    [⟨u.span, utf8 "used here"⟩]

def notUsable (u : Tree.Ident) : Diagnostic :=
  .error ⟨4003⟩ u.span (utf8 (u.text ++ " is a program and cannot be used"))

def tooDeep (src : FoundSource) : Diagnostic :=
  .error ⟨4007⟩ src.summary.span (utf8 ("uses of " ++ src.summary.display ++ " are nested too deep"))

/-! ## The walk -/

/-- Where a unit may be: under the name as written and in lower case, in each directory. -/
def candidates (d : Discovery) (dir name : String) : List String :=
  let lower := lowerText name
  let names := if lower = name then [name] else [name, lower]
  (dir :: d.search).flatMap fun dir => names.map fun n => Path.join dir (n ++ extension)

/-- The first mention of each unit. -/
def firstMentions : (seen : List String) → List Tree.Ident → List Tree.Ident
  | _, [] => []
  | seen, u :: us =>
    if seen.contains u.name then firstMentions seen us else u :: firstMentions (u.name :: seen) us

/-- Checks a unit that was just read against the use that led to it: it has to declare the name, and
must not be a program. -/
def checkUse (src dep : FoundSource) (path : String) (u : Tree.Ident) : FoundSource × FoundSource :=
  let dep := if dep.tree.isSome && dep.summary.name ≠ u.name then dep.add (mismatch path dep u) else dep
  let src := if dep.summary.kind = .program then src.add (notUsable u) else src
  (src, dep.named u.name)

variable {m : Type → Type} [Monad m] [FileStore m]

/-- The first of some paths that leads to a file. -/
def firstFile : List String → m (Option String)
  | [] => return none
  | p :: ps => do if ← FileStore.isFile p then return some p else firstFile ps

/-- Reads and parses a file. -/
def load (d : Discovery) (path : String) : m (Except FileError (FoundSource × Discovery)) := do
  match ← FileStore.read path with
  | .error e => return .error e
  | .ok content =>
    let (id, library) := d.library.load path content
    match library.get? id with
    | some f => return .ok (.ofFile d.limit path f, { d with library })
    | none => return .error ⟨"open", path, .notFound⟩

/-- Follows one use of a source. `visit` takes in a unit that was not found before. -/
def follow (visit : FoundSource → Discovery → m Discovery) :
    FoundSource × Discovery → Tree.Ident → m (FoundSource × Discovery)
  | (src, d), u => do
    if d.chain.any (·.name == u.name) then return (src.add (d.circular u), d)
    match d.found.find? (·.summary.name == u.name) with
    | some dep =>
      return (if dep.summary.kind = .program then src.add (notUsable u) else src, d)
    | none =>
      let some path ← firstFile (d.candidates (Path.dir src.summary.path) u.text)
        | return (src.add (notFound u), d)
      match ← d.load path with
      | .error e => return (src.add (unreadable u e), d)
      | .ok (dep, d) =>
        let (src, dep) := checkUse src dep path u
        return (src, ← visit dep d)

/-- Follows the uses of a source, and then takes it in. The sources on a chain have different names,
and each but the first was found as a file under its name or the name in lower case, so `depth` may
be twice the number of files and one more. A source beyond that is taken in with a report, and its
uses are not followed. -/
def visit : (depth : Nat) → FoundSource → Discovery → m Discovery
  | 0, src, d => return { d with found := d.found ++ [src.add (tooDeep src)] }
  | depth + 1, src, d => do
    let uses := (src.tree.map fun t => firstMentions [] t.allUses).getD []
    let (src, d) ← uses.foldlM (follow (visit depth)) (src, { d with chain := src.summary :: d.chain })
    return { d with chain := d.chain.tail, found := d.found ++ [src] }

/-- Finds a file and everything it uses. -/
def discover (d : Discovery) (entry : String) : m (Except FileError Discovery) := do
  match ← d.load entry with
  | .error e => return .error e
  | .ok (src, d) =>
    if src.tree.isNone then return .ok { d with found := [src] }
    else return .ok (← visit (2 * (← FileStore.fileBound) + 2) src d)

end Discovery

end Pascaline
