import Pascaline.Text.Utf8
import Pascaline.Tool.Settings

/-!
# Commands around projects

Starting a project, showing stored units, and removing them. A unit is shown with a header that
tells what it was made from, its variables, classes and entry routines. Listings of its routines
follow, each after an empty line.
-/

namespace Pascaline

namespace CompiledUnit

private def headerLine (key value : String) : String :=
  "  " ++ key ++ String.ofList (List.replicate (8 - key.length) ' ') ++ value ++ "\n"

def describeClass (c : ClassDesc) : String :=
  let base := (c.base.map fun b => " extends " ++ b.module ++ "." ++ b.name).getD ""
  headerLine "class" (c.name ++ base ++ " slots=" ++ signedDecimal c.slots) ++
    String.join (c.vmt.zipIdx.map fun (e, i) =>
      "    vmt[" ++ decimal i ++ "] " ++ e.selector ++ " -> " ++ e.routine.module ++ "#" ++
        signedDecimal e.routine.index ++ "\n")

def header (u : CompiledUnit) : String :=
  let uses := u.deps.map fun d => d.name ++ "@" ++ d.digest.short
  let entry := fun (key : String) (i : Int) => ((u.routine? i).map fun r => headerLine key r.name).getD ""
  u.kind.render ++ " " ++ u.display ++ " (schema " ++ decimal u.schema ++ ")\n" ++
    headerLine "source" u.path ++ headerLine "hash" u.source.short ++
    (if u.imports.isEmpty then "" else headerLine "uses" (", ".intercalate uses)) ++
    String.join (u.globals.map fun g => headerLine "var" (g.name ++ ": " ++ g.shape.render)) ++
    String.join (u.classes.map describeClass) ++ entry "init" u.init ++ entry "main" u.main

/-- The unit as text, with the code of its routines if that is wanted. -/
def dump (u : CompiledUnit) (withCode : Bool) : Bytes :=
  utf8 u.header ++
    (if withCode then u.routines.toList.flatMap fun r => utf8 "\n" ++ r.listing u.pool else [])

end CompiledUnit

namespace Tool

variable {m : Type → Type} [Monad m] [FileStore m]

/-! ## Stored units -/

/-- Shows a stored unit. -/
def dumpUnit (i : Invocation) : CommandM m Unit := do
  let path := i.operands.headD ""
  match ← CommandM.orFail .file (UnitCache.loadFile path) with
  | .missing => CommandM.fail (.noUnit path)
  | .corrupt path e => CommandM.fail (.badUnit path e)
  | .found u => CommandM.out (u.dump (!i.switch "header"))

/-- Removes all stored units of a project. -/
def cleanCache (i : Invocation) : CommandM m Unit := do
  let s ← Settings.resolve i.operands
  match ← (FileStore.stat s.cache : m _) with
  | .error e =>
    if e.cause = .notFound then CommandM.out (utf8 "unit cache not found\n")
    else CommandM.fail (.notStated s.cache e)
  | .ok .file => CommandM.fail (.notADirectory s.cache)
  | .ok .directory =>
    CommandM.orFail (.notRemoved s.cache) (FileStore.removeTree s.cache)
    CommandM.out (utf8 ("removed " ++ s.display s.cache ++ "\n"))

/-! ## New projects -/

/-- A program name made from the name of a directory: what cannot stand in a name becomes an
underscore, and a digit in front gets one. -/
def programName (directory : String) : String :=
  let plain := directory.toList.map fun c => if c = '_' || c.isAlphanum then c else '_'
  let name := String.ofList (if plain.head?.any Char.isDigit then '_' :: plain else plain)
  if isModuleName name then name else "Main"

/-- The manifest of a new project. -/
def newManifest (name : String) : String :=
  "[package]\nname = " ++ quoted name ++
    "\n\n[run]\nmain = \"main.pas\"\n\n[build]\nsearch = [\"units\"]\n"

/-- The program of a new project. -/
def newProgram (name : String) : String :=
  "program " ++ programName name ++ ";\nbegin\n  writeln('Hello from " ++ name ++ "')\nend.\n"

/-- Makes sure that a directory is there. -/
def ensureDirectory (path : String) : CommandM m Unit := do
  match ← (FileStore.stat path : m _) with
  | .ok .directory => return ()
  | .ok .file => CommandM.fail (.notADirectory path)
  | .error e =>
    if e.cause = .notFound then CommandM.orFail (.notCreated path) (FileStore.makeDirs path)
    else CommandM.fail (.file e)

/-- Writes a file of a new project. -/
def createFile (path content : String) : CommandM m Unit :=
  CommandM.orFail (.notWritten path) (FileStore.write path (utf8 content))

/-- Starts a project. A program that is already there is kept. -/
def initProject (i : Invocation) : CommandM m Unit := do
  let operand := i.operands.headD ""
  let root ← (FileStore.absolute (if operand = "" then "." else operand) : m String)
  ensureDirectory root
  let name := trimText (Path.base root)
  let manifest := Path.join root Manifest.fileName
  let program := Path.join root "main.pas"
  match ← (FileStore.stat manifest : m _) with
  | .ok _ => CommandM.fail (.alreadyThere manifest)
  | .error _ => createFile manifest (newManifest name)
  CommandM.orFail .unitsNotCreated (FileStore.makeDirs (Path.join root "units"))
  match ← (FileStore.stat program : m _) with
  | .error e => if e.cause = .notFound then createFile program (newProgram name)
  | .ok _ => pure ()
  CommandM.out (utf8 ("created " ++ manifest ++ "\ncreated " ++ program ++ "\n"))

end Tool

end Pascaline
