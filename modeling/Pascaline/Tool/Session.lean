import Pascaline.Build.Event
import Pascaline.CommandLine
import Pascaline.Journal
import Pascaline.Manifest
import Pascaline.UnitCache

/-!
# Sessions

A command writes to two channels, and ends with an exit code or with an error that is told on the
second channel.
-/

namespace Pascaline.Tool

/-- What a session has of the terminal it was started from. -/
structure Console (m : Type → Type) where
  /-- All of the standard input. -/
  input : m Bytes
  /-- Whether errors are read by a person. -/
  terminal : Bool := false

/-- What was written so far. -/
structure Screen where
  out : Bytes := []
  err : Bytes := []
deriving Repr, Inhabited

/-- Why a command was not carried out. -/
inductive CommandError where
  | usage (e : CommandLineError)
  | badColor (word : String)
  | badProgress (word : String)
  | badFormat (word : String)
  | badVersionFormat (word : String)
  | warningsTwice
  | negativeLimits
  | notStated (path : String) (e : FileError)
  | manifest (e : ManifestError)
  /-- The manifest under this root names no program. -/
  | noMain (root : String)
  | noEntry
  /-- A file was refused. -/
  | file (e : FileError)
  | traceLevel (e : Journal.OptionError)
  | traceFormat (e : Journal.OptionError)
  | traceFile (e : FileError)
  | build (e : BuildError)
  | noUnit (path : String)
  | badUnit (path : String) (e : UnitError)
  | notADirectory (path : String)
  | notRemoved (path : String) (e : FileError)
  | notCreated (path : String) (e : FileError)
  | unitsNotCreated (e : FileError)
  | notWritten (path : String) (e : FileError)
  | alreadyThere (path : String)

namespace CommandError

/-- What an error says, where it is not about a build. -/
def text : CommandError → String
  | usage e => e.message
  | badColor w => "invalid --color value " ++ quoted w ++ " (expected auto|on|off)"
  | badProgress w => "invalid --ui value " ++ quoted w ++ " (expected auto|on|off)"
  | badFormat w => "unknown format " ++ quoted w ++ " (expected pretty|short|json)"
  | badVersionFormat w => "unsupported format " ++ quoted w ++ " (must be pretty or json)"
  | warningsTwice => "no-warnings and warnings-as-errors flags cannot be used together"
  | negativeLimits => "negative limits are not allowed"
  | notStated path e => "failed to stat " ++ quoted path ++ ": " ++ e.message
  | manifest e => e.message
  | noMain root =>
    Path.join root Manifest.fileName ++ ": no entry file; set [run].main or pass a file"
  | noEntry => "no entry file and no " ++ Manifest.fileName ++ " found"
  | file e => e.message
  | traceLevel e => "invalid trace level: " ++ e.message
  | traceFormat e => "invalid trace format: " ++ e.message
  | traceFile e => "failed to create tracer: failed to open trace output: " ++ e.message
  | build _ => ""
  | noUnit path => path ++ ": no such unit"
  | badUnit path e => path ++ ": " ++ e.message
  | notADirectory path => quoted path ++ " is not a directory"
  | notRemoved path e => "failed to remove " ++ quoted path ++ ": " ++ e.message
  | notCreated path e => "failed to create directory " ++ quoted path ++ ": " ++ e.message
  | unitsNotCreated e => "failed to create units directory: " ++ e.message
  | notWritten path e => "failed to write " ++ path ++ ": " ++ e.message
  | alreadyThere path => "project already initialized: " ++ path ++ " exists"

def message : CommandError → Bytes
  | build e => e.message
  | e => utf8 e.text

end CommandError

/-- How a command ends before its last step. -/
inductive CommandStop where
  /-- What there is to say was said. -/
  | exit (code : Int)
  | error (e : CommandError)

/-- Steps of a command. What was written before it stopped stays written. -/
abbrev CommandM (m : Type → Type) := ExceptT CommandStop (StateT Screen m)

namespace CommandM

variable {m : Type → Type} [Monad m]

def fail {α : Type} (e : CommandError) : CommandM m α := throw (.error e)

/-- Ends with a code, unless it means success. -/
def exitWith (code : Int) : CommandM m Unit := if code = 0 then pure () else throw (.exit code)

def out (s : Bytes) : CommandM m Unit := modify fun screen => { screen with out := screen.out ++ s }

def err (s : Bytes) : CommandM m Unit := modify fun screen => { screen with err := screen.err ++ s }

/-- Takes a step that may be refused. -/
def orFail {ε α : Type} (blame : ε → CommandError) (x : m (Except ε α)) : CommandM m α := do
  match ← (x : m _) with
  | .ok a => return a
  | .error e => fail (blame e)

/-- Does something at the end, however it comes. -/
def finally_ {α : Type} (body : CommandM m α) (last : CommandM m Unit) : CommandM m α :=
  ExceptT.mk (do
    let r ← body.run
    let _ ← last.run
    return r)

end CommandM

/-- What is left of a session. -/
structure Completed where
  /-- The exit code, a number below 256. -/
  exit : Nat
  screen : Screen
deriving Repr, Inhabited

/-- Goes through the steps of a command. Errors are told at the end. -/
def CommandM.complete {m : Type → Type} [Monad m] (x : CommandM m Unit) : m Completed := do
  match ← x.run.run {} with
  | (.ok _, screen) => return ⟨0, screen⟩
  | (.error (.exit code), screen) => return ⟨(code % 256).toNat, screen⟩
  | (.error (.error e), screen) =>
    return ⟨1, { screen with err := screen.err ++ utf8 "error: " ++ e.message ++ utf8 "\n" }⟩

end Pascaline.Tool
