import Pascaline.Diagnostic
import Pascaline.FileStore
import Pascaline.Lowering
import Pascaline.Machine.Fault
import Pascaline.Program
import Pascaline.Text.RealText

/-!
# Progress of a build

A build goes through stages, and reports what it does as it goes along: for one file, or for all of
them.
-/

namespace Pascaline

inductive Stage where
  | parse
  | bind
  | lower
  /-- A stored unit is used again. -/
  | load
  /-- A unit is stored. -/
  | persist
  | link
  | run
deriving Repr, DecidableEq, Inhabited

def Stage.render : Stage → String
  | parse => "parse"
  | bind => "bind"
  | lower => "lower"
  | load => "load"
  | persist => "persist"
  | link => "link"
  | run => "run"

inductive Status where
  | queued | working | done | error
deriving Repr, DecidableEq, Inhabited

def Status.render : Status → String
  | queued => "queued"
  | working => "working"
  | done => "done"
  | error => "error"

/-- Why a build ended without a result. -/
inductive BuildError where
  | noTarget
  | noCache
  /-- The file that the build starts from cannot be read. -/
  | load (entry : String) (e : FileError)
  /-- A stored unit cannot be opened. -/
  | unitFile (e : FileError)
  | persist (display : String) (e : FileError)
  | lower (display : String) (e : LowerError)
  | interface (display : String) (e : UnitError)
  | notCompiled (name : String)
  | cancelled
  /-- The sources have errors, which were reported. -/
  | diagnostics
  | noEntry
  | notAProgram (path : String)
  | link (e : LinkError)
  /-- The machine could not be set up. -/
  | start (f : Fault)
  /-- The compiler or the machine itself broke down. -/
  | breakdown

namespace BuildError

def message : BuildError → Bytes
  | noTarget => utf8 "missing target path"
  | noCache => utf8 "build needs a unit cache directory"
  | load entry e => utf8 ("load " ++ entry ++ ": " ++ e.message)
  | unitFile e => utf8 e.message
  | persist display e => utf8 ("persist " ++ display ++ ": " ++ e.message)
  | lower display e => utf8 (display ++ ": " ++ e.message)
  | interface display e => utf8 (display ++ ": " ++ e.message)
  | notCompiled name => utf8 ("unit " ++ name ++ " was not compiled")
  | cancelled => utf8 "context canceled"
  | diagnostics => utf8 "diagnostics reported errors"
  | noEntry => utf8 "no compiled entry module"
  | notAProgram path => utf8 (path ++ " is a unit, not a program; run the program that uses it")
  | link e => utf8 e.message
  | start f => f.summary
  | breakdown => utf8 "internal failure"

/-- Whether a file was not there. -/
def isNotFound : BuildError → Bool
  | load _ e | unitFile e | persist _ e => e.cause = .notFound
  | _ => false

end BuildError

/-- What an event of a failure says. -/
inductive EventError where
  /-- The first error of a source. -/
  | report (d : Diagnostic)
  | failure (e : BuildError)

def EventError.message : EventError → Bytes
  | report d => d.summary
  | failure e => e.message

def EventError.isNotFound : EventError → Bool
  | report _ => false
  | failure e => e.isNotFound

/-- One step of a build. Without a file it is about all of them. -/
structure BuildEvent where
  file : String := ""
  stage : Stage
  status : Status
  error : Option EventError := none
  /-- Microseconds. -/
  elapsed : Nat := 0

/-- A time given in microseconds, as milliseconds with a number of decimals. -/
def millisText (places micros : Nat) : String :=
  RealText.fixed places (Float.ofNat (micros * 1000) / 1000000)

/-- The time that stages took, in microseconds. -/
abbrev Timings := List (Stage × Nat)

namespace Timings

def set (t : Timings) (stage : Stage) (micros : Nat) : Timings :=
  (stage, micros) :: t.filter (·.1 ≠ stage)

def has (t : Timings) (stage : Stage) : Bool := (t.lookup stage).isSome

def get (t : Timings) (stage : Stage) : Nat := (t.lookup stage).getD 0

def add (t : Timings) (stage : Stage) (micros : Nat) : Timings := t.set stage (t.get stage + micros)

end Timings

/-- A pass over all sources: its name, how long it took, and a remark. -/
structure Phase where
  name : String
  start : Nat
  stop : Nat
  note : String
deriving Repr, Inhabited

end Pascaline
