import Pascaline.Build
import Pascaline.Machine.Step

/-!
# Linking and running what was built
-/

namespace Pascaline

/-- A program that was run. -/
structure RunResult where
  output : Bytes
  exitCode : Int
  fault : Option Fault
  heap : Heap
  trace : List Bytes

/-- The disk that a build works on stands still in time. -/
instance : Clock (StateM Disk) where
  now := return 0

namespace BuildRequest

/-- The build of a request that has not begun. -/
def start {m : Type → Type} [Monad m] [FileStore m] [Clock m] (r : BuildRequest) : m Build := do
  let base := trimText r.base
  let workingDir ← FileStore.workingDir
  let opened ← Clock.now
  return { request := r, base := if base = "" then "" else Path.absolute workingDir base, workingDir,
           journal := { level := r.level, opened } }

end BuildRequest

namespace BuildM

variable {m : Type → Type} [Monad m] [FileStore m] [Clock m]

/-- Begins a build and goes through its steps. -/
def perform {α : Type} (r : BuildRequest) (x : BuildM m α) : m (Except BuildError α × Build) := do
  x.run.run (← r.start)

/-- Fails in a stage that concerns all files. -/
def fail {α : Type} (stage : Stage) (e : BuildError) : BuildM m α := do
  modify (·.emit { stage, status := .error, error := some (.failure e) })
  throw e

/-- Links the units and sets up a machine for them. -/
def link (o : RunOptions) : BuildM m (Program × Machine) := do
  let start ← now
  modify (·.emit { stage := .link, status := .working })
  match Program.link (← get).units with
  | .error e => fail .link (.link e)
  | .ok p =>
    match Machine.start p o with
    | .error .breakdown => throw .breakdown
    | .error (.fault f) => fail .link (.start f)
    | .ok machine =>
      let elapsed := (← now) - start
      modify fun b => { b with timings := b.timings.set .link elapsed }.emit
        { stage := .link, status := .done, elapsed }
      return (p, machine)

/-- Compiles everything into stored units, and links them once to see that they fit. -/
def build : BuildM m Unit := do
  if (← get).request.cache = "" then throw .noCache
  compile
  let _ ← link {}

/-- Only a program can be run. -/
def checkEntry : BuildM m Unit := do
  match (← get).units.getLast? with
  | none => fail .link .noEntry
  | some u => if u.kind = .program then return else fail .link (.notAProgram u.path)

/-- Whether any of the code may read input. -/
def readsInput (units : List CompiledUnit) : Bool :=
  units.any fun u => u.pool.natives.any fun name => Native.ofName? name = some .readln

/-- Compiles and runs the target. The input is asked for only if it may be read. A fault of the
program is no failure of the build, but sets the exit code. -/
def run (o : RunOptions) (input : m Bytes) : BuildM m RunResult := do
  compile
  checkEntry
  let input ← if readsInput (← get).units then (input : m Bytes) else pure []
  let (p, machine) ← link { o with input := some input }
  modify (·.emit { stage := .run, status := .working })
  let start ← now
  let outcome := machine.run p Machine.enough
  let elapsed := (← now) - start
  let b ← get
  let told := fun (fault : Option Fault) => do
    let status := if fault.isSome then Status.error else .done
    set ({ b with timings := b.timings.set .run elapsed }.emit
      { stage := .run, status, elapsed, error := fault.map fun f => .failure (.start f) })
    return { output := outcome.machine.written
             exitCode := if fault.isSome then 1 else outcome.machine.exitCode
             fault
             heap := outcome.machine.heap
             trace := outcome.machine.traceLines (some b.library) }
  match outcome.stop with
  | some .breakdown => throw .breakdown
  | some (.fault f) => told (some f)
  | none => told none

end BuildM

end Pascaline
