import Pascaline.Bound.Declaration
import Pascaline.Build.Event
import Pascaline.Discovery
import Pascaline.Journal
import Pascaline.Text.Utf8
import Pascaline.UnitCache

/-!
# Builds

A build finds the sources of a program, orders them so that every unit comes after those it uses, and
compiles them in that order. Units that are stored and fresh are not compiled again. The result is
the compiled units in the order of their initialization, or reports if a source has errors.
-/

namespace Pascaline

/-- What to build and how. -/
structure BuildRequest where
  target : String
  /-- Files are shown relative to this directory. -/
  base : String := ""
  search : List String := []
  /-- Where units are stored; nowhere if empty. -/
  cache : String := ""
  /-- The limit of each report; 100 unless it is positive. -/
  limit : Int := 0
  /-- The build was called off before it began. -/
  cancelled : Bool := false
  level : Journal.Level := .off

/-- A build under way. -/
structure Build where
  request : BuildRequest
  /-- The directory that files are shown relative to, as an absolute path, and the one that paths are
  seen from. -/
  base : String := ""
  workingDir : String := "/"
  library : SourceLibrary := {}
  sources : List FoundSource := []
  graph : UnitGraph := {}
  layering : Layering := ⟨[], []⟩
  types : TypeTable := .empty
  /-- The interfaces of the units so far. -/
  imports : List Bound.Import := []
  /-- Units that cannot be used, with their first error. -/
  broken : List (String × Option Diagnostic) := []
  /-- The units so far, the newest first. -/
  compiled : List CompiledUnit := []
  /-- Units that were stored. -/
  reused : List String := []
  /-- The result: whether there is one, all reports, and the units in the order of
  initialization. -/
  finished : Bool := false
  report : Report := {}
  units : List CompiledUnit := []
  /-- What was told about the build, and the files that were mentioned. -/
  events : Array BuildEvent := #[]
  mentioned : List String := []
  timings : Timings := []
  phases : Array Phase := #[]
  journal : Journal.Recorder := {}

namespace Build

/-! ## Progress -/

def emit (b : Build) (e : BuildEvent) : Build := { b with events := b.events.push e }

/-- How a file is shown: relative to the base if it lies under it. -/
def displayPath (b : Build) (path : String) : String :=
  if path = "" then path
  else if b.base = "" then Path.clean path
  else
    let full := Path.absolute b.workingDir path
    match Path.relative? b.base full with
    | some rel => if rel = "." || rel.startsWith ".." then full else rel
    | none => full

/-- Announces a file when it is first mentioned. -/
def mention (b : Build) (path : String) : Build :=
  if b.mentioned.contains path then b
  else { b with mentioned := path :: b.mentioned }.emit
    { file := b.displayPath path, stage := .parse, status := .queued }

/-- A stage of one file begins. -/
def begins (b : Build) (path : String) (stage : Stage) (elapsed : Nat) : Build :=
  (b.mention path).emit { file := b.displayPath path, stage, status := .working, elapsed }

/-- A stage of one file is over. Success is told only of the last stages. -/
def ends (b : Build) (path : String) (stage : Stage) (error : Option EventError) (elapsed : Nat) :
    Build :=
  let b := { b with timings := b.timings.add stage elapsed }.mention path
  let file := b.displayPath path
  if error.isSome then b.emit { file, stage, status := .error, error, elapsed }
  else if stage = .load || stage = .persist then b.emit { file, stage, status := .done, elapsed }
  else b

/-! ## The state of single units -/

def limit (b : Build) : Int := if 0 < b.request.limit then b.request.limit else 100

def source? (b : Build) (name : String) : Option FoundSource :=
  b.sources.find? (·.summary.name == name)

/-- Adds reports to the source at a position. -/
def addReports (b : Build) (reports : List (Nat × Diagnostic)) : Build :=
  { b with sources := b.sources.mapIdx fun i s =>
      (reports.filter (·.1 == i)).foldl (fun s (_, d) => s.add d) s }

def addErrors (b : Build) (name : String) (errors : List Diagnostic) : Build :=
  { b with sources := b.sources.map fun s =>
      if s.summary.name = name then errors.foldl FoundSource.add s else s }

def markBroken (b : Build) (name : String) (first : Option Diagnostic) : Build :=
  { b with broken := (name, first) :: b.broken }

def isBroken (b : Build) (name : String) : Bool := b.broken.any (·.1 == name)

/-- The current digest of a unit. -/
def hashOf (b : Build) (name : String) : Digest :=
  ((b.graph.slots.toList.find? fun s => s.present && s.summary.name == name).map
    (·.summary.hash)).getD .zero

/-- The digests of what a source uses. -/
def depsOf (b : Build) (src : FoundSource) : List (String × Digest) :=
  src.summary.uses.map fun u => (u.name, b.hashOf u.name)

/-- Takes in a unit. -/
def record (b : Build) (u : CompiledUnit) : Build := { b with compiled := u :: b.compiled }

/-- Makes the interface of a unit known. What a failed attempt entered into the types stays. -/
def publish (b : Build) (u : CompiledUnit) : Except UnitError Unit × Build :=
  match u.interface.run b.types with
  | .ok imp types => (.ok (), { b with types, imports := imp :: b.imports })
  | .error e types => (.error e, { b with types })

/-- Binds a source. -/
def bindSource (b : Build) (src : FoundSource) (tree : Tree.File) :
    Except BuildError (Bound.BindResult × Build) :=
  let imports := b.imports.filter fun i => src.summary.uses.any (·.name == i.name)
  match Bound.Module.ofFile b.types imports src.summary.path tree with
  | .ok r => .ok (r, { b with types := r.types }.addErrors src.summary.name r.errors)
  | .error _ => .error .breakdown

/-- Lowers a bound source to a unit that remembers what it was made from. -/
def lowerSource (b : Build) (src : FoundSource) (module : Bound.Module) :
    Except BuildError CompiledUnit :=
  match CompiledUnit.ofModule b.types module with
  | .error e => .error (.lower src.summary.display e)
  | .ok u =>
    let deps := b.depsOf src
    .ok { u with
      source := src.summary.content
      file := src.file
      deps := u.imports.map fun name => ⟨name, (deps.lookup name).getD .zero⟩ }

/-! ## Passes over all units -/

/-- Builds the graph of the sources found. Cycles are reported unless discovery did. -/
def layOut (b : Build) : Build :=
  let nodes := b.sources.map fun s => (⟨s.summary, s.failed, s.report.firstError?⟩ : GraphNode)
  let (g, duplicates) := UnitGraph.ofNodes nodes
  let l := g.layering
  let cycles := if l.isCyclic && !b.sources.any (·.report.hasCode ⟨4001⟩) then g.cycleReports l else []
  let slots := g.slots.mapIdx fun i s => { s with broken := s.broken || l.stuck.contains i }
  let graph := { g with slots }.withHashes l
  { b with graph, layering := l }.addReports (duplicates ++ cycles)

/-- Tells every source that uses a broken unit. -/
def reportBroken (b : Build) : Build :=
  let slots := b.graph.slots.map fun s => match b.broken.lookup s.summary.name with
    | none => s
    | some first => { s with broken := true, firstError := s.firstError <|> first }
  let b := { b with graph := { b.graph with slots } }
  b.addReports b.graph.brokenReports

/-- Collects the reports, and the units if there was no error. -/
def finish (b : Build) : Except BuildError Build := do
  let report := b.sources.foldl (fun r s => r.merge s.report)
    (Report.withLimit (b.limit * max b.sources.length 1))
  let b := { b with report, finished := true }
  if report.hasErrors || b.layering.isCyclic then return b
  else
    let units ← b.layering.initOrder.mapM fun i =>
      let name := b.graph.names.getD i ""
      match b.compiled.find? (·.name == name) with
      | some u => .ok u
      | none => .error (.notCompiled name)
    return { b with units }

end Build

/-! ## Compiling -/

/-- Steps of a build. What was told before a failure stays told. -/
abbrev BuildM (m : Type → Type) := ExceptT BuildError (StateT Build m)

namespace BuildM

variable {m : Type → Type} [Monad m] [FileStore m] [Clock m]

def now : BuildM m Nat := do
  let now ← (Clock.now : m Nat)
  modify fun b => { b with journal := b.journal.atTime now }
  return now

/-- Goes on after a failure. -/
def observe {α : Type} (x : BuildM m α) : BuildM m (Except BuildError α) :=
  ExceptT.mk (do return .ok (← x.run))

/-- Applies a step that may fail. -/
def step {α : Type} (f : Build → Except BuildError (α × Build)) : BuildM m α := do
  match f (← get) with
  | .ok (a, b) => set b; return a
  | .error e => throw e

def openSpan (scope : Journal.Scope) (name : String) (parent : Nat) : BuildM m Journal.OpenSpan := do
  let _ ← now
  modifyGet fun b =>
    let (s, journal) := b.journal.openSpan scope name parent
    (s, { b with journal })

def closeSpan (s : Journal.OpenSpan) (detail : String) : BuildM m Unit := do
  let _ ← now
  modify fun b => { b with journal := b.journal.closeSpan s detail }

/-- Does something within a span, which also ends with a failure. -/
def inSpan {α : Type} (scope : Journal.Scope) (name : String) (parent : Nat) (failDetail : String)
    (body : Journal.OpenSpan → BuildM m (α × Journal.OpenSpan × String)) : BuildM m α := do
  let s ← openSpan scope name parent
  match ← observe (body s) with
  | .ok (a, s, detail) => closeSpan s detail; return a
  | .error e => closeSpan s failDetail; throw e

/-- Does a pass over all sources; its result is a remark. Beginning and end of parsing are told. -/
def inPhase (root : Nat) (name : String) (body : BuildM m String) : BuildM m Unit := do
  if name = "parse" then modify (·.emit { stage := .parse, status := .working })
  let start ← now
  let finish := fun (note : String) => do
    let stop ← now
    modify fun b => { b with phases := b.phases.push ⟨name, start, stop, note⟩ }
    if name = "parse" then
      modify fun b => { b with timings := b.timings.set .parse (stop - start) }.emit
        { stage := .parse, status := .done, elapsed := stop - start }
  let s ← openSpan .pass name root
  match ← observe body with
  | .ok note => closeSpan s note; finish note
  | .error e => closeSpan s "failed"; finish "failed"; throw e

/-- Parses the target and everything it uses. -/
def discover : BuildM m String := do
  let b ← get
  let d : Discovery := { search := b.request.search, limit := b.limit }
  match ← (d.discover b.request.target : m _) with
  | .error e => throw (.load b.request.target e)
  | .ok d =>
    modify fun b => d.found.foldl
      (fun b s => b.ends s.summary.path .parse (s.report.firstError?.map .report) 0)
      { b with library := d.library, sources := d.found }
    return decimal d.found.length ++ " files"

/-- Stores a unit, if units are stored. -/
def persist (path : String) (u : CompiledUnit) : BuildM m Unit := do
  let dir := (← get).request.cache
  if dir = "" then return
  modify (·.begins path .persist 0)
  let start ← now
  let outcome ← (UnitCache.save dir u : m _)
  let elapsed := (← now) - start
  match outcome with
  | .ok _ => modify (·.ends path .persist none elapsed)
  | .error e =>
    modify (·.ends path .persist (some (.failure (.unitFile e))) elapsed)
    throw (.persist u.display e)

/-- Binds and lowers a source. One with errors is broken from then on. -/
def compileSource (src : FoundSource) (tree : Tree.File) : BuildM m Unit := do
  let name := src.summary.name
  let path := src.summary.path
  modify (·.begins path .bind 0)
  let start ← now
  let r ← step (·.bindSource src tree)
  let bound ← now
  if !r.errors.isEmpty then
    modify fun b =>
      let first := (b.source? name).bind (·.report.firstError?)
      (b.ends path .bind (first.map .report) (bound - start)).markBroken name first
  else
    modify (·.begins path .lower (bound - start))
    let u ← step fun b => (b.lowerSource src r.module).map (·, b)
    let lowered ← now
    modify (·.ends path .lower none (lowered - bound))
    match ← modifyGet (·.publish u) with
    | .error e => throw (.interface src.summary.display e)
    | .ok _ =>
      modify (·.record u)
      persist path u

/-- Takes a stored unit, if it is fresh and its interface can be read. -/
def reuse (src : FoundSource) (span : Journal.OpenSpan) : BuildM m (Bool × Journal.OpenSpan) := do
  let start ← now
  let b ← get
  let { name, path, content, .. } := src.summary
  match ← (UnitCache.load b.request.cache name : m _) with
  | .error e => throw (.unitFile e)
  | .ok stored =>
    match stored.fresh name path content (b.depsOf src) with
    | .error miss =>
      let _ ← now
      modify fun b => { b with journal := b.journal.point .module "cache:discard" miss.message span.id }
      return (false, span)
    | .ok none => return (false, span)
    | .ok (some u) =>
      let u := { u with file := src.file }
      let span := span.note "cached" "true"
      modify (·.record u)
      match ← modifyGet (·.publish u) with
      | .error _ => return (false, span)
      | .ok _ =>
        let elapsed := (← now) - start
        modify fun b => { b with reused := name :: b.reused }.ends path .load none elapsed
        return (true, span)

/-- Compiles one unit, unless it or a unit it uses is broken. -/
def compileUnit (root : Nat) (slot : GraphSlot) (src : FoundSource) : BuildM m Unit := do
  let name := src.summary.name
  inSpan .module ("module:" ++ name) root "" fun span => do
    let b ← get
    match src.tree with
    | some tree =>
      if slot.broken || src.failed then
        set (b.markBroken name (slot.firstError <|> src.report.firstError?))
        return ((), span, "")
      else if src.summary.uses.any fun u => b.isBroken u.name then
        set (b.markBroken name none)
        return ((), span, "")
      else
        let (reused, span) ← reuse src span
        if !reused then compileSource src tree
        return ((), span, "")
    | none =>
      set (b.markBroken name (slot.firstError <|> src.report.firstError?))
      return ((), span, "")

/-- Compiles all units, what is used first. Nothing is compiled if units use each other in a
cycle. -/
def compileAll (root : Nat) : BuildM m String := do
  let b ← get
  if !b.layering.isCyclic then
    b.layering.waves.flatten.forM fun i => do
      let b ← get
      match b.graph.slots[i]? with
      | none => return ()
      | some slot =>
        match (if slot.present then b.source? slot.summary.name else none) with
        | none => return ()
        | some src =>
          if b.request.cancelled then throw .cancelled
          compileUnit root slot src
  modify Build.reportBroken
  return ""

/-- All passes. -/
def passes : BuildM m Unit := do
  let target := (← get).request.target
  inSpan .command "compile" 0 target fun span => do
    inPhase span.id "parse" discover
    inPhase span.id "graph" do
      modify Build.layOut
      return decimal (← get).layering.batches.length ++ " waves"
    inPhase span.id "compile" (compileAll span.id)
    step fun b => b.finish.map ((), ·)
    return ((), span, target)

/-- Compiles the target. Errors in the sources count as a failure. -/
def compile : BuildM m Unit := do
  if (← get).request.target = "" then throw .noTarget
  match ← observe passes with
  | .error e =>
    modify (·.emit { stage := .parse, status := .error, error := some (.failure e) })
    throw e
  | .ok _ =>
    if (← get).report.hasErrors then
      modify (·.emit { stage := .bind, status := .error, error := some (.failure .diagnostics) })
      throw .diagnostics

end BuildM

end Pascaline
