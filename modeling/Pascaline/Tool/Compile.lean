import Pascaline.Build.Run
import Pascaline.Diagnostic.Render
import Pascaline.Tool.Settings
import Pascaline.Tool.Watch

/-!
# Commands that compile

Running a program, building it into stored units, and reporting what is wrong with it.
-/

namespace Pascaline.Tool

/-- What every command needs to know: whether to use colours, and the command line. -/
structure Setting where
  colored : Bool
  line : Invocation

namespace Setting

def limit (s : Setting) : Int := s.line.number "max-diagnostics" 100

def format (s : Setting) : String := s.line.word "format" "pretty"

end Setting

variable {m : Type → Type} [Monad m] [FileStore m] [Clock m]

/-! ## Reports -/

/-- Writes a report: for people to the channel of errors, for other programs to that of results. -/
def printReport (s : Setting) (base : String) (lib : SourceLibrary) (notes : Bool) (r : Report) :
    CommandM m Unit :=
  let r := r.sort.dedup
  match s.format with
  | "pretty" | "" => CommandM.err (r.pretty lib
      { colored := s.colored, paths := .relative base, notes := true, limit := s.limit.toNat })
  | "short" => CommandM.err (r.short lib notes)
  | "json" => CommandM.out (utf8 ((r.document lib
      { positions := true, paths := .relative base, limit := s.limit, notes }).indented 0 ++ "\n"))
  | word => CommandM.fail (.badFormat word)

/-- Drops warnings or makes them errors. -/
def filterWarnings (r : Report) (drop promote : Bool) (limit : Int) : Report :=
  if !drop && !promote then r
  else r.items.foldl (fun kept d =>
    if d.severity ≠ .warning then kept.add d
    else if drop then kept
    else kept.add { d with severity := .error }) (Report.withLimit limit)

/-! ## Timings -/

/-- What the stages of a build took. -/
def stageTimings (t : Timings) (withRun : Bool) : String :=
  let line := fun (stages : List Stage) (word : String) =>
    if stages.any t.has then
      word ++ " " ++ millisText 1 (stages.foldl (fun n s => n + t.get s) 0) ++ " ms\n"
    else ""
  line [.parse] "parsed" ++ line [.bind] "bound" ++ line [.load] "loaded" ++
    line [.lower, .persist, .link] "built" ++ (if withRun then line [.run] "ran" else "")

/-- The state of the heap at the end of a run. -/
def heapSummary (h : Heap) : String :=
  "heap " ++ decimal h.live ++ " live (" ++ signedDecimal h.liveWords ++ " words), " ++
    decimal h.allocs ++ " allocs, " ++ decimal h.frees ++ " frees, " ++ decimal h.collections ++
    " collections\n"

/-- What the passes of a build took, as a table. -/
def passTimings (phases : List Phase) : String :=
  let row := fun (name : String) (micros : Nat) (note : String) =>
    let time := millisText 2 micros
    "  " ++ CommandLine.padded 24 name ++ " " ++
      String.ofList (List.replicate (8 - time.length) ' ') ++ time ++ " ms" ++
      (if note = "" then "" else "  // " ++ note) ++ "\n"
  let first := (phases.map (·.start)).foldl min ((phases.head?.map (·.start)).getD 0)
  let last := (phases.map (·.stop)).foldl max 0
  "timings:\n" ++ String.join (phases.map fun p => row p.name (p.stop - p.start) p.note) ++
    row "total" (last - first) ""

/-! ## Commands -/

/-- Builds with everything that was asked for around it. -/
def withBuild {α : Type} (s : Setting) (checks : Settings → Except CommandError BuildRequest)
    (work : Settings → BuildM m α)
    (rest : Settings → Except BuildError α → Build → CommandM m Unit) : CommandM m Unit :=
  profiled s.line do
    let plan ← JournalPlan.prepare s.line
    let settings ← Settings.ofInvocation s.line
    match checks settings with
    | .error e => CommandM.fail e
    | .ok request =>
      let (r, b) ← ((work settings).perform { request with level := plan.level } : m _)
      plan.write b.journal
      rest settings r b

/-- The flag of the progress view is checked. The view itself needs a terminal of its own. -/
def checkProgress (i : Invocation) : Except CommandError Unit :=
  let word := i.word "ui" "auto"
  if ["", "auto", "on", "off"].contains (trimText (lowerText word)) then .ok ()
  else .error (.badProgress word)

/-- Compiles a program and runs it. -/
def runProgram (s : Setting) (console : Console m) : CommandM m Unit :=
  let checks := fun (settings : Settings) => do
    checkProgress s.line
    return settings.request s.limit .off
  let work := fun (settings : Settings) => BuildM.run
    { heapBudget := settings.heapBudget, maxFrames := settings.maxFrames,
      traced := s.line.switch "vm-trace" } console.input
  withBuild s checks work fun settings r b => do
    match r with
    | .error .diagnostics =>
      printReport s settings.base b.library true b.report
      throw (.exit 1)
    | .error e => CommandM.fail (.build e)
    | .ok result =>
      CommandM.out result.output
      CommandM.err (result.trace.flatMap (· ++ utf8 "\n"))
      if !b.report.items.isEmpty then printReport s settings.base b.library true b.report
      match result.fault with
      | some f => CommandM.err (f.report (some b.library))
      | none => pure ()
      if s.line.switch "timings" then
        CommandM.err (utf8 (stageTimings b.timings true ++ heapSummary result.heap))
      CommandM.exitWith result.exitCode

/-- Compiles a program into stored units. -/
def buildProgram (s : Setting) : CommandM m Unit :=
  let checks := fun (settings : Settings) => do
    checkProgress s.line
    return settings.request s.limit .off
  withBuild s checks (fun _ => BuildM.build) fun settings r b => do
    if !b.report.items.isEmpty then printReport s settings.base b.library true b.report
    match r with
    | .error .diagnostics => throw (.exit 1)
    | .error e => CommandM.fail (.build e)
    | .ok _ =>
      if !s.line.switch "quiet" then
        let reused := b.units.filter fun u => b.reused.contains u.name
        CommandM.out (utf8 ("built " ++ decimal b.units.length ++ " units (" ++
          decimal reused.length ++ " reused) into " ++ settings.display settings.cache ++ "\n"))
      if s.line.switch "timings" then CommandM.err (utf8 (stageTimings b.timings false))

/-- Reports what is wrong with a program. Nothing is stored. -/
def reportProgram (s : Setting) : CommandM m Unit :=
  let drop := s.line.switch "no-warnings"
  let promote := s.line.switch "warnings-as-errors"
  let checks := fun (settings : Settings) =>
    if drop && promote then .error .warningsTwice
    else .ok { settings.request s.limit .off with cache := "" }
  withBuild s checks (fun _ => BuildM.compile) fun settings r b => do
    let finish : CommandM m Unit := do
      let report := filterWarnings b.report drop promote s.limit
      if !report.items.isEmpty || s.format = "json" then
        printReport s settings.base b.library (s.line.switch "with-notes") report
      if s.line.switch "timings" then CommandM.err (utf8 (passTimings b.phases.toList))
      if report.hasErrors then throw (.exit 1)
    match r with
    | .error .diagnostics => finish
    | .error e => CommandM.fail (.build e)
    | .ok _ => finish

end Pascaline.Tool
