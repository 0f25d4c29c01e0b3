import Pascaline.Build.Event
import Pascaline.Text.CellWidth
import Pascaline.Text.RealText

/-!
# Showing progress

A table with a row for each file and a bar under it, drawn anew after every event of a build. The
bar follows the progress of the build on a spring.
-/

namespace Pascaline

namespace Stage

/-- What goes on in a stage. -/
def activity : Stage → String
  | parse => "parsing"
  | bind => "binding"
  | lower => "lowering"
  | load => "loading"
  | persist => "saving"
  | link => "linking"
  | run => "running"

/-- How much of the work on a file is behind it. -/
def weight : Stage → Float
  | parse => 0.1
  | bind => 0.4
  | lower => 0.7
  | load | persist => 0.9
  | link | run => 0

end Stage

/-- A file of the build. One that nothing was told about is in no stage yet. -/
structure ProgressRow where
  path : String
  stage : Option Stage := none
  status : Status := .queued
  /-- Microseconds. -/
  elapsed : Nat := 0
  /-- What went wrong with it last. -/
  error : Option Bytes := none

namespace ProgressRow

def isFinished (r : ProgressRow) : Bool := r.status = .done || r.status = .error

def label (r : ProgressRow) : String :=
  match r.status with
  | .queued => "queued"
  | .error => "error"
  | .done => if r.stage = some .load then "cached" else "done"
  | .working => (r.stage.map (·.activity)).getD ""

/-- The share of the work that is done: all of it once the file is finished. -/
def share (r : ProgressRow) : Float :=
  if r.isFinished then 1 else (r.stage.map (·.weight)).getD 0

end ProgressRow

/-! ## The bar -/

/-- A bar that moves towards a target, both as fractions of the whole. -/
structure ProgressBar where
  width : Nat := 76
  target : Float := 0
  shown : Float := 0
  velocity : Float := 0

namespace ProgressBar

/-- Seconds between two frames, sixty a second. -/
def frameTime : Float := 0.016666666

/-- Radians a second of the spring, which is damped so that it does not swing. -/
def frequency : Float := 18

def clamp (x : Float) : Float := if x ≤ 0 then 0 else if 1 ≤ x then 1 else x

/-- Whether the bar has come to rest at its target. -/
def isSettled (b : ProgressBar) : Bool := (b.shown - b.target).abs < 0.001 && b.velocity < 0.01

/-- The next frame of the movement. -/
def frame (b : ProgressBar) : ProgressBar :=
  if b.isSettled then b
  else
    let decay := (-(frequency * frameTime)).exp
    let timed := frameTime * decay
    let scaled := timed * frequency
    let distance := b.shown - b.target
    { b with shown := distance * (scaled + decay) + b.velocity * timed + b.target
             velocity := distance * (-frequency * scaled) + b.velocity * (-scaled + decay) }

def frames : (n : Nat) → ProgressBar → ProgressBar
  | 0, b => b
  | n + 1, b => frames n b.frame

/-- The bar at a fraction, with its percentage. -/
def draw (width : Nat) (fraction : Float) : String :=
  let percent := RealText.fixed 0 (100 * clamp fraction)
  let percent := " " ++ String.ofList (List.replicate (3 - percent.length) ' ') ++ percent ++ "%"
  let total := width - percent.length
  let filled := min total ((Float.ofNat total * fraction).round.toUInt64.toNat)
  String.ofList (List.replicate filled '█' ++ List.replicate (total - filled) '░') ++ percent

end ProgressBar

/-! ## The view -/

/-- What is shown of a build. -/
structure ProgressView where
  title : String
  rows : List ProgressRow := []
  /-- What goes on with all files. -/
  phase : String := ""
  failed : Bool := false
  done : Bool := false
  /-- Cells of the terminal. -/
  width : Nat := 80
  bar : ProgressBar := {}
  /-- How often the spinner has turned. -/
  turns : Nat := 0

namespace ProgressView

/-- The row of a file, which is added if need be. -/
def addRow (v : ProgressView) (path : String) : ProgressView :=
  if v.rows.any (·.path == path) then v else { v with rows := v.rows ++ [{ path }] }

def start (title : String) (files : List String) : ProgressView := files.foldl addRow { title }

/-- The progress over all files, in the order of the rows. -/
def fraction (v : ProgressView) : Float :=
  if v.rows.isEmpty then 0
  else v.rows.foldl (fun total r => total + r.share) 0 / Float.ofNat v.rows.length

/-- Takes in news about a file. -/
def updateFile (v : ProgressView) (path : String) (stage : Stage) (status : Status) (elapsed : Nat)
    (error : Option Bytes) : ProgressView :=
  let v := v.addRow path
  let rows := v.rows.map fun (r : ProgressRow) =>
    if r.path = path then
      { r with stage := some stage, status, elapsed := r.elapsed + elapsed, error := error <|> r.error }
    else r
  let v := { v with rows }
  { v with bar := { v.bar with target := ProgressBar.clamp v.fraction } }

/-- Takes in news about the whole build, which move no row. -/
def updatePhase (v : ProgressView) (stage : Stage) (status : Status) : ProgressView :=
  { v with failed := v.failed || status = .error
           phase := if status = .working then stage.activity else v.phase }

def update (v : ProgressView) (file : String) (stage : Stage) (status : Status) (elapsed : Nat)
    (error : Option Bytes) : ProgressView :=
  if file = "" then v.updatePhase stage status else v.updateFile file stage status elapsed error

/-- Takes in an event of a build. -/
def apply (v : ProgressView) (e : BuildEvent) : ProgressView :=
  v.update e.file e.stage e.status e.elapsed (e.error.map (·.message))

/-- The build is over. -/
def finish (v : ProgressView) : ProgressView := { v with done := true }

/-- Turns the spinner while the build goes on. -/
def tick (v : ProgressView) : ProgressView := if v.done then v else { v with turns := v.turns + 1 }

/-- The terminal has a new width. -/
def resize (v : ProgressView) (width : Nat) : ProgressView :=
  if width = 0 then v else { v with width, bar := { v.bar with width := max (width - 4) 10 } }

def animate (v : ProgressView) (frames : Nat) : ProgressView :=
  { v with bar := v.bar.frames frames }

/-! ## Drawing -/

def spinner : List String := ["⣾ ", "⣽ ", "⣻ ", "⢿ ", "⡿ ", "⣟ ", "⣯ ", "⣷ "]

def header (v : ProgressView) : String :=
  if v.done then (if v.failed then "failed: " else "done: ") ++ v.title
  else
    spinner.getD (v.turns % spinner.length) "" ++ " " ++ v.title ++
      (if v.phase = "" then "" else " (" ++ v.phase ++ ")")

/-- Cells of the column with the state of a file. -/
def statusWidth : Nat := 10

/-- Cells that the name of a file may take. -/
def nameWidth (v : ProgressView) : Nat := max (v.width - statusWidth - 16) 20

/-- Cuts a text that is too wide. -/
def shorten (v : ProgressView) (s : Bytes) : Bytes := truncateCells s v.nameWidth (utf8 "...")

/-- The state column, filled up from the left. -/
def statusCell (label : String) : String :=
  "  " ++ String.ofList (List.replicate (statusWidth - label.length) ' ') ++ label ++ " "

def drawRow (v : ProgressView) (r : ProgressRow) : Bytes :=
  let elapsed :=
    if r.isFinished && 0 < r.elapsed then
      " " ++ millisText 1 r.elapsed ++ "ms"
    else ""
  let line := utf8 (statusCell r.label) ++ v.shorten (utf8 r.path) ++ utf8 (elapsed ++ "\n")
  match r.error with
  | some e =>
    if v.done then line ++ utf8 (statusCell "") ++ v.shorten e ++ utf8 "\n" else line
  | none => line

/-- The whole view. As long as nothing is known, nothing is shown. -/
def draw (v : ProgressView) : Bytes :=
  if v.rows.isEmpty && v.phase = "" then []
  else
    utf8 (v.header ++ "\n\n") ++ v.rows.flatMap v.drawRow ++
      utf8 ("\n" ++ ProgressBar.draw v.bar.width (if v.done then 1 else v.bar.shown) ++ "\n")

end ProgressView

end Pascaline
