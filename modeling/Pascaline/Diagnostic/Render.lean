import Pascaline.Diagnostic
import Pascaline.Text.CellWidth
import Pascaline.Text.Json

/-!
# Showing diagnostics

Three forms: one line each, with the source line and a mark under it, and a document for other
programs. All of them present a sorted report.
-/

namespace Pascaline

/-- How paths are shown. -/
inductive PathStyle where
  | asLoaded | absolute (cwd : String) | relative (base : String) | lastStep
deriving Repr

def PathStyle.show (style : PathStyle) (path : String) : String :=
  match style with
  | asLoaded => path
  | absolute cwd => Path.absolute cwd path
  | relative base => if base = "" then path else (Path.relative? base path).getD path
  | lastStep => Path.base path

/-! ## Colours -/

/-- A terminal style: the codes that turn it on and off. -/
structure Paint where
  on : String
  off : String

namespace Paint

def red : Paint := ⟨"31;1", "0;22"⟩

def yellow : Paint := ⟨"33;1", "0;22"⟩

def cyan : Paint := ⟨"36;1", "0;22"⟩

def blue : Paint := ⟨"34;1", "0;22"⟩

def green : Paint := ⟨"32;1", "0;22"⟩

def thinBlue : Paint := ⟨"34", "0"⟩

def bold : Paint := ⟨"1", "22"⟩

/-- Paints a text when colours are on. -/
def apply (p : Paint) (colored : Bool) (s : String) : String :=
  if colored then "\x1b[" ++ p.on ++ "m" ++ s ++ "\x1b[" ++ p.off ++ "m" else s

end Paint

def Severity.paint (s : Severity) : Paint :=
  if s = .error then .red else if s = .warning then .yellow else .cyan

namespace Report

def blanks (n : Nat) : Bytes := List.replicate n 32

/-- The place where a span starts, for people. -/
def location (lib : SourceLibrary) (style : PathStyle) (s : Span) : String :=
  match lib.get? s.file with
  | some f =>
    let p := LineCol.ofOffset f.newlines s.start
    style.show f.path ++ ":" ++ decimal p.line ++ ":" ++ decimal p.col
  | none => "<no-span>"

/-! ## One line each -/

def shortItem (lib : SourceLibrary) (notes : Bool) (d : Diagnostic) : Bytes :=
  utf8 (d.severity.render ++ " " ++ d.code.id ++ " " ++ location lib .lastStep d.span ++ " ") ++
    d.message ++ [10] ++
    (if notes then d.notes.flatMap fun n =>
      utf8 ("note " ++ d.code.id ++ " " ++ location lib .lastStep n.span ++ " ") ++ n.message ++ [10]
    else [])

/-- One line a diagnostic, and one a note when asked. -/
def short (r : Report) (lib : SourceLibrary) (notes : Bool) : Bytes :=
  r.sort.items.flatMap (shortItem lib notes)

/-! ## With the source line -/

/-- Tabs take four cells. -/
def expandTabs (s : Bytes) : Bytes := s.flatMap fun b => if b = 9 then blanks 4 else [b]

def cells (s : Bytes) : Nat := textCells (expandTabs s)

/-- The source line where a span starts, and marks under the part of the span on that line. -/
def excerpt (lib : SourceLibrary) (colored : Bool) (s : Span) : Bytes :=
  match lib.get? s.file with
  | none => []
  | some f =>
    let start := LineCol.ofOffset f.newlines s.start
    let stop := LineCol.ofOffset f.newlines s.stop
    let raw := f.line start.line
    if raw.isEmpty then []
    else
      let left := min (start.col - 1) raw.length
      let right := max left
        (if stop.line = start.line && stop.col - 1 ≤ raw.length then stop.col - 1 else raw.length)
      let width := max (cells ((raw.drop left).take (right - left))) 1
      let num := decimal start.line
      let bar := Paint.thinBlue.apply colored "|"
      let marks := String.ofList ('^' :: List.replicate (width - 1) '~')
      utf8 (" " ++ Paint.thinBlue.apply colored num ++ " " ++ bar ++ " ") ++ expandTabs raw ++ [10] ++
        [32] ++ blanks num.length ++ utf8 (" " ++ bar ++ " ") ++ blanks (cells (raw.take left)) ++
        utf8 (Paint.green.apply colored marks) ++ [10]

/-- How a report is shown in full. A limit of 0 shows everything. -/
structure PrettyStyle where
  colored : Bool := false
  paths : PathStyle := .asLoaded
  notes : Bool := false
  limit : Nat := 0

def prettyItem (lib : SourceLibrary) (style : PrettyStyle) (d : Diagnostic) : Bytes :=
  let at_ := fun (s : Span) => Paint.bold.apply style.colored (location lib style.paths s ++ ":")
  let grave := d.severity.paint.apply style.colored
  utf8 (at_ d.span ++ " " ++ grave d.severity.render ++ " " ++
      grave (d.code.id ++ " (" ++ d.code.name ++ ")") ++ ": ") ++ d.message ++ [10] ++
    excerpt lib style.colored d.span ++
    (if style.notes then d.notes.flatMap fun n =>
      utf8 (at_ n.span ++ " " ++ Paint.blue.apply style.colored "note:" ++ " ") ++ n.message ++ [10] ++
        excerpt lib style.colored n.span
    else [])

/-- Each diagnostic with its source line; past the limit only their number. -/
def pretty (r : Report) (lib : SourceLibrary) (style : PrettyStyle) : Bytes :=
  let items := r.sort.items
  let shown := if style.limit = 0 then items else items.take style.limit
  let more := items.length - shown.length
  shown.flatMap (prettyItem lib style) ++
    (if more = 0 then [] else utf8 ("... " ++ decimal more ++ " more\n"))

/-! ## For other programs -/

/-- What a document holds. A limit of 0 or less holds everything. -/
structure DocumentStyle where
  positions : Bool := false
  paths : PathStyle := .asLoaded
  limit : Int := 0
  notes : Bool := false

/-- Members whose number is zero are left out. -/
def positive (name : String) (n : Nat) : List (String × JsonDoc) :=
  if n = 0 then [] else [(name, .int n)]

def documentLocation (lib : SourceLibrary) (style : DocumentStyle) (s : Span) : JsonDoc :=
  let file := lib.get? s.file
  let path := match file with
    | some f => style.paths.show f.path
    | none => "<unknown>"
  let places := match file, style.positions with
    | some f, true =>
      let a := LineCol.ofOffset f.newlines s.start
      let b := LineCol.ofOffset f.newlines s.stop
      positive "start_line" a.line ++ positive "start_col" a.col ++ positive "end_line" b.line ++
        positive "end_col" b.col
    | _, _ => []
  .object ([("file", .str path), ("start_byte", .int s.start), ("end_byte", .int s.stop)] ++ places)

def documentItem (lib : SourceLibrary) (style : DocumentStyle) (d : Diagnostic) : JsonDoc :=
  let notes := if style.notes then d.notes.map fun n =>
      JsonDoc.object [("message", .text n.message), ("location", documentLocation lib style n.span)]
    else []
  .object ([("severity", .str d.severity.render), ("code", .str d.code.id), ("kind", .str d.code.name),
    ("message", .text d.message), ("location", documentLocation lib style d.span)] ++
    (if notes.isEmpty then [] else [("notes", .list notes)]))

/-- All diagnostics with their number, of which the limit may hold back some. -/
def document (r : Report) (lib : SourceLibrary) (style : DocumentStyle) : JsonDoc :=
  let items := r.sort.items
  let shown := if 0 < style.limit then items.take style.limit.toNat else items
  .object [("diagnostics", .list (shown.map (documentItem lib style))), ("count", .int items.length)]

end Report

end Pascaline
