import Pascaline.Digest
import Pascaline.Source.Path
import Pascaline.Source.Span

/-!
# Source files

A library holds every source text of one session in the order in which they were added. A file
knows the offsets of its newlines, and so the line and column of every offset.
-/

namespace Pascaline

/-- How the bytes of a file were obtained. -/
structure FileOrigin where
  /-- Given in memory. -/
  inMemory : Bool := false
  /-- A byte order mark was dropped. -/
  hadMark : Bool := false
  /-- Line ends of two bytes became newlines. -/
  hadCrLf : Bool := false
deriving Repr, DecidableEq, Inhabited

/-- One source text; `path` is clean. -/
structure SourceFile where
  id : Nat
  path : String
  content : Bytes
  newlines : List Nat
  digest : Digest
  origin : FileOrigin
deriving Repr, Inhabited

/-- The offsets of the newlines of a text that starts at offset `i`, as far as 32 bits hold them. -/
def newlineOffsets : (i : Nat) → Bytes → List Nat
  | _, [] => []
  | i, b :: rest =>
    if b = 10 then if i < 0x100000000 then i :: newlineOffsets (i + 1) rest else []
    else newlineOffsets (i + 1) rest

/-- The first number from `lo` on that passes a test, or `hi`: found by halving, as all numbers above
one that passes are taken to pass too. -/
def bisect (test : Nat → Bool) (lo hi : Nat) : Nat :=
  if lo < hi then
    let mid := (lo + hi) / 2
    if test mid then bisect test lo mid else bisect test (mid + 1) hi
  else lo
termination_by hi - lo

/-- The place of an offset: the newlines before it count the lines. Both numbers have 32 bits; a
line beyond them counts as the last, and a column wraps around. -/
def LineCol.ofOffset (newlines : List Nat) (offset : Nat) : LineCol :=
  let before := bisect (fun i => offset ≤ newlines.getD i 0) 0 newlines.length
  let lineStart := if before = 0 then 0 else newlines.getD (before - 1) 0 + 1
  ⟨min (before + 1) 0xffffffff, (offset - lineStart + 1) % 0x100000000⟩

namespace SourceFile

/-- The offsets at which line `n`, counted from one, starts and ends. -/
def lineBounds (f : SourceFile) (n : Nat) : Nat × Nat :=
  let start := if n ≤ 1 then 0 else f.newlines.getD (n - 2) 0 + 1
  (start, f.newlines.getD (n - 1) f.content.length)

/-- Line `n`, counted from one, without its newline; empty when there is no such line. -/
def line (f : SourceFile) (n : Nat) : Bytes :=
  if n = 0 || f.newlines.length + 1 < n then []
  else
    let (start, stop) := f.lineBounds n
    (f.content.drop start).take (stop - start)

end SourceFile

/-- Every source text of a session; the id of a file is its position. -/
structure SourceLibrary where
  files : Array SourceFile := #[]
deriving Inhabited

namespace SourceLibrary

/-- Adds a text under a path. A path may be added again: the newest text is then its latest. -/
def add (lib : SourceLibrary) (path : String) (content : Bytes) (origin : FileOrigin) :
    Nat × SourceLibrary :=
  let id := lib.files.size
  (id, ⟨lib.files.push
    ⟨id, Path.clean path, content, newlineOffsets 0 content, Digest.ofBytes content, origin⟩⟩)

/-- Adds a text given in memory. -/
def addText (lib : SourceLibrary) (name : String) (content : Bytes) : Nat × SourceLibrary :=
  lib.add name content { inMemory := true }

/-- Turns line ends of two bytes into newlines; a lone carriage return stays. -/
def dropCarriageReturns : Bytes → Bytes
  | 13 :: 10 :: rest => 10 :: dropCarriageReturns rest
  | b :: rest => b :: dropCarriageReturns rest
  | [] => []

/-- Drops the byte order mark. -/
def dropMark : Bytes → Bytes × Bool
  | 0xef :: 0xbb :: 0xbf :: rest => (rest, true)
  | content => (content, false)

/-- Adds the bytes of a file of the disk, without a byte order mark and with plain newlines. -/
def load (lib : SourceLibrary) (path : String) (raw : Bytes) : Nat × SourceLibrary :=
  let (content, hadMark) := dropMark raw
  let plain := dropCarriageReturns content
  lib.add path plain ⟨false, hadMark, plain.length != content.length⟩

def get? (lib : SourceLibrary) (id : Nat) : Option SourceFile := lib.files[id]?

/-- The newest file under a path. -/
def latest? (lib : SourceLibrary) (path : String) : Option Nat :=
  (lib.files.toList.reverse.find? (·.path == Path.clean path)).map (·.id)

/-- The places of both ends of a span. -/
def resolve (lib : SourceLibrary) (s : Span) : LineCol × LineCol :=
  match lib.get? s.file with
  | some f => (.ofOffset f.newlines s.start, .ofOffset f.newlines s.stop)
  | none => ({}, {})

/-- `path:line:col` of the start of a span. -/
def position (lib : SourceLibrary) (s : Span) : String :=
  match lib.get? s.file with
  | some f =>
    let at_ := LineCol.ofOffset f.newlines s.start
    f.path ++ ":" ++ decimal at_.line ++ ":" ++ decimal at_.col
  | none => "<no-span>"

end SourceLibrary

end Pascaline
