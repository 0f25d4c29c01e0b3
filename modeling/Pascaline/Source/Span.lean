import Pascaline.Text.Bytes

/-!
# Places in source text
-/

namespace Pascaline

/-- The bytes `start ≤ i < stop` of one file. -/
structure Span where
  file : Nat := 0
  start : Nat := 0
  stop : Nat := 0
deriving Repr, DecidableEq, Inhabited

namespace Span

def isEmpty (s : Span) : Bool := s.start == s.stop

/-- The length as a 32-bit number: a span that ends before it starts wraps around. -/
def length (s : Span) : Nat := (s.stop + 0x100000000 - s.start) % 0x100000000

/-- The smallest span around both; spans of different files are not merged. -/
def cover (s t : Span) : Span :=
  if s.file = t.file then ⟨s.file, min s.start t.start, max s.stop t.stop⟩ else s

def render (s : Span) : String :=
  decimal s.file ++ ":" ++ decimal s.start ++ "-" ++ decimal s.stop

end Span

/-- A line and a column, both counted from one; zero stands for no place. -/
structure LineCol where
  line : Nat := 0
  col : Nat := 0
deriving Repr, DecidableEq, Inhabited

end Pascaline
