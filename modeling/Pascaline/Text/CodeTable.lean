import Pascaline.Text.Bytes

/-!
# Tables of code points

A table is written as text: words separated by blanks or line ends, each word a few hexadecimal numbers with
any other character between them, such as `41-5a`. Or it is written as numbers, each of which packs
the numbers of a row into six hexadecimal digits each. The rows stand in ascending order of their
first number, so a look-up halves the table.
-/

namespace Pascaline

/-- The rows of a table of code points, in ascending order of their first number. -/
structure CodeTable where
  rows : Array (List Nat)

namespace CodeTable

/-- Reader state: finished rows, the numbers of the row being read in reverse, and the number
being read. -/
private structure Reading where
  rows : Array (List Nat)
  row : List Nat
  number : Option Nat

private def Reading.closeNumber (r : Reading) : Reading :=
  match r.number with
  | some n => { r with row := n :: r.row, number := none }
  | none => r

private def Reading.closeRow (r : Reading) : Reading :=
  let r := r.closeNumber
  if r.row.isEmpty then r else { r with rows := r.rows.push r.row.reverse, row := [] }

private def Reading.char (r : Reading) (c : Char) : Reading :=
  match Bytes.hexDigit? (Bytes.ch c) with
  | some d => { r with number := some (16 * r.number.getD 0 + d) }
  | none => if c = ' ' || c = '\n' then r.closeRow else r.closeNumber

/-- Reads the text form of a table. -/
def ofText (s : String) : CodeTable :=
  ⟨(s.toList.foldl Reading.char ⟨#[], [], none⟩).closeRow.rows⟩

/-- The numbers of a packed row: `parts` of them after the first, which takes what is left. -/
def unpack : (parts : Nat) → Nat → List Nat
  | 0, x => [x]
  | parts + 1, x => unpack parts (x / 0x1000000) ++ [x % 0x1000000]

/-- The table of packed rows, with so many numbers after the first of each. -/
def ofPacked (parts : Nat) (rows : List Nat) : CodeTable := ⟨(rows.map (unpack parts)).toArray⟩

/-- The last of the rows `lo ≤ i < hi` whose first number is at most `c`, if the row before
`lo` is `best`. -/
def lastAtMost (rows : Array (List Nat)) (c lo hi : Nat) (best : List Nat) : List Nat :=
  if h : lo < hi then
    let mid := (lo + hi) / 2
    let row := rows.getD mid []
    if row.headD 0 ≤ c then lastAtMost rows c (mid + 1) hi row
    else lastAtMost rows c lo mid best
  else best
termination_by hi - lo

/-- The row that would hold `c`: the last one that starts at or before it. -/
def row (t : CodeTable) (c : Nat) : List Nat := lastAtMost t.rows c 0 t.rows.size []

/-- Membership in a table of single numbers and ranges. -/
def contains (t : CodeTable) (c : Nat) : Bool :=
  match t.row c with
  | [lo] => c == lo
  | [lo, hi] => lo ≤ c && c ≤ hi
  | _ => false

end CodeTable

end Pascaline
