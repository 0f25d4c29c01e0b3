import Pascaline.Value

/-!
# The heap

Objects and arrays live in cells addressed by handles. Cells that nothing reaches are reclaimed by
mark and sweep, and their handles are used again, the last one freed first. The budget limits the
words of all live cells together.

Handles have 32 bits. That is a capacity and not modelled: a run with a budget for `2 ^ 32` cells at
once stops when the last handle is taken, and nothing is said of such a run from there on.
-/

namespace Pascaline

/-- What a cell is: an object of the class of this number, or an array. Pointers made by `new` are
arrays of one element. -/
inductive CellKind where
  | object (classIndex : Nat)
  | array
deriving Repr, DecidableEq, Inhabited

/-- A live cell. A pinned one is kept even if nothing reaches it. `serial` numbers the allocations
of a heap, so that it tells apart the objects a handle denotes one after the other. -/
structure Cell where
  kind : CellKind
  elems : Array Value
  pins : Nat := 0
  serial : Nat := 0
deriving Inhabited

/-- A cell takes a word for itself and one for each element. -/
def Cell.words (c : Cell) : Nat := 1 + c.elems.size

/-- Cells by handle; the cell of handle 0 is never live. `free` lists the handles to be used again,
the next one first. -/
structure Heap where
  cells : Array (Option Cell) := #[none]
  free : List Handle := []
  budget : Int
  live : Nat := 0
  liveWords : Nat := 0
  allocs : Nat := 0
  frees : Nat := 0
  collections : Nat := 0
deriving Inhabited

namespace Heap

/-- The budget when none is asked for. -/
def defaultBudget : Int := 4194304

/-- An empty heap. A budget that is not positive stands for the default. -/
def ofBudget (budget : Int) : Heap := { budget := if budget ≤ 0 then defaultBudget else budget }

/-- Handles ever used. -/
def capacity (h : Heap) : Nat := h.cells.size - 1

/-- The live cell of a handle. -/
def get? (h : Heap) (handle : Handle) : Option Cell := (h.cells[handle]?).join

/-- Takes a handle for a new cell. Room has been made for it before, so that nothing is collected
while a value is half built. -/
def alloc (h : Heap) (kind : CellKind) (elems : Array Value) : Handle × Heap :=
  let cell : Cell := { kind, elems, serial := h.allocs }
  let counted := { h with allocs := h.allocs + 1, live := h.live + 1,
                          liveWords := h.liveWords + cell.words }
  match h.free with
  | handle :: free => (handle, { counted with cells := h.cells.set! handle (some cell), free })
  | [] => (h.cells.size, { counted with cells := h.cells.push (some cell) })

/-- Changes a live cell. -/
def update (h : Heap) (handle : Handle) (f : Cell → Cell) : Heap :=
  { h with cells := h.cells.modify handle (·.map f) }

/-- Replaces the elements of a cell; their number stays. -/
def setElems (h : Heap) (handle : Handle) (elems : Array Value) : Heap :=
  h.update handle ({ · with elems })

/-- Writes one element. -/
def write (h : Heap) (handle : Handle) (i : Nat) (v : Value) : Heap :=
  h.update handle fun c => { c with elems := c.elems.set! i v }

def pin (h : Heap) (handle : Handle) : Heap := h.update handle fun c => { c with pins := c.pins + 1 }

def unpin (h : Heap) (handle : Handle) : Heap := h.update handle fun c => { c with pins := c.pins - 1 }

/-! ## Collection -/

/-- The handles found so far, and those of them whose cells are still to be looked into. -/
structure Marking where
  marked : Array Bool
  work : List Handle

/-- Notes a value that is reached. -/
def mark (h : Heap) (s : Marking) (v : Value) : Marking :=
  match v with
  | .ref handle =>
    if (h.get? handle).isSome && !s.marked.getD handle false then
      ⟨s.marked.set! handle true, handle :: s.work⟩
    else s
  | _ => s

def markAll (h : Heap) (s : Marking) (vs : List Value) : Marking := vs.foldl h.mark s

/-- Looks into all cells found. A handle is put on the list once at most, so as many rounds as
there are cells do. -/
def spread (h : Heap) : (rounds : Nat) → Marking → Marking
  | 0, s => s
  | rounds + 1, s =>
    match s.work with
    | [] => s
    | handle :: work =>
      let elems := ((h.get? handle).map (·.elems.toList)).getD []
      h.spread rounds (h.markAll { s with work } elems)

/-- The pinned cells, as references. -/
def pinned (h : Heap) : List Value :=
  h.cells.toList.zipIdx.filterMap fun (c, i) => if c.any (0 < ·.pins) then some (.ref i) else none

/-- The handles that the roots or pinned cells reach, as flags by handle. -/
def reached (h : Heap) (roots : List Value) : Array Bool :=
  let start := h.markAll ⟨Array.replicate h.cells.size false, []⟩ (roots ++ h.pinned)
  (h.spread h.cells.size start).marked

/-- The handles of the live cells that are not reached, in order. -/
def garbage (h : Heap) (reached : Array Bool) : List Handle :=
  (List.range h.cells.size).filter fun i => (h.get? i).isSome && !reached.getD i false

/-- Frees one cell. -/
def release (h : Heap) (handle : Handle) : Heap :=
  match h.get? handle with
  | none => h
  | some c => { h with cells := h.cells.set! handle none, free := handle :: h.free,
                       live := h.live - 1, liveWords := h.liveWords - c.words,
                       frees := h.frees + 1 }

/-- Frees all cells that neither the roots nor pinned cells reach. -/
def collect (h : Heap) (roots : List Value) : Heap :=
  (h.garbage (h.reached roots)).foldl release { h with collections := h.collections + 1 }

/-- Whether so many more words fit. The sum is one of 64-bit words. -/
def fits (h : Heap) (words : Int) : Bool := ((h.liveWords : Int) + words).bmod 0x10000000000000000 ≤ h.budget

end Heap

end Pascaline
