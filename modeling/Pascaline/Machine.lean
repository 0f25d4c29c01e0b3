import Pascaline.Heap
import Pascaline.Machine.Fault
import Pascaline.Program

/-!
# The machine

A run of a linked program: the variables of its units, the heap, and a stack of frames. Executing an
instruction either goes on, or ends the run with a fault, or breaks the machine down, which only
code that no compiler makes can do.
-/

namespace Pascaline

/-- How far a frame has come. -/
inductive FrameState where
  | ready | running | suspended | returned | faulted
deriving Repr, DecidableEq, Inhabited

def FrameState.render : FrameState → String
  | ready => "ready"
  | running => "running"
  | suspended => "suspended"
  | returned => "returned"
  | faulted => "faulted"

/-- A routine that is being executed; the top of the operand stack comes first. -/
structure Frame where
  unit : Nat
  name : String
  routine : Routine
  locals : Array Value
  operands : List Value := []
  block : Int := 0
  ip : Nat := 0
  state : FrameState := .ready
  span : Span := ⟨0, 0, 0⟩
deriving Inhabited

/-- The instruction to be executed next. -/
def Frame.instr? (f : Frame) : Option Instr :=
  if f.block < 0 then none else (f.routine.blocks[f.block.toNat]?).bind fun b => b[f.ip]?

/-- What a run shows of itself when it is traced. -/
inductive TraceEvent where
  | instr (depth : Nat) (routine : String) (block : Int) (ip : Nat) (instr : Instr) (span : Span)
  | enter (depth : Nat) (routine : String)
  | leave (depth : Nat) (routine : String) (result : Option Value)
  | alloc (kind : CellKind) (handle : Handle) (elems : Nat)
  | collect (freed live : Nat)

namespace TraceEvent

/-- One line. -/
def render (sources : Option SourceLibrary) : TraceEvent → Bytes
  | instr d r b i code span =>
    utf8 ("[depth=" ++ decimal d ++ "] " ++ r ++ " bb" ++ signedDecimal b ++ ":ip" ++ decimal i ++
      " " ++ code.render ++ " @ " ++ span.place sources)
  | enter d r => utf8 ("[depth=" ++ decimal d ++ "] enter " ++ r)
  | leave d r none => utf8 ("[depth=" ++ decimal d ++ "] leave " ++ r)
  | leave d r (some v) => utf8 ("[depth=" ++ decimal d ++ "] leave " ++ r ++ " = ") ++ v.listing
  | alloc (.object _) h n =>
    utf8 ("[heap] alloc object#" ++ decimal h ++ " (" ++ decimal n ++ " slots)")
  | alloc .array h n => utf8 ("[heap] alloc array#" ++ decimal h ++ " (" ++ decimal n ++ " elems)")
  | collect freed live =>
    utf8 ("[heap] collect freed=" ++ decimal freed ++ " live=" ++ decimal live)

end TraceEvent

/-- The state of a run. The innermost frame comes first; `events` is absent when the run is not
traced. -/
structure Machine where
  globals : Array (Array Value) := #[]
  heap : Heap
  frames : List Frame := []
  pending : List Program.EntryPoint := []
  maxFrames : Nat
  exitCode : Int := 0
  halted : Bool := false
  stopping : Bool := false
  output : Array UInt8 := #[]
  input : Option Bytes := none
  events : Option (Array TraceEvent) := none
deriving Inhabited

/-- How an instruction may end the run. -/
inductive Stop where
  | fault (f : Fault)
  | breakdown

/-- A part of an instruction. What it did before it failed stays done. -/
abbrev Exec (α : Type) := EStateM Stop Machine α

namespace Machine

/-- Nothing is left to execute. -/
def isDone (m : Machine) : Bool := m.halted || (m.frames.isEmpty && m.pending.isEmpty)

/-- All values that the collector starts from. -/
def roots (m : Machine) : List Value :=
  m.globals.toList.flatMap Array.toList ++
    m.frames.flatMap fun f => f.locals.toList ++ f.operands

/-- A fault at the current instruction. -/
def faultOf (m : Machine) (cause : FaultCause) : Fault :=
  { cause, span := (m.frames.head?.map (·.span)).getD ⟨0, 0, 0⟩,
    backtrace := m.frames.map fun f => (f.name, f.span) }

def log (m : Machine) (e : TraceEvent) : Machine :=
  match m.events with
  | none => m
  | some es => { m with events := some (es.push e) }

end Machine

namespace Exec

def raise {α : Type} (cause : FaultCause) : Exec α := fun m => .error (.fault (m.faultOf cause)) m

def invalid {α : Type} (b : BadCode) : Exec α := raise (.invalidCode b)

def breakdown {α : Type} : Exec α := throw .breakdown

/-- A value that only malformed code lacks. -/
def expect {α : Type} : Option α → Exec α
  | some a => return a
  | none => breakdown

/-- An entry of a table, by an operand. -/
def entry {α : Type} (xs : Array α) (i : Int) : Exec α :=
  expect (if i < 0 then none else xs[i.toNat]?)

def log (e : Machine → TraceEvent) : Exec Unit := modify fun m => if m.events.isSome then m.log (e m) else m

/-! ## The operand stack -/

def top : Exec Frame := do expect (← get).frames.head?

def modifyTop (f : Frame → Frame) : Exec Unit :=
  modify fun m => match m.frames with
    | frame :: rest => { m with frames := f frame :: rest }
    | [] => m

def push (v : Value) : Exec Unit := modifyTop fun f => { f with operands := v :: f.operands }

def pop : Exec Value := fun m =>
  match m.frames with
  | f :: rest =>
    match f.operands with
    | v :: vs => .ok v { m with frames := { f with operands := vs } :: rest }
    | [] => .error .breakdown m
  | [] => .error .breakdown m

def peek : Exec Value := do expect (← top).operands.head?

/-- Takes so many values off the stack, the last one being the top. -/
def popMany (n : Int) : Exec (List Value) := do
  let f ← top
  if n < 0 || (f.operands.length : Int) < n then breakdown
  else
    modifyTop fun f => { f with operands := f.operands.drop n.toNat }
    return (f.operands.take n.toNat).reverse

end Exec

/-! ## Room on the heap -/

/-- The heap words that a new slot takes, as a 64-bit word: a fixed array has a cell of its own,
and so have the arrays in it. -/
def Shape.words : Shape → Int
  | .array n e => (1 + n + n * e.words).bmod 0x10000000000000000
  | .hollow n => (1 + n).bmod 0x10000000000000000
  | _ => 0

/-- The heap words that a list of new slots takes. -/
def slotWords (shapes : List Shape) : Int :=
  shapes.foldl (fun n s => (n + s.words).bmod 0x10000000000000000) 0

namespace Exec

/-- Frees what nothing reaches. -/
def collect : Exec Unit := do
  let before := (← get).heap.live
  modify fun m => { m with heap := m.heap.collect m.roots }
  log fun m => .collect (before - m.heap.live) m.heap.live

/-- Makes room for so many words. -/
def reserve (words : Int) : Exec Unit := do
  if words = 0 then return
  if (← get).heap.fits words then return
  collect
  if !(← get).heap.fits words then raise (.heapExhausted words (← get).heap.budget)

/-- No memory holds a cell of more elements. -/
def maxElems : Int := 0x40000000000

/-- Takes a cell whose elements are filled in later. -/
def alloc (kind : CellKind) (n : Int) : Exec Handle := do
  if n < 0 || maxElems < n then breakdown
  let h ← modifyGet fun m =>
    let (h, heap) := m.heap.alloc kind (Array.replicate n.toNat .invalid)
    (h, { m with heap })
  log fun _ => .alloc kind h n.toNat
  return h

/-- Adds the values of so many runs. -/
def fill (x : Exec Value) : (n : Nat) → Array Value → Exec (Array Value)
  | 0, vs => return vs
  | n + 1, vs => do fill x n (vs.push (← x))

/-- The value a new slot starts with. Room for its arrays has been made. -/
def zero : Shape → Exec Value
  | .array n e => do
    let h ← alloc .array n
    let elems ← fill (zero e) n.toNat #[]
    modify fun m => { m with heap := m.heap.setElems h elems }
    return .ref h
  | .hollow _ => invalid .hollowArray
  | s => return s.initial

def zeroAll : List Shape → Exec (List Value)
  | [] => return []
  | s :: ss => do
    let v ← zero s
    return v :: (← zeroAll ss)

end Exec

end Pascaline
