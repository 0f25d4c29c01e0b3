import Pascaline.Text.Quoted
import Pascaline.Types
import Pascaline.Value

/-!
# Code of the stack machine

A routine is a list of basic blocks over a frame of slots. Operands refer to the pool of the unit:
constants, routines, unit variables, classes, built-in routines and shapes.
-/

namespace Pascaline

/-! ## Operations -/

/-- The operations of the machine. Numbers past the last one are unknown operations. -/
inductive Op where
  | nop | const | pop | dup
  | loadLocal | storeLocal | loadGlobal | storeGlobal | loadField | storeField
  | loadElem | storeElem | loadChar
  | add | sub | mul | quot | div | mod | neg | not | and | or | xor | shl | shr | concat
  | intToReal | charToString
  | eq | ne | lt | le | gt | ge
  | jump | branch | ret
  | call | callVirtual | callNative | callIndirect
  | newObject | unpin | newArray | newCell | routine | succ | pred
  | unknown (number : Nat)
deriving Repr, DecidableEq, Inhabited

namespace Op

/-- The known operations, by number. -/
def all : List Op :=
  [nop, const, pop, dup, loadLocal, storeLocal, loadGlobal, storeGlobal, loadField, storeField,
   loadElem, storeElem, loadChar, add, sub, mul, quot, div, mod, neg, not, and, or, xor, shl, shr,
   concat, intToReal, charToString, eq, ne, lt, le, gt, ge, jump, branch, ret, call, callVirtual,
   callNative, callIndirect, newObject, unpin, newArray, newCell, routine, succ, pred]

def number : Op → Nat
  | unknown n => n
  | op => all.findIdx (· = op)

def ofNumber (n : Nat) : Op := all.getD n (unknown n)

def render : Op → String
  | nop => "nop" | const => "const" | pop => "pop" | dup => "dup"
  | loadLocal => "load.local" | storeLocal => "store.local"
  | loadGlobal => "load.global" | storeGlobal => "store.global"
  | loadField => "load.field" | storeField => "store.field"
  | loadElem => "load.elem" | storeElem => "store.elem" | loadChar => "load.char"
  | add => "add" | sub => "sub" | mul => "mul" | quot => "rdiv" | div => "div" | mod => "mod"
  | neg => "neg" | not => "not" | and => "and" | or => "or" | xor => "xor" | shl => "shl"
  | shr => "shr" | concat => "concat" | intToReal => "itor" | charToString => "ctos"
  | eq => "eq" | ne => "ne" | lt => "lt" | le => "le" | gt => "gt" | ge => "ge"
  | jump => "jump" | branch => "branch" | ret => "return"
  | call => "call" | callVirtual => "call.virtual" | callNative => "call.native"
  | callIndirect => "call.indirect" | newObject => "new.object" | unpin => "unpin"
  | newArray => "new.array" | newCell => "new.cell" | routine => "routine" | succ => "succ"
  | pred => "pred" | unknown n => "op(" ++ decimal n ++ ")"

/-- Reads a name; unknown operations are written by number. -/
def ofName? (s : String) : Option Op :=
  match all.find? (·.render == s) with
  | some op => some op
  | none =>
    let digits := (utf8 s).drop 3 |>.dropLast
    (Bytes.nat? digits).bind fun n => if (unknown n).render == s then some (unknown n) else none

/-- Operations that end a block. -/
def isTerminator : Op → Bool
  | jump | branch | ret => true
  | _ => false

end Op

/-- An operation with its operands; `pos` is the offset in the source that it stems from. -/
structure Instr where
  op : Op
  a : Int := 0
  b : Int := 0
  pos : Nat := 0
deriving Repr, DecidableEq, Inhabited

/-- The operation with those operands that it uses. -/
def Instr.render (i : Instr) : String :=
  let name := i.op.render
  match i.op with
  | .branch | .call | .callVirtual | .callNative =>
    name ++ " " ++ signedDecimal i.a ++ " " ++ signedDecimal i.b
  | .callIndirect => name ++ " " ++ signedDecimal i.b
  | .const | .loadLocal | .storeLocal | .loadGlobal | .storeGlobal | .loadField | .storeField
  | .jump | .ret | .newObject | .newArray | .newCell | .routine => name ++ " " ++ signedDecimal i.a
  | _ => name

/-! ## Shapes -/

/-- What a slot holds, and so how it starts. Fixed arrays are allocated with their slot; classes,
pointers and dynamic arrays are references that start nil. -/
inductive Shape where
  | bool | int | real | char | string | ref | routine
  | array (length : Int) (elem : Shape)
  /-- An array whose elements have no shape; it cannot be allocated. -/
  | hollow (length : Int)
  | unknown (number : Nat)
deriving Repr, DecidableEq, Inhabited

namespace Shape

def render : Shape → String
  | bool => "bool" | int => "int" | real => "real" | char => "char" | string => "string"
  | ref => "ref" | routine => "routine"
  | array n e => "[" ++ signedDecimal n ++ "]" ++ e.render
  | hollow n => "[" ++ signedDecimal n ++ "]?"
  | unknown _ => "?"

/-- Reads a shape, starting at any of its elements; `lengths` are those in front, innermost first. -/
def ofParts (lengths : List Int) (elem : String) : Shape :=
  let wrap := fun (s : Shape) (ns : List Int) => ns.foldl (fun s n => array n s) s
  match [bool, int, real, char, string, ref, routine].find? (·.render == elem) with
  | some s => wrap s lengths
  | none =>
    match lengths with
    | [] => unknown 0
    | n :: ns => wrap (hollow n) ns

/-- Reads the text of a shape. An element that is not known leaves an array hollow. -/
def ofText (s : String) : Shape :=
  let parts := (s.splitOn "[").flatMap (·.splitOn "]")
  let lengths := parts.filterMap fun p => Bytes.int64? (utf8 p)
  ofParts lengths.reverse (parts.getLastD "")

/-- How a slot starts, unless it is an array. -/
def initial : Shape → Value
  | bool => .ofBool false
  | int => .int 0
  | real => .real 0.0
  | char => .char 0
  | string => .string []
  | routine => .nilRoutine
  | _ => .nil

end Shape

/-! ## The pool -/

/-- A variable of a unit, by place. -/
structure GlobalRef where
  module : String
  slot : Int
deriving Repr, DecidableEq, Inhabited

structure Pool where
  consts : Array Value := #[]
  calls : Array RoutineRef := #[]
  globals : Array GlobalRef := #[]
  classes : Array ClassKey := #[]
  natives : Array String := #[]
  shapes : Array Shape := #[]
deriving Repr, Inhabited

/-- Two constants that share a place in the pool. -/
def Value.sameConstant : Value → Value → Bool
  | .invalid, .invalid => true
  | .bool m, .bool n | .int m, .int n | .char m, .char n => m == n
  | .real x, .real y => x == y
  | .string s, .string t => s == t
  | .ref h, .ref k => h == k
  | .routine u m, .routine v n => u == v && m == n
  | _, _ => false

namespace Pool

/-- The place of an entry, which is the last one if it is new. -/
def enter {α : Type} (same : α → α → Bool) (xs : Array α) (x : α) : Nat × Array α :=
  match xs.findIdx? (same · x) with
  | some i => (i, xs)
  | none => (xs.size, xs.push x)

def addConst (p : Pool) (v : Value) : Nat × Pool :=
  let (i, consts) := enter Value.sameConstant p.consts v
  (i, { p with consts })

def addCall (p : Pool) (r : RoutineRef) : Nat × Pool :=
  let (i, calls) := enter (· == ·) p.calls r
  (i, { p with calls })

def addGlobal (p : Pool) (g : GlobalRef) : Nat × Pool :=
  let (i, globals) := enter (· == ·) p.globals g
  (i, { p with globals })

def addClass (p : Pool) (k : ClassKey) : Nat × Pool :=
  let (i, classes) := enter (· == ·) p.classes k
  (i, { p with classes })

def addNative (p : Pool) (name : String) : Nat × Pool :=
  let (i, natives) := enter (· == ·) p.natives name
  (i, { p with natives })

/-- Shapes are told apart by their text. -/
def addShape (p : Pool) (s : Shape) : Nat × Pool :=
  let (i, shapes) := enter (fun x y => x.render == y.render) p.shapes s
  (i, { p with shapes })

end Pool

/-! ## Routines -/

/-- Blocks of instructions; a run starts at the first one. -/
abbrev Blocks := Array (Array Instr)

/-- A routine of a unit. The first `params` slots are the arguments; `result` is the slot of the
result, negative for none. -/
structure Routine where
  name : String
  params : Int := 0
  result : Int := -1
  locals : Array Shape := #[]
  blocks : Blocks := #[]
deriving Repr, Inhabited

/-- What may be wrong with blocks. -/
inductive CodeError where
  | noBlocks
  | emptyBlock (block : Nat)
  | misplacedTerminator (block instr : Nat) (op : Op)
  | missingTarget (block : Nat) (target : Int)
  | missingBranch (block : Nat)
deriving Repr, DecidableEq

def CodeError.message : CodeError → String
  | noBlocks => "code has no blocks"
  | emptyBlock b => "block " ++ decimal b ++ " is empty"
  | misplacedTerminator b i op =>
    "block " ++ decimal b ++ ": instruction " ++ decimal i ++ " (" ++ op.render ++
      ") misplaced terminator"
  | missingTarget b t => "block " ++ decimal b ++ ": jump to missing block " ++ signedDecimal t
  | missingBranch b => "block " ++ decimal b ++ ": branch to missing block"

namespace Blocks

def has (bs : Blocks) (id : Int) : Bool := 0 ≤ id && id < bs.size

/-- Checks one instruction: it ends its block exactly if it is the last, and its targets exist. -/
def checkInstr (bs : Blocks) (block count i : Nat) (instr : Instr) : Except CodeError Unit :=
  if instr.op.isTerminator != (i + 1 == count) then
    .error (.misplacedTerminator block i instr.op)
  else match instr.op with
    | .jump => if bs.has instr.a then .ok () else .error (.missingTarget block instr.a)
    | .branch => if bs.has instr.a && bs.has instr.b then .ok () else .error (.missingBranch block)
    | _ => .ok ()

def checkBlock (bs : Blocks) (block : Nat) (instrs : Array Instr) : Except CodeError Unit :=
  if instrs.isEmpty then .error (.emptyBlock block)
  else instrs.toList.zipIdx.forM fun (instr, i) => bs.checkInstr block instrs.size i instr

/-- The first fault of the blocks. -/
def validate (bs : Blocks) : Except CodeError Unit :=
  if bs.isEmpty then .error .noBlocks
  else bs.toList.zipIdx.forM fun (instrs, b) => bs.checkBlock b instrs

end Blocks

/-! ## Listings -/

namespace Routine

/-- What the first operand of an instruction refers to. -/
def annotation (pool : Pool) (i : Instr) : Bytes :=
  let entry := fun {α : Type} (xs : Array α) (text : α → Bytes) =>
    if i.a < 0 then [] else ((xs[i.a.toNat]?).map text).getD []
  match i.op with
  | .const => entry pool.consts Value.listing
  | .call | .routine => entry pool.calls fun r => utf8 r.render
  | .loadGlobal | .storeGlobal =>
    entry pool.globals fun g => utf8 (g.module ++ "." ++ signedDecimal g.slot)
  | .newObject => entry pool.classes fun k => utf8 k.render
  | .callNative => entry pool.natives utf8
  | .newArray | .newCell => entry pool.shapes fun s => utf8 s.render
  | _ => []

/-- The width of the column of instructions. -/
def column : Nat := 24

def listInstr (pool : Pool) (i : Instr) : Bytes :=
  let text := i.render
  let note := annotation pool i
  utf8 ("    " ++ text ++ String.ofList (List.replicate (column - text.length) ' ')) ++
    (if note.isEmpty then [] else utf8 " ; " ++ note) ++ [10]

/-- The code as text, one instruction a line. -/
def listing (r : Routine) (pool : Pool) : Bytes :=
  let kind := if 0 ≤ r.result then "function" else "procedure"
  utf8 (kind ++ " " ++ r.name ++ " params=" ++ signedDecimal r.params ++ " slots=" ++
      decimal r.locals.size ++ "\n") ++
    r.blocks.toList.zipIdx.flatMap fun (instrs, b) =>
      utf8 ("  bb" ++ decimal b ++ ":\n") ++ instrs.toList.flatMap (listInstr pool)

end Routine

end Pascaline
