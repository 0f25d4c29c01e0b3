import Pascaline.CompiledUnit.Interface

/-!
# Lowering

Bound trees become basic blocks. An expression leaves its value on the operand stack, and a call of
a procedure leaves nothing. Boolean `and` and `or` skip their right side when the left decides.
-/

namespace Pascaline

/-- Why a bound module has no code. Modules that were bound without errors always have. -/
inductive LowerError where
  | unknownType (id : TypeId)
  | jumpOutsideLoop (routine : String)
  | notAssignable (routine kind : String)
  | badControlVariable (routine kind : String)
  | classNotLaidOut (key : ClassKey)
  | notAClass (id : TypeId)
  | badCode (unit routine : String) (e : CodeError)
deriving Repr

def LowerError.message : LowerError → String
  | unknownType id => "codegen: unknown type " ++ decimal id
  | jumpOutsideLoop r => "codegen: " ++ r ++ ": loop control outside of a loop"
  | notAssignable r k => "codegen: " ++ r ++ ": cannot assign to " ++ k
  | badControlVariable r k => "codegen: " ++ r ++ ": bad control variable " ++ k
  | classNotLaidOut k => "codegen: class " ++ k.render ++ " is not laid out"
  | notAClass id => "codegen: type " ++ decimal id ++ " is not a class"
  | badCode u r e => "codegen: " ++ u ++ "." ++ r ++ ": " ++ e.message

/-! ## Shapes of types -/

namespace TypeTable

/-- How a slot of a type is stored; `fuel` bounds the nesting of arrays. -/
def slotShapeFrom (t : TypeTable) : (fuel : Nat) → TypeId → Except LowerError Shape
  | 0, id => .error (.unknownType id)
  | fuel + 1, id =>
    match t.shape? id with
    | none => .error (.unknownType id)
    | some .boolean => .ok .bool
    | some .integer => .ok .int
    | some .real => .ok .real
    | some .char => .ok .char
    | some .string => .ok .string
    | some (.routine _) => .ok .routine
    | some (.array e (some n)) => do return .array n (← slotShapeFrom t fuel e)
    | some _ => .ok .ref

/-- How a slot of a type is stored. -/
def slotShape (t : TypeTable) (id : TypeId) : Except LowerError Shape :=
  t.slotShapeFrom (t.shapes.size + 1) id

/-- The shapes of all slots of an object. -/
def objectShapes (t : TypeTable) (c : ClassInfo) : Except LowerError (List Shape) :=
  ((t.chain c.type).flatMap (·.fields)).foldlM
    (fun shapes f => do return shapes.set f.offset (← t.slotShape f.type))
    (List.replicate c.slots (.unknown 0))

end TypeTable

/-! ## Building blocks -/

/-- Where `break` and `continue` lead. -/
structure LoopTarget where
  leave : Nat
  next : Nat
deriving Repr, DecidableEq

/-- A routine under construction: `current` is the block that instructions go to. -/
structure Builder where
  pool : Pool
  locals : Array Shape := #[]
  blocks : Blocks := #[]
  current : Nat := 0
  loops : List LoopTarget := []

/-- What stays fixed while a routine is lowered. -/
structure LowerContext where
  types : TypeTable
  routine : String
  hasResult : Bool

abbrev Lower (α : Type) := StateT Builder (Except LowerError) α

namespace Lower

/-- Opens an empty block, without going there. -/
def newBlock : Lower Nat :=
  modifyGet fun s => (s.blocks.size, { s with blocks := s.blocks.push #[] })

def goTo (block : Nat) : Lower Unit := modify ({ · with current := block })

/-- Whether a block is closed by a jump, a branch or a return. -/
def isClosed (block : Array Instr) : Bool := (block.back?).any (·.op.isTerminator)

/-- Whether the current block is closed. -/
def closed : Lower Bool := do
  let s ← get
  return isClosed (s.blocks.getD s.current #[])

/-- Appends an instruction. What follows the end of a block goes to a new block, which nothing
reaches. -/
def emit (op : Op) (a b : Int) (span : Span) : Lower Unit := do
  if ← closed then goTo (← newBlock)
  modify fun s => { s with
    blocks := s.blocks.modify s.current (·.push { op, a, b, pos := span.start }) }

def op (o : Op) (span : Span) : Lower Unit := emit o 0 0 span

/-- Goes on at another block, unless the current one is closed. -/
def jump (target : Nat) (span : Span) : Lower Unit := do
  if !(← closed) then emit .jump target 0 span

def branch (yes no : Nat) (span : Span) : Lower Unit := emit .branch yes no span

def ret (ctx : LowerContext) (span : Span) : Lower Unit :=
  emit .ret (if ctx.hasResult then 1 else 0) 0 span

/-- Adds a hidden slot to the frame. -/
def temp (shape : Shape) : Lower Nat :=
  modifyGet fun s => (s.locals.size, { s with locals := s.locals.push shape })

/-- Enters something into the pool. -/
def pooled (f : Pool → Nat × Pool) : Lower Nat :=
  modifyGet fun s =>
    let (i, pool) := f s.pool
    (i, { s with pool })

def constant (v : Value) (span : Span) : Lower Unit := do
  emit .const (← pooled (·.addConst v)) 0 span

def inLoop (target : LoopTarget) (body : Lower Unit) : Lower Unit := do
  modify fun s => { s with loops := target :: s.loops }
  body
  modify fun s => { s with loops := s.loops.tail }

def innermost (ctx : LowerContext) : Lower LoopTarget := do
  match (← get).loops with
  | l :: _ => return l
  | [] => throw (.jumpOutsideLoop ctx.routine)

/-! ## Expressions -/

def binaryOp : Bound.BinaryOp → Op
  | .add => .add | .sub => .sub | .mul => .mul | .quot => .quot | .div => .div | .mod => .mod
  | .and => .and | .or => .or | .xor => .xor | .shl => .shl | .shr => .shr | .concat => .concat
  | .eq => .eq | .ne => .ne | .lt => .lt | .le => .le | .gt => .gt | .ge => .ge

/-- Operators that may skip their right side. -/
def isShort (op : Bound.BinaryOp) (kind : TypeKind) : Bool :=
  (op = .and || op = .or) && kind = .boolean

def elementShape (ctx : LowerContext) (elem : TypeId) : Lower Nat := do
  let shape ← ctx.types.slotShape elem
  pooled (·.addShape shape)

mutual

/-- Leaves the value of an expression on the operand stack. -/
def expr (ctx : LowerContext) : Bound.Expr → Lower Unit
  | .const v _ sp => constant v sp
  | .frameVar _ slot _ sp => emit .loadLocal slot 0 sp
  | .unitVar m slot _ sp => do emit .loadGlobal (← pooled (·.addGlobal ⟨m, slot⟩)) 0 sp
  | .field object offset _ sp => do
    expr ctx object
    emit .loadField offset 0 sp
  | .element array index _ sp => do
    expr ctx array
    expr ctx index
    op .loadElem sp
  | .character text index _ sp => do
    expr ctx text
    expr ctx index
    op .loadChar sp
  | .deref pointer _ sp => do
    expr ctx pointer
    constant (.int 0) sp
    op .loadElem sp
  | .unary o operand _ sp => do
    expr ctx operand
    op (match o with
      | .neg => .neg
      | .not => .not) sp
  | .binary o left right type sp => do
    if isShort o (ctx.types.kind type) then
      let rest ← newBlock
      let done ← newBlock
      expr ctx left
      op .dup sp
      if o = .and then branch rest done sp else branch done rest sp
      goTo rest
      op .pop sp
      expr ctx right
      jump done sp
      goTo done
    else
      expr ctx left
      expr ctx right
      op (binaryOp o) sp
  | .convert c operand _ sp => do
    expr ctx operand
    op (match c with
      | .intToReal => .intToReal
      | .charToString => .charToString) sp
  | .call routine as _ sp => do
    args ctx as
    emit .call (← pooled (·.addCall routine)) as.length sp
  | .callVirtual slot as _ sp => do
    args ctx as
    emit .callVirtual slot as.length sp
  | .callNative n as _ sp => do
    args ctx as
    emit .callNative (← pooled (·.addNative n.name)) as.length sp
  | .callValue callee as _ sp => do
    expr ctx callee
    args ctx as
    emit .callIndirect 0 as.length sp
  | .newObject key constructor as _ sp => do
    emit .newObject (← pooled (·.addClass key)) 0 sp
    match constructor with
    | some routine =>
      op .dup sp
      args ctx as
      emit .call (← pooled (·.addCall routine)) (as.length + 1) sp
    | none => pure ()
    op .unpin sp
  | .newArray elem length _ sp => do
    expr ctx length
    emit .newArray (← elementShape ctx elem) 0 sp
  | .newCell elem _ sp => do emit .newCell (← elementShape ctx elem) 0 sp
  | .routine ref _ sp => do emit .routine (← pooled (·.addCall ref)) 0 sp

def args (ctx : LowerContext) : List Bound.Expr → Lower Unit
  | [] => pure ()
  | e :: es => do
    expr ctx e
    args ctx es

end

/-! ## Statements -/

/-- Stores the top of the stack into a loop variable. -/
def storeVar (ctx : LowerContext) : Bound.Expr → Lower Unit
  | .frameVar _ slot _ sp => emit .storeLocal slot 0 sp
  | .unitVar m slot _ sp => do emit .storeGlobal (← pooled (·.addGlobal ⟨m, slot⟩)) 0 sp
  | e => throw (.badControlVariable ctx.routine e.kindName)

/-- Works out the place of the target, then the value, and stores it. A pointer's cell is an array
of one element. -/
def assign (ctx : LowerContext) (value : Bound.Expr) : (target : Bound.Expr) → Lower Unit
  | .frameVar _ slot _ sp => do
    expr ctx value
    emit .storeLocal slot 0 sp
  | .unitVar m slot _ sp => do
    expr ctx value
    emit .storeGlobal (← pooled (·.addGlobal ⟨m, slot⟩)) 0 sp
  | .field object offset _ sp => do
    expr ctx object
    expr ctx value
    emit .storeField offset 0 sp
  | .element array index _ sp | .character array index _ sp => do
    expr ctx array
    expr ctx index
    expr ctx value
    op .storeElem sp
  | .deref pointer _ sp => do
    expr ctx pointer
    constant (.int 0) sp
    expr ctx value
    op .storeElem sp
  | e => throw (.notAssignable ctx.routine e.kindName)

/-- Opens a block for each arm. -/
def armBlocks : List Bound.CaseArm → Lower (List Nat)
  | [] => return []
  | _ :: arms => do
    let b ← newBlock
    return b :: (← armBlocks arms)

/-- Tests the labels of an arm in order, each in a block of its own. -/
def testLabels (subject arm : Nat) (span : Span) : List Value → Lower Unit
  | [] => pure ()
  | v :: vs => do
    let next ← newBlock
    emit .loadLocal subject 0 span
    constant v span
    op .eq span
    branch arm next span
    goTo next
    testLabels subject arm span vs

def testArms (subject : Nat) (span : Span) : List Bound.CaseArm → List Nat → Lower Unit
  | .arm labels _ :: arms, b :: bs => do
    testLabels subject b span labels
    testArms subject span arms bs
  | _, _ => pure ()

/-- The test and the step of a `for` loop: the loop ends at its last value before it would step past
it, so the variable never overflows. -/
def forControl (ctx : LowerContext) (var : Bound.Expr) (limit : Nat) (cmp : Op) (yes no : Nat)
    (span : Span) : Lower Unit := do
  expr ctx var
  emit .loadLocal limit 0 span
  op cmp span
  branch yes no span

mutual

def stmt (ctx : LowerContext) : Bound.Stmt → Lower Unit
  | .assign target value _ => assign ctx value target
  | .expr call sp => do
    expr ctx call
    let kind := ctx.types.kind call.type
    if kind ≠ .void && kind ≠ .invalid then op .pop sp
  | .ifElse cond yes no sp => do
    let thenBlock ← newBlock
    let done ← newBlock
    let elseBlock ← if no.isEmpty then pure done else newBlock
    expr ctx cond
    branch thenBlock elseBlock sp
    goTo thenBlock
    stmts ctx yes
    jump done sp
    if !no.isEmpty then
      goTo elseBlock
      stmts ctx no
      jump done sp
    goTo done
  | .whileDo cond body sp => do
    let test ← newBlock
    let start ← newBlock
    let leave ← newBlock
    jump test sp
    goTo test
    expr ctx cond
    branch start leave cond.span
    goTo start
    inLoop ⟨leave, test⟩ (stmts ctx body)
    jump test sp
    goTo leave
  | .repeatUntil body cond sp => do
    let start ← newBlock
    let test ← newBlock
    let leave ← newBlock
    jump start sp
    goTo start
    inLoop ⟨leave, test⟩ (stmts ctx body)
    jump test sp
    goTo test
    expr ctx cond
    branch leave start cond.span
    goTo leave
  | .forTo var first last down body sp => do
    expr ctx first
    storeVar ctx var
    let limit ← temp (← ctx.types.slotShape var.type)
    expr ctx last
    emit .storeLocal limit 0 last.span
    let test ← newBlock
    let start ← newBlock
    let next ← newBlock
    let step ← newBlock
    let leave ← newBlock
    jump test sp
    goTo test
    forControl ctx var limit (if down then .ge else .le) start leave sp
    goTo start
    inLoop ⟨leave, next⟩ (stmts ctx body)
    jump next sp
    goTo next
    forControl ctx var limit .eq leave step sp
    goTo step
    expr ctx var
    op (if down then .pred else .succ) sp
    storeVar ctx var
    jump start sp
    goTo leave
  | .caseOf subject arms otherwise sp => do
    let slot ← temp (← ctx.types.slotShape subject.type)
    expr ctx subject
    emit .storeLocal slot 0 subject.span
    let done ← newBlock
    let blocks ← armBlocks arms
    testArms slot sp arms blocks
    stmts ctx otherwise
    jump done sp
    armBodies ctx done sp arms blocks
    goTo done
  | .exit sp => ret ctx sp
  | .break sp => do jump (← innermost ctx).leave sp
  | .continue sp => do jump (← innermost ctx).next sp

def stmts (ctx : LowerContext) : List Bound.Stmt → Lower Unit
  | [] => pure ()
  | s :: ss => do
    stmt ctx s
    stmts ctx ss

def armBodies (ctx : LowerContext) (done : Nat) (span : Span) :
    List Bound.CaseArm → List Nat → Lower Unit
  | .arm _ body :: arms, b :: bs => do
    goTo b
    stmts ctx body
    jump done span
    armBodies ctx done span arms bs
  | _, _ => pure ()

end

/-- Closes every open block with a return. -/
def closeAll (ctx : LowerContext) (span : Span) (blocks : Blocks) : Blocks :=
  blocks.map fun b =>
    if isClosed b then b
    else b.push { op := .ret, a := if ctx.hasResult then 1 else 0, pos := span.stop }

end Lower

/-! ## Units -/

namespace CompiledUnit

/-- The code of a routine, and the pool with what it needs. -/
def lowerRoutine (types : TypeTable) (pool : Pool) (r : Bound.Routine) :
    Except LowerError (Routine × Pool) := do
  let ctx : LowerContext := ⟨types, r.name, r.result.isSome⟩
  let locals ← r.slots.mapM fun s => types.slotShape s.type
  let start : Builder := { pool, locals := locals.toArray, blocks := #[#[]] }
  let (_, s) ← (Lower.stmts ctx r.body).run start
  return ({ name := r.name, params := r.params, result := (r.result.map Int.ofNat).getD (-1),
            locals := s.locals, blocks := Lower.closeAll ctx r.span s.blocks }, s.pool)

/-- The code of all routines, in order; each is checked. -/
def lowerRoutines (types : TypeTable) (unit : String) :
    Pool → List Bound.Routine → Except LowerError (List Routine × Pool)
  | pool, [] => .ok ([], pool)
  | pool, r :: rs => do
    let (code, pool) ← lowerRoutine types pool r
    match code.blocks.validate with
    | .error e => throw (.badCode unit r.name e)
    | .ok _ =>
      let (codes, pool) ← lowerRoutines types unit pool rs
      return (code :: codes, pool)

/-- The classes of a module, bases first. -/
def classDescs (types : TypeTable) (ids : List TypeId) : Except LowerError (List ClassDesc) :=
  let depth := fun (id : TypeId) => (types.chain id).length
  (ids.mergeSort fun a b => depth a ≤ depth b).mapM fun id =>
    match types.classInfo? id with
    | none => .error (.notAClass id)
    | some c => do
      if c.state ≠ .done then throw (.classNotLaidOut c.key)
      return types.describeClass (← types.objectShapes c) c

/-- Compiles a module that was bound without errors. Its digests are left to the caller. -/
def ofModule (types : TypeTable) (m : Bound.Module) : Except LowerError CompiledUnit := do
  let symbols := fun (ids : List SymbolId) =>
    ids.filterMap fun id => (m.scopes.symbol? id).map types.describeSymbol
  let classes ← classDescs types m.classes
  let globals ← m.globals.mapM fun s => do return (⟨s.name, ← types.slotShape s.type⟩ : GlobalDesc)
  let (routines, pool) ← lowerRoutines types m.name {} m.routines
  return { name := m.name, display := m.display, kind := m.kind, path := m.path, imports := m.uses,
           exports := symbols m.exports, privates := symbols m.privates, classes, globals,
           table := some routines.toArray, pool, init := (m.init.map Int.ofNat).getD (-1),
           main := (m.main.map Int.ofNat).getD (-1), file := m.file }

end CompiledUnit

end Pascaline
