import Pascaline.Machine

/-!
# Execution

One step executes one instruction of the innermost frame, or enters the next entry routine when
there is no frame.
-/

namespace Pascaline

/-! ## Tables of operations -/

namespace Op

def binary? : Op → Option (Value → Value → Value.Outcome)
  | .add => some Value.add | .sub => some Value.sub | .mul => some Value.mul
  | .quot => some Value.quot | .div => some Value.div | .mod => some Value.mod
  | .and => some Value.and | .or => some Value.or | .xor => some Value.xor
  | .shl => some Value.shl | .shr => some Value.shr | .concat => some Value.concat
  | _ => none

def unary? : Op → Option (Value → Value.Outcome)
  | .neg => some Value.neg | .not => some Value.not
  | .succ => some Value.succ | .pred => some Value.pred
  | _ => none

/-- Operations that compare two values. -/
def relation? : Op → Option (Value → Value → Bool)
  | .eq => some Value.equal
  | .ne => some fun a b => !a.equal b
  | .lt => some fun a b => (a.compare b).isLT
  | .le => some fun a b => (a.compare b).isLE
  | .gt => some fun a b => (a.compare b).isGT
  | .ge => some fun a b => (a.compare b).isGE
  | _ => none

end Op

namespace Exec

/-! ## Operands -/

/-- The value of an operator. -/
def check : Value.Outcome → Exec Value
  | .ok v => return v
  | .error .divisionByZero => raise .divisionByZero
  | .error e => raise (.typeMismatch (.operands e))

/-- The object that a value refers to. -/
def object (v : Value) : Exec (Handle × Cell) :=
  match v with
  | .ref 0 => raise (.nilReference .object)
  | .ref h => do
    match (← get).heap.get? h with
    | some c =>
      match c.kind with
      | .object _ => return (h, c)
      | .array => invalid (.notAnObject h)
    | none => invalid (.notAnObject h)
  | v => raise (.typeMismatch (.object v.kind))

/-- The array that a value refers to. -/
def array (v : Value) : Exec (Handle × Cell) :=
  match v with
  | .ref 0 => raise (.nilReference .reference)
  | .ref h => do
    match (← get).heap.get? h with
    | some c =>
      match c.kind with
      | .array => return (h, c)
      | .object _ => invalid (.notAnArray h)
    | none => invalid (.notAnArray h)
  | v => raise (.typeMismatch (.array v.kind))

/-- A field's place in an object of so many slots. -/
def slot (offset : Int) (size : Nat) : Exec Nat :=
  if offset < 0 || (size : Int) ≤ offset then invalid (.fieldOffset offset)
  else return offset.toNat

/-- A place in something of so many elements. -/
def index (i : Value) (length : Nat) : Exec Nat :=
  match i with
  | .int n | .char n =>
    if n < 0 || (length : Int) ≤ n.toInt then raise (.outOfBounds n length)
    else return n.toInt.toNat
  | _ => raise (.typeMismatch .index)

/-- The routine that a value stands for. -/
def routineValue (p : Program) (v : Value) : Exec Callee :=
  match v with
  | .routine "" _ => raise (.nilReference .routine)
  | .routine name i =>
    match p.unit? name with
    | none => invalid (.routineOfUnknownUnit name)
    | some (unit, u) =>
      match u.routine? i.toInt with
      | none => invalid (.noSuchRoutine u.display i.toInt)
      | some routine => return ⟨unit, i.toInt, routine⟩
  | v => raise (.typeMismatch (.routine v.kind))

/-! ## Calls -/

/-- The slots of a frame behind its parameters. -/
def ownShapes (r : Routine) : List Shape := r.locals.toList.drop r.params.toNat

/-- The heap words that a new frame takes. -/
def frameWords (r : Routine) : Exec Int :=
  if r.params < 0 then breakdown
  else if (r.locals.size : Int) < r.params then return 0
  else return slotWords (ownShapes r)

/-- Puts a frame on the stack. Room for its arrays has been made. -/
def enter (p : Program) (c : Callee) (args : List Value) : Exec Unit := do
  let m ← get
  if m.maxFrames ≤ m.frames.length then raise (.stackOverflow m.maxFrames)
  let r := c.routine
  if (args.length : Int) ≠ r.params then
    invalid (.argumentCount r.name r.params args.length)
  if r.locals.size < args.length then breakdown
  let own ← zeroAll (ownShapes r)
  let display := ((p.units[c.unit]?).map (·.unit.display)).getD ""
  let span := (m.frames.head?.map (·.span)).getD ⟨0, 0, 0⟩
  let frame : Frame := { unit := c.unit, name := display ++ "." ++ r.name, routine := r,
                         locals := (args ++ own).toArray, span }
  modify fun m => { m with frames := frame :: m.frames }
  log fun m => .enter m.frames.length frame.name

/-- Calls a routine with so many arguments from the stack. They stay there until room for the new
frame is made, so that they are not collected. -/
def call (p : Program) (c : Callee) (argc : Int) : Exec Unit := do
  let m ← get
  if m.maxFrames ≤ m.frames.length then raise (.stackOverflow m.maxFrames)
  let f ← top
  if (f.operands.length : Int) < argc then invalid (.underflow f.name)
  reserve (← frameWords c.routine)
  let args ← popMany argc
  modifyTop ({ · with state := .suspended })
  enter p c args

/-- Ends the innermost frame and hands its result to the caller. -/
def leave (withResult : Bool) : Exec Unit := do
  let f ← top
  modifyTop ({ · with state := .returned })
  let result ← if withResult then do
      if f.routine.result < 0 then invalid (.noResult f.name)
      pure (some (← entry f.locals f.routine.result))
    else pure none
  log fun m => .leave m.frames.length f.name result
  modify fun m => { m with frames := m.frames.tail }
  modifyTop ({ · with state := .running })
  match result with
  | some v => push v
  | none => pure ()

/-- Ends the run with a code. -/
def halt (code : Int) : Exec Unit :=
  modify fun m => { m with halted := true, exitCode := code, frames := [], pending := [] }

/-- The number of elements of an array; nil has none. -/
def lengthIn (heap : Heap) : Value → Except NativeError Nat
  | .string s => .ok (Utf8.length s)
  | .ref 0 => .ok 0
  | .ref h =>
    match heap.get? h with
    | some c => if c.kind = .array then .ok c.elems.size else .error .lengthOfNoArray
    | none => .error .lengthOfNoArray
  | v => .error (.lengthOf v.kind)

def callNative (n : Native) (argc : Int) : Exec Unit := do
  let args ← popMany argc
  if !n.variadic && args.length < n.params.length then breakdown
  let m ← get
  match n.call { input := m.input, lengthOf := some (lengthIn m.heap) } args with
  | .error (.halt code) => halt code.toInt
  | .error (.error e) => raise (.nativeError n.name e)
  | .error .breakdown => breakdown
  | .ok r =>
    modify fun m => { m with input := r.input, output := m.output ++ r.output }
    if n.result ≠ .void then push r.value

/-! ## Instructions -/

/-- Access to variables, fields and elements. -/
def access (u : LinkedUnit) (i : Instr) : Exec Unit := do
  match i.op with
  | .loadLocal => push (← entry (← top).locals i.a)
  | .storeLocal =>
    let v ← pop
    discard (entry (← top).locals i.a)
    modifyTop fun f => { f with locals := f.locals.set! i.a.toNat v }
  | .loadGlobal =>
    let (unit, slot) ← entry u.globals i.a
    push (← expect (((← get).globals[unit]?).bind (·[slot]?)))
  | .storeGlobal =>
    let (unit, slot) ← entry u.globals i.a
    let v ← pop
    modify fun m => { m with globals := m.globals.modify unit (·.set! slot v) }
  | .loadField =>
    let (_, c) ← object (← pop)
    push (c.elems.getD (← slot i.a c.elems.size) .invalid)
  | .storeField =>
    let v ← pop
    let (h, c) ← object (← pop)
    let k ← slot i.a c.elems.size
    modify fun m => { m with heap := m.heap.write h k v }
  | .loadElem =>
    let k ← pop
    let (_, c) ← array (← pop)
    push (c.elems.getD (← index k c.elems.size) .invalid)
  | .storeElem =>
    let v ← pop
    let k ← pop
    let (h, c) ← array (← pop)
    let k ← index k c.elems.size
    modify fun m => { m with heap := m.heap.write h k v }
  | .loadChar =>
    let k ← pop
    match ← pop with
    | .string s =>
      let cs := Utf8.chars s
      let k ← index k cs.length
      push (.char (Int64.ofNat ((cs.getD k ' ').toNat)))
    | v => invalid (.loadChar v.kind)
  | op => invalid (.unknownOp op)

/-- Allocation. A new object is pinned until its constructor has run. -/
def allocate (p : Program) (u : LinkedUnit) (i : Instr) : Exec Unit := do
  match i.op with
  | .newObject =>
    let k ← entry u.classes i.a
    let c ← expect p.classes[k]?
    reserve ((1 + c.desc.slots + slotWords c.desc.shapes).bmod 0x10000000000000000)
    let h ← alloc (.object k) c.desc.slots
    let fields ← zeroAll c.desc.shapes
    modify fun m => { m with heap := (m.heap.setElems h fields.toArray).pin h }
    push (.ref h)
  | .unpin =>
    let v ← peek
    modify fun m => { m with heap := m.heap.unpin v.handle }
  | .newArray =>
    let elem ← entry u.unit.pool.shapes i.a
    match ← peek with
    | .int n =>
      if n < 0 then raise (.outOfBounds n 0)
      let budget := (← get).heap.budget
      if budget < n.toInt then raise (.heapExhausted (budget + 1) budget)
      let shape := Shape.array n.toInt elem
      reserve shape.words
      discard pop
      push (← zero shape)
    | _ => raise (.typeMismatch .arrayLength)
  | .newCell =>
    let elem ← entry u.unit.pool.shapes i.a
    let shape := Shape.array 1 elem
    reserve shape.words
    push (← zero shape)
  | op => invalid (.unknownOp op)

/-- Jumps, calls and returns. -/
def control (p : Program) (u : LinkedUnit) (i : Instr) : Exec Unit := do
  let jump := fun (block : Int) => modifyTop ({ · with block, ip := 0 })
  match i.op with
  | .jump => jump i.a
  | .branch => if (← pop).isTrue then jump i.a else jump i.b
  | .ret => leave (i.a = 1)
  | .call => call p (← entry u.calls i.a) i.b
  | .callVirtual =>
    let f ← top
    if i.b < 1 || (f.operands.length : Int) < i.b then invalid .noReceiver
    let (_, c) ← object (f.operands.getD (i.b.toNat - 1) .invalid)
    match c.kind with
    | .array => invalid (.vmtSlot i.a)
    | .object k =>
      let vmt := ((p.classes[k]?).map (·.vmt)).getD #[]
      if i.a < 0 || (vmt.size : Int) ≤ i.a then invalid (.vmtSlot i.a)
      call p (← entry vmt i.a) i.b
  | .callIndirect =>
    let f ← top
    if (f.operands.length : Int) < i.b + 1 then invalid .noRoutineValue
    if i.b < 0 then breakdown
    let target ← routineValue p (f.operands.getD i.b.toNat .invalid)
    modifyTop fun f => { f with operands := f.operands.eraseIdx i.b.toNat }
    call p target i.b
  | .callNative => callNative (← entry u.natives i.a) i.b
  | op => invalid (.unknownOp op)

/-- Executes one instruction of a unit. -/
def instr (p : Program) (u : LinkedUnit) (i : Instr) : Exec Unit := do
  match i.op.binary?, i.op.unary?, i.op.relation? with
  | some f, _, _ =>
    let y ← pop
    let x ← pop
    push (← check (f x y))
  | _, some f, _ => push (← check (f (← pop)))
  | _, _, some f =>
    let y ← pop
    let x ← pop
    push (.ofBool (f x y))
  | _, _, _ =>
    match i.op with
    | .nop => pure ()
    | .const => push (← entry u.unit.pool.consts i.a)
    | .pop => discard pop
    | .dup => push (← peek)
    | .intToReal => push (.real (← pop).asReal)
    | .charToString =>
      match ← pop with
      | .char n => push (.string (Value.charText n))
      | v => push v
    | .routine =>
      let c ← entry u.calls i.a
      let name := ((p.units[c.unit]?).map (·.unit.name)).getD ""
      push (.routine name (Int64.ofInt c.index))
    | .loadLocal | .storeLocal | .loadGlobal | .storeGlobal | .loadField | .storeField
    | .loadElem | .storeElem | .loadChar => access u i
    | .newObject | .unpin | .newArray | .newCell => allocate p u i
    | _ => control p u i

/-- Marks the innermost frame if an instruction faults. -/
def marking (x : Exec Unit) : Exec Unit := fun m =>
  match x m with
  | .ok a m => .ok a m
  | .error e m =>
    .error e (match m.frames with
      | f :: rest => { m with frames := { f with state := .faulted } :: rest }
      | [] => m)

/-- One step of a run. -/
def step (p : Program) : Exec Unit := do
  let m ← get
  if m.halted then return
  if m.stopping then raise .stopped
  match m.frames, m.pending with
  | [], [] => return
  | [], e :: rest =>
    set { m with pending := rest }
    match e.callee? p with
    | none => invalid (.noEntry e.index)
    | some c =>
      reserve (← frameWords c.routine)
      enter p c []
  | f :: rest, _ =>
    match f.instr?, p.units[f.unit]? with
    | some i, some u =>
      let span : Span := ⟨u.unit.file, i.pos, (i.pos + 1) % 0x100000000⟩
      set { m with frames := { f with state := .running, span, ip := f.ip + 1 } :: rest }
      log fun m => .instr m.frames.length f.name f.block f.ip i span
      marking (instr p u i)
    | _, _ => invalid (.noInstruction f.name f.block f.ip)

end Exec

/-! ## Runs -/

/-- What a run is given. Numbers that are not positive stand for the defaults. -/
structure RunOptions where
  heapBudget : Int := 0
  maxFrames : Int := 0
  input : Option Bytes := none
  traced : Bool := false

namespace Machine

/-- The depth of calls when none is asked for. -/
def defaultMaxFrames : Nat := 4096

/-- A machine before its variables are there. -/
def blank (o : RunOptions) : Machine :=
  { heap := .ofBudget o.heapBudget
    maxFrames := if o.maxFrames ≤ 0 then defaultMaxFrames else o.maxFrames.toNat
    input := o.input
    events := if o.traced then some #[] else none }

/-- Makes the variables of all units, in order. -/
def makeGlobals : List LinkedUnit → Exec Unit
  | [] => return
  | u :: us => do
    let shapes := u.unit.globals.map (·.shape)
    Exec.reserve (slotWords shapes)
    let values ← Exec.zeroAll shapes
    modify fun m => { m with globals := m.globals.push values.toArray }
    makeGlobals us

/-- A machine that is about to start a program. -/
def start (p : Program) (o : RunOptions) : Except Stop Machine :=
  match makeGlobals p.units.toList (blank o) with
  | .ok _ m => .ok { m with pending := p.entries }
  | .error e _ => .error e

/-- Asks a machine to end at its next step. -/
def requestStop (m : Machine) : Machine := { m with stopping := true }

/-- How a run went: the machine as it is left, and what ended it early. -/
structure Outcome where
  machine : Machine
  stop : Option Stop := none

/-- One step. -/
def step (p : Program) (m : Machine) : Outcome :=
  match Exec.step p m with
  | .ok _ m => ⟨m, none⟩
  | .error e m => ⟨m, some e⟩

/-- Steps until nothing is left, at most `fuel` times. -/
def run (p : Program) : (fuel : Nat) → Machine → Outcome
  | 0, m => ⟨m, none⟩
  | fuel + 1, m =>
    if m.isDone then ⟨m, none⟩
    else
      match Exec.step p m with
      | .ok _ m => run p fuel m
      | .error e m => ⟨m, some e⟩

/-- Runs so many steps, then asks the machine to end. -/
def runUntil (p : Program) (steps fuel : Nat) (m : Machine) : Outcome :=
  let o := run p steps m
  match o.stop with
  | some _ => o
  | none => run p fuel o.machine.requestStop

/-- The bytes written. -/
def written (m : Machine) : Bytes := m.output.toList

/-- The lines of the trace. -/
def traceLines (m : Machine) (sources : Option SourceLibrary) : List Bytes :=
  (m.events.getD #[]).toList.map (·.render sources)

/-- More steps than any run takes. -/
def enough : Nat := 0x4000000000000000

end Machine

end Pascaline
