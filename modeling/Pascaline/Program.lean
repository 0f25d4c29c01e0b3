import Pascaline.CompiledUnit
import Pascaline.Native

/-!
# Linked programs

Units are linked in the order in which they start up. Each may use those before it, and every entry
of its pool must lead to a routine, variable, class or built-in routine that is there.
-/

namespace Pascaline

/-- A routine of a linked program, with the position of its unit. -/
structure Callee where
  unit : Nat
  index : Int
  routine : Routine
deriving Inhabited

/-- A class with its dispatch table resolved. -/
structure LinkedClass where
  key : ClassKey
  desc : ClassDesc
  vmt : Array Callee := #[]
deriving Inhabited

/-- A unit with its pool resolved. A global is the position of its unit and its slot there; a class
is its position among the classes of the program. -/
structure LinkedUnit where
  unit : CompiledUnit
  calls : Array Callee := #[]
  globals : Array (Nat × Nat) := #[]
  classes : Array Nat := #[]
  natives : Array Native := #[]
deriving Inhabited

structure Program where
  units : Array LinkedUnit := #[]
  classes : Array LinkedClass := #[]
deriving Inhabited

/-- Why units do not link. -/
inductive LinkError where
  | givenTwice (unit : String)
  | notBefore (unit used : String)
  | unknownBase (name : String) (base : ClassKey)
  | shapeCount (name : String) (shapes : Nat) (slots : Int)
  | routineOfUnknownUnit (ref : RoutineRef)
  | noSuchRoutine (unit : String) (index : Int)
  | inVmt (name : String) (slot : Nat) (e : LinkError)
  | inUnit (unit : String) (e : LinkError)
  | badGlobal (unit : String) (ref : GlobalRef)
  | unknownClass (unit : String) (key : ClassKey)
  | unknownNative (unit name : String)
deriving Repr

namespace LinkError

def message : LinkError → String
  | givenTwice u => "link error: unit " ++ u ++ " given twice"
  | notBefore u used => "link error: " ++ u ++ " uses " ++ used ++ ", which is not initialized before it"
  | unknownBase c b => "link error: class " ++ c ++ ": unknown base " ++ b.render
  | shapeCount c n k =>
    "link error: class " ++ c ++ ": " ++ decimal n ++ " field shapes for " ++ signedDecimal k ++ " slots"
  | routineOfUnknownUnit r =>
    "link error: routine " ++ signedDecimal r.index ++ " of unknown unit " ++ r.module
  | noSuchRoutine u i => "link error: " ++ u ++ " has no routine " ++ signedDecimal i
  | inVmt c slot e => "class " ++ c ++ " vmt slot " ++ decimal slot ++ ": " ++ e.message
  | inUnit u e => u ++ ": " ++ e.message
  | badGlobal u g => "link error: " ++ u ++ ": bad global " ++ g.module ++ "#" ++ signedDecimal g.slot
  | unknownClass u k => "link error: " ++ u ++ ": unknown class " ++ k.render
  | unknownNative u n => "link error: " ++ u ++ ": unknown native " ++ n

end LinkError

namespace Program

/-- The position of a unit. -/
def unitIndex? (units : List CompiledUnit) (name : String) : Option Nat :=
  units.findIdx? (·.name == name)

/-- Checks that a unit is new and that all it uses comes before it. -/
def checkUnit (before : List CompiledUnit) (u : CompiledUnit) : Except LinkError Unit := do
  if (unitIndex? before u.name).isSome then throw (.givenTwice u.display)
  u.imports.forM fun used => do
    if (unitIndex? before used).isNone then throw (.notBefore u.display used)

def checkUnits : (before : List CompiledUnit) → List CompiledUnit → Except LinkError Unit
  | _, [] => .ok ()
  | before, u :: us => do
    checkUnit before u
    checkUnits (before ++ [u]) us

/-- Finds a routine. -/
def resolve (units : List CompiledUnit) (ref : RoutineRef) : Except LinkError Callee :=
  match unitIndex? units ref.module with
  | none => .error (.routineOfUnknownUnit ref)
  | some i =>
    let u := units.getD i {}
    match u.routine? ref.index with
    | none => .error (.noSuchRoutine u.display ref.index)
    | some routine => .ok ⟨i, ref.index, routine⟩

/-- The classes of all units with their keys, in order. -/
def classDescs (units : List CompiledUnit) : List (ClassKey × ClassDesc) :=
  units.flatMap fun u => u.classes.map fun d => (⟨u.name, d.name⟩, d)

/-- The position of a class; of several under one key the last counts. -/
def classIndex? (descs : List (ClassKey × ClassDesc)) (key : ClassKey) : Option Nat :=
  (descs.zipIdx.reverse.find? (·.1.1 == key)).map (·.2)

def linkClass (units : List CompiledUnit) (descs : List (ClassKey × ClassDesc))
    (key : ClassKey) (d : ClassDesc) : Except LinkError LinkedClass := do
  match d.base with
  | some base => if (classIndex? descs base).isNone then throw (.unknownBase d.name base)
  | none => pure ()
  if (d.shapes.length : Int) ≠ d.slots then throw (.shapeCount d.name d.shapes.length d.slots)
  let vmt ← d.vmt.zipIdx.mapM fun (e, slot) =>
    match resolve units e.routine with
    | .ok c => .ok c
    | .error e => .error (.inVmt d.name slot e)
  return ⟨key, d, vmt.toArray⟩

def linkUnit (units : List CompiledUnit) (descs : List (ClassKey × ClassDesc))
    (u : CompiledUnit) : Except LinkError LinkedUnit := do
  let calls ← u.pool.calls.mapM fun ref =>
    match resolve units ref with
    | .ok c => .ok c
    | .error e => .error (.inUnit u.display e)
  let globals ← u.pool.globals.mapM fun ref =>
    match unitIndex? units ref.module with
    | none => .error (.badGlobal u.display ref)
    | some i =>
      if ref.slot < 0 || ((units.getD i {}).globals.length : Int) ≤ ref.slot then
        .error (.badGlobal u.display ref)
      else .ok (i, ref.slot.toNat)
  let classes ← u.pool.classes.mapM fun key =>
    match classIndex? descs key with
    | none => .error (.unknownClass u.display key)
    | some i => .ok i
  let natives ← u.pool.natives.mapM fun name =>
    match Native.ofName? name with
    | none => .error (.unknownNative u.display name)
    | some n => .ok n
  return ⟨u, calls, globals, classes, natives⟩

/-- Links units given in the order in which they start up. -/
def link (units : List CompiledUnit) : Except LinkError Program := do
  checkUnits [] units
  let descs := classDescs units
  let classes ← descs.mapM fun (key, d) => linkClass units descs key d
  let linked ← units.mapM (linkUnit units descs)
  return ⟨linked.toArray, classes.toArray⟩

def unit? (p : Program) (name : String) : Option (Nat × CompiledUnit) :=
  (p.units.findIdx? (·.unit.name == name)).bind fun i => (p.units[i]?).map fun u => (i, u.unit)

/-- A routine that a run starts at the bottom of the stack. -/
structure EntryPoint where
  unit : Nat
  index : Int
deriving Repr, DecidableEq

def EntryPoint.callee? (e : EntryPoint) (p : Program) : Option Callee := do
  let u ← p.units[e.unit]?
  let routine ← u.unit.routine? e.index
  return ⟨e.unit, e.index, routine⟩

/-- What a run does: the initialization of every unit in order, then the program's main block. Of
several programs the last one counts. -/
def entries (p : Program) : List EntryPoint :=
  let units := p.units.toList.zipIdx
  let inits := units.filterMap fun (u, i) => if 0 ≤ u.unit.init then some ⟨i, u.unit.init⟩ else none
  let main := (units.reverse.find? (·.1.unit.kind == .program)).bind fun (u, i) =>
    if 0 ≤ u.unit.main then some ⟨i, u.unit.main⟩ else none
  inits ++ main.toList

end Program

end Pascaline
