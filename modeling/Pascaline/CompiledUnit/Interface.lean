import Pascaline.Bound
import Pascaline.CompiledUnit

/-!
# Interfaces of units

Types, symbols and classes of a session are described without its type table, and entered into the
table of another session. Classes come first, since everything else may refer to them by key.
-/

namespace Pascaline

/-! ## Descriptions -/

namespace TypeTable

/-- A type without the table; `fuel` bounds its nesting. -/
def describeFrom (t : TypeTable) : (fuel : Nat) → TypeId → Option TypeDesc
  | 0, _ => none
  | fuel + 1, id =>
    let part := describeFrom t fuel
    (t.shape? id).map fun
      | .pointer e => .pointer (part e)
      | .array e n => .array (part e) n
      | .classRef i => .classRef ((t.classes[i]?).map (·.key))
      | .routine sig => .routine (sig.result ≠ 0) (sig.params.filterMap part) (part sig.result)
      | s => .basic s.kind

/-- A type without the table; no type has no description. -/
def describe (t : TypeTable) (id : TypeId) : Option TypeDesc :=
  t.describeFrom (t.shapes.size + 1) id

def keyOf? (t : TypeTable) (id : TypeId) : Option ClassKey := (t.classInfo? id).map (·.key)

def describeSymbol (t : TypeTable) (sym : Symbol) : SymbolDesc :=
  let desc : SymbolDesc :=
    { name := sym.name, display := sym.display, kind := sym.kind,
      flags := sym.flags.without .imported, type := t.describe sym.type, const := sym.const,
      slot := sym.slot, routine := sym.routine, owner := t.keyOf? sym.owner, native := sym.native,
      start := sym.span.start, stop := sym.span.stop }
  if sym.kind.isRoutine then
    { desc with params := sym.sig.params.filterMap t.describe, result := t.describe sym.sig.result }
  else desc

def describeMethod (t : TypeTable) (m : Method) : MethodDesc :=
  { name := m.name, selector := m.selector, kind := m.kind.number,
    params := m.sig.params.filterMap t.describe, result := t.describe m.sig.result,
    isVirtual := m.isVirtual, isOverride := m.isOverride, slot := m.slot, routine := m.routine }

/-- A class that is laid out; `shapes` are those of its slots. -/
def describeClass (t : TypeTable) (shapes : List Shape) (c : ClassInfo) : ClassDesc :=
  { name := c.key.name
    base := if c.base = 0 then none else some ((t.keyOf? c.base).getD ⟨"", ""⟩)
    fields := c.fields.map fun f => ⟨f.name, (t.describe f.type).getD (.unknown 0), f.offset⟩
    methods := c.methods.map t.describeMethod
    vmt := c.vmt.map fun e => ⟨e.selector, e.routine, (t.keyOf? e.owner).getD ⟨"", ""⟩⟩
    slots := c.slots
    shapes }

end TypeTable

/-! ## Entering descriptions -/

/-- Entering something into a type table, which stays as far as it came when it fails. -/
abbrev Entry (α : Type) := EStateM UnitError TypeTable α

namespace TypeTable

def internBasic : TypeKind → Entry TypeId
  | .void => return void
  | .nil => return nil
  | .boolean => return boolean
  | .integer => return integer
  | .real => return real
  | .char => return char
  | .string => return string
  | k => throw (.unknownTypeKind (TypeKind.all.findIdx (· = k)))

/-- The class entered under a key. -/
def classOfKey (key : ClassKey) : Entry TypeId := do
  match (← get).classByKey? key with
  | some id => return id
  | none => throw (.classNotLoaded key)

mutual

/-- Enters the type that a description means. -/
def enterType : TypeDesc → Entry TypeId
  | .basic k => internBasic k
  | .pointer e => do
    let elem ← enterOption e
    modifyGet (·.pointer elem)
  | .array e n => do
    let elem ← enterOption e
    modifyGet (·.intern (.array elem n))
  | .classRef none => throw .classWithoutKey
  | .classRef (some key) => classOfKey key
  | .routine _ params result => do
    let ps ← enterTypes params
    let r ← enterOption result
    modifyGet (·.routine ⟨ps, r⟩)
  | .unknown n => throw (.unknownTypeKind n)

def enterOption : Option TypeDesc → Entry TypeId
  | none => return 0
  | some d => enterType d

def enterTypes : List TypeDesc → Entry (List TypeId)
  | [] => return []
  | d :: ds => do
    let id ← enterType d
    return id :: (← enterTypes ds)

end

def enterSignature (params : List TypeDesc) (result : Option TypeDesc) : Entry Signature := do
  let ps ← enterTypes params
  let r ← enterOption result
  return ⟨ps, r⟩

/-- Gives an error a place. -/
def within {α : Type} (place : UnitError → UnitError) (x : Entry α) : Entry α := fun t =>
  match x t with
  | .ok a t => .ok a t
  | .error e t => .error (place e) t

end TypeTable

namespace CompiledUnit

open TypeTable

/-- Restores a symbol that the unit exports. -/
def enterSymbol (u : CompiledUnit) (d : SymbolDesc) : Entry Symbol := do
  let here := UnitError.inSymbol u.name d.name
  let type ← within here (enterOption d.type)
  let owner ← match d.owner with
    | none => pure 0
    | some key => within (fun _ => .ownerNotLoaded u.name d.name key.name) (classOfKey key)
  let sig ← if d.kind.isRoutine then within here (enterSignature d.params d.result) else pure ⟨[], 0⟩
  return { name := d.name, display := d.display, kind := d.kind, flags := d.flags, type,
           span := ⟨u.file, d.start, d.stop⟩, module := u.name, const := d.const, slot := d.slot,
           routine := d.routine, owner, native := d.native, sig }

/-- Restores a class that is entered already. -/
def enterClass (id : TypeId) (d : ClassDesc) : Entry Unit := do
  let change := fun (f : ClassInfo → ClassInfo) => (modify fun (t : TypeTable) =>
    match t.classInfo? id with
    | some c => t.setClass id (f c)
    | none => t : Entry Unit)
  match d.base with
  | some key =>
    let base ← classOfKey key
    change ({ · with base })
  | none => pure ()
  d.fields.forM fun f => do
    let type ← enterType f.type
    change fun c => { c with fields := c.fields ++ [⟨f.name, type, f.offset.toNat, id⟩] }
  d.methods.forM fun m => do
    let sig ← enterSignature m.params m.result
    change fun c => { c with methods := c.methods ++
      [{ name := m.name, selector := m.selector, kind := .ofNumber m.kind, sig,
         isVirtual := m.isVirtual, isOverride := m.isOverride, slot := m.slot,
         routine := m.routine, owner := id }] }
  d.vmt.forM fun e => do
    let owner ← classOfKey e.owner
    change fun c => { c with vmt := c.vmt ++ [⟨e.selector, e.routine, owner⟩] }
  change ({ · with slots := d.slots.toNat, state := .done })

/-- Enters the classes of a unit. Those known already, because the unit was compiled in this
session, are left alone. -/
def enterClasses (u : CompiledUnit) : Entry Unit := do
  let fresh ← u.classes.filterMapM fun d => do
    let key : ClassKey := ⟨u.name, d.name⟩
    match (← get).classByKey? key with
    | some _ => return none
    | none => return some (d, ← modifyGet (·.newClass key))
  fresh.forM fun (d, id) => within (.inClass u.name d.name) (enterClass id d)

/-- What a file that uses the unit sees of it. -/
def interface (u : CompiledUnit) : Entry Bound.Import := do
  u.enterClasses
  let symbols ← u.exports.mapM u.enterSymbol
  return ⟨u.name, u.kind, symbols⟩

end CompiledUnit

end Pascaline
