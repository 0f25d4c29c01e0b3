import Pascaline.Code
import Pascaline.Digest
import Pascaline.Scope
import Pascaline.Tree

/-!
# Compiled units

What is kept of a program or unit once it is compiled: its code, and its interface in a form that
does not depend on the type table of a session.
-/

namespace Pascaline

/-! ## Interfaces -/

/-- A type without a table. Classes are referred to by key; a part that is missing has no type. -/
inductive TypeDesc where
  /-- A type without parts. -/
  | basic (kind : TypeKind)
  | pointer (elem : Option TypeDesc)
  /-- Without a length the array is dynamic. -/
  | array (elem : Option TypeDesc) (length : Option Nat)
  | classRef (key : Option ClassKey)
  | routine (isFunction : Bool) (params : List TypeDesc) (result : Option TypeDesc)
  | unknown (number : Nat)
deriving Repr, Inhabited

/-- A symbol of the outermost scope of a unit. -/
structure SymbolDesc where
  name : String := ""
  display : String := ""
  kind : SymbolKind := .invalid
  flags : SymbolFlags := {}
  type : Option TypeDesc := none
  const : Value := .invalid
  slot : Int := 0
  routine : Int := 0
  owner : Option ClassKey := none
  native : String := ""
  params : List TypeDesc := []
  result : Option TypeDesc := none
  start : Nat := 0
  stop : Nat := 0
deriving Repr, Inhabited

structure FieldDesc where
  name : String := ""
  type : TypeDesc := .unknown 0
  offset : Int := 0
deriving Repr, Inhabited

structure MethodDesc where
  name : String := ""
  selector : String := ""
  kind : Nat := 0
  params : List TypeDesc := []
  result : Option TypeDesc := none
  isVirtual : Bool := false
  isOverride : Bool := false
  slot : Int := 0
  routine : RoutineRef := ⟨"", 0⟩
deriving Repr, Inhabited

structure VmtDesc where
  selector : String := ""
  routine : RoutineRef := ⟨"", 0⟩
  owner : ClassKey := ⟨"", ""⟩
deriving Repr, Inhabited

/-- The layout of a class. `shapes` covers all slots of an object, inherited ones included. -/
structure ClassDesc where
  name : String := ""
  base : Option ClassKey := none
  fields : List FieldDesc := []
  methods : List MethodDesc := []
  vmt : List VmtDesc := []
  slots : Int := 0
  shapes : List Shape := []
deriving Repr, Inhabited

structure GlobalDesc where
  name : String := ""
  shape : Shape := .unknown 0
deriving Repr, Inhabited

/-- The digest that a used unit had when it was compiled against. -/
structure DepDigest where
  name : String := ""
  digest : Digest := .zero
deriving Repr, Inhabited

/-! ## Units -/

/-- A compiled program or unit. `init` and `main` are routine numbers, negative for none; a unit
put together without routines has no table of them. `file` is the source of the session at hand
and is not stored. -/
structure CompiledUnit where
  magic : String := "BLAISEU"
  schema : Nat := 1
  name : String := ""
  display : String := ""
  kind : Tree.FileKind := .program
  path : String := ""
  source : Digest := .zero
  deps : List DepDigest := []
  imports : List String := []
  exports : List SymbolDesc := []
  privates : List SymbolDesc := []
  classes : List ClassDesc := []
  globals : List GlobalDesc := []
  table : Option (Array Routine) := none
  pool : Pool := {}
  init : Int := -1
  main : Int := -1
  file : Nat := 0
deriving Inhabited

/-- Why bytes are no unit. -/
inductive Unreadable where
  | empty
  /-- The first byte starts neither a map nor a list. -/
  | notARecord (head : UInt8)
  /-- A part is missing or of the wrong kind. -/
  | broken
  /-- There are no bytes to read. -/
  | refused (reason : String)
deriving Repr, DecidableEq

def Unreadable.message : Unreadable → String
  | empty => "EOF"
  | notARecord head => "msgpack: unexpected code=" ++ String.ofList (Nat.toDigits 16 head.toNat) ++
    " decoding map length"
  | broken => "unexpected EOF"
  | refused reason => reason

/-- What is wrong with a unit. -/
inductive UnitError where
  | unreadable (why : Unreadable)
  | badMagic (magic : String)
  | badSchema (schema : Nat)
  | badHeader (unit : String)
  | badCode (unit routine : String) (e : CodeError)
  | badFrame (unit routine : String)
  | badEntry (unit : String)
  | classWithoutKey
  | unknownTypeKind (number : Nat)
  | classNotLoaded (key : ClassKey)
  | ownerNotLoaded (unit symbol name : String)
  | inSymbol (unit symbol : String) (e : UnitError)
  | inClass (unit name : String) (e : UnitError)
deriving Repr

namespace UnitError

def corrupt : String := "corrupt compiled unit"

def message : UnitError → String
  | unreadable why => corrupt ++ ": " ++ why.message
  | badMagic m => corrupt ++ ": bad magic " ++ quoted m
  | badSchema n => corrupt ++ ": schema " ++ decimal n ++ ", want 1"
  | badHeader u => u ++ ": bad header: " ++ corrupt
  | badCode u r e => u ++ ": routine " ++ r ++ ": " ++ e.message ++ ": " ++ corrupt
  | badFrame u r => u ++ ": routine " ++ r ++ ": bad frame layout: " ++ corrupt
  | badEntry u => u ++ ": entry routine out of range: " ++ corrupt
  | classWithoutKey => "class type without reference: " ++ corrupt
  | unknownTypeKind n => "unknown type kind " ++ decimal n ++ ": " ++ corrupt
  | classNotLoaded k => "class " ++ k.render ++ " is not loaded"
  | ownerNotLoaded u s c => u ++ "." ++ s ++ ": class " ++ c ++ " is not loaded"
  | inSymbol u s e => u ++ "." ++ s ++ ": " ++ e.message
  | inClass u c e => u ++ ": class " ++ c ++ ": " ++ e.message

end UnitError

namespace CompiledUnit

def magicWord : String := "BLAISEU"

def currentSchema : Nat := 1

def routines (u : CompiledUnit) : Array Routine := u.table.getD #[]

def routine? (u : CompiledUnit) (i : Int) : Option Routine :=
  if i < 0 then none else u.routines[i.toNat]?

/-- The digest of the source together with those of the used units. -/
def digest (u : CompiledUnit) : Digest := u.source.combine (u.deps.map (·.digest))

def checkRoutine (u : CompiledUnit) (r : Routine) : Except UnitError Unit :=
  match r.blocks.validate with
  | .error e => .error (.badCode u.name r.name e)
  | .ok _ =>
    if r.locals.size < r.params || r.locals.size ≤ r.result then .error (.badFrame u.name r.name)
    else .ok ()

/-- Checks the header, the code and the frames of all routines, and the entry routines. -/
def validate (u : CompiledUnit) : Except UnitError Unit := do
  if u.magic ≠ magicWord || u.schema ≠ currentSchema then throw (.badHeader u.name)
  u.routines.toList.forM u.checkRoutine
  if u.routines.size ≤ u.init || u.routines.size ≤ u.main then throw (.badEntry u.name)

end CompiledUnit

end Pascaline
