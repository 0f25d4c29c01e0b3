import Pascaline.Text.Bytes

/-!
# Types

A type is a handle into a table. Structural types are entered once, so equal ones share a handle;
a class is entered anew for every declaration.
-/

namespace Pascaline

/-- A handle into a type table; 0 is no type. Its 32 bits are a capacity that is not modelled. -/
abbrev TypeId := Nat

/-- The parameters and the result of a routine; a procedure has no result. -/
structure Signature where
  params : List TypeId
  result : TypeId
deriving Repr, DecidableEq, Inhabited

/-- The text that a signature is entered under: every parameter with a comma behind it, then a colon
and the result. -/
def Signature.text (sig : Signature) : String :=
  String.join (sig.params.map fun p => decimal p ++ ",") ++ ":" ++ decimal sig.result

/-- What stands behind a handle. An array without a length is dynamic; a class is a position in
the table of classes. -/
inductive TypeShape where
  | void | nil | boolean | integer | real | char | string
  | pointer (elem : TypeId)
  | array (elem : TypeId) (length : Option Nat)
  | classRef (index : Nat)
  | routine (sig : Signature)
deriving Repr, DecidableEq, Inhabited

/-- The kinds of types, in their fixed order. -/
inductive TypeKind where
  | invalid | void | nil | boolean | integer | real | char | string | pointer | array | classRef
  | procedure | function
deriving Repr, DecidableEq, Inhabited

namespace TypeKind

def all : List TypeKind :=
  [invalid, void, nil, boolean, integer, real, char, string, pointer, array, classRef, procedure,
   function]

def render : TypeKind → String
  | invalid => "invalid" | void => "void" | nil => "nil" | boolean => "boolean"
  | integer => "integer" | real => "real" | char => "char" | string => "string"
  | pointer => "pointer" | array => "array" | classRef => "class" | procedure => "procedure"
  | function => "function"

def isNumeric (k : TypeKind) : Bool := k = integer || k = real

def isOrdinal (k : TypeKind) : Bool := k = integer || k = char || k = boolean

def isRoutine (k : TypeKind) : Bool := k = procedure || k = function

/-- Kinds whose values may be nil. -/
def isReference : TypeKind → Bool
  | pointer | array | classRef | procedure | function | nil => true
  | _ => false

end TypeKind

namespace TypeShape

def kind : TypeShape → TypeKind
  | void => .void
  | nil => .nil
  | boolean => .boolean
  | integer => .integer
  | real => .real
  | char => .char
  | string => .string
  | pointer _ => .pointer
  | array _ _ => .array
  | classRef _ => .classRef
  | routine sig => if sig.result = 0 then .procedure else .function

/-- Whether two types are entered as one. Signatures are told apart by their text. -/
def isSame : TypeShape → TypeShape → Bool
  | routine a, routine b => a.text == b.text
  | s, s' => s == s'

end TypeShape

/-! ## Classes -/

/-- The name of a class across units. -/
structure ClassKey where
  module : String
  name : String
deriving Repr, DecidableEq, Inhabited

def ClassKey.render (k : ClassKey) : String := k.module ++ "." ++ k.name

/-- A routine of a unit, by number. -/
structure RoutineRef where
  module : String
  index : Int
deriving Repr, DecidableEq, Inhabited

def RoutineRef.render (r : RoutineRef) : String := r.module ++ "#" ++ signedDecimal r.index

/-- A data member; offsets count from the root of the hierarchy. -/
structure Field where
  name : String
  type : TypeId
  offset : Nat
  owner : TypeId
deriving Repr, DecidableEq, Inhabited

inductive MethodKind where
  | none | procedure | function | constructor
deriving Repr, DecidableEq, Inhabited

namespace MethodKind

def number : MethodKind → Nat
  | .none => 0
  | .procedure => 1
  | .function => 2
  | .constructor => 3

def ofNumber : Nat → MethodKind
  | 1 => .procedure
  | 2 => .function
  | 3 => .constructor
  | _ => .none

end MethodKind

/-- A routine of a class. `isVirtual` holds for methods with a place in the dispatch table, and
`slot` is that place, -1 for none. -/
structure Method where
  name : String
  selector : String
  kind : MethodKind
  sig : Signature
  isVirtual : Bool
  isOverride : Bool
  slot : Int
  routine : RoutineRef
  owner : TypeId
deriving Repr, DecidableEq, Inhabited

/-- A place of a dispatch table: the routine that the most derived class gives a selector. -/
structure VmtEntry where
  selector : String
  routine : RoutineRef
  owner : TypeId
deriving Repr, DecidableEq, Inhabited

/-- How far the layout of a class has come. -/
inductive LayoutState where
  | pending | inProgress | done
deriving Repr, DecidableEq, Inhabited

def LayoutState.number : LayoutState → Nat
  | pending => 0
  | inProgress => 1
  | done => 2

/-- A class: its own fields and methods, and its whole dispatch table. `slots` counts all fields,
inherited ones included. -/
structure ClassInfo where
  key : ClassKey
  type : TypeId
  base : TypeId := 0
  fields : List Field := []
  methods : List Method := []
  vmt : List VmtEntry := []
  slots : Nat := 0
  state : LayoutState := .pending
deriving Repr, DecidableEq, Inhabited

/-- The first place of a selector in the dispatch table. -/
def ClassInfo.vmtSlot? (c : ClassInfo) (selector : String) : Option Nat :=
  c.vmt.findIdx? (·.selector == selector)

/-! ## The table -/

/-- The types of a session; handle `i + 1` stands for `shapes[i]`. -/
structure TypeTable where
  shapes : Array TypeShape
  classes : Array ClassInfo := #[]
deriving Inhabited

namespace TypeTable

/-! Handles of the primitive types, which every table starts with. -/

def void : TypeId := 1

def nil : TypeId := 2

def boolean : TypeId := 3

def integer : TypeId := 4

def real : TypeId := 5

def char : TypeId := 6

def string : TypeId := 7

def empty : TypeTable :=
  { shapes := #[.void, .nil, .boolean, .integer, .real, .char, .string] }

def shape? (t : TypeTable) (id : TypeId) : Option TypeShape :=
  if id = 0 then none else t.shapes[id - 1]?

def kind (t : TypeTable) (id : TypeId) : TypeKind :=
  match t.shape? id with
  | some s => s.kind
  | none => .invalid

/-- Enters a structural type, or finds it. -/
def intern (t : TypeTable) (s : TypeShape) : TypeId × TypeTable :=
  match t.shapes.findIdx? (·.isSame s) with
  | some i => (i + 1, t)
  | none => (t.shapes.size + 1, { t with shapes := t.shapes.push s })

def pointer (t : TypeTable) (elem : TypeId) : TypeId × TypeTable := t.intern (.pointer elem)

/-- The number of elements that stands for no fixed length. -/
def dynamicLength : Nat := 4294967295

/-- A fixed array. -/
def array (t : TypeTable) (elem : TypeId) (length : Nat) : TypeId × TypeTable :=
  t.intern (.array elem (if length = dynamicLength then none else some length))

def dynamicArray (t : TypeTable) (elem : TypeId) : TypeId × TypeTable :=
  t.intern (.array elem none)

def routine (t : TypeTable) (sig : Signature) : TypeId × TypeTable := t.intern (.routine sig)

def signature? (t : TypeTable) (id : TypeId) : Option Signature :=
  match t.shape? id with
  | some (.routine sig) => some sig
  | _ => none

/-- Enters a class, which is new even if its key is not. -/
def newClass (t : TypeTable) (key : ClassKey) : TypeId × TypeTable :=
  let id := t.shapes.size + 1
  (id, { shapes := t.shapes.push (.classRef t.classes.size),
         classes := t.classes.push { key, type := id } })

def classIndex? (t : TypeTable) (id : TypeId) : Option Nat :=
  match t.shape? id with
  | some (.classRef i) => some i
  | _ => none

def classInfo? (t : TypeTable) (id : TypeId) : Option ClassInfo :=
  (t.classIndex? id).bind fun i => t.classes[i]?

/-- Replaces what is known of a class. -/
def setClass (t : TypeTable) (id : TypeId) (c : ClassInfo) : TypeTable :=
  match t.classIndex? id with
  | some i => { t with classes := t.classes.set! i c }
  | none => t

/-- The class entered last under a key. -/
def classByKey? (t : TypeTable) (key : ClassKey) : Option TypeId :=
  (t.classes.toList.reverse.find? (·.key == key)).map (·.type)

/-- The class behind a class type or a pointer to one. -/
def classOf? (t : TypeTable) (id : TypeId) : Option ClassInfo :=
  match t.shape? id with
  | some (.pointer elem) => t.classInfo? elem
  | _ => t.classInfo? id

/-- A class and its bases, the most derived first; `fuel` bounds their number. -/
def chainFrom (t : TypeTable) : (fuel : Nat) → TypeId → List ClassInfo
  | 0, _ => []
  | fuel + 1, id =>
    match t.classInfo? id with
    | some c => c :: chainFrom t fuel c.base
    | none => []

/-- A class and its bases, the most derived first. -/
def chain (t : TypeTable) (id : TypeId) : List ClassInfo := t.chainFrom (t.classes.size + 1) id

/-- Whether `sub` is `base` or derives from it. -/
def isSubclass (t : TypeTable) (sub base : TypeId) : Bool :=
  (sub == base && sub != 0) || (t.chain sub).any (fun c => c.type == base || c.base == base && base != 0)

/-- A field of a class or of one of its bases. -/
def lookupField? (t : TypeTable) (id : TypeId) (name : String) : Option Field :=
  (t.chain id).findSome? fun c => c.fields.find? (·.name == name)

/-- Adds methods whose selector is not yet there. -/
def addVisible (seen : List Method) : List Method → List Method
  | [] => seen
  | m :: ms =>
    addVisible (if seen.any (·.selector == m.selector) then seen else seen ++ [m]) ms

/-- The methods of one name that a class shows, the most derived class first; a base method is
hidden by one of the same selector further down. -/
def lookupMethods (t : TypeTable) (id : TypeId) (name : String) : List Method :=
  (t.chain id).foldl (fun seen c => addVisible seen (c.methods.filter (·.name == name))) []

/-! ## Text -/

/-- A type as it is written in a source; `fuel` bounds the nesting. -/
def renderFrom (t : TypeTable) : (fuel : Nat) → TypeId → String
  | 0, _ => "<invalid>"
  | fuel + 1, id =>
    match t.shape? id with
    | none => "<invalid>"
    | some (.pointer e) => "pointer to " ++ renderFrom t fuel e
    | some (.array e none) => "array of " ++ renderFrom t fuel e
    | some (.array e (some n)) => "array[" ++ decimal n ++ "] of " ++ renderFrom t fuel e
    | some (.classRef i) =>
      match t.classes[i]? with
      | some c => c.key.name
      | none => "class"
    | some (.routine sig) =>
      let params := "; ".intercalate (sig.params.map (renderFrom t fuel))
      if sig.result = 0 then "procedure(" ++ params ++ ")"
      else "function(" ++ params ++ "): " ++ renderFrom t fuel sig.result
    | some s => s.kind.render

/-- A type as it is written in a source. -/
def render (t : TypeTable) (id : TypeId) : String := t.renderFrom (t.shapes.size + 1) id

/-- What methods are matched by: the name and the parameter types. -/
def selector (t : TypeTable) (name : String) (params : List TypeId) : String :=
  name ++ "(" ++ ",".intercalate (params.map t.render) ++ ")"

end TypeTable

end Pascaline
