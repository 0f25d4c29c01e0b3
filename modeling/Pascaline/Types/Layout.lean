import Pascaline.Source.Span
import Pascaline.Types

/-!
# Class layout

A derived class starts from its base: inherited fields keep their offsets and new ones follow,
inherited dispatch places stay, an override takes over the place of its selector, and every method
declared virtual gets a new place at the end. Bases are laid out on demand, so classes may be
declared in any order; a class met again while its own layout is under way inherits from itself.
-/

namespace Pascaline

/-- A field as declared. -/
structure FieldSpec where
  name : String
  type : TypeId
  span : Span
deriving Repr, Inhabited

/-- A method header as declared. -/
structure MethodSpec where
  name : String
  kind : MethodKind
  sig : Signature
  isVirtual : Bool
  isOverride : Bool
  routine : RoutineRef
  span : Span
deriving Repr, Inhabited

/-- A class as declared. `baseName` is empty when the source names no base; `base` is 0 when the
name denotes no type. -/
structure ClassDecl where
  id : TypeId
  baseName : String
  base : TypeId
  fields : List FieldSpec
  methods : List MethodSpec
  span : Span
deriving Repr, Inhabited

/-- Why a class has no layout. -/
inductive LayoutFault where
  | unknownBase (name : String)
  | cyclicInheritance (cycle : List ClassKey)
  | badOverride (selector : String)
  | duplicateMember (member : String)
deriving Repr, DecidableEq

structure LayoutError where
  fault : LayoutFault
  owner : ClassKey
  span : Span
deriving Repr

def LayoutError.message (e : LayoutError) : String :=
  match e.fault with
  | .unknownBase n => "base of class " ++ e.owner.name ++ " is not a class: " ++ n
  | .cyclicInheritance [] => "class " ++ e.owner.name ++ " inherits from itself"
  | .cyclicInheritance ks => "cyclic inheritance: " ++ " -> ".intercalate (ks.map (·.name))
  | .badOverride m =>
    e.owner.name ++ "." ++ m ++ " is marked override but no inherited virtual method matches"
  | .duplicateMember m => "duplicate member " ++ m ++ " in class " ++ e.owner.name

namespace Layout

/-- Appends fields to a class; a name may occur only once along the chain of bases. The class is
returned as far as it came, with the number of slots reached. -/
def addFields (inherited : String → Bool) :
    ClassInfo → (slots : Nat) → List FieldSpec → ClassInfo × Nat × Option LayoutError
  | c, slots, [] => (c, slots, none)
  | c, slots, f :: fs =>
    if c.fields.any (·.name == f.name) || inherited f.name then
      (c, slots, some ⟨.duplicateMember f.name, c.key, f.span⟩)
    else
      addFields inherited { c with fields := c.fields ++ [⟨f.name, f.type, slots, c.type⟩] }
        (slots + 1) fs

/-- Enters methods into a class. An override needs an inherited place of its selector. -/
def addMethods (t : TypeTable) (hasBase : Bool) :
    ClassInfo → List MethodSpec → ClassInfo × Option LayoutError
  | c, [] => (c, none)
  | c, m :: ms =>
    let sel := t.selector m.name m.sig.params
    if c.methods.any (·.selector == sel) then
      (c, some ⟨.duplicateMember sel, c.key, m.span⟩)
    else
      let entry : VmtEntry := ⟨sel, m.routine, c.type⟩
      let method := fun (slot : Int) =>
        ({ name := m.name, selector := sel, kind := m.kind, sig := m.sig,
           isVirtual := m.isVirtual || m.isOverride, isOverride := m.isOverride, slot,
           routine := m.routine, owner := c.type } : Method)
      if m.isOverride then
        match c.vmtSlot? sel, hasBase with
        | some slot, true =>
          addMethods t hasBase
            { c with vmt := c.vmt.set slot entry, methods := c.methods ++ [method slot] } ms
        | _, _ => (c, some ⟨.badOverride sel, c.key, m.span⟩)
      else if m.isVirtual then
        addMethods t hasBase
          { c with vmt := c.vmt ++ [entry], methods := c.methods ++ [method c.vmt.length] } ms
      else addMethods t hasBase { c with methods := c.methods ++ [method (-1)] } ms

/-- Lays out the members of a class whose base is laid out. -/
def fill (t : TypeTable) (c : ClassInfo) (base : Option ClassInfo) (d : ClassDecl) :
    ClassInfo × Option LayoutError :=
  let start := match base with
    | some b => { c with vmt := b.vmt, fields := [] }
    | none => { c with fields := [] }
  let inherited := fun name => base.isSome && (t.lookupField? d.base name).isSome
  match addFields inherited start (base.elim 0 (·.slots)) d.fields with
  | (c, _, some e) => (c, some e)
  | (c, slots, none) => addMethods t base.isSome { c with slots, methods := [] } d.methods

/-- The classes under way from `id` on, closed by `id` itself; `stack` has the latest first. -/
def cycleFrom (t : TypeTable) (stack : List TypeId) (id : TypeId) : List ClassKey :=
  if stack.contains id then
    ((stack.reverse.dropWhile (· != id)) ++ [id]).filterMap fun k => (t.classInfo? k).map (·.key)
  else []

/-- The declaration of a class, the latest if there are several. -/
def declOf? (decls : List ClassDecl) (id : TypeId) : Option ClassDecl :=
  decls.reverse.find? (·.id == id)

/-- Lays out a class after its base. A class without a declaration here comes from another unit
and is complete. `stack` holds the classes under way, and `fuel` bounds their number. -/
def layoutFrom (decls : List ClassDecl) :
    (fuel : Nat) → (stack : List TypeId) → TypeTable → TypeId → TypeTable × Option LayoutError
  | 0, _, t, _ => (t, none)
  | fuel + 1, stack, t, id =>
    match t.classInfo? id with
    | none => (t, none)
    | some c =>
      match c.state with
      | .done => (t, none)
      | .inProgress =>
        let span := ((declOf? decls id).map (·.span)).getD {}
        (t, some ⟨.cyclicInheritance (cycleFrom t stack id), c.key, span⟩)
      | .pending =>
        match declOf? decls id with
        | none => (t.setClass id { c with state := .done }, none)
        | some d =>
          let t := t.setClass id { c with state := .inProgress }
          let finish := fun (t : TypeTable) (c : ClassInfo) (e : Option LayoutError) =>
            (t.setClass id { c with state := .done }, e)
          if d.baseName = "" then
            let (c, e) := fill t c none d
            finish t c e
          else if (t.classInfo? d.base).isNone then
            finish t c (some ⟨.unknownBase d.baseName, c.key, d.span⟩)
          else
            match layoutFrom decls fuel (id :: stack) t d.base with
            | (t, some e) => finish t c (some e)
            | (t, none) =>
              let c := { c with base := d.base }
              let (c, e) := fill t c (t.classInfo? d.base) d
              finish t c e

/-- Lays out one class. -/
def layoutClass (decls : List ClassDecl) (t : TypeTable) (id : TypeId) :
    TypeTable × Option LayoutError :=
  layoutFrom decls (t.classes.size + 2) [] t id

/-- Lays out classes in the given order and collects the failures. -/
def layoutAll (decls : List ClassDecl) : TypeTable → List TypeId → TypeTable × List LayoutError
  | t, [] => (t, [])
  | t, id :: ids =>
    let (t, e) := layoutClass decls t id
    let (t, es) := layoutAll decls t ids
    (t, e.toList ++ es)

end Layout

end Pascaline
