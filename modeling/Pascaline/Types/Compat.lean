import Pascaline.Native
import Pascaline.Types

/-!
# Compatibility of types

Which values may stand where, and which may be compared.
-/

namespace Pascaline

/-- How well a value fits: overloads that fit exactly are preferred to those that widen. -/
inductive Compat where
  | incompatible | widening | exact
deriving Repr, DecidableEq

def Compat.render : Compat → String
  | incompatible => "incompatible"
  | widening => "widening"
  | exact => "exact"

namespace TypeTable

/-- Whether `sub` is a class that is, or derives from, `base`. -/
def derivesFrom (t : TypeTable) (sub base : TypeId) : Bool :=
  t.kind sub = .classRef && t.isSubclass sub base

/-- Whether a value of type `source` fits a place of type `target`. Classes and pointers to classes
convert to their bases and into each other, integers widen to reals, nil fits every reference, and
a fixed array fits a dynamic one. -/
def assignable (t : TypeTable) (source target : TypeId) : Compat :=
  let widens := fun (b : Bool) => if b then Compat.widening else .incompatible
  if source = 0 || target = 0 then .incompatible
  else if source = target then .exact
  else match t.shape? source, t.shape? target with
    | some .nil, some s => if s.kind.isReference then .exact else .incompatible
    | some .integer, some .real => .widening
    | some (.classRef _), some (.classRef _) => widens (t.isSubclass source target)
    | some (.pointer e), some (.pointer f) => widens (t.derivesFrom e f)
    | some (.pointer e), some (.classRef _) => widens (t.derivesFrom e target)
    | some (.classRef _), some (.pointer f) =>
      widens (t.kind f = .classRef && t.isSubclass source f)
    | some (.array e _), some (.array f none) => widens (e = f)
    | _, _ => .incompatible

def isAssignable (t : TypeTable) (source target : TypeId) : Bool :=
  t.assignable source target != .incompatible

/-- The type of arithmetic on two types: real if either is. -/
def wider (t : TypeTable) (a b : TypeId) : TypeId :=
  if t.kind a = .real || t.kind b = .real then TypeTable.real else TypeTable.integer

/-- Whether two types can be compared; references only for equality. -/
def comparable (t : TypeTable) (a b : TypeId) (equality : Bool) : Bool :=
  let k := t.kind a
  let l := t.kind b
  if k.isNumeric && l.isNumeric then true
  else if k = l && (k = .char || k = .string || k = .boolean) then true
  else if k = .char && l = .string || k = .string && l = .char then true
  else if equality && k.isReference && l.isReference then
    t.isAssignable a b || t.isAssignable b a
  else false

end TypeTable

/-- Whether a parameter of a built-in routine accepts a type. -/
def ArgKind.accepts (a : ArgKind) (k : TypeKind) : Bool :=
  match a with
  | .any => k != .void && k != .invalid
  | .int => k = .integer
  | .real | .numeric => k.isNumeric
  | .char => k = .char
  | .string | .text => k = .string || k = .char
  | .bool => k = .boolean
  | .sized => k = .string || k = .array
  | .ordinal => k.isOrdinal

/-- The parameter kinds in their fixed order. -/
def ArgKind.all : List ArgKind :=
  [.any, .int, .real, .numeric, .char, .string, .bool, .sized, .ordinal, .text]

end Pascaline
