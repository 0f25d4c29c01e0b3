import Pascaline.Compilation
import Pascaline.Proofs.Workspace.Reachable

/-!
# Where bound expressions are stored

In a module that was bound without errors, every variable, field and call leads to something that is
there: a slot of the frame, a variable of the unit or a field of the class with the type that was
declared, and a routine with as many parameters as there are arguments.
-/

namespace Pascaline

open TypeTable

namespace Bound

/-- The expression agrees with what it refers to: a slot of the frame, a variable of the module, a
field of the class of its object, or a routine that takes its arguments. The type that a variable or
a field was declared with and that of the expression are related by `agrees`. A variable of the name
of the module is one of the module if none of the `others` has that name. -/
def Expr.Placed (m : Module) (others : List Origin) (takes : RoutineRef → Nat → Prop)
    (t : TypeTable) (agrees : TypeId → TypeId → Prop) (slots : List Slot) : Expr → Prop
  | .frameVar _ slot type _ => ∃ sl, slots[slot]? = some sl ∧ t.Shows sl.type type
  | .unitVar module slot type _ => module = m.name → (∀ o ∈ others, o.name ≠ m.name) →
      ∃ declared, m.Holds module slot declared ∧ agrees declared type
  | .field object offset type _ => ∃ c declared, t.classOf? object.type = some c ∧
      t.HasField c.type offset declared ∧ agrees declared type
  | .call ref args _ _ => takes ref args.length
  | .newObject _ (some ref) args _ _ => takes ref (args.length + 1)
  | _ => True

end Bound

namespace Workspace

open Pascaline.Bound

variable {w : Workspace}

/-- The routine is one of the module or of a module at hand, and has so many parameters. -/
def Takes (w : Workspace) (m : Module) (routine : RoutineRef) (n : Nat) : Prop :=
  m.Takes routine n ∨ ∃ o ∈ w.origins, o.module.Takes routine n

/-- Binds a text alone. -/
def boundAlone (text : String) : Option BindResult :=
  (Tree.File.parse { (default : SourceFile) with content := utf8 text }).file.bind fun f =>
    (Module.ofFile .empty [] "" f).toOption

theorem exists_of_boundAlone {text : String} {r : BindResult} (h : boundAlone text = some r) :
    ∃ f, Module.ofFile .empty [] "" f = .ok r := by
  obtain ⟨f, -, hr⟩ := Option.bind_eq_some_iff.mp h
  refine ⟨f, ?_⟩
  cases hbound : Module.ofFile .empty [] "" f with
  | error => rw [hbound] at hr; cases hr
  | ok r' => rw [hbound] at hr; rw [Option.some.inj hr]

def callText : String :=
  "program p; var g: real; function f(n: real): real; begin f := n end; begin g := f(g) end."

theorem callText_bound : ((boundAlone callText).map fun r => (r.errors.length,
    r.module.routines.map fun code => (code.params, code.slots.length, code.exprs.length))) =
      some (0, [(1, 2, 2), (0, 0, 3)]) := by
  decide +kernel

/-- The place and the type of a variable of a unit. -/
def unitVar? : Expr → Option (String × Int × TypeId)
  | .unitVar module slot type _ => some (module, slot, type)
  | _ => none

/-- The type of the object, the place and the type of a field. -/
def field? : Expr → Option (TypeId × Nat × TypeId)
  | .field object offset type _ => some (object.type, offset, type)
  | _ => none

theorem exists_unitVar {es : List Expr} {module : String} {slot : Int} {type : TypeId}
    (h : (module, slot, type) ∈ es.filterMap unitVar?) :
    ∃ span, Expr.unitVar module slot type span ∈ es := by
  obtain ⟨e, he, hplace⟩ := List.mem_filterMap.mp h
  cases e with
  | unitVar m s t span =>
    cases hplace
    exact ⟨span, he⟩
  | _ => cases hplace

theorem exists_field {es : List Expr} {id : TypeId} {offset : Nat} {type : TypeId}
    (h : (id, offset, type) ∈ es.filterMap field?) :
    ∃ object span, object.type = id ∧ Expr.field object offset type span ∈ es := by
  obtain ⟨e, he, hplace⟩ := List.mem_filterMap.mp h
  cases e with
  | field object o t span =>
    cases hplace
    exact ⟨object, span, rfl, he⟩
  | _ => cases hplace

/-- A pointer to a class is a variable or a field still when it is followed. -/
def derefText : String :=
  "program p; type c = class q: ^c; end; var g: ^c; r: c; begin r := g^; r := r.q^ end."

def DerefBound (r : BindResult) : Prop :=
  r.errors.length = 0 ∧ r.module.name = "p" ∧ r.module.globals.map (·.type) = [9, 8] ∧
    ((r.types.classInfo? 8).map fun c => (c.type, c.base, c.fields.map fun f => (f.offset, f.type))) =
      some (8, 0, [(0, 9)]) ∧
    ∃ code ∈ r.module.routines, ("p", 0, 8) ∈ code.exprs.filterMap unitVar? ∧
      (8, 0, 8) ∈ code.exprs.filterMap field?

instance (r : BindResult) : Decidable (DerefBound r) := by
  unfold DerefBound
  infer_instance

theorem derefText_bound : (boundAlone derefText).any (fun r => decide (DerefBound r)) = true := by
  decide +kernel

/-- A program may use a unit of its own name. -/
def namesakes : List (String × Bytes) :=
  [("m1.pas", utf8 "unit a; interface var x: real; implementation end."),
   ("m2.pas", utf8 "program a; uses a; begin x := x end.")]

def NamesakesBound (c : Compilation) : Prop :=
  c.errors.length = 0 ∧ ∃ o ∈ c.outcomes, ∃ m ∈ o.bound.toList, m.name = "a" ∧
    m.globals.length = 0 ∧ ∃ code ∈ m.routines, ("a", 0, 5) ∈ code.exprs.filterMap unitVar?

instance (c : Compilation) : Decidable (NamesakesBound c) := by
  unfold NamesakesBound
  infer_instance

theorem namesakes_bound :
    (Compilation.ofSources namesakes).toOption.any (fun c => decide (NamesakesBound c)) = true := by
  decide +kernel

end Workspace

end Pascaline
