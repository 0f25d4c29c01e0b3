import Pascaline.Proofs.Lowering.Operands

/-!
# The code of expressions, piece by piece

The code of an expression is made of instructions, of entries into the pool and of the code of its
operands, one after the other; only the short forms of `and` and `or` open blocks of their own. So
what these pieces have and hand on to what is made of them, the code of every expression has.
-/

namespace Pascaline

open Pascaline.Bound (Expr Stmt)

/-- What the entries of a pool may refer to, and the slots of the frame that may be named. -/
structure References where
  calls : RoutineRef → Prop
  globals : GlobalRef → Prop
  classes : ClassKey → Prop
  slots : Nat → Prop

/-- What the expression itself refers to, its operands apart. -/
def Bound.Expr.Refers (R : References) : Expr → Prop
  | .frameVar _ slot _ _ => R.slots slot
  | .unitVar m slot _ _ => R.globals ⟨m, slot⟩
  | .call ref _ _ _ | .routine ref _ _ => R.calls ref
  | .newObject key constructor _ _ _ =>
    R.classes key ∧ ∀ ref, constructor = some ref → R.calls ref
  | _ => True

/-- Anything may be referred to. -/
def References.any : References := ⟨fun _ => True, fun _ => True, fun _ => True, fun _ => True⟩

theorem Bound.Expr.refers_any (e : Expr) : e.Refers .any := by
  cases e <;> simp [Refers, References.any]

/-- Operations on a slot of the frame. -/
def Op.isLocal : Op → Bool
  | loadLocal | storeLocal => true
  | _ => false

/-- Operations that stay in their block and use no slot of the frame. -/
def Op.isQuiet (o : Op) : Bool := !o.isTerminator && !o.isLocal

theorem Op.isQuiet_iff {o : Op} : o.isQuiet = true ↔ o.isTerminator = false ∧ o.isLocal = false := by
  simp [isQuiet]

namespace Lower

variable {R : References} {ctx : LowerContext} {P : (α : Type) → Lower α → Prop}
  {Q : Lower Unit → Prop} {α : Type} {x : Lower Unit} {sp : Span}

/-- The pieces of the code of expressions have `P`, and those that may stand at its end `Q`. -/
structure Pieces (R : References) (ctx : LowerContext) (P : (α : Type) → Lower α → Prop)
    (Q : Lower Unit → Prop) : Prop where
  nothing : P Unit (pure ())
  part {x : Lower Unit} : Q x → P Unit x
  seq {α β : Type} {x : Lower α} {f : α → Lower β} : P α x → (∀ a, P β (f a)) → P β (x >>= f)
  last {α : Type} {x : Lower α} {f : α → Lower Unit} : P α x → (∀ a, Q (f a)) → Q (x >>= f)
  emit {o : Op} (ho : o.isQuiet = true) (a a' : Int) (sp : Span) : Q (emit o a a' sp)
  load {n : Nat} (hn : R.slots n) (sp : Span) : Q (Lower.emit .loadLocal n 0 sp)
  const (v : Value) : P Nat (pooled (·.addConst v))
  native (n : Native) : P Nat (pooled (·.addNative n.name))
  shape (elem : TypeId) : P Nat (elementShape ctx elem)
  call {ref : RoutineRef} (href : R.calls ref) : P Nat (pooled (·.addCall ref))
  global {ref : GlobalRef} (href : R.globals ref) : P Nat (pooled (·.addGlobal ref))
  object {key : ClassKey} (hkey : R.classes key) : P Nat (pooled (·.addClass key))
  short {o : Bound.BinaryOp} {left right : Expr} {type : TypeId} {sp : Span}
    (hshort : isShort o (ctx.types.kind type) = true) : Q (expr ctx left) → Q (expr ctx right) →
      Q (expr ctx (.binary o left right type sp))

namespace Pieces

theorem next (h : Pieces R ctx P Q) {f : Unit → Lower Unit} (hx : Q x) (hf : ∀ a, Q (f a)) :
    Q (x >>= f) :=
  h.last (h.part hx) hf

theorem op (h : Pieces R ctx P Q) {o : Op} (ho : o.isQuiet = true) (sp : Span) : Q (op o sp) :=
  h.emit ho 0 0 sp

theorem entry (h : Pieces R ctx P Q) {p : Lower Nat} (hp : P Nat p) {o : Op} (ho : o.isQuiet = true)
    (a : Int) (sp : Span) : Q (p >>= fun n => Lower.emit o n a sp) :=
  h.last hp fun n => h.emit ho n a sp

theorem constant (h : Pieces R ctx P Q) (v : Value) (sp : Span) : Q (constant v sp) :=
  h.entry (h.const v) rfl 0 sp

mutual

theorem expr (h : Pieces R ctx P Q) (e : Expr) (he : ∀ x ∈ e.flatten, x.Refers R) :
    Q (expr ctx e) := by
  obtain ⟨hself, hparts⟩ := Expr.forall_flatten.mp he
  cases e with
  | const v type sp =>
    rw [Lower.expr]
    exact h.constant v sp
  | frameVar symbol slot type sp =>
    rw [Lower.expr]
    exact h.load hself sp
  | unitVar m slot type sp =>
    rw [Lower.expr]
    exact h.entry (h.global hself) rfl 0 sp
  | field object offset type sp =>
    have hobject := h.expr object (hparts object (by simp [Expr.operands]))
    rw [Lower.expr]
    exact h.next hobject fun _ => h.emit rfl _ _ sp
  | element array index type sp =>
    have harray := h.expr array (hparts array (by simp [Expr.operands]))
    have hindex := h.expr index (hparts index (by simp [Expr.operands]))
    rw [Lower.expr]
    exact h.next harray fun _ => h.next hindex fun _ => h.op rfl sp
  | character text index type sp =>
    have htext := h.expr text (hparts text (by simp [Expr.operands]))
    have hindex := h.expr index (hparts index (by simp [Expr.operands]))
    rw [Lower.expr]
    exact h.next htext fun _ => h.next hindex fun _ => h.op rfl sp
  | deref pointer type sp =>
    have hpointer := h.expr pointer (hparts pointer (by simp [Expr.operands]))
    rw [Lower.expr]
    exact h.next hpointer fun _ => h.next (h.constant _ sp) fun _ => h.op rfl sp
  | unary o operand type sp =>
    have hoperand := h.expr operand (hparts operand (by simp [Expr.operands]))
    cases o
    all_goals
      rw [Lower.expr]
      exact h.next hoperand fun _ => h.op rfl sp
  | binary o left right type sp =>
    have hleft := h.expr left (hparts left (by simp [Expr.operands]))
    have hright := h.expr right (hparts right (by simp [Expr.operands]))
    cases hshort : isShort o (ctx.types.kind type) with
    | true => exact h.short hshort hleft hright
    | false =>
      rw [Lower.expr, hshort, if_neg Bool.false_ne_true]
      exact h.next hleft fun _ => h.next hright fun _ => h.op (by cases o <;> rfl) sp
  | convert c operand type sp =>
    have hoperand := h.expr operand (hparts operand (by simp [Expr.operands]))
    cases c
    all_goals
      rw [Lower.expr]
      exact h.next hoperand fun _ => h.op rfl sp
  | call ref as type sp =>
    rw [Lower.expr]
    exact h.last (h.args as hparts) fun _ => h.entry (h.call hself) rfl _ sp
  | callVirtual slot as type sp =>
    rw [Lower.expr]
    exact h.last (h.args as hparts) fun _ => h.emit rfl _ _ sp
  | callNative native as type sp =>
    rw [Lower.expr]
    exact h.last (h.args as hparts) fun _ => h.entry (h.native native) rfl _ sp
  | callValue callee as type sp =>
    obtain ⟨hcallee, has⟩ := List.forall_mem_cons.mp hparts
    rw [Lower.expr]
    exact h.next (h.expr callee hcallee) fun _ => h.last (h.args as has) fun _ => h.emit rfl _ _ sp
  | newObject key constructor as type sp =>
    obtain ⟨hkey, hroutine⟩ := hself
    rw [Lower.expr]
    refine h.last (h.object hkey) fun n => h.next (h.emit rfl n 0 sp) fun _ => ?_
    cases constructor with
    | none => exact h.op rfl sp
    | some ref =>
      exact h.next (h.op rfl sp) fun _ => h.last (h.args as hparts) fun _ =>
        h.last (h.call (hroutine ref rfl)) fun n => h.next (h.emit rfl n _ sp) fun _ => h.op rfl sp
  | newArray elem length type sp =>
    have hlength := h.expr length (hparts length (by simp [Expr.operands]))
    rw [Lower.expr]
    exact h.next hlength fun _ => h.entry (h.shape elem) rfl 0 sp
  | newCell elem type sp =>
    rw [Lower.expr]
    exact h.entry (h.shape elem) rfl 0 sp
  | routine ref type sp =>
    rw [Lower.expr]
    exact h.entry (h.call hself) rfl 0 sp

theorem args (h : Pieces R ctx P Q) (es : List Expr) (hes : ∀ e ∈ es, ∀ x ∈ e.flatten, x.Refers R) :
    P Unit (args ctx es) := by
  cases es with
  | nil =>
    rw [Lower.args]
    exact h.nothing
  | cons e es =>
    obtain ⟨he, hes⟩ := List.forall_mem_cons.mp hes
    rw [Lower.args]
    exact h.seq (h.part (h.expr e he)) fun _ => h.args es hes

end

end Pieces

end Lower

end Pascaline
