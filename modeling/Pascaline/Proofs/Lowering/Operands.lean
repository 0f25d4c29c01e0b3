import Pascaline.Proofs.Lowering.Expressions
import Pascaline.Proofs.Lowering.Labels

/-!
# Operands of expressions

The code of an expression finds the stack as it may be and leaves one value on it, or nothing if the
expression is a call without a result. A new object stays pinned below the arguments of its
constructor, and is unpinned behind the call.
-/

namespace Pascaline

namespace Bound

/-! ## Values in a routine -/

namespace Expr

/-- The expressions that stand directly in an expression. -/
def operands : Expr → List Expr
  | const .. | frameVar .. | unitVar .. | newCell .. | routine .. => []
  | field x _ _ _ | deref x _ _ | unary _ x _ _ | convert _ x _ _ | newArray _ x _ _ => [x]
  | element x y _ _ | character x y _ _ | binary _ x y _ _ => [x, y]
  | call _ as _ _ | callVirtual _ as _ _ | callNative _ as _ _ | newObject _ _ as _ _ => as
  | callValue f as _ _ => f :: as

mutual

/-- An expression and all those inside it. -/
def flatten : Expr → List Expr
  | e@(field x _ _ _) => e :: flatten x
  | e@(deref x _ _) => e :: flatten x
  | e@(unary _ x _ _) => e :: flatten x
  | e@(convert _ x _ _) => e :: flatten x
  | e@(newArray _ x _ _) => e :: flatten x
  | e@(element x y _ _) => e :: (flatten x ++ flatten y)
  | e@(character x y _ _) => e :: (flatten x ++ flatten y)
  | e@(binary _ x y _ _) => e :: (flatten x ++ flatten y)
  | e@(call _ as _ _) => e :: flattenAll as
  | e@(callVirtual _ as _ _) => e :: flattenAll as
  | e@(callNative _ as _ _) => e :: flattenAll as
  | e@(newObject _ _ as _ _) => e :: flattenAll as
  | e@(callValue f as _ _) => e :: (flatten f ++ flattenAll as)
  | e => [e]

def flattenAll : List Expr → List Expr
  | [] => []
  | e :: es => flatten e ++ flattenAll es

end

theorem flattenAll_eq (es : List Expr) : flattenAll es = es.flatMap flatten := by
  induction es with
  | nil => rfl
  | cons e es ih => rw [flattenAll, ih, List.flatMap_cons]

theorem flatten_eq (e : Expr) : e.flatten = e :: e.operands.flatMap flatten := by
  cases e <;> simp [flatten, operands, flattenAll_eq]

theorem forall_flatten {P : Expr → Prop} {e : Expr} :
    (∀ x ∈ e.flatten, P x) ↔ P e ∧ ∀ x ∈ e.operands, ∀ y ∈ x.flatten, P y := by
  rw [flatten_eq]
  simp only [List.forall_mem_cons, List.mem_flatMap, forall_exists_index, and_imp]
  exact and_congr_right fun _ => ⟨fun h x hx y hy => h y x hx hy, fun h y x hx hy => h x hx y hy⟩

/-- Whether an expression has no value, by its type. -/
def isVoid (types : TypeTable) (e : Expr) : Bool :=
  types.kind e.type = .void || types.kind e.type = .invalid

end Expr

theorem Stmt.mem_flatten_self (s : Stmt) : s ∈ s.flatten := by
  cases s <;> simp [Stmt.flatten]

namespace Routine

/-- All expressions in a routine. -/
def exprs (r : Routine) : List Expr :=
  (Stmt.flattenAll r.body).flatMap fun s => s.exprs.flatMap Expr.flatten

/-- An expression without a value stands for a statement. A call has a value exactly if its target
leaves a result. -/
structure Valued (types : TypeTable) (leaves : Expr → Bool) (r : Routine) : Prop where
  calls : ∀ e ∈ r.exprs, e.isCall = true → (leaves e = true ↔ e.isVoid types = false)
  operands : ∀ e ∈ r.exprs, ∀ x ∈ e.operands, x.isVoid types = false
  statements : ∀ s ∈ Stmt.flattenAll r.body, ∀ e ∈ s.exprs, e.isVoid types = true → s = .expr e s.span

/-- Nothing but calls is evaluated for its effects only. -/
def RunsCalls (types : TypeTable) (r : Routine) : Prop :=
  ∀ e ∈ r.exprs, e.isVoid types = true → e.isCall = true

end Routine

end Bound

/-- The values of the calls, and of the operands, of a routine. -/
structure Calls.Valued (c : Calls) (types : TypeTable) : Prop where
  calls : ∀ e ∈ c.exprs, e.isCall = true → (c.leaves e = true ↔ e.isVoid types = false)
  operands : ∀ e ∈ c.exprs, ∀ x ∈ e.operands, x.isVoid types = false

/-- What an expression leaves on the stack. -/
def Calls.left (c : Calls) (e : Bound.Expr) : List Mark :=
  if e.isCall && !c.leaves e then [] else [.value]

namespace Builder

/-- The state of a builder with these marks on the stack. If there are none the current block may be
closed. -/
def Stacked (c : Calls) (b : Builder) (labels : List Label) (waiting : List Nat) (ms : List Mark)
    (rank : Nat) : Prop :=
  ∃ out, out.getD [] = ms ∧ b.At c labels waiting out rank

theorem Stacked.emit {c : Calls} {b : Builder} {labels : List Label} {waiting : List Nat}
    {ms ms' : List Mark} {rank : Nat} {i : Instr} (h : b.Stacked c labels waiting ms rank)
    (result : Bool) (hshift : Shifts i result ms ms')
    (hcall : i.op.isCall = true → c.Result b.pool i result) :
    ∃ labels', labels <+: labels' ∧ (b.emit i).Stacked c labels' waiting ms' rank := by
  obtain ⟨out, hms, hb⟩ := h
  obtain ⟨labels', hle, hb'⟩ := hb.emit hms fun _ _ hflow => hflow.step hshift hcall
  exact ⟨labels', hle, some ms', rfl, hb'⟩

end Builder

namespace Lower

open Builder
open Bound.Expr (operands)

variable {c : Calls} {ctx : LowerContext} {x y : Lower Unit} {pre mid post : List Mark}

/-- Code that finds marks on top of the stack and leaves others in their place. The ranks of its
blocks grow by at most `n`. -/
def Turns (c : Calls) (x : Lower Unit) (pre post : List Mark) : Prop :=
  ∃ n, ∀ {b b' : Builder} {labels : List Label} {waiting : List Nat} {ms : List Mark} {rank : Nat},
    x b = .ok ((), b') → b.Stacked c labels waiting (pre ++ ms) rank →
      ∃ labels', labels <+: labels' ∧ b'.Stacked c labels' waiting (post ++ ms) (rank + n)

theorem turns_pure : Turns c (pure ()) pre pre := by
  refine ⟨0, fun h hb => ?_⟩
  obtain ⟨-, rfl⟩ := pure_ok.mp h
  exact ⟨_, List.prefix_refl _, hb⟩

theorem Turns.seq (hx : Turns c x pre mid) (hy : Turns c y mid post) :
    Turns c (x >>= fun _ => y) pre post := by
  obtain ⟨n, hx⟩ := hx
  obtain ⟨n', hy⟩ := hy
  refine ⟨n + n', fun h hb => ?_⟩
  obtain ⟨_, b₁, h₁, h⟩ := bind_ok.mp h
  obtain ⟨labels₁, hle₁, hb₁⟩ := hx h₁ hb
  obtain ⟨labels', hle, hb'⟩ := hy h hb₁
  exact ⟨labels', hle₁.trans hle, by rwa [← Nat.add_assoc]⟩

theorem Turns.above (hx : Turns c x pre post) (ms : List Mark) :
    Turns c x (pre ++ ms) (post ++ ms) := by
  obtain ⟨n, hx⟩ := hx
  refine ⟨n, fun h hb => ?_⟩
  rw [List.append_assoc] at hb
  obtain ⟨labels', hle, hb'⟩ := hx h hb
  exact ⟨labels', hle, by rwa [List.append_assoc]⟩

theorem turns_of_emit (hx : ∀ {b b' : Builder}, x b = .ok ((), b') → ∃ pool i result,
      b.pool.Le pool ∧ b' = Builder.emit { b with pool } i ∧
        (∀ ms, Shifts i result (pre ++ ms) (post ++ ms)) ∧
        (i.op.isCall = true → c.Result pool i result)) :
    Turns c x pre post := by
  refine ⟨0, fun h hb => ?_⟩
  obtain ⟨pool, i, result, hpool, rfl, hshift, hcall⟩ := hx h
  obtain ⟨out, hms, hb⟩ := hb
  exact Stacked.emit ⟨out, hms, hb.withPool hpool⟩ result (hshift _) hcall

/-! ## Instructions -/

theorem turns_plain {o : Op} {a a' : Int} {sp : Span} (ho : o.isPlain = true) (hcall : o.isCall = false)
    (hpre : List.replicate (Instr.pops ⟨o, a, a', sp.start⟩) .value = pre)
    (hpost : List.replicate (Instr.pushes ⟨o, a, a', sp.start⟩ false) .value = post) :
    Turns c (emit o a a' sp) pre post := by
  refine turns_of_emit fun {b b'} h => ?_
  rw [emit_eq] at h
  cases h
  refine ⟨b.pool, ⟨o, a, a', sp.start⟩, false, Pool.Le.refl _, rfl, fun ms => ?_, ?_⟩
  · subst hpre hpost
    exact .plain ho ms
  · intro hop
    rw [hcall] at hop
    cases hop

theorem turns_dup {sp : Span} (m : Mark) : Turns c (op .dup sp) [m] [.value, m] := by
  refine turns_of_emit fun {b b'} h => ?_
  rw [op_eq] at h
  cases h
  exact ⟨b.pool, _, false, Pool.Le.refl _, rfl, fun ms => .dup rfl m ms, nofun⟩

theorem turns_unpin (sp : Span) : Turns c (op .unpin sp) [.pinned] [.value] := by
  refine turns_of_emit fun {b b'} h => ?_
  rw [op_eq] at h
  cases h
  exact ⟨b.pool, _, false, Pool.Le.refl _, rfl, fun ms => .unpin rfl ms, nofun⟩

/-- Something is looked up in the pool, or added to it. -/
def Pools (p : Lower Nat) : Prop :=
  ∀ {b b' : Builder} {n : Nat}, p b = .ok (n, b') → ∃ pool, b.pool.Le pool ∧ b' = { b with pool }

theorem pools_pooled {f : Pool → Nat × Pool} (hf : ∀ pool : Pool, pool.Le (f pool).2) : Pools (pooled f) := by
  intro b b' n h
  cases h
  exact ⟨_, hf b.pool, rfl⟩

theorem pools_elementShape (ctx : LowerContext) (elem : TypeId) : Pools (elementShape ctx elem) := by
  intro b b' n h
  obtain ⟨shape, _, hshape, h⟩ := bind_ok.mp h
  obtain ⟨-, rfl⟩ := lift_ok.mp hshape
  exact pools_pooled (fun pool => ⟨List.prefix_refl _, List.prefix_refl _⟩) h

theorem turns_pooled {p : Lower Nat} (hp : Pools p) {o : Op} {sp : Span} (ho : o.isPlain = true)
    (hcall : o.isCall = false)
    (hpre : ∀ n : Nat, List.replicate (Instr.pops ⟨o, n, 0, sp.start⟩) .value = pre)
    (hpost : ∀ n : Nat, List.replicate (Instr.pushes ⟨o, n, 0, sp.start⟩ false) .value = post) :
    Turns c (p >>= fun n => emit o n 0 sp) pre post := by
  refine turns_of_emit fun {b b'} h => ?_
  obtain ⟨n, b₁, h₁, h⟩ := bind_ok.mp h
  obtain ⟨pool, hpool, rfl⟩ := hp h₁
  rw [emit_eq] at h
  cases h
  refine ⟨pool, ⟨o, n, 0, sp.start⟩, false, hpool, rfl, fun ms => ?_, ?_⟩
  · rw [← hpre n, ← hpost n]
    exact .plain ho ms
  · intro hop
    rw [hcall] at hop
    cases hop

theorem turns_constant {v : Value} {sp : Span} : Turns c (constant v sp) [] [.value] :=
  turns_pooled (pools_pooled fun _ => ⟨List.prefix_refl _, List.prefix_refl _⟩) rfl rfl (fun _ => rfl)
    fun _ => rfl

theorem turns_global {ref : GlobalRef} {o : Op} {sp : Span} (ho : o.isPlain = true)
    (hcall : o.isCall = false)
    (hpre : ∀ n : Nat, List.replicate (Instr.pops ⟨o, n, 0, sp.start⟩) .value = pre)
    (hpost : ∀ n : Nat, List.replicate (Instr.pushes ⟨o, n, 0, sp.start⟩ false) .value = post) :
    Turns c (pooled (·.addGlobal ref) >>= fun n => emit o n 0 sp) pre post :=
  turns_pooled (pools_pooled fun _ => ⟨List.prefix_refl _, List.prefix_refl _⟩) ho hcall hpre hpost

theorem turns_newObject {key : ClassKey} {sp : Span} :
    Turns c (pooled (·.addClass key) >>= fun n => emit .newObject n 0 sp) [] [.pinned] := by
  refine turns_of_emit fun {b b'} h => ?_
  obtain ⟨n, b₁, h₁, h⟩ := bind_ok.mp h
  cases h₁
  rw [emit_eq] at h
  cases h
  exact ⟨(b.pool.addClass key).2, ⟨.newObject, _, 0, sp.start⟩, false,
    ⟨List.prefix_refl _, List.prefix_refl _⟩, rfl, fun ms => .newObject rfl ms, nofun⟩

/-! ## Calls -/

/-- How many operands the call of an expression takes. -/
def argc : Bound.Expr → Nat
  | .call _ as _ _ | .callVirtual _ as _ _ | .callNative _ as _ _ => as.length
  | .callValue _ as _ _ | .newObject _ _ as _ _ => as.length + 1
  | _ => 0

theorem pops_of_calledBy {e : Bound.Expr} {pool : Pool} {i : Instr} (h : e.CalledBy pool i) :
    i.op.isPlain = true ∧ i.pops = argc e ∧
      ∀ result, i.pushes result = if result then 1 else 0 := by
  unfold Bound.Expr.CalledBy at h
  split at h
  · obtain ⟨hop, -, hb, -⟩ := h
    simp [Instr.pops, Instr.pushes, Op.isPlain, argc, hop, hb]
  · obtain ⟨hop, -, hb, -⟩ := h
    simp [Instr.pops, Instr.pushes, Op.isPlain, argc, hop, hb]
  · obtain ⟨hop, -, hb, -⟩ := h
    simp [Instr.pops, Instr.pushes, Op.isPlain, argc, hop, hb]
  · obtain ⟨hop, hb, -⟩ := h
    simp [Instr.pops, Instr.pushes, Op.isPlain, argc, hop, hb]
  · obtain ⟨hop, -, hb, -⟩ := h
    simp [Instr.pops, Instr.pushes, Op.isPlain, argc, hop, hb]
  · cases h

theorem turns_call {e : Bound.Expr} (he : e ∈ c.exprs)
    (hx : ∀ {b b' : Builder}, x b = .ok ((), b') → ∃ pool i, b.pool.Le pool ∧
      b' = Builder.emit { b with pool } i ∧ e.CalledBy pool i) :
    Turns c x (List.replicate (argc e) .value)
      (if e.isCall && c.leaves e then [.value] else []) := by
  refine turns_of_emit fun {b b'} h => ?_
  obtain ⟨pool, i, hpool, rfl, hcalled⟩ := hx h
  obtain ⟨hplain, hpops, hpushes⟩ := pops_of_calledBy hcalled
  refine ⟨pool, i, e.isCall && c.leaves e, hpool, rfl, fun ms => ?_,
    fun _ => ⟨e, he, hcalled, rfl⟩⟩
  have hshift : Shifts i (e.isCall && c.leaves e) _ _ := .plain hplain ms
  rw [hpops, hpushes] at hshift
  split at hshift <;> simpa [*] using hshift

theorem enter_found {α : Type} [BEq α] [LawfulBEq α] (xs : Array α) (x : α) :
    (Pool.enter (· == ·) xs x).2[(Pool.enter (· == ·) xs x).1]? = some x := by
  obtain ⟨y, hy, rfl | hyx⟩ := Target.enter_same (· == ·) xs x
  · exact hy
  · rw [hy, eq_of_beq hyx]

theorem le_addCall (pool : Pool) (ref : RoutineRef) : pool.Le (pool.addCall ref).2 :=
  ⟨ enter_prefix _ _ _, List.prefix_refl _⟩

theorem le_addNative (pool : Pool) (name : String) : pool.Le (pool.addNative name).2 :=
  ⟨List.prefix_refl _, enter_prefix _ _ _⟩

/-! ## Expressions -/

/-- The right side of a short operator starts with the value of the left one, and drops it. Both ways
lead to the same block with one value. -/
theorem turns_short {o : Bound.BinaryOp} {left right : Bound.Expr} {type : TypeId} {sp : Span}
    (hshort : isShort o (ctx.types.kind type) = true) (hleft : Turns c (expr ctx left) [] [.value])
    (hright : Turns c (expr ctx right) [] [.value]) :
    Turns c (expr ctx (.binary o left right type sp)) [] [.value] := by
  obtain ⟨n, hleft⟩ := hleft
  obtain ⟨n', hright⟩ := hright
  refine ⟨n + n' + 2, fun {b b' labels waiting ms rank} h hb => ?_⟩
  obtain ⟨b₁, b₂, h₁, h₂, rfl⟩ := expr_short hshort h
  obtain ⟨out, hms, hb⟩ := hb
  have hsize := hb.size
  have hb₀ := ((hb.addBlock ⟨.value :: ms, rank + n + 1⟩).addBlock
    ⟨.value :: ms, rank + n + 1 + n' + 1⟩).perm (List.Perm.swap _ _ _)
  rw [size_addBlock] at hb₀
  obtain ⟨labels₁, hle₁, hb₁⟩ := hleft h₁ ⟨out, hms, hb₀⟩
  obtain ⟨labels₂, hle₂, out₂, hms₂, hb₂⟩ :=
    hb₁.emit (i := ⟨.dup, 0, 0, sp.start⟩) false (.dup rfl .value ms) nofun
  have hrest : labels₂[b.blocks.size]? = some ⟨.value :: ms, rank + n + 1⟩ :=
    getElem?_of_listPrefix (hle₁.trans hle₂) (by simp [← hsize])
  have hdone : labels₂[b.blocks.size + 1]? = some ⟨.value :: ms, rank + n + 1 + n' + 1⟩ :=
    getElem?_of_listPrefix (hle₁.trans hle₂) (by simp [← hsize])
  have hyes : Enters labels₂ (rank + n) (.value :: ms) b.blocks.size :=
    ⟨_, _, rfl, hrest, rfl, fun _ => Nat.lt_succ_self _⟩
  have hno : Enters labels₂ (rank + n) (.value :: ms) ↑(b.blocks.size + 1) :=
    ⟨_, _, rfl, hdone, rfl, fun _ => by simp only; omega⟩
  have hb₃ : ((b₁.emit ⟨.dup, 0, 0, sp.start⟩).emit
      (shortBranch o b.blocks.size (b.blocks.size + 1) sp.start)).At c labels₂
        (b.blocks.size :: (b.blocks.size + 1) :: waiting) none (rank + n) := by
    unfold shortBranch
    split
    · exact hb₂.branch hms₂ hyes hno
    · exact hb₂.branch hms₂ hno hyes
  obtain ⟨labels₃, hle₃, hb₄⟩ := Stacked.emit (i := ⟨.pop, 0, 0, sp.start⟩)
    ⟨_, rfl, hb₃.goTo hrest⟩ false (.plain rfl ms) nofun
  obtain ⟨labels₄, hle₄, out₅, hms₅, hb₅⟩ := hright h₂ hb₄
  have hdone' := getElem?_of_listPrefix (hle₃.trans hle₄) hdone
  have hle : labels <+: labels₄ := by
    refine List.IsPrefix.trans ?_ (((hle₁.trans hle₂).trans hle₃).trans hle₄)
    rw [List.append_assoc]
    exact List.prefix_append _ _
  refine ⟨labels₄, hle, _, rfl, ((hb₅.jump ?_).goTo hdone').rank_le (by simp only; omega)⟩
  rw [hms₅]
  exact ⟨_, _, rfl, hdone', rfl, fun _ => Nat.lt_succ_self _⟩

/-- All of an expression is in the routine. -/
def Within (c : Calls) (e : Bound.Expr) : Prop := ∀ x ∈ e.flatten, x ∈ c.exprs

theorem Within.self {e : Bound.Expr} (h : Within c e) : e ∈ c.exprs :=
  h e (by rw [Bound.Expr.flatten_eq]; exact List.mem_cons_self)

theorem Within.operand {e x : Bound.Expr} (h : Within c e) (hx : x ∈ e.operands) : Within c x := by
  intro y hy
  refine h y ?_
  rw [Bound.Expr.flatten_eq]
  exact List.mem_cons_of_mem _ (List.mem_flatMap.mpr ⟨x, hx, hy⟩)

theorem left_of_not_void {types : TypeTable} (hc : c.Valued types) {e : Bound.Expr} (he : Within c e)
    (hvoid : e.isVoid types = false) : c.left e = [.value] := by
  unfold Calls.left
  cases hcall : e.isCall with
  | false => rfl
  | true => rw [(hc.calls e he.self hcall).mpr hvoid]; rfl

theorem left_of_operand {types : TypeTable} (hc : c.Valued types) {e x : Bound.Expr} (he : Within c e)
    (hx : x ∈ e.operands) : c.left x = [.value] :=
  left_of_not_void hc (he.operand hx) (hc.operands e he.self x hx)

theorem turns_operand (hc : c.Valued ctx.types) {e x : Bound.Expr} (he : Within c e)
    (hx : x ∈ e.operands) (h : Within c x → Turns c (expr ctx x) [] (c.left x)) :
    Turns c (expr ctx x) [] [.value] := by
  rw [← left_of_operand hc he hx]
  exact h (he.operand hx)

theorem turns_callRef {e : Bound.Expr} {ref : RoutineRef} {n : Nat} {sp : Span} (he : e ∈ c.exprs)
    (hcalled : ∀ {pool : Pool} {k : Nat}, pool.calls[k]? = some ref →
      e.CalledBy pool ⟨.call, k, n, sp.start⟩) :
    Turns c (pooled (·.addCall ref) >>= fun k => emit .call k n sp)
      (List.replicate (argc e) .value) (if e.isCall && c.leaves e then [.value] else []) := by
  refine turns_call he fun {b b'} h => ?_
  obtain ⟨k, b₁, h₁, h⟩ := bind_ok.mp h
  cases h₁
  rw [emit_eq] at h
  cases h
  exact ⟨_, _, le_addCall b.pool ref, rfl, hcalled (enter_found b.pool.calls ref)⟩

theorem left_of_isCall {e : Bound.Expr} (h : e.isCall = true) :
    c.left e = if e.isCall && c.leaves e then [.value] else [] := by
  unfold Calls.left
  rw [h]
  cases c.leaves e <;> rfl

mutual

theorem turns_expr (hc : c.Valued ctx.types) (e : Bound.Expr) (he : Within c e) :
    Turns c (expr ctx e) [] (c.left e) := by
  cases e with
  | const v type sp =>
    rw [expr]
    exact turns_constant
  | frameVar symbol slot type sp =>
    rw [expr]
    exact turns_plain rfl rfl rfl rfl
  | unitVar m slot type sp =>
    rw [expr]
    exact turns_global rfl rfl (fun _ => rfl) fun _ => rfl
  | field object offset type sp =>
    have hobject := turns_operand hc he (by simp [operands]) (turns_expr hc object)
    rw [expr]
    exact hobject.seq (turns_plain rfl rfl rfl rfl)
  | element array index type sp =>
    have harray := turns_operand hc he (by simp [operands]) (turns_expr hc array)
    have hindex := turns_operand hc he (by simp [operands]) (turns_expr hc index)
    rw [expr]
    exact harray.seq ((hindex.above [.value]).seq (turns_plain rfl rfl rfl rfl))
  | character text index type sp =>
    have htext := turns_operand hc he (by simp [operands]) (turns_expr hc text)
    have hindex := turns_operand hc he (by simp [operands]) (turns_expr hc index)
    rw [expr]
    exact htext.seq ((hindex.above [.value]).seq (turns_plain rfl rfl rfl rfl))
  | deref pointer type sp =>
    have hpointer := turns_operand hc he (by simp [operands]) (turns_expr hc pointer)
    rw [expr]
    exact hpointer.seq ((turns_constant.above [.value]).seq (turns_plain rfl rfl rfl rfl))
  | unary o operand type sp =>
    have hoperand := turns_operand hc he (by simp [operands]) (turns_expr hc operand)
    cases o
    all_goals
      rw [expr]
      exact hoperand.seq (turns_plain rfl rfl rfl rfl)
  | binary o left right type sp =>
    have hleft := turns_operand hc he (by simp [operands]) (turns_expr hc left)
    have hright := turns_operand hc he (by simp [operands]) (turns_expr hc right)
    cases hshort : isShort o (ctx.types.kind type) with
    | true => exact turns_short hshort hleft hright
    | false =>
      rw [expr, hshort, if_neg Bool.false_ne_true]
      refine hleft.seq ((hright.above [.value]).seq ?_)
      cases o <;> exact turns_plain rfl rfl rfl rfl
  | convert conv operand type sp =>
    have hoperand := turns_operand hc he (by simp [operands]) (turns_expr hc operand)
    cases conv
    all_goals
      rw [expr]
      exact hoperand.seq (turns_plain rfl rfl rfl rfl)
  | call ref as type sp =>
    have has := turns_args hc as fun a ha => ⟨he.operand ha, left_of_operand hc he ha⟩
    rw [expr, left_of_isCall rfl]
    exact has.seq (turns_callRef he.self fun hk => ⟨rfl, hk, rfl, rfl⟩)
  | callVirtual slot as type sp =>
    have has := turns_args hc as fun a ha => ⟨he.operand ha, left_of_operand hc he ha⟩
    rw [expr, left_of_isCall rfl]
    refine has.seq (turns_call he.self fun {b b'} h => ?_)
    rw [emit_eq] at h
    cases h
    exact ⟨b.pool, _, Pool.Le.refl _, rfl, rfl, rfl, rfl, rfl⟩
  | callNative native as type sp =>
    have has := turns_args hc as fun a ha => ⟨he.operand ha, left_of_operand hc he ha⟩
    rw [expr, left_of_isCall rfl]
    refine has.seq (turns_call he.self fun {b b'} h => ?_)
    obtain ⟨k, b₁, h₁, h⟩ := bind_ok.mp h
    cases h₁
    rw [emit_eq] at h
    cases h
    exact ⟨_, _, le_addNative b.pool native.name, rfl, rfl, enter_found b.pool.natives native.name, rfl,
      rfl⟩
  | callValue callee as type sp =>
    have hcallee := turns_operand hc he (by simp [operands]) (turns_expr hc callee)
    have has := turns_args hc as fun a ha =>
      ⟨he.operand (List.mem_cons_of_mem _ ha), left_of_operand hc he (List.mem_cons_of_mem _ ha)⟩
    rw [expr, left_of_isCall rfl]
    refine hcallee.seq ((has.above [.value]).seq ?_)
    rw [← List.replicate_succ']
    refine turns_call he.self fun {b b'} h => ?_
    rw [emit_eq] at h
    cases h
    exact ⟨b.pool, _, Pool.Le.refl _, rfl, rfl, rfl, rfl⟩
  | newObject key constructor as type sp =>
    rw [expr]
    refine turns_newObject.seq ?_
    cases constructor with
    | none => exact turns_pure.seq (turns_unpin sp)
    | some ref =>
      have has := turns_args hc as fun a ha => ⟨he.operand ha, left_of_operand hc he ha⟩
      have hcall : Turns c (pooled (·.addCall ref) >>= fun k => emit .call k (as.length + 1) sp)
          (List.replicate (as.length + 1) .value) [] :=
        turns_callRef he.self fun hk => ⟨rfl, hk, rfl, rfl⟩
      refine (turns_dup .pinned).seq ((has.above [.value, .pinned]).seq ?_)
      have hrest := (hcall.above [.pinned]).seq (turns_unpin sp)
      rw [bind_assoc, List.replicate_succ', List.append_assoc] at hrest
      exact hrest
  | newArray elem length type sp =>
    have hlength := turns_operand hc he (by simp [operands]) (turns_expr hc length)
    rw [expr]
    exact hlength.seq (turns_pooled (pools_elementShape ctx elem) rfl rfl (fun _ => rfl) fun _ => rfl)
  | newCell elem type sp =>
    rw [expr]
    exact turns_pooled (pools_elementShape ctx elem) rfl rfl (fun _ => rfl) fun _ => rfl
  | routine ref type sp =>
    rw [expr]
    exact turns_pooled (pools_pooled fun pool => le_addCall pool ref) rfl rfl (fun _ => rfl) fun _ => rfl

theorem turns_args (hc : c.Valued ctx.types) (es : List Bound.Expr)
    (hes : ∀ e ∈ es, Within c e ∧ c.left e = [.value]) :
    Turns c (args ctx es) [] (List.replicate es.length .value) := by
  cases es with
  | nil =>
    rw [args]
    exact turns_pure
  | cons e es =>
    have he := turns_expr hc e (hes e List.mem_cons_self).1
    rw [(hes e List.mem_cons_self).2] at he
    have hrest := turns_args hc es fun x hx => hes x (List.mem_cons_of_mem _ hx)
    rw [args, List.length_cons, List.replicate_succ']
    exact he.seq (hrest.above [.value])

end

end Lower

end Pascaline
