import Pascaline.Proofs.Lowering.Operands
import Pascaline.Proofs.Lowering.Preservation

/-!
# Lowered code keeps its stack in balance

Wherever a block of a lowered routine is entered from, there are as many operands on the stack, and
none where the routine returns. Each object that the code makes is unpinned once on every path.
-/

namespace Pascaline

/-! ## Between statements -/

namespace Builder

variable {c : Calls} {b b' : Builder} {labels : List Label} {waiting : List Nat}

/-- The state of a builder between statements: there is nothing on the stack. -/
def Settled (c : Calls) (b : Builder) (labels : List Label) (waiting : List Nat) : Prop :=
  ∃ rank, b.Stacked c labels waiting [] rank

/-- The same, behind the end of a block. -/
def Shut (c : Calls) (b : Builder) (labels : List Label) (waiting : List Nat) : Prop :=
  ∃ rank, b.At c labels waiting none rank

theorem Shut.settled (h : b.Shut c labels waiting) : b.Settled c labels waiting := by
  obtain ⟨rank, h⟩ := h
  exact ⟨rank, none, rfl, h⟩

theorem Shut.perm {waiting' : List Nat} (h : b.Shut c labels waiting)
    (hperm : waiting.Perm waiting') : b.Shut c labels waiting' := by
  obtain ⟨rank, h⟩ := h
  exact ⟨rank, h.perm hperm⟩

theorem Settled.jump {k pos : Nat} (h : b.Settled c labels waiting) (hk : Rests labels k) :
    (b.jump k pos).Shut c labels waiting := by
  obtain ⟨rank, out, hms, hb⟩ := h
  refine ⟨rank, hb.jump ?_⟩
  rw [hms]
  exact hk.enters rank

theorem Stacked.branch {yes no pos rank : Nat} (h : b.Stacked c labels waiting [.value] rank)
    (hyes : Rests labels yes) (hno : Rests labels no) : (b.branch yes no pos).Shut c labels waiting := by
  obtain ⟨out, hms, hb⟩ := h
  exact ⟨rank, hb.branch hms (hyes.enters rank) (hno.enters rank)⟩

theorem Shut.goTo {k : Nat} (h : b.Shut c labels (k :: waiting)) (hk : Rests labels k) :
    (b.goTo k).Settled c labels waiting := by
  obtain ⟨rank, h⟩ := h
  obtain ⟨e, he, hempty⟩ := hk
  exact ⟨e.rank, some e.stack, hempty, h.goTo he⟩

theorem Settled.addLocal (h : b.Settled c labels waiting) (shape : Shape) :
    (b.addLocal shape).Settled c labels waiting := by
  obtain ⟨rank, out, hms, hb⟩ := h
  exact ⟨rank, out, hms, hb.addLocal shape⟩

theorem Settled.addBlocks (h : b.Settled c labels waiting) (k : Nat) :
    ∃ labels', labels <+: labels' ∧
      (b.addBlocks k).Settled c labels' (List.range' b.blocks.size k ++ waiting) ∧
      ∀ j < k, Rests labels' (b.blocks.size + j) := by
  induction k with
  | zero => exact ⟨labels, List.prefix_refl _, h, by simp⟩
  | succ k ih =>
    obtain ⟨labels₁, hle, ⟨rank, out, hms, hb⟩, hrests⟩ := ih
    have hsize := hb.size
    rw [size_addBlocks] at hsize
    have hlast := hb.addBlock ⟨[], 0⟩
    rw [size_addBlocks] at hlast
    have hle' : labels₁ <+: labels₁ ++ [(⟨[], 0⟩ : Label)] := List.prefix_append _ _
    have hperm : ((b.blocks.size + k) :: (List.range' b.blocks.size k ++ waiting)).Perm
        (List.range' b.blocks.size (k + 1) ++ waiting) := by
      rw [List.range'_concat, Nat.one_mul, List.append_assoc]
      exact List.perm_middle.symm
    refine ⟨labels₁ ++ [(⟨[], 0⟩ : Label)], hle.trans hle', ⟨rank, out, hms, hlast.perm hperm⟩, ?_⟩
    intro j hj
    by_cases hlt : j < k
    · exact (hrests j hlt).mono hle'
    · obtain rfl : j = k := by omega
      exact ⟨⟨[], 0⟩, by simp [← hsize], rfl⟩

end Builder

namespace Lower

open Builder
open Bound.Expr (operands)

variable {c : Calls} {ctx : LowerContext} {x y : Lower Unit} {b b' : Builder} {labels : List Label}
  {waiting : List Nat}

/-- Code that keeps a builder settled. -/
def Settles (c : Calls) (x : Lower Unit) : Prop :=
  ∀ ⦃b b' : Builder⦄ ⦃labels : List Label⦄ ⦃waiting : List Nat⦄, x b = .ok ((), b') →
    b.Settled c labels waiting → ∃ labels', labels <+: labels' ∧ b'.Settled c labels' waiting

theorem Turns.run {post : List Mark} (hx : Turns c x [] post) (h : x b = .ok ((), b'))
    (hb : b.Settled c labels waiting) :
    ∃ labels' rank, labels <+: labels' ∧ b'.Stacked c labels' waiting post rank := by
  obtain ⟨n, hx⟩ := hx
  obtain ⟨rank, hb⟩ := hb
  have hb : b.Stacked c labels waiting ([] ++ []) rank := hb
  obtain ⟨labels', hle, hb'⟩ := hx h hb
  rw [List.append_nil] at hb'
  exact ⟨labels', rank + n, hle, hb'⟩

theorem Turns.settles (hx : Turns c x [] []) : Settles c x := by
  intro b b' labels waiting h hb
  obtain ⟨labels', rank, hle, hb'⟩ := hx.run h hb
  exact ⟨labels', hle, rank, hb'⟩

theorem Settles.seq (hx : Settles c x) (hy : Settles c y) : Settles c (x >>= fun _ => y) := by
  intro b b' labels waiting h hb
  obtain ⟨_, b₁, h₁, h⟩ := bind_ok.mp h
  obtain ⟨labels₁, hle₁, hb₁⟩ := hx h₁ hb
  obtain ⟨labels', hle, hb'⟩ := hy h hb₁
  exact ⟨labels', hle₁.trans hle, hb'⟩

theorem settles_inLoop {l : LoopTarget} (hx : Settles c x) (h : inLoop l x b = .ok ((), b'))
    (hb : b.Settled c labels waiting) (hleave : Rests labels l.leave) (hnext : Rests labels l.next) :
    ∃ labels', labels <+: labels' ∧ b'.Settled c labels' waiting := by
  obtain ⟨b₁, h₁, rfl⟩ := inLoop_ok.mp h
  obtain ⟨rank, out, hms, hb⟩ := hb
  have hloops : ∀ l' ∈ l :: b.loops, Rests labels l'.leave ∧ Rests labels l'.next := by
    intro l' hl'
    rcases List.mem_cons.mp hl' with rfl | hl'
    · exact ⟨hleave, hnext⟩
    · exact hb.loops l' hl'
  obtain ⟨labels', hle, rank', out', hms', hb'⟩ := hx h₁ ⟨rank, out, hms, hb.withLoops hloops⟩
  exact ⟨labels', hle, rank', out', hms',
    hb'.withLoops fun l' hl' => hb'.loops l' (List.mem_of_mem_tail hl')⟩

theorem settles_exit {sp : Span} : Settles c (ret ctx sp) := by
  intro b b' labels waiting h hb
  rw [ret_eq] at h
  cases h
  obtain ⟨rank, out, hms, hb⟩ := hb
  obtain ⟨labels', hle, hb'⟩ := hb.emit (i := ⟨.ret, if ctx.hasResult then 1 else 0, 0, sp.start⟩) hms
    fun _ _ hflow => hflow.close (.ret rfl)
  exact ⟨labels', hle, rank, none, rfl, hb'⟩

/-- A jump to the place of the innermost loop that `break` or `continue` leads to. -/
theorem settles_innermost {place : LoopTarget → Nat} {sp : Span}
    (hplace : ∀ {labels : List Label} {l : LoopTarget}, Rests labels l.leave → Rests labels l.next →
      Rests labels (place l)) :
    Settles c (innermost ctx >>= fun l => jump (place l) sp) := by
  intro b b' labels waiting h hb
  obtain ⟨l, b₁, h₁, h⟩ := bind_ok.mp h
  obtain ⟨rfl, ls, hls⟩ := innermost_ok.mp h₁
  rw [jump_eq] at h
  cases h
  have hl : Rests labels l.leave ∧ Rests labels l.next := by
    obtain ⟨rank, out, hms, hb⟩ := hb
    exact hb.loops l (by simp [hls])
  exact ⟨labels, List.prefix_refl _, (hb.jump (hplace hl.1 hl.2)).settled⟩

/-! ## Statements -/

/-- The expressions that stand directly in a statement are in the routine. One without a value is a
call, and the statement is that call. -/
def Sound (c : Calls) (types : TypeTable) (s : Bound.Stmt) : Prop :=
  ∀ e ∈ s.exprs, Within c e ∧ (e.isVoid types = true → e.isCall = true ∧ s = .expr e s.span)

theorem Sound.turns {s : Bound.Stmt} {e : Bound.Expr} (h : Sound c ctx.types s)
    (hc : c.Valued ctx.types) (he : e ∈ s.exprs) (hs : s ≠ .expr e s.span) :
    Turns c (expr ctx e) [] [.value] := by
  obtain ⟨hwithin, hvoid⟩ := h e he
  have hleft : c.left e = [.value] := by
    refine left_of_not_void hc hwithin ?_
    cases hv : e.isVoid ctx.types with
    | false => rfl
    | true => exact absurd (hvoid hv).2 hs
  rw [← hleft]
  exact turns_expr hc e hwithin

theorem turns_storeVar (ctx : LowerContext) (var : Bound.Expr) : Turns c (storeVar ctx var) [.value] [] := by
  cases var with
  | frameVar symbol slot type sp => exact turns_plain rfl rfl rfl rfl
  | unitVar m slot type sp => exact turns_global rfl rfl (fun _ => rfl) fun _ => rfl
  | _ => exact ⟨0, fun h => nomatch h⟩

theorem turns_assign {target value : Bound.Expr} (hc : c.Valued ctx.types) (htarget : Within c target)
    (hvalue : Turns c (expr ctx value) [] [.value]) : Turns c (assign ctx value target) [] [] := by
  have hoperand : ∀ e ∈ target.operands, Turns c (expr ctx e) [] [.value] := fun e he =>
    turns_operand hc htarget he (turns_expr hc e)
  cases target with
  | frameVar symbol slot type sp => exact hvalue.seq (turns_plain rfl rfl rfl rfl)
  | unitVar m slot type sp => exact hvalue.seq (turns_global rfl rfl (fun _ => rfl) fun _ => rfl)
  | field object offset type sp =>
    have hobject := hoperand object (by simp [operands])
    exact hobject.seq ((hvalue.above [.value]).seq (turns_plain rfl rfl rfl rfl))
  | element array index type sp =>
    have harray := hoperand array (by simp [operands])
    have hindex := hoperand index (by simp [operands])
    exact harray.seq ((hindex.above [.value]).seq ((hvalue.above [.value, .value]).seq
      (turns_plain rfl rfl rfl rfl)))
  | character text index type sp =>
    have htext := hoperand text (by simp [operands])
    have hindex := hoperand index (by simp [operands])
    exact htext.seq ((hindex.above [.value]).seq ((hvalue.above [.value, .value]).seq
      (turns_plain rfl rfl rfl rfl)))
  | deref pointer type sp =>
    have hpointer := hoperand pointer (by simp [operands])
    exact hpointer.seq ((turns_constant.above [.value]).seq ((hvalue.above [.value, .value]).seq
      (turns_plain rfl rfl rfl rfl)))
  | _ => exact ⟨0, fun h => nomatch h⟩

theorem settles_call {e : Bound.Expr} {sp : Span} (hc : c.Valued ctx.types)
    (h : Sound c ctx.types (.expr e sp)) : Settles c (stmt ctx (.expr e sp)) := by
  obtain ⟨hwithin, hvoid⟩ := h e (by simp [Bound.Stmt.exprs])
  have he := turns_expr hc e hwithin
  rw [stmt]
  cases hv : e.isVoid ctx.types with
  | true =>
    have hleaves : c.leaves e = false := by
      cases hl : c.leaves e with
      | false => rfl
      | true =>
        rw [(hc.calls e hwithin.self (hvoid hv).1).mp hl] at hv
        cases hv
    rw [left_of_isCall (hvoid hv).1, hleaves, Bool.and_false, if_neg Bool.false_ne_true] at he
    refine (he.seq ?_).settles
    rw [if_neg (by simpa [Bound.Expr.isVoid, or_iff_not_imp_left] using hv)]
    exact turns_pure
  | false =>
    rw [left_of_not_void hc hwithin hv] at he
    refine (he.seq ?_).settles
    rw [if_pos (by simpa [Bound.Expr.isVoid] using hv)]
    exact turns_plain rfl rfl rfl rfl

theorem settles_if {cond : Bound.Expr} {yes no : List Bound.Stmt} {sp : Span}
    (hcond : Turns c (expr ctx cond) [] [.value]) (hyes : Settles c (stmts ctx yes))
    (hno : Settles c (stmts ctx no)) : Settles c (stmt ctx (.ifElse cond yes no sp)) := by
  intro b b' labels waiting h hb
  by_cases hempty : no = []
  · subst hempty
    obtain ⟨b₁, b₂, h₁, h₂, rfl⟩ := Target.stmt_if h
    obtain ⟨labels₀, hle₀, hb₀, hrests⟩ := hb.addBlocks 2
    obtain ⟨labels₁, rank, hle₁, hb₁⟩ := hcond.run h₁ hb₀
    have hthen := (hrests 0 (by omega)).mono hle₁
    have hdone := (hrests 1 (by omega)).mono hle₁
    obtain ⟨labels₂, hle₂, hb₂⟩ := hyes h₂ ((hb₁.branch hthen hdone).goTo hthen)
    have hdone := hdone.mono hle₂
    exact ⟨labels₂, (hle₀.trans hle₁).trans hle₂, (hb₂.jump hdone).goTo hdone⟩
  · obtain ⟨b₁, b₂, b₃, h₁, h₂, h₃, rfl⟩ := Target.stmt_ifElse hempty h
    obtain ⟨labels₀, hle₀, hb₀, hrests⟩ := hb.addBlocks 3
    obtain ⟨labels₁, rank, hle₁, hb₁⟩ := hcond.run h₁ hb₀
    have hthen := (hrests 0 (by omega)).mono hle₁
    have hdone := (hrests 1 (by omega)).mono hle₁
    have helse := (hrests 2 (by omega)).mono hle₁
    -- The block behind the statement is opened before the one of the other branch.
    have hbranch : (b₁.branch b.blocks.size (b.blocks.size + 2) sp.start).Shut c labels₁
        (b.blocks.size :: (b.blocks.size + 2) :: (b.blocks.size + 1) :: waiting) :=
      (hb₁.branch hthen helse).perm ((List.Perm.swap _ _ _).cons _)
    obtain ⟨labels₂, hle₂, hb₂⟩ := hyes h₂ (hbranch.goTo hthen)
    obtain ⟨labels₃, hle₃, hb₃⟩ :=
      hno h₃ ((hb₂.jump (hdone.mono hle₂)).goTo (helse.mono hle₂))
    have hdone := (hdone.mono hle₂).mono hle₃
    exact ⟨labels₃, ((hle₀.trans hle₁).trans hle₂).trans hle₃, (hb₃.jump hdone).goTo hdone⟩

theorem settles_while {cond : Bound.Expr} {body : List Bound.Stmt} {sp : Span}
    (hcond : Turns c (expr ctx cond) [] [.value]) (hbody : Settles c (stmts ctx body)) :
    Settles c (stmt ctx (.whileDo cond body sp)) := by
  intro b b' labels waiting h hb
  obtain ⟨b₁, b₂, h₁, h₂, rfl⟩ := Target.stmt_whileDo h
  obtain ⟨labels₀, hle₀, hb₀, hrests⟩ := hb.addBlocks 3
  have htest := hrests 0 (by omega)
  obtain ⟨labels₁, rank, hle₁, hb₁⟩ := hcond.run h₁ ((hb₀.jump htest).goTo htest)
  have htest := htest.mono hle₁
  have hstart := (hrests 1 (by omega)).mono hle₁
  have hleave := (hrests 2 (by omega)).mono hle₁
  obtain ⟨labels₂, hle₂, hb₂⟩ :=
    settles_inLoop hbody h₂ ((hb₁.branch hstart hleave).goTo hstart) hleave htest
  exact ⟨labels₂, (hle₀.trans hle₁).trans hle₂, (hb₂.jump (htest.mono hle₂)).goTo (hleave.mono hle₂)⟩

theorem settles_repeat {cond : Bound.Expr} {body : List Bound.Stmt} {sp : Span}
    (hcond : Turns c (expr ctx cond) [] [.value]) (hbody : Settles c (stmts ctx body)) :
    Settles c (stmt ctx (.repeatUntil body cond sp)) := by
  intro b b' labels waiting h hb
  obtain ⟨b₁, b₂, h₁, h₂, rfl⟩ := Target.stmt_repeatUntil h
  obtain ⟨labels₀, hle₀, hb₀, hrests⟩ := hb.addBlocks 3
  have hstart := hrests 0 (by omega)
  have htest := hrests 1 (by omega)
  have hleave := hrests 2 (by omega)
  obtain ⟨labels₁, hle₁, hb₁⟩ :=
    settles_inLoop hbody h₁ ((hb₀.jump hstart).goTo hstart) hleave htest
  have htest := htest.mono hle₁
  obtain ⟨labels₂, rank, hle₂, hb₂⟩ := hcond.run h₂ ((hb₁.jump htest).goTo htest)
  have hle := hle₁.trans hle₂
  exact ⟨labels₂, hle₀.trans hle,
    (hb₂.branch (hleave.mono hle) (hstart.mono hle)).goTo (hleave.mono hle)⟩

theorem shut_forControl {var : Bound.Expr} {limit yes no : Nat} {cmp : Op} {sp : Span}
    (hvar : Turns c (expr ctx var) [] [.value])
    (hcmp : Turns c (op cmp sp) [.value, .value] [.value])
    (h : forControl ctx var limit cmp yes no sp b = .ok ((), b')) (hb : b.Settled c labels waiting)
    (hyes : Rests labels yes) (hno : Rests labels no) :
    ∃ labels', labels <+: labels' ∧ b'.Shut c labels' waiting := by
  have hload : Turns c (emit .loadLocal limit 0 sp) [.value] [.value, .value] :=
    (turns_plain rfl rfl rfl rfl : Turns c _ [] [.value]).above [.value]
  have htest := hvar.seq (hload.seq hcmp)
  have heq : forControl ctx var limit cmp yes no sp =
      (do expr ctx var; emit .loadLocal limit 0 sp; op cmp sp) >>= fun _ => branch yes no sp := by
    simp only [forControl, bind_assoc]
  rw [heq] at h
  obtain ⟨_, b₁, h₁, h⟩ := bind_ok.mp h
  rw [branch_eq] at h
  cases h
  obtain ⟨labels₁, rank, hle₁, hb₁⟩ := htest.run h₁ hb
  exact ⟨labels₁, hle₁, hb₁.branch (hyes.mono hle₁) (hno.mono hle₁)⟩

theorem settles_forRest {var : Bound.Expr} {limit : Nat} {down : Bool} {body : List Bound.Stmt}
    {sp : Span} (hvar : Turns c (expr ctx var) [] [.value]) (hbody : Settles c (stmts ctx body)) :
    Settles c (Target.forRest ctx var limit down body sp) := by
  intro b b' labels waiting h hb
  obtain ⟨b₁, b₂, b₃, b₄, b₅, h₁, h₂, h₃, h₄, h₅, rfl⟩ := Target.forRest_ok h
  have hcmp : Turns c (op (if down then .ge else .le) sp) [.value, .value] [.value] := by
    cases down <;> exact turns_plain rfl rfl rfl rfl
  have hequal : Turns c (op .eq sp) [.value, .value] [.value] := turns_plain rfl rfl rfl rfl
  have hstep : Turns c (op (if down then .pred else .succ) sp) [.value] [.value] := by
    cases down <;> exact turns_plain rfl rfl rfl rfl
  obtain ⟨labels₀, hle₀, hb₀, hrests⟩ := hb.addBlocks 5
  have htest := hrests 0 (by omega)
  obtain ⟨labels₁, hle₁, hb₁⟩ := shut_forControl hvar hcmp h₁ ((hb₀.jump htest).goTo htest)
    (hrests 1 (by omega)) (hrests 4 (by omega))
  have hrests : ∀ j < 5, Rests labels₁ (b.blocks.size + j) := fun j hj => (hrests j hj).mono hle₁
  obtain ⟨labels₂, hle₂, hb₂⟩ := settles_inLoop hbody h₂ (hb₁.goTo (hrests 1 (by omega)))
    (hrests 4 (by omega)) (hrests 2 (by omega))
  have hrests : ∀ j < 5, Rests labels₂ (b.blocks.size + j) := fun j hj => (hrests j hj).mono hle₂
  have hnext := hrests 2 (by omega)
  obtain ⟨labels₃, hle₃, hb₃⟩ := shut_forControl hvar hequal h₃ ((hb₂.jump hnext).goTo hnext)
    (hrests 4 (by omega)) (hrests 3 (by omega))
  have hrests : ∀ j < 5, Rests labels₃ (b.blocks.size + j) := fun j hj => (hrests j hj).mono hle₃
  have hcount := (hvar.seq (hstep.seq (turns_storeVar ctx var))).settles
  have hcounted : (expr ctx var >>= fun _ => op (if down then .pred else .succ) sp >>= fun _ =>
      storeVar ctx var) (b₃.goTo (b.blocks.size + 3)) = .ok ((), b₅) := by
    rw [bind_eq h₄, bind_eq (op_eq _ _ _), h₅]
  obtain ⟨labels₄, hle₄, hb₄⟩ := hcount hcounted (hb₃.goTo (hrests 3 (by omega)))
  have hrests : ∀ j < 5, Rests labels₄ (b.blocks.size + j) := fun j hj => (hrests j hj).mono hle₄
  exact ⟨labels₄, (((hle₀.trans hle₁).trans hle₂).trans hle₃).trans hle₄,
    (hb₄.jump (hrests 1 (by omega))).goTo (hrests 4 (by omega))⟩

theorem settles_for {var first last : Bound.Expr} {down : Bool} {body : List Bound.Stmt} {sp : Span}
    (hvar : Turns c (expr ctx var) [] [.value]) (hfirst : Turns c (expr ctx first) [] [.value])
    (hlast : Turns c (expr ctx last) [] [.value]) (hbody : Settles c (stmts ctx body)) :
    Settles c (stmt ctx (.forTo var first last down body sp)) := by
  intro b b' labels waiting h hb
  obtain ⟨b₁, b₂, b₃, shape, -, h₁, h₂, h₃, h⟩ := Target.stmt_forTo h
  have hstart := (hfirst.seq (turns_storeVar ctx var)).settles
  obtain ⟨labels₂, hle₂, hb₂⟩ := hstart (bind_ok.mpr ⟨(), b₁, h₁, h₂⟩) hb
  obtain ⟨labels₃, rank, hle₃, hb₃⟩ := hlast.run h₃ (hb₂.addLocal shape)
  obtain ⟨labels₄, hle₄, hb₄⟩ := hb₃.emit
    (i := ⟨.storeLocal, b₂.locals.size, 0, last.span.start⟩) false (.plain rfl []) nofun
  obtain ⟨labels', hle, hb'⟩ := settles_forRest hvar hbody h ⟨rank, hb₄⟩
  exact ⟨labels', ((hle₂.trans hle₃).trans hle₄).trans hle, hb'⟩

/-! ### Cases -/

theorem settles_labels {subject arm : Nat} {sp : Span} {vs : List Value}
    (h : testLabels subject arm sp vs b = .ok ((), b')) (hb : b.Settled c labels waiting)
    (harm : Rests labels arm) : ∃ labels', labels <+: labels' ∧ b'.Settled c labels' waiting := by
  induction vs generalizing b labels with
  | nil =>
    obtain ⟨-, rfl⟩ := pure_ok.mp h
    exact ⟨labels, List.prefix_refl _, hb⟩
  | cons v vs ih =>
    obtain ⟨b₁, h₁, h⟩ := Target.testLabels_cons h
    have htest : Turns c (Target.testLabel subject sp v) [] [.value] :=
      (turns_plain rfl rfl rfl rfl : Turns c _ [] [.value]).seq
        ((turns_constant.above [.value]).seq (turns_plain rfl rfl rfl rfl))
    obtain ⟨labels₀, hle₀, hb₀, hrests⟩ := hb.addBlocks 1
    obtain ⟨labels₁, rank, hle₁, hb₁⟩ := htest.run h₁ hb₀
    have hnext := (hrests 0 (by omega)).mono hle₁
    have harm := harm.mono (hle₀.trans hle₁)
    obtain ⟨labels', hle, hb'⟩ := ih h ((hb₁.branch harm hnext).goTo hnext) harm
    exact ⟨labels', (hle₀.trans hle₁).trans hle, hb'⟩

theorem settles_arms {subject : Nat} {sp : Span} {arms : List Bound.CaseArm} {blocks : List Nat}
    (h : testArms subject sp arms blocks b = .ok ((), b')) (hb : b.Settled c labels waiting)
    (hblocks : ∀ k ∈ blocks, Rests labels k) :
    ∃ labels', labels <+: labels' ∧ b'.Settled c labels' waiting := by
  induction arms generalizing b labels blocks with
  | nil =>
    rw [testArms] at h
    · obtain ⟨-, rfl⟩ := pure_ok.mp h
      exact ⟨labels, List.prefix_refl _, hb⟩
    · simp
  | cons arm arms ih =>
    obtain ⟨vs, body⟩ := arm
    cases blocks with
    | nil =>
      rw [testArms] at h
      · obtain ⟨-, rfl⟩ := pure_ok.mp h
        exact ⟨labels, List.prefix_refl _, hb⟩
      · simp
    | cons k ks =>
      rw [testArms] at h
      obtain ⟨_, b₁, h₁, h⟩ := bind_ok.mp h
      obtain ⟨labels₁, hle₁, hb₁⟩ := settles_labels h₁ hb (hblocks k List.mem_cons_self)
      obtain ⟨labels', hle, hb'⟩ := ih h hb₁ fun k' hk' =>
        (hblocks k' (List.mem_cons_of_mem _ hk')).mono hle₁
      exact ⟨labels', hle₁.trans hle, hb'⟩

/-- The bodies of arms go to their blocks, which are the first that wait. -/
def SettlesArms (c : Calls) (ctx : LowerContext) (arms : List Bound.CaseArm) : Prop :=
  ∀ ⦃b b' : Builder⦄ ⦃labels : List Label⦄ ⦃waiting blocks : List Nat⦄ ⦃done : Nat⦄ ⦃sp : Span⦄,
    armBodies ctx done sp arms blocks b = .ok ((), b') → b.Shut c labels (blocks ++ waiting) →
      blocks.length = arms.length → (∀ k ∈ done :: blocks, Rests labels k) →
        ∃ labels', labels <+: labels' ∧ b'.Shut c labels' waiting

theorem settlesArms_nil : SettlesArms c ctx [] := by
  intro b b' labels waiting blocks done sp h hb hlength _
  obtain rfl := List.eq_nil_of_length_eq_zero hlength
  rw [armBodies] at h
  · obtain ⟨-, rfl⟩ := pure_ok.mp h
    exact ⟨labels, List.prefix_refl _, hb⟩
  · simp

theorem settlesArms_cons {vs : List Value} {body : List Bound.Stmt} {arms : List Bound.CaseArm}
    (hbody : Settles c (stmts ctx body)) (harms : SettlesArms c ctx arms) :
    SettlesArms c ctx (.arm vs body :: arms) := by
  intro b b' labels waiting blocks done sp h hb hlength hrests
  obtain ⟨k, ks, rfl⟩ := List.exists_cons_of_length_eq_add_one hlength
  rw [armBodies, bind_eq (goTo_eq _ _)] at h
  obtain ⟨_, b₁, h₁, h⟩ := bind_ok.mp h
  rw [bind_eq (jump_eq _ _ _)] at h
  obtain ⟨labels₁, hle₁, hb₁⟩ := hbody h₁ (hb.goTo (hrests k (by simp)))
  have hrests' : ∀ k' ∈ done :: ks, Rests labels₁ k' := by
    intro k' hk'
    refine (hrests k' ?_).mono hle₁
    rcases List.mem_cons.mp hk' with rfl | hk'
    · exact List.mem_cons_self
    · exact List.mem_cons_of_mem _ (List.mem_cons_of_mem _ hk')
  obtain ⟨labels', hle, hb'⟩ := harms h (hb₁.jump (hrests' done List.mem_cons_self))
    (by simpa using hlength) hrests'
  exact ⟨labels', hle₁.trans hle, hb'⟩

theorem settles_case {subject : Bound.Expr} {arms : List Bound.CaseArm} {otherwise : List Bound.Stmt}
    {sp : Span} (hsubject : Turns c (expr ctx subject) [] [.value])
    (harms : SettlesArms c ctx arms) (hotherwise : Settles c (stmts ctx otherwise)) :
    Settles c (stmt ctx (.caseOf subject arms otherwise sp)) := by
  intro b b' labels waiting h hb
  obtain ⟨shape, b₁, b₂, b₃, b₄, b₅, -, h₁, rfl, h₃, h₄, h₅, rfl⟩ := Target.stmt_caseOf h
  obtain ⟨labels₁, rank, hle₁, hb₁⟩ := hsubject.run h₁ (hb.addLocal shape)
  obtain ⟨labels₂, hle₂, hb₂⟩ := hb₁.emit
    (i := ⟨.storeLocal, b.locals.size, 0, subject.span.start⟩) false (.plain rfl []) nofun
  generalize b₁.emit ⟨.storeLocal, b.locals.size, 0, subject.span.start⟩ = b₂ at h₃ h₄ h₅ hb₂ ⊢
  obtain ⟨labels₃, hle₃, hb₃, hrests⟩ := Settled.addBlocks ⟨rank, hb₂⟩ (arms.length + 1)
  have hdone := hrests 0 (by omega)
  have hblocks : ∀ k ∈ List.range' (b₂.blocks.size + 1) arms.length, Rests labels₃ k := by
    intro k hk
    obtain ⟨j, hj, rfl⟩ := List.mem_range'.mp hk
    have hj := hrests (1 + j) (by omega)
    rwa [← Nat.add_assoc, ← Nat.one_mul j] at hj
  obtain ⟨labels₄, hle₄, hb₄⟩ := settles_arms h₃ hb₃ hblocks
  obtain ⟨labels₅, hle₅, hb₅⟩ := hotherwise h₄ hb₄
  have hle := hle₄.trans hle₅
  -- The block behind the statement is opened before those of the arms.
  have hjump : (b₄.jump b₂.blocks.size sp.start).Shut c labels₅
      (List.range' (b₂.blocks.size + 1) arms.length ++ b₂.blocks.size :: waiting) :=
    (hb₅.jump (hdone.mono hle)).perm List.perm_middle.symm
  obtain ⟨labels₆, hle₆, hb₆⟩ := harms h₅ hjump (by simp) fun k hk => by
    rcases List.mem_cons.mp hk with rfl | hk
    · exact hdone.mono hle
    · exact (hblocks k hk).mono hle
  refine ⟨labels₆, ?_, hb₆.goTo (hdone.mono (hle.trans hle₆))⟩
  exact (((hle₁.trans hle₂).trans hle₃).trans hle).trans hle₆

/-! ## Bodies -/

mutual

theorem settles_stmt (hc : c.Valued ctx.types) (s : Bound.Stmt)
    (hs : ∀ t ∈ s.flatten, Sound c ctx.types t) : Settles c (stmt ctx s) := by
  have hsound := hs s s.mem_flatten_self
  cases s with
  | assign target value sp =>
    rw [stmt]
    exact (turns_assign hc (hsound target (by simp [Bound.Stmt.exprs])).1
      (hsound.turns hc (by simp [Bound.Stmt.exprs]) nofun)).settles
  | expr e sp => exact settles_call hc hsound
  | ifElse cond yes no sp =>
    exact settles_if (hsound.turns hc (by simp [Bound.Stmt.exprs]) nofun)
      (settles_stmts hc yes fun t ht => hs t (by simp [Bound.Stmt.flatten, ht]))
      (settles_stmts hc no fun t ht => hs t (by simp [Bound.Stmt.flatten, ht]))
  | whileDo cond body sp =>
    exact settles_while (hsound.turns hc (by simp [Bound.Stmt.exprs]) nofun)
      (settles_stmts hc body fun t ht => hs t (by simp [Bound.Stmt.flatten, ht]))
  | repeatUntil body cond sp =>
    exact settles_repeat (hsound.turns hc (by simp [Bound.Stmt.exprs]) nofun)
      (settles_stmts hc body fun t ht => hs t (by simp [Bound.Stmt.flatten, ht]))
  | forTo var first last down body sp =>
    exact settles_for (hsound.turns hc (by simp [Bound.Stmt.exprs]) nofun)
      (hsound.turns hc (by simp [Bound.Stmt.exprs]) nofun)
      (hsound.turns hc (by simp [Bound.Stmt.exprs]) nofun)
      (settles_stmts hc body fun t ht => hs t (by simp [Bound.Stmt.flatten, ht]))
  | caseOf subject arms otherwise sp =>
    exact settles_case (hsound.turns hc (by simp [Bound.Stmt.exprs]) nofun)
      (settlesArms hc arms fun t ht => hs t (by simp [Bound.Stmt.flatten, ht]))
      (settles_stmts hc otherwise fun t ht => hs t (by simp [Bound.Stmt.flatten, ht]))
  | exit sp =>
    rw [stmt]
    exact settles_exit
  | «break» sp =>
    rw [stmt]
    exact settles_innermost fun hleave _ => hleave
  | «continue» sp =>
    rw [stmt]
    exact settles_innermost fun _ hnext => hnext

theorem settles_stmts (hc : c.Valued ctx.types) (ss : List Bound.Stmt)
    (hss : ∀ t ∈ Bound.Stmt.flattenAll ss, Sound c ctx.types t) : Settles c (stmts ctx ss) := by
  cases ss with
  | nil =>
    rw [stmts]
    exact turns_pure.settles
  | cons s ss =>
    rw [stmts]
    exact (settles_stmt hc s fun t ht => hss t (by simp [Bound.Stmt.flattenAll, ht])).seq
      (settles_stmts hc ss fun t ht => hss t (by simp [Bound.Stmt.flattenAll, ht]))

theorem settlesArms (hc : c.Valued ctx.types) (arms : List Bound.CaseArm)
    (harms : ∀ t ∈ Bound.Stmt.flattenArms arms, Sound c ctx.types t) : SettlesArms c ctx arms := by
  match arms with
  | [] => exact settlesArms_nil
  | .arm vs body :: arms =>
    exact settlesArms_cons
      (settles_stmts hc body fun t ht => harms t (by simp [Bound.Stmt.flattenArms, ht]))
      (settlesArms hc arms fun t ht => harms t (by simp [Bound.Stmt.flattenArms, ht]))

end

/-! ## Routines -/

theorem opening_settled (c : Calls) (pool : Pool) (locals : List Shape) :
    (opening pool locals).Settled c [⟨[], 0⟩] [] := by
  refine ⟨0, some [], rfl, rfl, ⟨⟨[], 0⟩, #[], rfl, rfl, Nat.le_refl _, .nil⟩, by simp, nofun, ?_, nofun⟩
  intro k e is hk _ he _
  have hlt := (List.getElem?_eq_some_iff.mp he).1
  simp only [List.length_singleton, Nat.lt_one_iff] at hlt
  exact absurd hlt hk

theorem flows_closeAll (hb : b.Settled c labels []) (ctx : LowerContext) (sp : Span) (k : Nat)
    (e : Label) (is : Array Instr) (he : labels[k]? = some e)
    (his : (closeAll ctx sp b.blocks)[k]? = some is) : Flows c b.pool labels e is none := by
  obtain ⟨rank, out, hms, hb⟩ := hb
  unfold closeAll at his
  rw [Array.getElem?_map] at his
  obtain ⟨is₀, his₀, his⟩ := Option.map_eq_some_iff.mp his
  have hflows : Flows c b.pool labels e is₀ none ∨ Flows c b.pool labels e is₀ (some []) := by
    by_cases hk : k = b.current
    · subst hk
      obtain ⟨e', is', he', his', -, hflows⟩ := hb.here
      obtain rfl : e' = e := Option.some.inj (he'.symm.trans he)
      obtain rfl : is' = is₀ := Option.some.inj (his'.symm.trans his₀)
      cases out with
      | none => exact .inl hflows
      | some ms =>
        obtain rfl : ms = [] := hms
        exact .inr hflows
    · exact .inl (hb.closed k e is₀ hk (by simp) he his₀)
  rcases hflows with hflows | hflows
  · rw [hflows.isClosed_eq, if_pos (by rfl)] at his
    exact his ▸ hflows
  · rw [hflows.isClosed_eq, if_neg (by simp)] at his
    exact his ▸ hflows.close (.ret rfl)

end Lower

namespace Bound.Routine

variable {types : TypeTable} {leaves : Expr → Bool} {r : Routine}

theorem Valued.calls_valued (hr : r.Valued types leaves) : (Calls.mk r.exprs leaves).Valued types :=
  ⟨hr.calls, hr.operands⟩

theorem Valued.sound (hr : r.Valued types leaves) (hcalls : r.RunsCalls types) {s : Stmt}
    (hs : s ∈ Stmt.flattenAll r.body) : Lower.Sound ⟨r.exprs, leaves⟩ types s := by
  intro e he
  have hwithin : Lower.Within ⟨r.exprs, leaves⟩ e := fun x hx =>
    List.mem_flatMap.mpr ⟨s, hs, List.mem_flatMap.mpr ⟨e, he, hx⟩⟩
  exact ⟨hwithin, fun hvoid => ⟨hcalls e hwithin.self hvoid, hr.statements s hs e he hvoid⟩⟩

end Bound.Routine

open Lower in
/-- The code of a routine keeps its operand stack in balance. There is a depth for every place of the
code, 0 at the start and at every return, that agrees with all instructions, whichever way a block is
entered. Each object that a path makes is unpinned once, when it lies on top of the stack again. -/
theorem lowering_balances_stack {types : TypeTable} {pool pool' : Pool} {r : Bound.Routine}
    {code : Routine} {leaves : Bound.Expr → Bool}
    (hcode : CompiledUnit.lowerRoutine types pool r = .ok (code, pool'))
    (hr : r.Valued types leaves) (hcalls : r.RunsCalls types) :
    ∃ (result : Nat → Nat → Bool) (depth : Nat → Nat → Nat),
      (∀ {k ip : Nat} {i : Instr}, code.blocks.instr? k ip = some i → i.op.isCall = true →
        Calls.Result ⟨r.exprs, leaves⟩ pool' i (result k ip)) ∧
      code.blocks.Balanced result depth ∧
      ∀ path, code.blocks.IsPath result path → code.blocks.PinsOnce path := by
  obtain ⟨locals, b, -, hstmts, -, rfl, hblocks⟩ := lowerRoutine_ok hcode
  obtain ⟨labels, hle, hb⟩ := settles_stmts hr.calls_valued r.body (fun s hs => hr.sound hcalls hs) hstmts
    (opening_settled ⟨r.exprs, leaves⟩ pool locals)
  have hsize : labels.length = code.blocks.size := by
    obtain ⟨rank, out, -, hb⟩ := hb
    rw [hblocks, closeAll, Array.size_map, hb.size]
  have hstart : ∃ e, labels[0]? = some e ∧ e.stack = [] :=
    ⟨_, getElem?_of_listPrefix hle rfl, rfl⟩
  have hflows := flows_closeAll hb ⟨types, r.name, r.result.isSome⟩ r.span
  rw [← hblocks] at hflows
  obtain ⟨result, marks, hlabelled, hcalls⟩ := Blocks.exists_labelled hsize hstart hflows
  exact ⟨result, _, hcalls, hlabelled.balanced, fun path hpath => hlabelled.pinsOnce hpath⟩

/-- Makes an object, with the value of a short `and` for its constructor, and calls a procedure. -/
def making : Bound.Routine :=
  { name := "make", symbol := 0, owner := 0, span := {}, slots := [⟨"node", TypeTable.nil⟩],
    body := [
      .assign (.frameVar 0 0 TypeTable.nil {})
        (.newObject ⟨"nodes", "Node"⟩ (some ⟨"nodes", 0⟩)
          [.binary .and (.call ⟨"nodes", 1⟩ [] TypeTable.boolean {})
            (.const (.ofBool true) TypeTable.boolean {}) TypeTable.boolean {}] TypeTable.nil {}) {},
      .expr (.call ⟨"nodes", 2⟩ [] TypeTable.void {}) {}] }

@[irreducible] def makingCode : Routine × Pool :=
  (CompiledUnit.lowerRoutine .empty {} making).toOption.getD default

/-- While the second and the third block are entered the object waits below, for its constructor. -/
theorem lowering_balances_stack_making :
    makingCode.1.blocks.map (·.map Instr.op) =
      #[#[.newObject, .dup, .call, .dup, .branch], #[.pop, .const, .jump],
        #[.call, .unpin, .storeLocal, .call, .ret]] ∧
    ∃ result depth, makingCode.1.blocks.Balanced result depth ∧
      ∀ path, makingCode.1.blocks.IsPath result path → makingCode.1.blocks.PinsOnce path := by
  have hcode : CompiledUnit.lowerRoutine .empty {} making = .ok (makingCode.1, makingCode.2) := by
    rw [Prod.eta]
    unfold makingCode
    exact eq_ok_of_isSome (by decide +kernel)
  have hr : making.Valued .empty fun e => e.type ≠ TypeTable.void := by
    refine ⟨by decide +kernel, by decide +kernel, ?_⟩
    simp [making, Bound.Stmt.flattenAll, Bound.Stmt.flatten, Bound.Stmt.exprs, Bound.Stmt.span,
      Bound.Expr.isVoid, Bound.Expr.type, TypeTable.kind, TypeTable.shape?, TypeTable.empty,
      TypeTable.nil, TypeShape.kind]
  have hcalls : making.RunsCalls .empty := by
    unfold Bound.Routine.RunsCalls
    decide +kernel
  obtain ⟨result, depth, -, h⟩ := lowering_balances_stack hcode hr hcalls
  exact ⟨by decide +kernel, result, depth, h⟩

/-- Its only statement is a constant of type void. -/
def idling : Bound.Routine :=
  { name := "idle", symbol := 0, owner := 0, span := {},
    body := [.expr (.const (.ofBool true) TypeTable.void {}) {}] }

@[irreducible] def idlingCode : Routine × Pool :=
  (CompiledUnit.lowerRoutine .empty {} idling).toOption.getD default

/-- A statement without a value that is no call leaves one on the stack, where the routine returns. -/
theorem lowering_leaves_constant :
    idling.Valued .empty (fun _ => false) ∧
    CompiledUnit.lowerRoutine .empty {} idling = .ok (idlingCode.1, idlingCode.2) ∧
      ∀ result depth, ¬ idlingCode.1.blocks.Balanced result depth := by
  have hr : idling.Valued .empty fun _ => false := by
    refine ⟨by decide +kernel, by decide +kernel, ?_⟩
    simp [idling, Bound.Stmt.flattenAll, Bound.Stmt.flatten, Bound.Stmt.exprs, Bound.Stmt.span]
  have hcode : CompiledUnit.lowerRoutine .empty {} idling = .ok (idlingCode.1, idlingCode.2) := by
    rw [Prod.eta]
    unfold idlingCode
    exact eq_ok_of_isSome (by decide +kernel)
  have hblocks : idlingCode.1.blocks = #[#[⟨.const, 0, 0, 0⟩, ⟨.ret, 0, 0, 0⟩]] := by decide +kernel
  refine ⟨hr, hcode, fun result depth h => ?_⟩
  rw [hblocks] at h
  obtain ⟨k, hk, -, hstart⟩ := h.start
  obtain rfl : k = 0 := by omega
  have hnext : depth 0 1 = depth 0 0 + 1 := (h.next (i := ⟨.const, 0, 0, 0⟩) rfl rfl).2
  have hret : depth 0 1 = 0 := h.ret (i := ⟨.ret, 0, 0, 0⟩) rfl rfl
  omega

end Pascaline
