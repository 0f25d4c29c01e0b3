import Pascaline.Proofs.Lowering.Traversal

/-!
# What lowering enters into the pool

Lowering builds blocks, adds slots to the frame and enters what the expressions refer to into the
pool. A property of builders that each of these keeps holds of the code of a whole routine; so
nothing is in the pool of a unit but what an expression of the unit refers to.
-/

namespace Pascaline

open Pascaline.Bound (Expr Stmt CaseArm)

/-- What the expressions that stand directly in a statement refer to, their parts included. -/
def Bound.Stmt.Refers (R : References) (s : Stmt) : Prop :=
  ∀ e ∈ s.exprs, ∀ x ∈ e.flatten, x.Refers R

/-- A slot that the frame has so far, behind its first `own` ones. -/
def Builder.Hides (own : Nat) (b : Builder) (n : Nat) : Prop := own ≤ n ∧ n < b.locals.size

/-- The slot that an instruction uses may be named, or it is a hidden one. -/
def Builder.Admits (R : References) (own : Nat) (b : Builder) (i : Instr) : Prop :=
  i.op.isLocal = true → ∃ n : Nat, i.a = n ∧ (R.slots n ∨ b.Hides own n)

/-- A property of builders that every step of lowering keeps. The frame has `own` slots that are not
hidden. -/
structure Builder.Stable (R : References) (own : Nat) (I : Builder → Prop) : Prop where
  frame : ∀ {b : Builder}, I b → own ≤ b.locals.size
  block : ∀ {b : Builder}, I b → I b.addBlock
  goTo : ∀ {b : Builder} t, I b → I (b.goTo t)
  loops : ∀ {b : Builder} loops, I b → I (b.withLoops loops)
  emit : ∀ {b : Builder} {i : Instr}, b.Admits R own i → I b → I (b.emit i)
  slot : ∀ {b : Builder} shape, I b → I (b.addLocal shape)
  const : ∀ {b : Builder} v, I b → I (b.addConst v)
  shape : ∀ {b : Builder} s, I b → I { b with pool := (b.pool.addShape s).2 }
  native : ∀ {b : Builder} (n : Native), I b → I { b with pool := (b.pool.addNative n.name).2 }
  call : ∀ {b : Builder} {ref : RoutineRef}, R.calls ref → I b →
    I { b with pool := (b.pool.addCall ref).2 }
  global : ∀ {b : Builder} {ref : GlobalRef}, R.globals ref → I b → I (b.addGlobal ref)
  object : ∀ {b : Builder} {key : ClassKey}, R.classes key → I b →
    I { b with pool := (b.pool.addClass key).2 }

theorem Builder.Hides.mono {own n : Nat} {b b' : Builder} (h : b.Hides own n)
    (hle : b.locals.size ≤ b'.locals.size) : b'.Hides own n :=
  ⟨h.1, Nat.lt_of_lt_of_le h.2 hle⟩

theorem Builder.Stable.hidden {R : References} {own : Nat} {I : Builder → Prop} (h : Stable R own I)
    (n : Nat) : Stable R own fun b => I b ∧ b.Hides own n where
  frame hb := h.frame hb.1
  block hb := ⟨h.block hb.1, hb.2⟩
  goTo t hb := ⟨h.goTo t hb.1, hb.2⟩
  loops ls hb := ⟨h.loops ls hb.1, hb.2⟩
  emit hi hb := ⟨h.emit hi hb.1, hb.2.mono (by simp)⟩
  slot shape hb := ⟨h.slot shape hb.1, hb.2.mono (by simp [addLocal])⟩
  const v hb := ⟨h.const v hb.1, hb.2⟩
  shape s hb := ⟨h.shape s hb.1, hb.2⟩
  native n hb := ⟨h.native n hb.1, hb.2⟩
  call href hb := ⟨h.call href hb.1, hb.2⟩
  global href hb := ⟨h.global href hb.1, hb.2⟩
  object hkey hb := ⟨h.object hkey hb.1, hb.2⟩

namespace Lower

variable {α β : Type} {R : References} {own : Nat} {I : Builder → Prop} {x : Lower α}
  {f : α → Lower β}

/-- Where the property holds, it holds after the code was built. -/
def Maintains (I : Builder → Prop) (x : Lower α) : Prop :=
  ∀ b a b', x b = .ok (a, b') → I b → I b'

theorem Maintains.bind (hx : Maintains I x) (hf : ∀ a, Maintains I (f a)) :
    Maintains I (x >>= f) := by
  intro b c b' h hb
  obtain ⟨a, b₁, h₁, h⟩ := bind_ok.mp h
  exact hf a _ _ _ h (hx _ _ _ h₁ hb)

theorem maintains_pure (a : α) : Maintains I (pure a : Lower α) := by
  intro b c b' h hb
  obtain ⟨-, rfl⟩ := pure_ok.mp h
  exact hb

theorem maintains_throw (e : LowerError) : Maintains I (throw e : Lower α) := by
  intro b c b' h
  cases h

theorem maintains_lift (x : Except LowerError α) : Maintains I (liftM x : Lower α) := by
  intro b c b' h hb
  obtain ⟨-, rfl⟩ := lift_ok.mp h
  exact hb

theorem Maintains.ite {p : Prop} [Decidable p] {x y : Lower α} (hx : Maintains I x)
    (hy : Maintains I y) : Maintains I (if p then x else y) := by
  split
  · exact hx
  · exact hy

/-! ## Blocks and slots -/

section

variable (hI : Builder.Stable R own I)

include hI

theorem maintains_newBlock : Maintains I newBlock := by
  intro b n b' h hb
  cases h
  exact hI.block hb

theorem maintains_goTo (t : Nat) : Maintains I (goTo t) := by
  intro b n b' h hb
  cases h
  exact hI.goTo t hb

theorem maintains_emit {o : Op} (ho : o.isLocal = false) (x y : Int) (sp : Span) :
    Maintains I (emit o x y sp) := by
  intro b n b' h hb
  rw [emit_eq] at h
  cases h
  exact hI.emit (fun hlocal => by rw [ho] at hlocal; cases hlocal) hb

theorem maintains_local {n : Nat} (hn : ∀ b, I b → R.slots n ∨ b.Hides own n) (o : Op) (y : Int)
    (sp : Span) : Maintains I (emit o n y sp) := by
  intro b m b' h hb
  rw [emit_eq] at h
  cases h
  exact hI.emit (fun _ => ⟨n, rfl, hn b hb⟩) hb

theorem maintains_op {o : Op} (ho : o.isLocal = false) (sp : Span) : Maintains I (op o sp) :=
  maintains_emit hI ho 0 0 sp

theorem maintains_jump (t : Nat) (sp : Span) : Maintains I (jump t sp) := by
  unfold jump
  refine Maintains.bind (fun _ _ _ h hb => ?_) fun _ =>
    (maintains_emit hI rfl _ _ _).ite (maintains_pure _)
  cases h
  exact hb

theorem maintains_branch (yes no : Nat) (sp : Span) : Maintains I (branch yes no sp) :=
  maintains_emit hI rfl _ _ sp

theorem maintains_temp {f : Nat → Lower α} (shape : Shape)
    (hf : ∀ n, Maintains (fun b => I b ∧ b.Hides own n) (f n)) :
    Maintains I (temp shape >>= f) := by
  intro b a b' h hb
  obtain ⟨n, b₁, h₁, h⟩ := bind_ok.mp h
  cases h₁
  exact (hf _ _ _ _ h ⟨hI.slot shape hb, hI.frame hb, by simp⟩).1

theorem maintains_constant (v : Value) (sp : Span) : Maintains I (constant v sp) := by
  refine Maintains.bind (fun _ _ _ h hb => ?_) fun n => maintains_emit hI (o := .const) rfl n 0 sp
  cases h
  exact hI.const v hb

theorem maintains_inLoop {target : LoopTarget} {body : Lower Unit} (hbody : Maintains I body) :
    Maintains I (inLoop target body) := by
  intro b n b' h hb
  obtain ⟨b₁, h₁, rfl⟩ := inLoop_ok.mp h
  exact hI.loops _ (hbody _ _ _ h₁ (hI.loops _ hb))

omit hI in
theorem maintains_innermost (ctx : LowerContext) : Maintains I (innermost ctx) := by
  intro b l b' h hb
  obtain ⟨rfl, -⟩ := innermost_ok.mp h
  exact hb

theorem maintains_elementShape (ctx : LowerContext) (elem : TypeId) :
    Maintains I (elementShape ctx elem) := by
  refine (maintains_lift _).bind fun shape b n b' h hb => ?_
  cases h
  exact hI.shape shape hb

omit hI in
theorem maintains_pooled {add : Pool → Nat × Pool}
    (hadd : ∀ {b : Builder}, I b → I { b with pool := (add b.pool).2 }) : Maintains I (pooled add) := by
  intro b n b' h hb
  cases h
  exact hadd hb

theorem maintains_entry {add : Pool → Nat × Pool} {o : Op} {y : Int} {sp : Span}
    (ho : o.isLocal = false) (hadd : ∀ {b : Builder}, I b → I { b with pool := (add b.pool).2 }) :
    Maintains I (pooled add >>= fun n => emit o n y sp) :=
  (maintains_pooled hadd).bind fun n => maintains_emit hI ho n y sp

end

/-! ## Expressions -/

theorem maintains_short {o : Bound.BinaryOp} {left right : Expr} {type : TypeId} {sp : Span}
    (hI : Builder.Stable R own I) (ctx : LowerContext) (hshort : isShort o (ctx.types.kind type) = true)
    (hleft : Maintains I (expr ctx left)) (hright : Maintains I (expr ctx right)) :
    Maintains I (expr ctx (.binary o left right type sp)) := by
  rw [expr, if_pos hshort]
  refine (maintains_newBlock hI).bind fun rest => (maintains_newBlock hI).bind fun done =>
    hleft.bind fun _ => (maintains_op hI rfl _).bind fun _ => ?_
  have hrest : Maintains I (do goTo rest; op .pop sp; expr ctx right; jump done sp; goTo done) :=
    (maintains_goTo hI _).bind fun _ => (maintains_op hI rfl _).bind fun _ => hright.bind fun _ =>
      (maintains_jump hI _ _).bind fun _ => maintains_goTo hI _
  split
  · exact (maintains_branch hI _ _ _).bind fun _ => hrest
  · exact (maintains_branch hI _ _ _).bind fun _ => hrest

theorem maintains_pieces (hI : Builder.Stable R own I) (ctx : LowerContext) :
    Pieces R ctx (fun _ x => Maintains I x) (Maintains I) where
  nothing := maintains_pure ()
  part := id
  seq := .bind
  last := .bind
  emit ho _ _ _ := maintains_emit hI (Op.isQuiet_iff.mp ho).2 _ _ _
  load hn _ := maintains_local hI (fun _ _ => .inl hn) _ _ _
  const _ := maintains_pooled (hI.const _)
  native n := maintains_pooled (hI.native n)
  shape := maintains_elementShape hI ctx
  call href := maintains_pooled (hI.call href)
  global href := maintains_pooled (hI.global href)
  object hkey := maintains_pooled (hI.object hkey)
  short hshort := maintains_short hI ctx hshort

theorem maintains_expr (hI : Builder.Stable R own I) (ctx : LowerContext) (e : Expr)
    (he : ∀ x ∈ e.flatten, x.Refers R) : Maintains I (expr ctx e) :=
  (maintains_pieces hI ctx).expr e he

/-! ## Statements -/

section

variable (hI : Builder.Stable R own I)

include hI

theorem maintains_storeVar (ctx : LowerContext) {e : Expr} (he : ∀ x ∈ e.flatten, x.Refers R) :
    Maintains I (storeVar ctx e) := by
  have hself := (Expr.forall_flatten.mp he).1
  unfold storeVar
  split
  · exact maintains_local hI (fun _ _ => .inl hself) _ _ _
  · exact maintains_entry hI rfl (hI.global hself)
  · exact maintains_throw _

theorem maintains_assign (ctx : LowerContext) {value target : Expr}
    (htarget : ∀ x ∈ target.flatten, x.Refers R) (hvalue : ∀ x ∈ value.flatten, x.Refers R) :
    Maintains I (assign ctx value target) := by
  have hvalue := maintains_expr hI ctx value hvalue
  obtain ⟨hself, hparts⟩ := Expr.forall_flatten.mp htarget
  have hoperand : ∀ x ∈ target.operands, Maintains I (expr ctx x) :=
    fun x hx => maintains_expr hI ctx x (hparts x hx)
  unfold assign
  split
  · exact hvalue.bind fun _ => maintains_local hI (fun _ _ => .inl hself) _ _ _
  · exact hvalue.bind fun _ => maintains_entry hI rfl (hI.global hself)
  · exact (hoperand _ (by simp [Expr.operands])).bind fun _ => hvalue.bind fun _ =>
      maintains_emit hI rfl _ _ _
  · exact (hoperand _ (by simp [Expr.operands])).bind fun _ =>
      (hoperand _ (by simp [Expr.operands])).bind fun _ => hvalue.bind fun _ => maintains_op hI rfl _
  · exact (hoperand _ (by simp [Expr.operands])).bind fun _ =>
      (hoperand _ (by simp [Expr.operands])).bind fun _ => hvalue.bind fun _ => maintains_op hI rfl _
  · exact (hoperand _ (by simp [Expr.operands])).bind fun _ =>
      (maintains_constant hI _ _).bind fun _ => hvalue.bind fun _ => maintains_op hI rfl _
  · exact maintains_throw _

theorem maintains_armBlocks (arms : List CaseArm) : Maintains I (armBlocks arms) := by
  induction arms with
  | nil => exact maintains_pure _
  | cons arm arms ih =>
    exact (maintains_newBlock hI).bind fun _ => ih.bind fun _ => maintains_pure _

theorem maintains_testLabels {subject : Nat} (hsubject : ∀ b, I b → b.Hides own subject)
    (arm : Nat) (sp : Span) (vs : List Value) : Maintains I (testLabels subject arm sp vs) := by
  have hload : Maintains I (emit .loadLocal subject 0 sp) :=
    maintains_local hI (fun b hb => .inr (hsubject b hb)) _ _ _
  induction vs with
  | nil => exact maintains_pure _
  | cons v vs ih =>
    exact (maintains_newBlock hI).bind fun _ => hload.bind fun _ =>
      (maintains_constant hI _ _).bind fun _ => (maintains_op hI rfl _).bind fun _ =>
        (maintains_branch hI _ _ _).bind fun _ => (maintains_goTo hI _).bind fun _ => ih

theorem maintains_testArms {subject : Nat} (hsubject : ∀ b, I b → b.Hides own subject)
    (sp : Span) (arms : List CaseArm) (bs : List Nat) : Maintains I (testArms subject sp arms bs) := by
  induction arms generalizing bs with
  | nil => exact maintains_pure _
  | cons arm arms ih =>
    obtain ⟨labels, body⟩ := arm
    cases bs with
    | nil => exact maintains_pure _
    | cons b bs => exact (maintains_testLabels hI hsubject _ _ _).bind fun _ => ih bs

theorem maintains_forControl (ctx : LowerContext) {var : Expr} {limit : Nat} {cmp : Op}
    (hvar : ∀ x ∈ var.flatten, x.Refers R) (hlimit : ∀ b, I b → b.Hides own limit)
    (hcmp : cmp.isLocal = false) (yes no : Nat) (sp : Span) :
    Maintains I (forControl ctx var limit cmp yes no sp) :=
  (maintains_expr hI ctx var hvar).bind fun _ =>
    (maintains_local hI (fun b hb => .inr (hlimit b hb)) _ _ _).bind fun _ =>
      (maintains_op hI hcmp _).bind fun _ => maintains_branch hI _ _ _

end

mutual

theorem maintains_stmt {I : Builder → Prop} (hI : Builder.Stable R own I) (ctx : LowerContext)
    (s : Stmt) (hs : ∀ s' ∈ s.flatten, s'.Refers R) : Maintains I (stmt ctx s) := by
  have hself := hs s (Stmt.mem_flatten_self s)
  cases s with
  | assign target value sp =>
    rw [stmt]
    exact maintains_assign hI ctx (hself target (by simp [Stmt.exprs]))
      (hself value (by simp [Stmt.exprs]))
  | expr call sp =>
    rw [stmt]
    exact (maintains_expr hI ctx call (hself call (by simp [Stmt.exprs]))).bind fun _ =>
      (maintains_op hI rfl _).ite (maintains_pure _)
  | ifElse cond yes no sp =>
    have hcond := maintains_expr hI ctx cond (hself cond (by simp [Stmt.exprs]))
    have hyes := maintains_stmts hI ctx yes fun s' hs' => hs s' (by simp [Stmt.flatten, hs'])
    have hno := maintains_stmts hI ctx no fun s' hs' => hs s' (by simp [Stmt.flatten, hs'])
    rw [stmt]
    refine (maintains_newBlock hI).bind fun thenBlock => (maintains_newBlock hI).bind fun done => ?_
    have hrest : ∀ elseBlock, Maintains I (do
        expr ctx cond
        branch thenBlock elseBlock sp
        goTo thenBlock
        stmts ctx yes
        jump done sp
        if !no.isEmpty then
          goTo elseBlock
          stmts ctx no
          jump done sp
        goTo done) := fun elseBlock =>
      hcond.bind fun _ => (maintains_branch hI _ _ _).bind fun _ => (maintains_goTo hI _).bind fun _ =>
        hyes.bind fun _ => (maintains_jump hI _ _).bind fun _ =>
          .ite ((maintains_goTo hI _).bind fun _ => hno.bind fun _ =>
            (maintains_jump hI _ _).bind fun _ => maintains_goTo hI _) (maintains_goTo hI _)
    exact .ite ((maintains_pure done).bind hrest) ((maintains_newBlock hI).bind hrest)
  | whileDo cond body sp =>
    have hcond := maintains_expr hI ctx cond (hself cond (by simp [Stmt.exprs]))
    have hbody := maintains_stmts hI ctx body fun s' hs' => hs s' (by simp [Stmt.flatten, hs'])
    rw [stmt]
    exact (maintains_newBlock hI).bind fun _ => (maintains_newBlock hI).bind fun _ =>
      (maintains_newBlock hI).bind fun _ => (maintains_jump hI _ _).bind fun _ =>
        (maintains_goTo hI _).bind fun _ => hcond.bind fun _ =>
          (maintains_branch hI _ _ _).bind fun _ => (maintains_goTo hI _).bind fun _ =>
            (maintains_inLoop hI hbody).bind fun _ => (maintains_jump hI _ _).bind fun _ =>
              maintains_goTo hI _
  | repeatUntil body cond sp =>
    have hcond := maintains_expr hI ctx cond (hself cond (by simp [Stmt.exprs]))
    have hbody := maintains_stmts hI ctx body fun s' hs' => hs s' (by simp [Stmt.flatten, hs'])
    rw [stmt]
    exact (maintains_newBlock hI).bind fun _ => (maintains_newBlock hI).bind fun _ =>
      (maintains_newBlock hI).bind fun _ => (maintains_jump hI _ _).bind fun _ =>
        (maintains_goTo hI _).bind fun _ => (maintains_inLoop hI hbody).bind fun _ =>
          (maintains_jump hI _ _).bind fun _ => (maintains_goTo hI _).bind fun _ =>
            hcond.bind fun _ => (maintains_branch hI _ _ _).bind fun _ => maintains_goTo hI _
  | forTo var first last down body sp =>
    have hvar := hself var (by simp [Stmt.exprs])
    have hfirst := maintains_expr hI ctx first (hself first (by simp [Stmt.exprs]))
    rw [stmt]
    refine hfirst.bind fun _ => (maintains_storeVar hI ctx hvar).bind fun _ =>
      (maintains_lift _).bind fun shape => maintains_temp hI shape fun limit => ?_
    -- From here on the frame has the slot of the limit.
    have hJ := hI.hidden limit
    have hlast := maintains_expr hJ ctx last (hself last (by simp [Stmt.exprs]))
    have hlimit := maintains_local hJ (fun b hb => .inr hb.2) .storeLocal 0 last.span
    have hbody := maintains_stmts hJ ctx body fun s' hs' => hs s' (by simp [Stmt.flatten, hs'])
    have hcontrol := fun {cmp : Op} (hcmp : cmp.isLocal = false) =>
      maintains_forControl hJ ctx hvar (fun b hb => hb.2) hcmp
    have hstore := maintains_storeVar hJ ctx hvar
    have hup : Op.isLocal (if down then .pred else .succ) = false := by cases down <;> rfl
    have htest : Op.isLocal (if down then .ge else .le) = false := by cases down <;> rfl
    exact hlast.bind fun _ => hlimit.bind fun _ => (maintains_newBlock hJ).bind fun _ =>
      (maintains_newBlock hJ).bind fun _ => (maintains_newBlock hJ).bind fun _ =>
        (maintains_newBlock hJ).bind fun _ => (maintains_newBlock hJ).bind fun _ =>
          (maintains_jump hJ _ _).bind fun _ => (maintains_goTo hJ _).bind fun _ =>
            (hcontrol htest _ _ _).bind fun _ => (maintains_goTo hJ _).bind fun _ =>
              (maintains_inLoop hJ hbody).bind fun _ => (maintains_jump hJ _ _).bind fun _ =>
                (maintains_goTo hJ _).bind fun _ => (hcontrol rfl _ _ _).bind fun _ =>
                  (maintains_goTo hJ _).bind fun _ =>
                    (maintains_expr hJ ctx var hvar).bind fun _ =>
                      (maintains_op hJ hup _).bind fun _ => hstore.bind fun _ =>
                        (maintains_jump hJ _ _).bind fun _ => maintains_goTo hJ _
  | caseOf subject arms otherwise sp =>
    rw [stmt]
    refine (maintains_lift _).bind fun shape => maintains_temp hI shape fun slot => ?_
    have hJ := hI.hidden slot
    have hsubject := maintains_expr hJ ctx subject (hself subject (by simp [Stmt.exprs]))
    have hstore := maintains_local hJ (fun b hb => .inr hb.2) .storeLocal 0 subject.span
    have hotherwise := maintains_stmts hJ ctx otherwise fun s' hs' =>
      hs s' (by simp [Stmt.flatten, hs'])
    exact hsubject.bind fun _ => hstore.bind fun _ => (maintains_newBlock hJ).bind fun done =>
      (maintains_armBlocks hJ arms).bind fun blocks =>
        (maintains_testArms hJ (fun b hb => hb.2) _ _ _).bind fun _ =>
          hotherwise.bind fun _ => (maintains_jump hJ _ _).bind fun _ =>
            (maintains_armBodies hJ ctx done sp arms blocks fun s' hs' =>
              hs s' (by simp [Stmt.flatten, hs'])).bind fun _ => maintains_goTo hJ _
  | exit sp =>
    rw [stmt]
    exact maintains_emit hI rfl _ _ _
  | «break» sp =>
    rw [stmt]
    exact (maintains_innermost ctx).bind fun _ => maintains_jump hI _ _
  | «continue» sp =>
    rw [stmt]
    exact (maintains_innermost ctx).bind fun _ => maintains_jump hI _ _

theorem maintains_stmts {I : Builder → Prop} (hI : Builder.Stable R own I) (ctx : LowerContext)
    (ss : List Stmt) (hss : ∀ s ∈ Stmt.flattenAll ss, s.Refers R) : Maintains I (stmts ctx ss) := by
  cases ss with
  | nil =>
    rw [stmts]
    exact maintains_pure _
  | cons s ss =>
    rw [stmts]
    exact (maintains_stmt hI ctx s fun s' hs' => hss s' (by simp [Stmt.flattenAll, hs'])).bind fun _ =>
      maintains_stmts hI ctx ss fun s' hs' => hss s' (by simp [Stmt.flattenAll, hs'])

theorem maintains_armBodies {I : Builder → Prop} (hI : Builder.Stable R own I) (ctx : LowerContext)
    (done : Nat) (sp : Span) (arms : List CaseArm) (bs : List Nat) (harms : ∀ s ∈ Stmt.flattenArms arms, s.Refers R) :
    Maintains I (armBodies ctx done sp arms bs) := by
  match arms, bs with
  | [], _ =>
    rw [armBodies]
    exact maintains_pure _
    all_goals simp
  | .arm _ _ :: _, [] =>
    rw [armBodies]
    exact maintains_pure _
    all_goals simp
  | .arm labels body :: arms, b :: bs =>
    rw [armBodies]
    exact (maintains_goTo hI _).bind fun _ =>
      (maintains_stmts hI ctx body fun s' hs' =>
        harms s' (by simp [Stmt.flattenArms, hs'])).bind fun _ =>
        (maintains_jump hI _ _).bind fun _ => maintains_armBodies hI ctx done sp arms bs fun s' hs' =>
          harms s' (by simp [Stmt.flattenArms, hs'])

end

end Lower

/-! ## Pools -/

/-- All entries of a pool refer to what they may. -/
structure Pool.Within (R : References) (pool : Pool) : Prop where
  calls : ∀ ref ∈ pool.calls, R.calls ref
  globals : ∀ ref ∈ pool.globals, R.globals ref
  classes : ∀ key ∈ pool.classes, R.classes key
  natives : ∀ name ∈ pool.natives, ∃ n : Native, n.name = name

namespace Pool

variable {R : References} {pool : Pool}

theorem Within.empty : Within R {} := by
  constructor <;> simp

theorem forall_enter {α : Type} {same : α → α → Bool} {xs : Array α} {x : α} {P : α → Prop}
    (hxs : ∀ y ∈ xs, P y) (hx : P x) : ∀ y ∈ (enter same xs x).2, P y := by
  unfold enter
  split
  · exact hxs
  · intro y hy
    rcases Array.mem_push.mp hy with hy | rfl
    · exact hxs y hy
    · exact hx

/-- Lowering enters what the expressions refer to. -/
theorem stable_within (R : References) : Builder.Stable R 0 fun b => b.pool.Within R where
  frame _ := Nat.zero_le _
  block h := h
  goTo _ h := h
  loops _ h := h
  emit _ h := by simpa using h
  slot _ h := h
  const _ h := ⟨h.calls, h.globals, h.classes, h.natives⟩
  shape _ h := ⟨h.calls, h.globals, h.classes, h.natives⟩
  native n h := ⟨h.calls, h.globals, h.classes, forall_enter h.natives ⟨n, rfl⟩⟩
  call href h := ⟨forall_enter h.calls href, h.globals, h.classes, h.natives⟩
  global href h := ⟨h.calls, forall_enter h.globals href, h.classes, h.natives⟩
  object hkey h := ⟨h.calls, h.globals, forall_enter h.classes hkey, h.natives⟩

end Pool

namespace CompiledUnit

variable {R : References} {types : TypeTable} {pool pool' : Pool}

theorem stmts_refer {r : Bound.Routine} (hr : ∀ e ∈ r.exprs, e.Refers R) :
    ∀ s ∈ Stmt.flattenAll r.body, s.Refers R :=
  fun s hs e he x hx => hr x (List.mem_flatMap.mpr ⟨s, hs, List.mem_flatMap.mpr ⟨e, he, hx⟩⟩)

theorem lowerRoutine_keeps {I : Pool → Prop} (hI : Builder.Stable R 0 fun b => I b.pool)
    {r : Bound.Routine} {code : Routine} (h : lowerRoutine types pool r = .ok (code, pool'))
    (hr : ∀ e ∈ r.exprs, e.Refers R) (hpool : I pool) : I pool' := by
  unfold lowerRoutine at h
  obtain ⟨shapes, -, h⟩ := except_bind_ok h
  obtain ⟨⟨⟨⟩, s⟩, hs, h⟩ := except_bind_ok h
  cases h
  exact Lower.maintains_stmts hI _ r.body (stmts_refer hr) _ _ _ hs hpool

theorem lowerRoutines_keeps {I : Pool → Prop} (hI : Builder.Stable R 0 fun b => I b.pool)
    {unit : String} {rs : List Bound.Routine} {codes : List Routine}
    (h : lowerRoutines types unit pool rs = .ok (codes, pool'))
    (hrs : ∀ r ∈ rs, ∀ e ∈ r.exprs, e.Refers R) (hpool : I pool) :
    I pool' ∧ codes.length = rs.length := by
  induction rs generalizing pool codes with
  | nil =>
    cases h
    exact ⟨hpool, rfl⟩
  | cons r rs ih =>
    obtain ⟨hr, hrs⟩ := List.forall_mem_cons.mp hrs
    obtain ⟨⟨code, pool₁⟩, hcode, h⟩ := except_bind_ok h
    dsimp only at h
    split at h
    · cases h
    · obtain ⟨⟨codes', pool₂⟩, hcodes, h⟩ := except_bind_ok h
      cases h
      obtain ⟨hpool', hlength⟩ := ih hcodes hrs (lowerRoutine_keeps hI hcode hr hpool)
      exact ⟨hpool', by simp [hlength]⟩

/-- A unit has the routines of its module, and its pool comes from an empty one by steps of lowering. -/
theorem ofModule_keeps {I : Pool → Prop} (hI : Builder.Stable R 0 fun b => I b.pool) (hempty : I {})
    {m : Bound.Module} {u : CompiledUnit} (h : ofModule types m = .ok u)
    (hm : ∀ r ∈ m.routines, ∀ e ∈ r.exprs, e.Refers R) :
    I u.pool ∧ u.routines.size = m.routines.length := by
  unfold ofModule at h
  obtain ⟨classes, -, h⟩ := except_bind_ok h
  obtain ⟨globals, -, h⟩ := except_bind_ok h
  obtain ⟨⟨routines, pool⟩, hroutines, h⟩ := except_bind_ok h
  cases h
  obtain ⟨hpool, hlength⟩ := lowerRoutines_keeps hI hroutines hm hempty
  exact ⟨hpool, by simpa [CompiledUnit.routines] using hlength⟩

theorem ofModule_within {m : Bound.Module} {u : CompiledUnit} (h : ofModule types m = .ok u)
    (hm : ∀ r ∈ m.routines, ∀ e ∈ r.exprs, e.Refers R) :
    u.pool.Within R ∧ u.routines.size = m.routines.length :=
  ofModule_keeps (Pool.stable_within R) .empty h hm

end CompiledUnit

end Pascaline
