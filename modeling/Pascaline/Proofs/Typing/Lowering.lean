import Pascaline.Proofs.Typing.Builders

/-!
# Lowering keeps to the types

The code of a typed expression leaves a value of the type of the expression, and that of a typed
statement finds the stack empty and leaves it so. The code of a routine is covered by a chart.
-/

namespace Pascaline

open TypeTable

theorem leftBy_of_ne {a : TypeId} (h : a ≠ void) : leftBy a = [a] := if_neg h

theorem leftBy_void : leftBy void = [] := if_pos rfl

namespace TypeTable

variable {t : TypeTable} {a : TypeId} {s : TypeShape}

theorem Sound.ne_void_of_shape? (ht : t.Sound) (h : t.shape? a = some s) (hs : s ≠ .void) :
    a ≠ void := by
  rintro rfl
  exact hs (Option.some.inj (h.symm.trans ht.shape?_void))

theorem Storable.ne_void (h : t.Storable a) (ht : t.Sound) : a ≠ void := by
  obtain ⟨s, hs, hne⟩ := h
  exact ht.ne_void_of_shape? hs hne

end TypeTable

namespace Bound

theorem BinaryOp.Types.of_isShort {t : TypeTable} {o : BinaryOp} {a b r : TypeId} (ht : t.Sound)
    (h : o.Types a b r) (hshort : Lower.isShort o (t.kind r) = true) :
    a = boolean ∧ b = boolean ∧ r = boolean := by
  simp only [Lower.isShort, Bool.and_eq_true, Bool.or_eq_true, decide_eq_true_eq] at hshort
  obtain ⟨ho, hk⟩ := hshort
  obtain rfl := ht.eq_boolean hk
  rcases ho with rfl | rfl
  all_goals
    rcases h with h | ⟨-, -, h⟩
    · exact h
    · exact absurd h (by decide)

theorem Passes.ne_void {t : TypeTable} {args : List Expr} {sig : Signature} {e : Expr}
    (h : Passes t args sig) (ht : t.Sound) (hsig : sig.Storable t) (he : e ∈ args) :
    e.type ≠ void := by
  obtain ⟨p, hp, hfits⟩ := forall₂_exists_mem h he
  exact hfits.ne_void ht (hsig.params p hp)

end Bound

theorem Native.Accepts.ne_void {t : TypeTable} {n : Native} {args : List Bound.Expr}
    {e : Bound.Expr} (h : n.Accepts t (args.map (·.type))) (ht : t.Sound) (he : e ∈ args) :
    e.type ≠ void := by
  obtain ⟨i, hi⟩ := List.mem_iff_getElem?.mp (List.mem_map_of_mem (f := (·.type)) he)
  exact (storable_of_accepts (h.kinds i _ hi)).ne_void ht

namespace Scene

open Lower

variable {S : Scene} {b b' : Builder} {c c' : Chart} {ctx : LowerContext} {x y : Lower Unit}
  {pre mid post : List TypeId}

/-! ## Expressions -/

/-- The right side of a short operator starts with the value of the left one, and drops it. Both ways
lead to the same block with one value. -/
theorem turns_short {o : Bound.BinaryOp} {left right : Bound.Expr} {type : TypeId} {sp : Span}
    (hshort : isShort o (ctx.types.kind type) = true)
    (hleft : S.Turns (expr ctx left) [] [boolean]) (hright : S.Turns (expr ctx right) [] [boolean]) :
    S.Turns (expr ctx (.binary o left right type sp)) [] [boolean] := by
  intro b b' c waiting ts h hb
  obtain ⟨b₁, b₂, h₁, h₂, rfl⟩ := expr_short hshort h
  obtain ⟨out, hout, hb⟩ := hb
  have hsize := hb.size
  have hb₀ := ((hb.addBlock (boolean :: ts)).addBlock (boolean :: ts)).perm (List.Perm.swap _ _ _)
  rw [Builder.size_addBlock] at hb₀
  have hle₀ : c.Le { c with labels := c.labels ++ [boolean :: ts] ++ [boolean :: ts] } :=
    ⟨.refl _, rfl, List.prefix_refl _, (List.prefix_append _ _).trans (List.prefix_append _ _)⟩
  obtain ⟨c₁, hle₁, hb₁⟩ := hleft h₁ ⟨out, hout, hb₀⟩
  obtain ⟨c₂, hle₂, out₂, hout₂, hb₂⟩ := hb₁.emit (i := ⟨.dup, 0, 0, sp.start⟩) (.dup rfl)
  have hle := hle₁.trans hle₂
  have hrest : c₂.labels[b.blocks.size]? = some (boolean :: ts) :=
    getElem?_of_listPrefix hle.labels (by simp [← hsize])
  have hdone : c₂.labels[b.blocks.size + 1]? = some (boolean :: ts) :=
    getElem?_of_listPrefix hle.labels (by simp [← hsize])
  have hb₃ : S.Charts ((b₁.emit ⟨.dup, 0, 0, sp.start⟩).emit
      (shortBranch o b.blocks.size (b.blocks.size + 1) sp.start)) c₂
        (b.blocks.size :: (b.blocks.size + 1) :: waiting) none := by
    unfold shortBranch
    split
    · exact hb₂.branch hout₂ hrest hdone
    · exact hb₂.branch hout₂ hdone hrest
  obtain ⟨c₃, hle₃, hb₄⟩ := Stacked.emit (i := ⟨.pop, 0, 0, sp.start⟩)
    ⟨_, rfl, hb₃.goTo rfl hrest⟩ (.pop rfl)
  obtain ⟨c₄, hle₄, out₅, hout₅, hb₅⟩ := hright h₂ hb₄
  have hdone' := getElem?_of_listPrefix (hle₃.trans hle₄).labels hdone
  refine ⟨c₄, ((hle₀.trans hle).trans hle₃).trans hle₄, _, rfl, (hb₅.jump ?_).goTo rfl hdone'⟩
  rw [hout₅]
  exact hdone'

theorem turns_args {es : List Bound.Expr} (h : ∀ e ∈ es, S.Turns (expr ctx e) [] [e.type]) :
    S.Turns (args ctx es) [] (es.map (·.type)).reverse := by
  induction es with
  | nil =>
    rw [args]
    exact turns_pure
  | cons e es ih =>
    have hrest := ih fun x hx => h x (List.mem_cons_of_mem _ hx)
    rw [args, List.map_cons, List.reverse_cons]
    exact (h e List.mem_cons_self).seq (hrest.above [e.type])

theorem turns_operand {e : Bound.Expr} (h : S.Turns (expr ctx e) [] (leftBy e.type))
    (hne : e.type ≠ void) : S.Turns (expr ctx e) [] [e.type] := leftBy_of_ne hne ▸ h

theorem turns_expr {e : Bound.Expr} (hctx : ctx.types = S.world.types) (ht : S.world.types.Plain)
    (he : e.Typed S.world S.slot) : S.Turns (expr ctx e) [] (leftBy e.type) := by
  have hint : integer ≠ void := by decide
  have hstored : ∀ {a : TypeId}, S.world.types.Storable a → leftBy a = [a] := fun h =>
    leftBy_of_ne (h.ne_void ht.toSound)
  induction he with
  | const hv =>
    rw [expr, Bound.Expr.type, hstored hv.storable]
    exact turns_constant hv
  | frameVar hn ha =>
    rw [expr, Bound.Expr.type, hstored ha]
    exact turns_loadLocal hn
  | unitVar hk ha =>
    rw [expr, Bound.Expr.type, hstored ha]
    exact turns_loadGlobal hk
  | @element x i a n sp _ _ hxt hit hx hi =>
    have hx := turns_operand hx (ht.ne_void_of_shape? hxt (by simp))
    have hi := turns_operand hi (hit ▸ hint)
    rw [hit] at hi
    rw [expr, Bound.Expr.type, hstored (storable_elem ht hxt)]
    exact hx.seq ((hi.above [x.type]).seq (turns_op fun _ _ => .loadElem rfl (.inl ⟨n, hxt⟩)))
  | @character x i sp _ _ hxt hit hx hi =>
    have hx := turns_operand hx (hxt ▸ by decide)
    have hi := turns_operand hi (hit ▸ hint)
    rw [hxt] at hx
    rw [hit] at hi
    rw [expr, Bound.Expr.type, leftBy_of_ne (by decide)]
    exact hx.seq ((hi.above [string]).seq (turns_op fun _ _ => .loadChar rfl))
  | @deref p a sp _ hpt hp =>
    have hp := turns_operand hp (ht.ne_void_of_shape? hpt (by simp))
    have hzero : S.Turns (constant (.int 0) sp) [] [integer] :=
      turns_constant (ht.has_integer.mpr ⟨0, rfl⟩)
    rw [expr, Bound.Expr.type, hstored (storable_pointee ht hpt)]
    exact hp.seq ((hzero.above [p.type]).seq (turns_op fun _ _ => .loadElem rfl (.inr hpt)))
  | @unary op x sp _ hop hx =>
    have hne : x.type ≠ void := by
      cases op <;> rcases hop with h | h <;> exact h ▸ by decide
    have hx := turns_operand hx hne
    rw [Bound.Expr.type, leftBy_of_ne hne]
    cases op with
    | neg =>
      rw [expr]
      exact hx.seq (turns_op fun _ _ => .neg rfl hop)
    | not =>
      rw [expr]
      exact hx.seq (turns_op fun _ _ => .not rfl hop)
  | @binary op l r a sp _ _ hlt hrt hop hl hr =>
    have hl := turns_operand hl hlt
    have hr := turns_operand hr hrt
    rw [Bound.Expr.type, hstored (hop.storable ht.toSound)]
    cases hshort : isShort op (ctx.types.kind a) with
    | true =>
      obtain ⟨hlb, hrb, rfl⟩ := hop.of_isShort ht.toSound (hctx ▸ hshort)
      exact turns_short hshort (hlb ▸ hl) (hrb ▸ hr)
    | false =>
      rw [expr, hshort, if_neg Bool.false_ne_true]
      exact hl.seq ((hr.above [l.type]).seq (turns_op fun _ _ => .binary rfl hop))
  | intToReal _ hxt hx =>
    have hx := turns_operand hx (hxt ▸ hint)
    rw [hxt] at hx
    rw [expr, Bound.Expr.type, leftBy_of_ne (by decide)]
    exact hx.seq (turns_op fun _ _ => .intToReal rfl)
  | charToString _ hxt hx =>
    have hx := turns_operand hx (hxt ▸ by decide)
    rw [hxt] at hx
    rw [expr, Bound.Expr.type, leftBy_of_ne (by decide)]
    exact hx.seq (turns_op fun _ _ => .charToString rfl)
  | @call ref sig args sp href hsig _ hpass hargs =>
    have hargs := turns_args fun e he => turns_operand (hargs e he) (hpass.ne_void ht.toSound hsig he)
    rw [expr, Bound.Expr.type]
    refine hargs.seq (turns_pooled (fun _ => widens_addCall _) fun _ _ _ hpool => ?_)
    exact .call rfl (hpool ▸ listed_addCall _) (by simp) href (List.forall₂_map_left_iff.mpr hpass)
  | @callNative n args sp _ hn hargs =>
    have hargs := turns_args fun e he => turns_operand (hargs e he) (hn.ne_void ht.toSound he)
    rw [expr, Bound.Expr.type]
    refine hargs.seq (turns_pooled (fun _ => widens_addNative _) fun _ _ _ hpool => ?_)
    exact .callNative rfl (hpool ▸ listed_addNative _) (by simp) hn
  | @callValue f sig args sp _ hft _ hpass hf hargs =>
    have hsig := storable_signature ht hft
    have hf := turns_operand hf (ht.ne_void_of_shape? hft (by simp))
    have hargs := turns_args fun e he => turns_operand (hargs e he) (hpass.ne_void ht.toSound hsig he)
    rw [expr, Bound.Expr.type]
    refine hf.seq ((hargs.above [f.type]).seq (turns_emit fun c ts _ => ?_))
    rw [List.append_assoc]
    exact .callIndirect rfl (by simp) hft (List.forall₂_map_left_iff.mpr hpass)
  | @newArray n elem a sp _ hnt ha hn =>
    have hn := turns_operand hn (hnt ▸ hint)
    rw [hnt] at hn
    rw [expr, Bound.Expr.type, leftBy_of_ne (ht.ne_void_of_shape? ha (by simp))]
    exact hn.seq (turns_elementShape hctx (storable_elem ht ha) fun _ _ _ _ hs he =>
      .newArray rfl hs he ha)
  | newCell ha =>
    rw [expr, Bound.Expr.type, leftBy_of_ne (ht.ne_void_of_shape? ha (by simp))]
    exact turns_elementShape hctx (storable_pointee ht ha) fun _ _ _ _ hs he =>
      .newCell rfl hs he ha
  | routine href ha =>
    rw [expr, Bound.Expr.type, leftBy_of_ne (ht.ne_void_of_shape? ha (by simp))]
    exact turns_pooled (fun _ => widens_addCall _) fun _ _ _ hpool =>
      .routine rfl (hpool ▸ listed_addCall _) href ha

/-! ## Statements -/

/-- Code that is run between statements and leaves no operands. -/
def Settles (S : Scene) (x : Lower Unit) : Prop :=
  ∀ ⦃b b' : Builder⦄ ⦃c : Chart⦄, x b = .ok ((), b') → S.Settled b c →
    ∃ c', c.Le c' ∧ S.Settled b' c'

theorem Turns.run (hx : S.Turns x [] post) (h : x b = .ok ((), b')) (hb : S.Settled b c) :
    ∃ c', c.Le c' ∧ S.Stacked b' c' [] post := by
  obtain ⟨c', hle, hb'⟩ := @hx b b' c [] [] h hb
  exact ⟨c', hle, by rwa [List.append_nil] at hb'⟩

theorem Turns.settles (hx : S.Turns x [] []) : S.Settles x := fun _ _ _ h hb => hx.run h hb

theorem Settles.seq (hx : S.Settles x) (hy : S.Settles y) : S.Settles (x >>= fun _ => y) := by
  intro b b' c h hb
  obtain ⟨_, b₁, h₁, h⟩ := bind_ok.mp h
  obtain ⟨c₁, hle₁, hb₁⟩ := hx h₁ hb
  obtain ⟨c', hle, hb'⟩ := hy h hb₁
  exact ⟨c', hle₁.trans hle, hb'⟩

theorem settles_inLoop {l : LoopTarget} (hx : S.Settles x) (h : inLoop l x b = .ok ((), b'))
    (hb : S.Settled b c) (hleave : c.labels[l.leave]? = some [])
    (hnext : c.labels[l.next]? = some []) : ∃ c', c.Le c' ∧ S.Settled b' c' := by
  obtain ⟨b₁, h₁, rfl⟩ := inLoop_ok.mp h
  obtain ⟨out, hout, hb⟩ := hb
  have hloops : ∀ l' ∈ l :: b.loops, c.labels[l'.leave]? = some [] ∧ c.labels[l'.next]? = some [] := by
    intro l' hl'
    rcases List.mem_cons.mp hl' with rfl | hl'
    · exact ⟨hleave, hnext⟩
    · exact hb.loops l' hl'
  obtain ⟨c', hle, out', hout', hb'⟩ := hx h₁ ⟨out, hout, hb.withLoops hloops⟩
  exact ⟨c', hle, out', hout', hb'.withLoops fun l' hl' => hb'.loops l' (List.mem_of_mem_tail hl')⟩

theorem settles_exit {sp : Span} (hctx : ctx.hasResult = S.returns) : S.Settles (ret ctx sp) := by
  intro b b' c h hb
  rw [ret_eq] at h
  cases h
  obtain ⟨out, hout, hb⟩ := hb
  have hflows : ∀ {c' : Chart} {us : List TypeId} {is : Array Instr}, c.Le c' →
      c'.Flows S.world us is (some (out.getD [])) →
      c'.Flows S.world us (is.push ⟨.ret, if ctx.hasResult then 1 else 0, 0, sp.start⟩) none := by
    intro c' us is hle hflow
    rw [hout] at hflow
    exact hflow.close (.ret rfl (by rw [hctx, ← hb.returns, hle.returns]))
  obtain ⟨c', hle, hb'⟩ := hb.emit hflows
  exact ⟨c', hle, none, rfl, hb'⟩

/-- A jump to the place of the innermost loop that `break` or `continue` leads to. -/
theorem settles_innermost {place : LoopTarget → Nat} {sp : Span}
    (hplace : ∀ {labels : List (List TypeId)} {l : LoopTarget}, labels[l.leave]? = some [] →
      labels[l.next]? = some [] → labels[place l]? = some []) :
    S.Settles (innermost ctx >>= fun l => jump (place l) sp) := by
  intro b b' c h hb
  obtain ⟨l, b₁, h₁, h⟩ := bind_ok.mp h
  obtain ⟨rfl, ls, hls⟩ := innermost_ok.mp h₁
  rw [jump_eq] at h
  cases h
  obtain ⟨hleave, hnext⟩ : c.labels[l.leave]? = some [] ∧ c.labels[l.next]? = some [] := by
    obtain ⟨out, -, hb⟩ := hb
    exact hb.loops l (by simp [hls])
  exact ⟨c, .refl c, hb.jump (hplace hleave hnext)⟩

theorem turns_assign {target value : Bound.Expr} (hctx : ctx.types = S.world.types)
    (ht : S.world.types.Plain) (htarget : target.Typed S.world S.slot)
    (hvalue : value.Typed S.world S.slot) (hplace : Bound.Bind.isAddressable target = true)
    (hfits : S.world.types.Fits value.type target.type) :
    S.Turns (assign ctx value target) [] [] := by
  have hvalue := turns_expr hctx ht hvalue
  have hstore : S.world.types.Storable target.type → S.Turns (expr ctx value) [] [value.type] :=
    fun hs => turns_operand hvalue (hfits.ne_void ht.toSound hs)
  cases htarget with
  | frameVar hn ha =>
    rw [assign]
    exact (hstore ha).seq (turns_storeLocal hn hfits)
  | unitVar hk ha =>
    rw [assign]
    exact (hstore ha).seq (turns_storeGlobal hk hfits)
  | @element x i a n sp hx hi hxt hit =>
    have hx := turns_operand (turns_expr hctx ht hx) (ht.ne_void_of_shape? hxt (by simp))
    have hi := turns_operand (turns_expr hctx ht hi) (hit ▸ by decide)
    rw [hit] at hi
    have hvalue := hstore (storable_elem ht hxt)
    rw [assign]
    exact hx.seq ((hi.above [x.type]).seq ((hvalue.above [integer, x.type]).seq
      (turns_op fun _ _ => .storeElem rfl (.inl ⟨n, hxt⟩) hfits)))
  | @deref p a sp hp hpt =>
    have hp := turns_operand (turns_expr hctx ht hp) (ht.ne_void_of_shape? hpt (by simp))
    have hzero : S.Turns (constant (.int 0) sp) [] [integer] :=
      turns_constant (ht.has_integer.mpr ⟨0, rfl⟩)
    have hvalue := hstore (storable_pointee ht hpt)
    rw [assign]
    exact hp.seq ((hzero.above [p.type]).seq ((hvalue.above [integer, p.type]).seq
      (turns_op fun _ _ => .storeElem rfl (.inr hpt) hfits)))
  | _ => cases hplace

theorem turns_storeVar {x : Bound.Expr} {a : TypeId} (hx : x.Typed S.world S.slot)
    (hfits : S.world.types.Fits a x.type) : S.Turns (storeVar ctx x) [a] [] := by
  cases hx with
  | frameVar hn ha =>
    rw [storeVar]
    exact turns_storeLocal hn hfits
  | unitVar hk ha =>
    rw [storeVar]
    exact turns_storeGlobal hk hfits
  | _ =>
    intro b b' c waiting ts h
    cases h

theorem settles_call {e : Bound.Expr} {sp : Span} (hctx : ctx.types = S.world.types)
    (ht : S.world.types.Plain) (he : e.Typed S.world S.slot) :
    S.Settles (stmt ctx (.expr e sp)) := by
  have hturns := turns_expr hctx ht he
  rw [stmt, hctx]
  by_cases hvoid : e.type = void
  · rw [hvoid, leftBy_void] at hturns
    refine (hturns.seq ?_).settles
    rw [if_neg (by simp [hvoid, kind_of_shape? ht.shape?_void, TypeShape.kind])]
    exact turns_pure
  · obtain ⟨s, hs, hne⟩ := he.storable ht hvoid
    refine ((turns_operand hturns hvoid).seq ?_).settles
    have hkind : S.world.types.kind e.type ≠ .void ∧ S.world.types.kind e.type ≠ .invalid := by
      rw [kind_of_shape? hs]
      cases s with
      | void => exact absurd rfl hne
      | routine sig => by_cases hr : sig.result = 0 <;> simp [TypeShape.kind, hr]
      | _ => simp [TypeShape.kind]
    rw [if_pos (by simpa using hkind)]
    exact turns_op fun _ _ => .pop rfl

theorem settles_if {cond : Bound.Expr} {yes no : List Bound.Stmt} {sp : Span}
    (hcond : S.Turns (expr ctx cond) [] [boolean]) (hyes : S.Settles (stmts ctx yes))
    (hno : S.Settles (stmts ctx no)) : S.Settles (stmt ctx (.ifElse cond yes no sp)) := by
  intro b b' c h hb
  by_cases hempty : no = []
  · subst hempty
    obtain ⟨b₁, b₂, h₁, h₂, rfl⟩ := Target.stmt_if h
    obtain ⟨c₀, hle₀, hb₀, hlabels⟩ := hb.addBlocks 2
    obtain ⟨c₁, hle₁, hb₁⟩ := hcond.run h₁ hb₀
    have hlabels : ∀ j < 2, c₁.labels[b.blocks.size + j]? = some [] := fun j hj =>
      getElem?_of_listPrefix hle₁.labels (hlabels j hj)
    have hthen := hlabels 0 (by omega)
    have hdone := hlabels 1 (by omega)
    obtain ⟨c₂, hle₂, hb₂⟩ := hyes h₂ ((hb₁.branch hthen hdone).goTo hthen)
    have hdone := getElem?_of_listPrefix hle₂.labels hdone
    exact ⟨c₂, (hle₀.trans hle₁).trans hle₂, (hb₂.jump hdone).goTo hdone⟩
  · obtain ⟨b₁, b₂, b₃, h₁, h₂, h₃, rfl⟩ := Target.stmt_ifElse hempty h
    obtain ⟨c₀, hle₀, hb₀, hlabels⟩ := hb.addBlocks 3
    obtain ⟨c₁, hle₁, hb₁⟩ := hcond.run h₁ hb₀
    have hlabels : ∀ j < 3, c₁.labels[b.blocks.size + j]? = some [] := fun j hj =>
      getElem?_of_listPrefix hle₁.labels (hlabels j hj)
    have hthen := hlabels 0 (by omega)
    have hdone := hlabels 1 (by omega)
    have helse := hlabels 2 (by omega)
    obtain ⟨c₂, hle₂, hb₂⟩ := hyes h₂ ((hb₁.branch hthen helse).goTo hthen)
    have hdone := getElem?_of_listPrefix hle₂.labels hdone
    have helse := getElem?_of_listPrefix hle₂.labels helse
    obtain ⟨c₃, hle₃, hb₃⟩ := hno h₃ ((hb₂.jump hdone).goTo helse)
    have hdone := getElem?_of_listPrefix hle₃.labels hdone
    exact ⟨c₃, ((hle₀.trans hle₁).trans hle₂).trans hle₃, (hb₃.jump hdone).goTo hdone⟩

theorem settles_while {cond : Bound.Expr} {body : List Bound.Stmt} {sp : Span}
    (hcond : S.Turns (expr ctx cond) [] [boolean]) (hbody : S.Settles (stmts ctx body)) :
    S.Settles (stmt ctx (.whileDo cond body sp)) := by
  intro b b' c h hb
  obtain ⟨b₁, b₂, h₁, h₂, rfl⟩ := Target.stmt_whileDo h
  obtain ⟨c₀, hle₀, hb₀, hlabels⟩ := hb.addBlocks 3
  have htest := hlabels 0 (by omega)
  obtain ⟨c₁, hle₁, hb₁⟩ := hcond.run h₁ ((hb₀.jump htest).goTo htest)
  have hlabels : ∀ j < 3, c₁.labels[b.blocks.size + j]? = some [] := fun j hj =>
    getElem?_of_listPrefix hle₁.labels (hlabels j hj)
  have htest := hlabels 0 (by omega)
  have hstart := hlabels 1 (by omega)
  have hleave := hlabels 2 (by omega)
  obtain ⟨c₂, hle₂, hb₂⟩ :=
    settles_inLoop hbody h₂ ((hb₁.branch hstart hleave).goTo hstart) hleave htest
  have htest := getElem?_of_listPrefix hle₂.labels htest
  have hleave := getElem?_of_listPrefix hle₂.labels hleave
  exact ⟨c₂, (hle₀.trans hle₁).trans hle₂, (hb₂.jump htest).goTo hleave⟩

theorem settles_repeat {cond : Bound.Expr} {body : List Bound.Stmt} {sp : Span}
    (hcond : S.Turns (expr ctx cond) [] [boolean]) (hbody : S.Settles (stmts ctx body)) :
    S.Settles (stmt ctx (.repeatUntil body cond sp)) := by
  intro b b' c h hb
  obtain ⟨b₁, b₂, h₁, h₂, rfl⟩ := Target.stmt_repeatUntil h
  obtain ⟨c₀, hle₀, hb₀, hlabels⟩ := hb.addBlocks 3
  have hstart := hlabels 0 (by omega)
  obtain ⟨c₁, hle₁, hb₁⟩ := settles_inLoop hbody h₁ ((hb₀.jump hstart).goTo hstart)
    (hlabels 2 (by omega)) (hlabels 1 (by omega))
  have htest := getElem?_of_listPrefix hle₁.labels (hlabels 1 (by omega))
  obtain ⟨c₂, hle₂, hb₂⟩ := hcond.run h₂ ((hb₁.jump htest).goTo htest)
  have hlabels : ∀ j < 3, c₂.labels[b.blocks.size + j]? = some [] := fun j hj =>
    getElem?_of_listPrefix (hle₁.trans hle₂).labels (hlabels j hj)
  have hleave := hlabels 2 (by omega)
  exact ⟨c₂, hle₀.trans (hle₁.trans hle₂), (hb₂.branch hleave (hlabels 0 (by omega))).goTo hleave⟩

theorem settles_forControl {var : Bound.Expr} {limit yes no : Nat} {o : Bound.BinaryOp} {a : TypeId}
    {sp : Span} (hvar : S.Turns (expr ctx var) [] [var.type]) (ho : o.Types var.type a boolean)
    (h : forControl ctx var limit (binaryOp o) yes no sp b = .ok ((), b')) (hb : S.Settled b c)
    (hlimit : c.slots[limit]? = some a) (hyes : c.labels[yes]? = some [])
    (hno : c.labels[no]? = some []) : ∃ c', c.Le c' ∧ S.Settled b' c' := by
  unfold forControl at h
  obtain ⟨_, b₁, h₁, h⟩ := bind_ok.mp h
  rw [bind_eq (emit_eq _ _ _ _ _), bind_eq (op_eq _ _ _), branch_eq] at h
  obtain rfl := ok_inj h
  obtain ⟨c₁, hle₁, hb₁⟩ := hvar.run h₁ hb
  obtain ⟨c₂, hle₂, hb₂⟩ := hb₁.emit (i := ⟨.loadLocal, limit, 0, sp.start⟩)
    (.loadLocal rfl (listed_ofNat.mpr (getElem?_of_listPrefix hle₁.slots hlimit)))
  obtain ⟨c₃, hle₃, hb₃⟩ := hb₂.emit (i := ⟨binaryOp o, 0, 0, sp.start⟩) (.binary rfl ho)
  have hle := (hle₁.trans hle₂).trans hle₃
  exact ⟨c₃, hle, hb₃.branch (getElem?_of_listPrefix hle.labels hyes)
    (getElem?_of_listPrefix hle.labels hno)⟩

theorem settles_forRest {var : Bound.Expr} {limit : Nat} {down : Bool} {body : List Bound.Stmt}
    {sp : Span} {a : TypeId} (hvar : S.Turns (expr ctx var) [] [var.type])
    (hstore : S.Turns (storeVar ctx var) [var.type] []) (hord : Bound.Ordinal var.type)
    (hbody : S.Settles (stmts ctx body))
    (h : Target.forRest ctx var limit down body sp b = .ok ((), b')) (hb : S.Settled b c)
    (hlimit : c.slots[limit]? = some a) : ∃ c', c.Le c' ∧ S.Settled b' c' := by
  obtain ⟨b₁, b₂, b₃, b₄, b₅, h₁, h₂, h₃, h₄, h₅, rfl⟩ := Target.forRest_ok h
  obtain ⟨o, ho, hcmp⟩ : ∃ o : Bound.BinaryOp, o.Types var.type a boolean ∧
      (if down then Op.ge else Op.le) = binaryOp o := by
    cases down
    · exact ⟨.le, rfl, rfl⟩
    · exact ⟨.ge, rfl, rfl⟩
  have hcount : S.Turns (op (if down then .pred else .succ) sp) [var.type] [var.type] :=
    turns_op fun _ _ => .count (by cases down <;> simp) hord
  rw [hcmp] at h₁
  obtain ⟨c₀, hle₀, hb₀, hlabels⟩ := hb.addBlocks 5
  have htest := hlabels 0 (by omega)
  have hlimit₀ := getElem?_of_listPrefix hle₀.slots hlimit
  obtain ⟨c₁, hle₁, hb₁⟩ := settles_forControl hvar ho h₁ ((hb₀.jump htest).goTo htest) hlimit₀
    (hlabels 1 (by omega)) (hlabels 4 (by omega))
  have hlabels : ∀ j < 5, c₁.labels[b.blocks.size + j]? = some [] := fun j hj =>
    getElem?_of_listPrefix hle₁.labels (hlabels j hj)
  obtain ⟨c₂, hle₂, hb₂⟩ := settles_inLoop hbody h₂ (hb₁.goTo (hlabels 1 (by omega)))
    (hlabels 4 (by omega)) (hlabels 2 (by omega))
  have hlabels : ∀ j < 5, c₂.labels[b.blocks.size + j]? = some [] := fun j hj =>
    getElem?_of_listPrefix hle₂.labels (hlabels j hj)
  have hnext := hlabels 2 (by omega)
  obtain ⟨c₃, hle₃, hb₃⟩ := settles_forControl (o := .eq) (a := a) hvar rfl h₃
    ((hb₂.jump hnext).goTo hnext) (getElem?_of_listPrefix (hle₁.trans hle₂).slots hlimit₀)
    (hlabels 4 (by omega)) (hlabels 3 (by omega))
  have hlabels : ∀ j < 5, c₃.labels[b.blocks.size + j]? = some [] := fun j hj =>
    getElem?_of_listPrefix hle₃.labels (hlabels j hj)
  have hcounted : (expr ctx var >>= fun _ => op (if down then .pred else .succ) sp >>= fun _ =>
      storeVar ctx var) (b₃.goTo (b.blocks.size + 3)) = .ok ((), b₅) := by
    rw [bind_eq h₄, bind_eq (op_eq _ _ _), h₅]
  obtain ⟨c₄, hle₄, hb₄⟩ :=
    (hvar.seq (hcount.seq hstore)).settles hcounted (hb₃.goTo (hlabels 3 (by omega)))
  have hlabels : ∀ j < 5, c₄.labels[b.blocks.size + j]? = some [] := fun j hj =>
    getElem?_of_listPrefix hle₄.labels (hlabels j hj)
  exact ⟨c₄, (((hle₀.trans hle₁).trans hle₂).trans hle₃).trans hle₄,
    (hb₄.jump (hlabels 1 (by omega))).goTo (hlabels 4 (by omega))⟩

theorem Settled.addLocal {a : TypeId} {shape : Shape} (hb : S.Settled b c)
    (ha : S.world.types.Stored a shape) :
    ∃ c', c.Le c' ∧ S.Settled (b.addLocal shape) c' ∧ c'.slots[b.locals.size]? = some a := by
  obtain ⟨out, hout, hb⟩ := hb
  have hlength : c.slots.length = b.locals.size := by
    rw [hb.slots.length_eq, Array.length_toList]
  refine ⟨{ c with slots := c.slots ++ [a] },
    ⟨.refl _, rfl, List.prefix_append _ _, List.prefix_refl _⟩, ⟨out, hout, hb.addLocal ha⟩, ?_⟩
  simp [← hlength]

theorem Stacked.storeLocal {n : Nat} {a : TypeId} (hb : S.Stacked b c [] [a])
    (hn : c.slots[n]? = some a) (ha : S.world.types.Storable a) (pos : Nat) :
    ∃ c', c.Le c' ∧ S.Settled (b.emit ⟨.storeLocal, n, 0, pos⟩) c' :=
  hb.emit (.storeLocal rfl (listed_ofNat.mpr hn) ha.fits)

theorem settles_for {var first last : Bound.Expr} {down : Bool} {body : List Bound.Stmt} {sp : Span}
    (hctx : ctx.types = S.world.types) (ht : S.world.types.Plain) (hvar : var.Typed S.world S.slot)
    (hord : Bound.Ordinal var.type) (hfirst : first.Typed S.world S.slot)
    (hft : first.type = var.type) (hlast : last.Typed S.world S.slot) (hlt : last.type = var.type)
    (hbody : S.Settles (stmts ctx body)) :
    S.Settles (stmt ctx (.forTo var first last down body sp)) := by
  intro b b' c h hb
  obtain ⟨b₁, b₂, b₃, shape, hshape, h₁, h₂, h₃, h⟩ := Target.stmt_forTo h
  have hstorable := Bound.Ordinal.storable ht.toSound hord
  have hnv : var.type ≠ void := hstorable.ne_void ht.toSound
  have hfirst := turns_operand (turns_expr hctx ht hfirst) (hft ▸ hnv)
  have hlast := turns_operand (turns_expr hctx ht hlast) (hlt ▸ hnv)
  have hstore : S.Turns (storeVar ctx var) [var.type] [] := turns_storeVar hvar hstorable.fits
  have hvar := turns_operand (turns_expr hctx ht hvar) hnv
  rw [hft] at hfirst
  rw [hlt] at hlast
  obtain ⟨c₂, hle₂, hb₂⟩ := (hfirst.seq hstore).settles (bind_ok.mpr ⟨(), b₁, h₁, h₂⟩) hb
  obtain ⟨c₃, hle₃, hb₃, hlimit⟩ := hb₂.addLocal (hstorable.stored (hctx ▸ hshape))
  obtain ⟨c₄, hle₄, hb₄⟩ := hlast.run h₃ hb₃
  have hlimit := getElem?_of_listPrefix hle₄.slots hlimit
  obtain ⟨c₅, hle₅, hb₅⟩ := hb₄.storeLocal hlimit hstorable last.span.start
  have hlimit := getElem?_of_listPrefix hle₅.slots hlimit
  obtain ⟨c', hle, hb'⟩ := settles_forRest hvar hstore hord hbody h hb₅ hlimit
  exact ⟨c', (((hle₂.trans hle₃).trans hle₄).trans hle₅).trans hle, hb'⟩

/-! ### Cases -/

theorem settles_labels {subject arm : Nat} {a : TypeId} {sp : Span} {vs : List Value}
    (hvs : ∀ v ∈ vs, ∃ a, S.world.types.Has .none a v)
    (h : testLabels subject arm sp vs b = .ok ((), b')) (hb : S.Settled b c)
    (hsubject : c.slots[subject]? = some a) (harm : c.labels[arm]? = some []) :
    ∃ c', c.Le c' ∧ S.Settled b' c' := by
  induction vs generalizing b c with
  | nil =>
    obtain ⟨-, rfl⟩ := pure_ok.mp h
    exact ⟨c, .refl c, hb⟩
  | cons v vs ih =>
    obtain ⟨e, hv⟩ := hvs v List.mem_cons_self
    obtain ⟨b₁, h₁, h⟩ := Target.testLabels_cons h
    unfold Target.testLabel at h₁
    rw [bind_eq (emit_eq _ _ _ _ _)] at h₁
    obtain ⟨c₀, hle₀, hb₀, hlabels⟩ := hb.addBlocks 1
    obtain ⟨c₁, hle₁, hb₁⟩ := Stacked.emit (i := ⟨.loadLocal, subject, 0, sp.start⟩) hb₀
      (.loadLocal rfl (listed_ofNat.mpr (getElem?_of_listPrefix hle₀.slots hsubject)))
    have htest : S.Turns (constant v sp >>= fun _ => op .eq sp) [a] [boolean] :=
      ((turns_constant hv).above [a]).seq (turns_op fun _ _ => .binary (o := .eq) rfl rfl)
    obtain ⟨c₂, hle₂, hb₂⟩ := @htest _ _ _ _ [] h₁ hb₁
    have hle := hle₁.trans hle₂
    have hnext := getElem?_of_listPrefix hle.labels (hlabels 0 (by omega))
    have hle := hle₀.trans hle
    have harm := getElem?_of_listPrefix hle.labels harm
    obtain ⟨c', hle', hb'⟩ := ih (fun w hw => hvs w (List.mem_cons_of_mem _ hw)) h
      ((hb₂.branch harm hnext).goTo hnext) (getElem?_of_listPrefix hle.slots hsubject) harm
    exact ⟨c', hle.trans hle', hb'⟩

theorem settles_arms {subject : Nat} {a : TypeId} {sp : Span} {arms : List Bound.CaseArm}
    {blocks : List Nat}
    (harms : ∀ labels body, .arm labels body ∈ arms → ∀ v ∈ labels, ∃ a, S.world.types.Has .none a v)
    (h : testArms subject sp arms blocks b = .ok ((), b')) (hb : S.Settled b c)
    (hsubject : c.slots[subject]? = some a) (hblocks : ∀ k ∈ blocks, c.labels[k]? = some []) :
    ∃ c', c.Le c' ∧ S.Settled b' c' := by
  induction arms generalizing b c blocks with
  | nil =>
    rw [testArms] at h
    · obtain ⟨-, rfl⟩ := pure_ok.mp h
      exact ⟨c, .refl c, hb⟩
    · simp
  | cons arm arms ih =>
    obtain ⟨vs, body⟩ := arm
    cases blocks with
    | nil =>
      rw [testArms] at h
      · obtain ⟨-, rfl⟩ := pure_ok.mp h
        exact ⟨c, .refl c, hb⟩
      · simp
    | cons k ks =>
      rw [testArms] at h
      obtain ⟨_, b₁, h₁, h⟩ := bind_ok.mp h
      obtain ⟨c₁, hle₁, hb₁⟩ := settles_labels (harms vs body List.mem_cons_self) h₁ hb hsubject
        (hblocks k List.mem_cons_self)
      obtain ⟨c', hle, hb'⟩ := ih
        (fun labels body hmem => harms labels body (List.mem_cons_of_mem _ hmem)) h hb₁
        (getElem?_of_listPrefix hle₁.slots hsubject) fun k' hk' =>
          getElem?_of_listPrefix hle₁.labels (hblocks k' (List.mem_cons_of_mem _ hk'))
      exact ⟨c', hle₁.trans hle, hb'⟩

/-- The bodies of arms go to their blocks. -/
def SettlesArms (S : Scene) (ctx : LowerContext) (arms : List Bound.CaseArm) : Prop :=
  ∀ ⦃b b' : Builder⦄ ⦃c : Chart⦄ ⦃blocks : List Nat⦄ ⦃done : Nat⦄ ⦃sp : Span⦄,
    armBodies ctx done sp arms blocks b = .ok ((), b') → S.Settled b c →
      (∀ k ∈ done :: blocks, c.labels[k]? = some []) → ∃ c', c.Le c' ∧ S.Settled b' c'

theorem settlesArms_nil : S.SettlesArms ctx [] := by
  intro b b' c blocks done sp h hb _
  rw [armBodies] at h
  · obtain ⟨-, rfl⟩ := pure_ok.mp h
    exact ⟨c, .refl c, hb⟩
  · simp

theorem settlesArms_cons {vs : List Value} {body : List Bound.Stmt} {arms : List Bound.CaseArm}
    (hbody : S.Settles (stmts ctx body)) (harms : S.SettlesArms ctx arms) :
    S.SettlesArms ctx (.arm vs body :: arms) := by
  intro b b' c blocks done sp h hb hlabels
  cases blocks with
  | nil =>
    rw [armBodies] at h
    · obtain ⟨-, rfl⟩ := pure_ok.mp h
      exact ⟨c, .refl c, hb⟩
    · simp
  | cons k ks =>
    rw [armBodies, bind_eq (goTo_eq _ _)] at h
    obtain ⟨_, b₁, h₁, h⟩ := bind_ok.mp h
    rw [bind_eq (jump_eq _ _ _)] at h
    obtain ⟨c₁, hle₁, hb₁⟩ := hbody h₁ (hb.goTo (hlabels k (by simp)))
    have hlabels : ∀ k' ∈ done :: ks, c₁.labels[k']? = some [] := by
      intro k' hk'
      refine getElem?_of_listPrefix hle₁.labels (hlabels k' ?_)
      rcases List.mem_cons.mp hk' with rfl | hk'
      · exact List.mem_cons_self
      · exact List.mem_cons_of_mem _ (List.mem_cons_of_mem _ hk')
    obtain ⟨c', hle, hb'⟩ := harms h (hb₁.jump (hlabels done List.mem_cons_self)) hlabels
    exact ⟨c', hle₁.trans hle, hb'⟩

theorem settles_case {subject : Bound.Expr} {arms : List Bound.CaseArm} {otherwise : List Bound.Stmt}
    {sp : Span} (hctx : ctx.types = S.world.types)
    (hsubject : S.Turns (expr ctx subject) [] [subject.type])
    (hstorable : S.world.types.Storable subject.type)
    (hvalues : ∀ labels body, .arm labels body ∈ arms → ∀ v ∈ labels,
      ∃ a, S.world.types.Has .none a v)
    (harms : S.SettlesArms ctx arms) (hotherwise : S.Settles (stmts ctx otherwise)) :
    S.Settles (stmt ctx (.caseOf subject arms otherwise sp)) := by
  intro b b' c h hb
  obtain ⟨shape, b₁, b₂, b₃, b₄, b₅, hshape, h₁, rfl, h₃, h₄, h₅, rfl⟩ := Target.stmt_caseOf h
  obtain ⟨c₀, hle₀, hb₀, hslot⟩ := hb.addLocal (hstorable.stored (hctx ▸ hshape))
  obtain ⟨c₁, hle₁, hb₁⟩ := hsubject.run h₁ hb₀
  have hslot := getElem?_of_listPrefix hle₁.slots hslot
  obtain ⟨c₂, hle₂, hb₂⟩ := hb₁.storeLocal hslot hstorable subject.span.start
  have hslot := getElem?_of_listPrefix hle₂.slots hslot
  generalize b₁.emit ⟨.storeLocal, b.locals.size, 0, subject.span.start⟩ = b₂ at h₃ h₄ h₅ hb₂ ⊢
  obtain ⟨c₃, hle₃, hb₃, hlabels⟩ := hb₂.addBlocks (arms.length + 1)
  have hlabels : ∀ k ∈ b₂.blocks.size :: List.range' (b₂.blocks.size + 1) arms.length,
      c₃.labels[k]? = some [] := by
    intro k hk
    rw [← List.range'_succ, List.mem_range'] at hk
    obtain ⟨j, hj, rfl⟩ := hk
    rw [Nat.one_mul]
    exact hlabels j hj
  obtain ⟨c₄, hle₄, hb₄⟩ := settles_arms hvalues h₃ hb₃ (getElem?_of_listPrefix hle₃.slots hslot)
    fun k hk => hlabels k (List.mem_cons_of_mem _ hk)
  obtain ⟨c₅, hle₅, hb₅⟩ := hotherwise h₄ hb₄
  have hlabels : ∀ k ∈ b₂.blocks.size :: List.range' (b₂.blocks.size + 1) arms.length,
      c₅.labels[k]? = some [] := fun k hk =>
    getElem?_of_listPrefix (hle₄.trans hle₅).labels (hlabels k hk)
  have hdone := hlabels _ List.mem_cons_self
  obtain ⟨c₆, hle₆, hb₆⟩ := harms h₅ (hb₅.jump hdone) hlabels
  refine ⟨c₆, ?_, hb₆.goTo (getElem?_of_listPrefix hle₆.labels hdone)⟩
  exact (((((hle₀.trans hle₁).trans hle₂).trans hle₃).trans hle₄).trans hle₅).trans hle₆

/-! ## Bodies -/

mutual

theorem settles_stmt (hctx : ctx.types = S.world.types) (hresult : ctx.hasResult = S.returns)
    (ht : S.world.types.Plain) (s : Bound.Stmt) (hs : s.Typed S.world S.slot) :
    S.Settles (stmt ctx s) := by
  have hboolean : ∀ {e : Bound.Expr}, e.Typed S.world S.slot → e.type = boolean →
      S.Turns (expr ctx e) [] [boolean] := fun he hb => by
    have := turns_operand (turns_expr hctx ht he) (hb ▸ by decide)
    rwa [hb] at this
  match s, hs with
  | .assign x v sp, .assign hx hv hplace hfits =>
    rw [stmt]
    exact (turns_assign hctx ht hx hv hplace hfits).settles
  | .expr e sp, .expr he => exact settles_call hctx ht he
  | .ifElse cond yes no sp, .ifElse hc hct hyes hno =>
    exact settles_if (hboolean hc hct) (settles_stmts hctx hresult ht yes hyes)
      (settles_stmts hctx hresult ht no hno)
  | .whileDo cond body sp, .whileDo hc hct hbody =>
    exact settles_while (hboolean hc hct) (settles_stmts hctx hresult ht body hbody)
  | .repeatUntil body cond sp, .repeatUntil hc hct hbody =>
    exact settles_repeat (hboolean hc hct) (settles_stmts hctx hresult ht body hbody)
  | .forTo x first last down body sp, .forTo hx hxt hfirst hft hlast hlt hbody =>
    exact settles_for hctx ht hx hxt hfirst hft hlast hlt (settles_stmts hctx hresult ht body hbody)
  | .caseOf e arms otherwise sp, .caseOf he het hlabels harms hotherwise =>
    have hstorable := Bound.Ordinal.storable ht.toSound het
    have hsubject := turns_operand (turns_expr hctx ht he) (hstorable.ne_void ht.toSound)
    exact settles_case hctx hsubject hstorable hlabels (settlesArms hctx hresult ht arms harms)
      (settles_stmts hctx hresult ht otherwise hotherwise)
  | .exit sp, .exit =>
    rw [stmt]
    exact settles_exit hresult
  | .break sp, .break =>
    rw [stmt]
    exact settles_innermost fun hleave _ => hleave
  | .continue sp, .continue =>
    rw [stmt]
    exact settles_innermost fun _ hnext => hnext

theorem settles_stmts (hctx : ctx.types = S.world.types) (hresult : ctx.hasResult = S.returns)
    (ht : S.world.types.Plain) (ss : List Bound.Stmt)
    (hss : ∀ s ∈ ss, s.Typed S.world S.slot) : S.Settles (stmts ctx ss) := by
  match ss with
  | [] =>
    rw [stmts]
    exact turns_pure.settles
  | s :: ss =>
    rw [stmts]
    exact (settles_stmt hctx hresult ht s (hss s List.mem_cons_self)).seq
      (settles_stmts hctx hresult ht ss fun s' hs' => hss s' (List.mem_cons_of_mem _ hs'))

theorem settlesArms (hctx : ctx.types = S.world.types) (hresult : ctx.hasResult = S.returns)
    (ht : S.world.types.Plain) (arms : List Bound.CaseArm)
    (harms : ∀ labels body, .arm labels body ∈ arms → ∀ s ∈ body, s.Typed S.world S.slot) :
    S.SettlesArms ctx arms := by
  match arms with
  | [] => exact settlesArms_nil
  | .arm vs body :: arms =>
    exact settlesArms_cons (settles_stmts hctx hresult ht body (harms vs body List.mem_cons_self))
      (settlesArms hctx hresult ht arms fun labels body hmem =>
        harms labels body (List.mem_cons_of_mem _ hmem))

end

end Scene

end Pascaline
