import Pascaline.Bound.Statement
import Pascaline.Proofs.Binding.Expressions

/-!
# Statements

The statements of a body hold expressions that fit the environment, and no others.
-/

namespace Pascaline.Bound.Bind

open TypeTable

variable {E : Env} {s : Session} {t t' : TypeTable} {α : Type} {Q : TypeTable → α → Prop}

/-! ## Headers and values -/

/-- The signature is made of known classes, with a parameter for each name. -/
def SignatureFits (E : Env) (params : List Tree.Param) (t : TypeTable) (sig : Signature) : Prop :=
  sig.Within t E.known ∧ sig.params.length = (params.flatMap (·.names)).length

theorem signature_yields (hs : Fits E s) (params : List Tree.Param)
    (result : Option Tree.TypeExpr) :
    Yields E s (signature params result) (IfSome (SignatureFits E params)) := by
  unfold signature
  refine (paramTypes_yields hs params).bind fun ps? s₁ hs₁ hle₁ hps => ?_
  cases result with
  | none =>
    refine .read rfl ?_
    dsimp only
    split
    · rename_i ps r hr
      cases hr
      exact .some hs₁ ⟨⟨(hps ps rfl).1, fun h => absurd rfl h⟩, (hps ps rfl).2⟩
    · exact .none hs₁
  | some r =>
    refine (typeExpr_yields hs₁ r).bind fun r? s₂ hs₂ hle₂ hr => ?_
    dsimp only
    split
    · rename_i ps r
      obtain ⟨hwithin, hlength⟩ := hps ps rfl
      exact .some hs₂ ⟨⟨fun p hp => (hwithin p hp).mono hle₂.grows, fun _ => hr r rfl⟩, hlength⟩
    · exact .none hs₂

theorem operand_yields (hs : Fits E s) (e : Tree.Expr) :
    Yields E s (operand e) (IfSome (Expr.Fits E)) := by
  unfold operand
  refine (expr_yields hs 0 e).bind fun e? s₁ hs₁ _ he => ?_
  exact asOperand_yields hs₁ he e.span

theorem constant_yields (hs : Fits E s) (e : Tree.Expr) (want : TypeId) :
    Yields E s (constant e want) (IfSome (Expr.Fits E)) := by
  unfold constant
  refine (constantly_yields (expr_yields (hs.constant true) want e)).bind
    fun e? s₁ hs₁ _ he => ?_
  exact asConstant_yields hs₁ he e.span

/-! ## Parts of statements -/

theorem resultTarget?_yields (hs : Fits E s) (e : Tree.Expr) :
    Yields E s (resultTarget? e) (IfSome (Expr.Fits E)) := by
  unfold resultTarget?
  split
  · refine .read rfl ?_
    split
    · rename_i f hf
      split
      · rename_i slot hslot
        refine .read rfl ?_
        split
        · obtain ⟨hplace, htype⟩ := (hs.frame f hf).result slot hslot
          exact .some hs (.frameVar hplace (.inl rfl) htype)
        · exact .none hs
      · exact .none hs
    · exact .none hs
  · exact .none hs

theorem target_yields (hs : Fits E s) (e : Tree.Expr) :
    Yields E s (target e) (IfSome (Expr.Fits E)) := by
  unfold target
  refine (resultTarget?_yields hs e).bind fun r? s₁ hs₁ _ hr => ?_
  split
  · exact .pure hs₁ hr
  · refine (expr_yields hs₁ 0 e).bindSome rfl fun t s₂ hs₂ _ ht => ?_
    dsimp only
    split
    · exact fail_yields hs₂ _ _ _
    · split
      · refine .read rfl ?_
        split
        · exact fail_yields hs₂ _ _ _
        · exact .some hs₂ ht
      · exact .some hs₂ ht

theorem condition_yields (hs : Fits E s) (e : Tree.Expr) :
    Yields E s (condition e) (IfSome (Expr.Fits E)) := by
  unfold condition
  refine (operand_yields hs e).bind fun e? s₁ hs₁ _ he => ?_
  exact coerce_yields hs₁ he (fun _ => hs₁.formed.within_boolean) e.span

theorem inLoop_yields {x : Bind α} (hs : Fits E s)
    (hx : ∀ {s : Session}, Fits E s → Yields E s x Q) : Yields E s (inLoop x) Q := by
  intro a s' h
  have h : (x.run { s with frame := s.frame.map fun fr => { fr with loops := fr.loops + 1 } } >>=
      fun r => .ok (r.1, { r.2 with
        frame := r.2.frame.map fun fr => { fr with loops := fr.loops - 1 } })) = .ok (a, s') := h
  obtain ⟨⟨b, s₁⟩, hrun, h⟩ := except_bind_ok h
  obtain ⟨hs₁, hle, hb⟩ := hx (hs.loops (· + 1)) b s₁ hrun
  cases h
  exact ⟨hs₁.loops (· - 1), hle, hb⟩

theorem loopVariable_yields (hs : Fits E s) (id : Tree.Ident) :
    Yields E s (loopVariable id) (IfSome (Expr.Fits E)) := by
  have hres := resolve_fits hs id.name
  unfold loopVariable
  refine .read rfl ?_
  generalize Resolution.walk s id.name (s.scopes.scopes.size + 1) s.scope = res at hres ⊢
  split
  · exact fail_yields hs _ _ _
  · exact fail_yields hs _ _ _
  · exact fail_yields hs _ _ _
  · rename_i x xs
    obtain ⟨sym, hsym, hfits⟩ := hres.symbols x List.mem_cons_self
    refine .read rfl ?_
    rw [hs.scopes, hsym, Option.getD_some]
    split
    · exact fail_yields hs _ _ _
    · rename_i hkind
      refine .read rfl ?_
      split
      · exact .read rfl (fail_yields hs _ _ _)
      · refine .some hs (storage_fits hfits ?_ _)
        cases hk : sym.kind <;> simp_all

theorem caseLabels_yields (hs : Fits E s) {type : TypeId} (htype : s.types.Within E.known type)
    (seen : List (Value × Span)) (labels : List Tree.Expr) :
    Yields E s (caseLabels type seen labels) fun _ _ => True := by
  induction labels generalizing s seen with
  | nil =>
    unfold caseLabels
    exact .pure hs trivial
  | cons l ls ih =>
    unfold caseLabels
    refine (constant_yields hs l type).bind fun e? s₁ hs₁ hle₁ he => ?_
    refine (coerce_yields hs₁ he (fun _ => htype.mono hle₁.grows) l.span).bind
      fun e? s₂ hs₂ hle₂ _ => ?_
    have htype₂ := (htype.mono hle₁.grows).mono hle₂.grows
    split
    · exact ih hs₂ htype₂ seen
    · split
      · refine (report_yields hs₂ _ _ _).bind fun _ s₃ hs₃ hle₃ _ => ?_
        exact ih hs₃ (htype₂.mono hle₃.grows) seen
      · refine (ih hs₂ htype₂ _).bind fun _ s₃ hs₃ _ _ => ?_
        exact .pure hs₃ trivial

theorem jump_yields (hs : Fits E s) (kind : Tree.JumpKind) (span : Span) :
    Yields E s (jump kind span) fun t ss => BodyFits E t ss := by
  unfold jump
  refine .read rfl ?_
  extract_lets inside
  have hsingle : ∀ st : Stmt, st.flatten = [st] → st.exprs = [] → BodyFits E s.types [st] := by
    intro st hflat hexprs
    refine .single ?_
    rw [hflat]
    exact .cons (by simp [hexprs]) .nil
  split
  · exact .pure hs (hsingle _ rfl rfl)
  all_goals
    split
    · refine .pure hs (hsingle _ ?_ ?_)
      all_goals
        split <;> rfl
    · exact (report_yields hs _ _ _).bind fun _ s₁ hs₁ _ _ => .pure hs₁ .nil

/-! ## Statements -/

mutual

theorem stmt_yields {s : Session} (hs : Fits E s) (st : Tree.Stmt) :
    Yields E s (stmt st) fun t ss => BodyFits E t ss := by
  cases st with
  | empty span =>
    unfold stmt
    exact .pure hs .nil
  | compound body span =>
    unfold stmt
    exact stmts_yields hs body
  | assign place value span =>
    unfold stmt
    refine (target_yields hs place).bind fun t? s₁ hs₁ _ ht => ?_
    split
    · refine (operand_yields hs₁ value).bind fun _ s₂ hs₂ _ _ => ?_
      exact .pure hs₂ .nil
    · rename_i t
      have ht := ht t rfl
      refine (expr_yields hs₁ t.type value).bind fun v? s₂ hs₂ hle₂ hv => ?_
      refine (coerce_yields hs₂ hv (fun _ => ht.within.mono hle₂.grows) value.span).bindBody
        fun v s₃ hs₃ hle₃ hv => ?_
      exact .pure hs₃ (.single (.cons (by simpa [Stmt.exprs] using
        ⟨(ht.widen hle₂).widen hle₃, hv⟩) .nil))
  | call call span =>
    unfold stmt
    refine (expr_yields hs 0 call).bindBody fun e s₁ hs₁ _ he => ?_
    dsimp only
    split
    · exact .pure hs₁ (.single (.cons (by simpa [Stmt.exprs] using he) .nil))
    · exact (report_yields hs₁ _ _ _).bind fun _ s₂ hs₂ _ _ => .pure hs₂ .nil
  | ifThen cond yes no span =>
    unfold stmt
    refine (condition_yields hs cond).bind fun c? s₁ hs₁ _ hc => ?_
    refine (stmt_yields hs₁ yes).bind fun y s₂ hs₂ hle₂ hy => ?_
    cases no with
    | none =>
      refine .read rfl ?_
      cases c? with
      | none => exact .pure hs₂ .nil
      | some c =>
        have hc₂ := (hc c rfl).widen hle₂
        exact .pure hs₂ (.single (.cons (by simpa [Stmt.exprs] using hc₂) (StmtsFit.append hy .nil)))
    | some no =>
      refine (stmt_yields hs₂ no).bind fun n s₃ hs₃ hle₃ hn => ?_
      cases c? with
      | none => exact .pure hs₃ .nil
      | some c =>
        have hc₃ := ((hc c rfl).widen hle₂).widen hle₃
        exact .pure hs₃ (.single (.cons (by simpa [Stmt.exprs] using hc₃)
          (StmtsFit.append (hy.mono (.refl E) hle₃) hn)))
  | whileDo cond body span =>
    unfold stmt
    refine (condition_yields hs cond).bind fun c? s₁ hs₁ _ hc => ?_
    refine (inLoop_yields hs₁ fun hs => stmt_yields hs body).bind fun b s₂ hs₂ hle₂ hb => ?_
    split
    · rename_i c
      exact .pure hs₂ (.single (.cons (by simpa [Stmt.exprs] using (hc c rfl).widen hle₂) hb))
    · exact .pure hs₂ .nil
  | repeatUntil body cond span =>
    unfold stmt
    refine (inLoop_yields hs fun hs => stmts_yields hs body).bind fun b s₁ hs₁ _ hb => ?_
    refine (condition_yields hs₁ cond).bindBody fun c s₂ hs₂ hle₂ hc => ?_
    exact .pure hs₂ (.single (.cons (by simpa [Stmt.exprs] using hc) (hb.mono (.refl E) hle₂)))
  | forTo var first last down body span =>
    unfold stmt
    refine (loopVariable_yields hs var).bindBody fun v s₁ hs₁ _ hv => ?_
    refine (operand_yields hs₁ first).bind fun a? s₂ hs₂ hle₂ ha => ?_
    refine (coerce_yields hs₂ ha (fun _ => hv.within.mono hle₂.grows) first.span).bind
      fun a? s₃ hs₃ hle₃ ha => ?_
    refine (operand_yields hs₃ last).bind fun z? s₄ hs₄ hle₄ hz => ?_
    have hv₄ := ((hv.widen hle₂).widen hle₃).widen hle₄
    refine (coerce_yields hs₄ hz (fun _ => hv₄.within) last.span).bind
      fun z? s₅ hs₅ hle₅ hz => ?_
    refine (inLoop_yields hs₅ fun hs => stmt_yields hs body).bind fun b s₆ hs₆ hle₆ hb => ?_
    split
    · rename_i a z
      have hexprs : ∀ e ∈ (Stmt.forTo v a z down b span).exprs, e.Fits E s₆.types := by
        simpa [Stmt.exprs] using ⟨(hv₄.widen hle₅).widen hle₆,
          (((ha a rfl).widen hle₄).widen hle₅).widen hle₆, (hz z rfl).widen hle₆⟩
      exact .pure hs₆ (.single (.cons hexprs hb))
    · exact .pure hs₆ .nil
  | caseOf subject arms otherwise span =>
    unfold stmt
    refine (operand_yields hs subject).bindBody fun e s₁ hs₁ _ he => ?_
    refine .read rfl ?_
    split
    · refine .read rfl ?_
      exact (report_yields hs₁ _ _ _).bind fun _ s₂ hs₂ _ _ => .pure hs₂ .nil
    · refine (caseArms_yields hs₁ he.within [] arms).bind fun as s₂ hs₂ hle₂ has => ?_
      refine (stmts_yields hs₂ otherwise).bind fun o s₃ hs₃ hle₃ ho => ?_
      have he₃ := (he.widen hle₂).widen hle₃
      exact .pure hs₃ (.single (.cons (by simpa [Stmt.exprs] using he₃)
        ((has.mono (.refl E) hle₃).append ho)))
  | jump kind span =>
    unfold stmt
    exact jump_yields hs kind span

theorem stmts_yields {s : Session} (hs : Fits E s) (ss : List Tree.Stmt) :
    Yields E s (stmts ss) fun t ss => BodyFits E t ss := by
  cases ss with
  | nil =>
    unfold stmts
    exact .pure hs .nil
  | cons st ss =>
    unfold stmts
    refine (stmt_yields hs st).bind fun bound s₁ hs₁ _ hbound => ?_
    refine (stmts_yields hs₁ ss).bind fun rest s₂ hs₂ hle₂ hrest => ?_
    exact .pure hs₂ (.append (hbound.mono (.refl E) hle₂) hrest)

theorem caseArms_yields {s : Session} (hs : Fits E s) {type : TypeId}
    (htype : s.types.Within E.known type) (seen : List (Value × Span))
    (arms : List Tree.CaseArm) :
    Yields E s (caseArms type seen arms) fun t as => ArmsFit E t as := by
  match arms with
  | [] =>
    unfold caseArms
    exact .pure hs .nil
  | ⟨labels, body, span⟩ :: arms =>
    unfold caseArms
    refine (caseLabels_yields hs htype seen labels).bind fun r s₁ hs₁ hle₁ _ => ?_
    refine (stmt_yields hs₁ body).bind fun b s₂ hs₂ hle₂ hb => ?_
    refine (caseArms_yields hs₂ ((htype.mono hle₁.grows).mono hle₂.grows) r.2 arms).bind
      fun as s₃ hs₃ hle₃ has => ?_
    exact .pure hs₃ ((hb.mono (.refl E) hle₃).append has)

end

end Pascaline.Bound.Bind
