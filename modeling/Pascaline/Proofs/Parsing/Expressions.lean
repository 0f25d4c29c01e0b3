import Pascaline.Proofs.Parsing.Tokens

/-!
# Parsers of expressions and types

Each parser hands its fuel down less one. The rank of a parser is the number of calls that it may
make before it takes a token; a token pays for sixteen calls, which is more than any rank.
-/

namespace Pascaline.Tree.Parser

open Input

variable {source : SourceFile} {fuel : Nat} {α : Type} {s s₀ s₁ : Input} {x : Expr}

/-- With fuel for the tokens ahead, the parser takes some of them, and these expressions lie in
them. -/
def Parses (source : SourceFile) (rank fuel : Nat) (p : Parser α) (exprs : α → List Expr) : Prop :=
  ∀ ⦃s : Input⦄, s.Tidy source → 16 * s.ahead.length + rank ≤ fuel →
    Ok p s fun a s' => Reads source s (exprs a) s'

/-- So does this one, but it may take no token. -/
def MayParse (source : SourceFile) (rank fuel : Nat) (p : Parser α) (exprs : α → List Expr) :
    Prop :=
  ∀ ⦃s : Input⦄, s.Tidy source → 16 * s.ahead.length + rank ≤ fuel →
    Ok p s fun a s' => MayRead source s (exprs a) s'

/-- So does this one, which takes the next token whatever it is. -/
def ParsesWord (source : SourceFile) (fuel : Nat) (p : Parser α) (exprs : α → List Expr) : Prop :=
  ∀ ⦃s : Input⦄, s.Tidy source → s.next.kind ≠ .endOfFile → 16 * s.ahead.length ≤ fuel →
    Ok p s fun a s' => Reads source s (exprs a) s'

/-- After a left operand, the parser makes an expression of it and of what it reads. -/
def Extends (source : SourceFile) (fuel : Nat) (p : Expr → Parser Expr) : Prop :=
  ∀ ⦃s₀ s : Input⦄ ⦃x : Expr⦄, Reads source s₀ [x] s → 16 * s.ahead.length ≤ fuel →
    Ok (p x) s fun y s' => Reads source s₀ [y] s'

/-- The parsers of expressions and types, given so much fuel. -/
structure ExprSpecs (source : SourceFile) (fuel : Nat) : Prop where
  expr : Parses source 6 fuel (expr fuel) fun x => [x]
  relationalTail : Extends source fuel (relationalTail fuel)
  simpleExpr : Parses source 5 fuel (simpleExpr fuel) fun x => [x]
  additiveTail : Extends source fuel (additiveTail fuel)
  term : Parses source 4 fuel (term fuel) fun x => [x]
  multiplicativeTail : Extends source fuel (multiplicativeTail fuel)
  factor : Parses source 3 fuel (factor fuel) fun x => [x]
  operand : Parses source 2 fuel (operand fuel) fun x => [x]
  attached : ∀ ⦃s₀ s : Input⦄ ⦃start : Span⦄ ⦃x : Expr⦄, Reads source s₀ [x] s →
    Anchors source start x s → 16 * s.ahead.length + 1 ≤ fuel →
    Ok (attached fuel start x) s fun y s' => Reads source s₀ [y] s'
  args : Parses source 0 fuel (args fuel) id
  exprList : Parses source 7 fuel (exprList fuel) id
  primary : ∀ ⦃s : Input⦄, s.Tidy source → 16 * s.ahead.length + 1 ≤ fuel →
    Ok (primary fuel) s fun x s' => Reads source s [x] s' ∧ x.span.start ≤ s'.last.start
  alloc : ∀ ⦃s : Input⦄, s.Tidy source → s.next.kind ≠ .endOfFile → 16 * s.ahead.length ≤ fuel →
    Ok (alloc fuel) s fun x s' => Reads source s [x] s' ∧ x.span.start ≤ s'.last.start
  typeExpr : Parses source 1 fuel (typeExpr fuel) TypeExpr.exprs
  arrayLength : MayParse source 0 fuel (arrayLength fuel) Option.toList
  params : MayParse source 0 fuel (params fuel) Param.allExprs
  paramGroups : Parses source 0 fuel (paramGroups fuel) Param.allExprs
  classBody : ParsesWord source fuel (classBody fuel) TypeExpr.exprs
  members : MayParse source 1 fuel (members fuel) Member.allExprs
  varDecl : ∀ ⦃s : Input⦄, s.Tidy source → 16 * s.ahead.length ≤ fuel →
    Ok (varDecl fuel) s fun d s' => Reads source s d.exprs s' ∧ Laid source s.lo s'.hi [d.span]
  header : ∀ qualified, ParsesWord source fuel (header fuel qualified) Header.exprs
  headerResult : ∀ kind, MayParse source 0 fuel (headerResult fuel kind) TypeExpr.resultExprs

/-! ## Operators -/

theorem expr_succ (h : ExprSpecs source fuel) :
    Parses source 6 (fuel + 1) (expr (fuel + 1)) fun x => [x] := by
  intro s hs hfuel
  unfold expr
  refine (h.simpleExpr hs (by omega)).bind fun x s₁ h₁ => ?_
  have hlen := h₁.fewer
  exact h.relationalTail h₁ (by omega)

theorem simpleExpr_succ (h : ExprSpecs source fuel) :
    Parses source 5 (fuel + 1) (simpleExpr (fuel + 1)) fun x => [x] := by
  intro s hs hfuel
  unfold simpleExpr
  refine (h.term hs (by omega)).bind fun x s₁ h₁ => ?_
  have hlen := h₁.fewer
  exact h.additiveTail h₁ (by omega)

theorem term_succ (h : ExprSpecs source fuel) :
    Parses source 4 (fuel + 1) (term (fuel + 1)) fun x => [x] := by
  intro s hs hfuel
  unfold term
  refine (h.factor hs (by omega)).bind fun x s₁ h₁ => ?_
  have hlen := h₁.fewer
  exact h.multiplicativeTail h₁ (by omega)

theorem ok_tail {rank : Nat} {next : Parser Expr} {more : Expr → Parser Expr} {ops : List BinaryOp}
    (hrank : rank ≤ 15) (hnext : Parses source rank fuel next fun x => [x])
    (hmore : Extends source fuel more) :
    Extends source (fuel + 1) fun left => do
      match ← operator? ops with
      | some op =>
        let _ ← advance
        more (binary op left (← next))
      | none => return left := by
  intro s₀ s x hx hfuel
  refine Ok.operator? fun o ho => ?_
  cases o with
  | none => exact Ok.pure hx
  | some op =>
    refine (ok_advance hx.tidy (ho op rfl)).bind fun _ s₁ ⟨_, h₁⟩ => ?_
    have hlen₁ := h₁.fewer
    refine (hnext h₁.tidy (by omega)).bind fun y s₂ h₂ => ?_
    have hlen₂ := h₂.fewer
    exact hmore (hx.binary (h₁.before_reads h₂.toMayRead) op) (by omega)

theorem relationalTail_succ (h : ExprSpecs source fuel) :
    Extends source (fuel + 1) (relationalTail (fuel + 1)) := by
  intro s₀ s x hx hfuel
  unfold relationalTail
  exact ok_tail (by decide) h.simpleExpr h.relationalTail hx hfuel

theorem additiveTail_succ (h : ExprSpecs source fuel) :
    Extends source (fuel + 1) (additiveTail (fuel + 1)) := by
  intro s₀ s x hx hfuel
  unfold additiveTail
  exact ok_tail (by decide) h.term h.additiveTail hx hfuel

theorem multiplicativeTail_succ (h : ExprSpecs source fuel) :
    Extends source (fuel + 1) (multiplicativeTail (fuel + 1)) := by
  intro s₀ s x hx hfuel
  unfold multiplicativeTail
  exact ok_tail (by decide) h.factor h.multiplicativeTail hx hfuel

theorem factor_succ (h : ExprSpecs source fuel) :
    Parses source 3 (fuel + 1) (factor (fuel + 1)) fun x => [x] := by
  intro s hs hfuel
  unfold factor
  refine Ok.peek (Ok.peek ?_)
  dsimp only
  split
  case h_1 op hop =>
    have hne : s.next.kind ≠ .endOfFile := by
      have htoken : op.token = s.next.kind := by simpa using List.find?_some hop
      rw [← htoken]
      cases op <;> simp [UnaryOp.token]
    refine (ok_advance hs hne).bind fun _ s₁ ⟨_, h₁⟩ => ?_
    have hlen₁ := h₁.fewer
    refine (h.factor h₁.tidy (by omega)).bind fun x s₂ h₂ => Ok.spanFrom (Ok.pure ?_)
    exact ((h₁.before_reads h₂.toMayRead).whole rfl rfl).1
  case h_2 =>
    refine Ok.ifAcceptPunct hs (fun s₁ h₁ => ?_) (h.operand hs (by omega))
    have hlen₁ := h₁.fewer
    refine (h.operand h₁.tidy (by omega)).bind fun x s₂ h₂ => Ok.spanFrom (Ok.pure ?_)
    exact ((h₁.before_reads h₂.toMayRead).whole rfl rfl).1

/-! ## Operands -/

theorem operand_succ (h : ExprSpecs source fuel) :
    Parses source 2 (fuel + 1) (operand (fuel + 1)) fun x => [x] := by
  intro s hs hfuel
  unfold operand
  refine (h.primary hs (by omega)).bind fun x s₁ ⟨h₁, hlast⟩ => ?_
  have hlen := h₁.fewer
  exact h.attached h₁ (h₁.anchors hlast) (by omega)

theorem attached_succ (h : ExprSpecs source fuel) {start : Span} (hx : Reads source s₀ [x] s)
    (hstart : Anchors source start x s) (hfuel : 16 * s.ahead.length + 1 ≤ fuel + 1) :
    Ok (attached (fuel + 1) start x) s fun y s' => Reads source s₀ [y] s' := by
  have hs := hx.tidy
  unfold attached
  refine Ok.ifAcceptPunct hs (fun s₁ h₁ => ?_) (Ok.ifAcceptPunct hs (fun s₁ h₁ => ?_)
    (Ok.ifAt (fun _ => ?_) (Ok.ifAcceptPunct hs (fun s₁ h₁ => ?_) (Ok.pure hx))))
  · -- a member
    refine (ok_ident h₁.tidy).bind fun name s₂ ⟨h₂, _⟩ => Ok.spanFrom ?_
    have hlen := (h₁.trans h₂).fewer
    obtain ⟨hy, hstart'⟩ := hx.attach (y := .member x name (start.cover s₂.last)) hstart
      (h₁.trans h₂).reads rfl rfl
    exact h.attached hy hstart' (by omega)
  · -- an index
    have hlen₁ := h₁.fewer
    refine (h.expr h₁.tidy (by omega)).bind fun i s₂ h₂ => ?_
    refine (ok_expectPunct h₂.tidy).bind fun _ s₃ h₃ => Ok.spanFrom ?_
    have hlen₂ := h₂.fewer
    have hlen₃ := h₃.fewer
    obtain ⟨hy, hstart'⟩ := hx.attach (y := .index x i (start.cover s₃.last)) hstart
      ((h₁.before_reads h₂.toMayRead).then (.took h₃)) rfl rfl
    exact h.attached hy hstart' (by omega)
  · -- a call
    refine (h.args hs (by omega)).bind fun xs s₁ h₁ => Ok.spanFrom ?_
    have hlen := h₁.fewer
    obtain ⟨hy, hstart'⟩ := hx.attach (y := .call x xs (start.cover s₁.last)) hstart h₁ rfl rfl
    exact h.attached hy hstart' (by omega)
  · -- a dereference
    refine Ok.spanFrom ?_
    have hlen := h₁.fewer
    obtain ⟨hy, hstart'⟩ := hx.attach (y := .deref x (start.cover s₁.last)) hstart h₁.reads rfl rfl
    exact h.attached hy hstart' (by omega)

theorem args_succ (h : ExprSpecs source fuel) :
    Parses source 0 (fuel + 1) (args (fuel + 1)) id := by
  intro s hs hfuel
  unfold args
  refine (ok_expectPunct hs).bind fun _ s₁ h₁ => ?_
  have hlen₁ := h₁.fewer
  refine Ok.ifAcceptPunct h₁.tidy (fun s₂ h₂ => Ok.pure (h₁.trans h₂).reads) ?_
  refine (h.exprList h₁.tidy (by omega)).bind fun xs s₂ h₂ => ?_
  refine (ok_expectPunct h₂.tidy).bind fun _ s₃ h₃ => Ok.pure ?_
  exact (h₁.before_reads h₂.toMayRead).then (.took h₃)

theorem exprList_succ (h : ExprSpecs source fuel) :
    Parses source 7 (fuel + 1) (exprList (fuel + 1)) id := by
  intro s hs hfuel
  unfold exprList
  refine (h.expr hs (by omega)).bind fun x s₁ h₁ => ?_
  refine Ok.ifAcceptPunct h₁.tidy (fun s₂ h₂ => ?_) (Ok.pure h₁)
  have hlen₁ := h₁.fewer
  have hlen₂ := h₂.fewer
  refine (h.exprList h₂.tidy (by omega)).bind fun xs s₃ h₃ => Ok.pure ?_
  exact (h₁.then (.took h₂)).append h₃.toMayRead

theorem atom?_spec {t : Token} {named : t.Named} (h : atom? t named = some x) :
    x.span = t.span ∧ x.parts = [] ∧ t.kind ≠ .endOfFile := by
  unfold atom? at h
  split at h
  all_goals
    cases h
    try exact ⟨rfl, rfl, by simp [*]⟩

theorem primary_succ (h : ExprSpecs source fuel) (hs : s.Tidy source)
    (hfuel : 16 * s.ahead.length + 1 ≤ fuel + 1) :
    Ok (primary (fuel + 1)) s fun x s' =>
      Reads source s [x] s' ∧ x.span.start ≤ s'.last.start := by
  unfold primary
  refine Ok.next ?_
  dsimp only
  split
  case h_1 x hx =>
    obtain ⟨hspan, hparts, hne⟩ := atom?_spec hx
    refine (ok_advance hs hne).bind fun _ s₁ ⟨_, h₁⟩ => Ok.pure ⟨?_, ?_⟩
    · have hlaid := laid_next hne h₁
      apply h₁.reads.node hparts
      · rw [hspan]
        exact hlaid.file _ (List.mem_singleton_self _)
      · rw [hspan]
        exact hlaid.nonempty _ (List.mem_singleton_self _)
      · rw [hspan]
        exact hlaid.lo_le _ (List.mem_singleton_self _)
      · rw [hspan]
        exact hlaid.le_hi _ (List.mem_singleton_self _)
      · simp
    · rw [hspan]
      exact h₁.lo_le
  case h_2 =>
    refine Ok.ite (fun hnew => ?_) fun _ => ?_
    · apply h.alloc hs
      · have hkind : s.next.kind = .keyword .kwNew := hnew
        simp [hkind]
      · omega
    · refine Ok.ifAcceptPunct hs (fun s₁ h₁ => ?_) (Ok.fail fun _ _ => by simp)
      have hlen₁ := h₁.fewer
      refine (h.expr h₁.tidy (by omega)).bind fun x s₂ h₂ => ?_
      refine (ok_expectPunct h₂.tidy).bind fun _ s₃ h₃ => Ok.pure ⟨?_, ?_⟩
      · exact (h₁.before_reads h₂.toMayRead).then (.took h₃)
      · -- the closing parenthesis lies behind the expression
        have hx : x ∈ [x] := List.mem_singleton_self x
        have hlt := h₂.lt hx
        have hhi := h₂.le_hi hx
        have hbehind := h₂.tidy.behind
        have hlo := h₃.lo_le
        omega

theorem alloc_succ (h : ExprSpecs source fuel) (hs : s.Tidy source)
    (hne : s.next.kind ≠ .endOfFile) (hfuel : 16 * s.ahead.length ≤ fuel + 1) :
    Ok (alloc (fuel + 1)) s fun x s' =>
      Reads source s [x] s' ∧ x.span.start ≤ s'.last.start := by
  unfold alloc
  refine (ok_advance hs hne).bind fun t s₁ ⟨ht, h₁⟩ => ?_
  subst ht
  have hlen₁ := h₁.fewer
  dsimp only
  refine (h.typeExpr h₁.tidy (by omega)).bind fun type s₂ h₂ => ?_
  have hlen₂ := h₂.fewer
  have htype := h₁.before_reads h₂.toMayRead
  refine Ok.ifAcceptPunct h₂.tidy (fun s₃ h₃ => ?_) (Ok.ifAt (fun _ => ?_) ?_)
  · have hlen₃ := h₃.fewer
    refine (h.expr h₃.tidy (by omega)).bind fun size s₄ h₄ => ?_
    refine (ok_expectPunct h₄.tidy).bind fun _ s₅ h₅ => Ok.spanFrom (Ok.pure ?_)
    have hsize := (h₃.before_reads h₄.toMayRead).then (.took h₅)
    refine (htype.append hsize.toMayRead).whole ?_ rfl
    simp [Expr.parts]
  · refine (h.args h₂.tidy (by omega)).bind fun xs s₃ h₃ => Ok.spanFrom (Ok.pure ?_)
    refine (htype.append h₃.toMayRead).whole ?_ rfl
    simp [Expr.parts]
  · refine Ok.spanFrom (Ok.pure (htype.whole ?_ rfl))
    simp [Expr.parts]

/-! ## Types -/

theorem typeExpr_succ (h : ExprSpecs source fuel) :
    Parses source 1 (fuel + 1) (typeExpr (fuel + 1)) TypeExpr.exprs := by
  intro s hs hfuel
  have hpointer : ∀ s₁, Took source s s₁ → Ok (do
      let elem ← typeExpr fuel
      return TypeExpr.pointer elem (← spanFrom s.next.span)) s₁ fun t s' =>
        Reads source s t.exprs s' := by
    intro s₁ h₁
    have hlen₁ := h₁.fewer
    refine (h.typeExpr h₁.tidy (by omega)).bind fun elem s₂ h₂ => Ok.spanFrom (Ok.pure ?_)
    unfold TypeExpr.exprs
    exact h₁.before_reads h₂.toMayRead
  unfold typeExpr
  refine Ok.peek ?_
  dsimp only
  refine Ok.ifAt (fun _ => ?_) (Ok.ifAcceptWord hs (fun s₁ h₁ => ?_) (Ok.ifAcceptWord hs
    (fun s₁ h₁ => ?_) (Ok.ifAcceptPunct hs hpointer (Ok.ifAt (fun hclass => ?_)
    (Ok.ifAcceptWord hs (fun s₁ h₁ => ?_) (Ok.ifAcceptWord hs (fun s₁ h₁ => ?_) ?_))))))
  · refine (ok_namedType hs).bind fun t s₁ h₁ => Ok.pure ?_
    unfold TypeExpr.exprs
    exact h₁.reads
  · -- an array
    have hlen₁ := h₁.fewer
    refine (h.arrayLength h₁.tidy (by omega)).bind fun length s₂ h₂ => ?_
    refine (ok_expectWord h₂.tidy).bind fun _ s₃ h₃ => ?_
    have hlength := h₁.before_reads (h₂.then_took h₃).toMayRead
    have hlen₃ := hlength.fewer
    refine (h.typeExpr h₃.tidy (by omega)).bind fun elem s₄ h₄ => Ok.spanFrom (Ok.pure ?_)
    unfold TypeExpr.exprs
    exact hlength.append h₄.toMayRead
  · -- a pointer in words
    refine (ok_expectWord h₁.tidy).bind fun _ s₂ h₂ => hpointer s₂ (h₁.trans h₂)
  · exact h.classBody hs (by rw [hclass]; simp) (by omega)
  · -- a procedure
    have hlen₁ := h₁.fewer
    refine (h.params h₁.tidy (by omega)).bind fun ps s₂ h₂ => Ok.spanFrom (Ok.pure ?_)
    unfold TypeExpr.exprs TypeExpr.resultExprs
    rw [List.append_nil]
    exact h₁.before_reads h₂
  · -- a function
    have hlen₁ := h₁.fewer
    refine (h.params h₁.tidy (by omega)).bind fun ps s₂ h₂ => ?_
    refine (ok_expectPunct h₂.tidy).bind fun _ s₃ h₃ => ?_
    have hparams := h₁.before_reads (h₂.then_took h₃).toMayRead
    have hlen₃ := hparams.fewer
    refine (h.typeExpr h₃.tidy (by omega)).bind fun result s₄ h₄ => Ok.spanFrom (Ok.pure ?_)
    unfold TypeExpr.exprs TypeExpr.resultExprs
    exact hparams.append h₄.toMayRead
  · exact Ok.fail fun _ _ => by simp

theorem arrayLength_succ (h : ExprSpecs source fuel) :
    MayParse source 0 (fuel + 1) (arrayLength (fuel + 1)) Option.toList := by
  intro s hs hfuel
  unfold arrayLength
  refine Ok.ifAcceptPunct hs (fun s₁ h₁ => ?_) (Ok.pure hs.mayRead)
  have hlen₁ := h₁.fewer
  refine (h.expr h₁.tidy (by omega)).bind fun n s₂ h₂ => ?_
  refine (ok_expectPunct h₂.tidy).bind fun _ s₃ h₃ => Ok.pure ?_
  exact ((h₁.before_reads h₂.toMayRead).then (.took h₃)).toMayRead

theorem params_succ (h : ExprSpecs source fuel) :
    MayParse source 0 (fuel + 1) (params (fuel + 1)) Param.allExprs := by
  intro s hs hfuel
  unfold params
  refine Ok.ifAcceptPunct hs (fun s₁ h₁ => ?_) (Ok.pure ?_)
  · refine Ok.ifAcceptPunct h₁.tidy (fun s₂ h₂ => Ok.pure ?_) ?_
    · unfold Param.allExprs
      exact (h₁.trans h₂).reads.toMayRead
    · have hlen₁ := h₁.fewer
      refine (h.paramGroups h₁.tidy (by omega)).bind fun ps s₂ h₂ => ?_
      refine (ok_expectPunct h₂.tidy).bind fun _ s₃ h₃ => Ok.pure ?_
      exact ((h₁.before_reads h₂.toMayRead).then (.took h₃)).toMayRead
  · unfold Param.allExprs
    exact hs.mayRead

theorem paramGroups_succ (h : ExprSpecs source fuel) :
    Parses source 0 (fuel + 1) (paramGroups (fuel + 1)) Param.allExprs := by
  intro s hs hfuel
  unfold paramGroups
  refine Ok.peek ((ok_accept (by simp) hs).bind fun _ s₁ h₁ => ?_)
  have hlen₁ := h₁.length_le
  refine (ok_identList h₁.tidy (by omega)).bind fun names s₂ ⟨h₂, _⟩ => ?_
  refine (ok_expectPunct h₂.tidy).bind fun _ s₃ h₃ => ?_
  have hnames := h₁.mayRead.then_took (h₂.trans h₃)
  have hlen₃ := hnames.fewer
  refine (h.typeExpr h₃.tidy (by omega)).bind fun type s₄ h₄ => Ok.spanFrom ?_
  have htype := hnames.append h₄.toMayRead
  have hlen₄ := htype.fewer
  refine Ok.ifAcceptPunct h₄.tidy (fun s₅ h₅ => ?_) (Ok.pure ?_)
  · have hlen₅ := h₅.fewer
    refine (h.paramGroups h₅.tidy (by omega)).bind fun ps s₆ h₆ => Ok.pure ?_
    unfold Param.allExprs Param.exprs
    exact (htype.then (.took h₅)).append h₆.toMayRead
  · unfold Param.allExprs Param.exprs Param.allExprs
    rw [List.append_nil]
    exact htype

theorem classBody_succ (h : ExprSpecs source fuel) :
    ParsesWord source (fuel + 1) (classBody (fuel + 1)) TypeExpr.exprs := by
  intro s hs hne hfuel
  unfold classBody
  refine (ok_advance hs hne).bind fun _ s₁ ⟨_, h₁⟩ => ?_
  refine (ok_classBase h₁.tidy).bind fun base s₂ h₂ => ?_
  have hlen₁ := h₁.fewer
  have hlen₂ := h₂.length_le
  refine (h.members h₂.tidy (by omega)).bind fun ms s₃ h₃ => ?_
  refine (ok_expectWord h₃.tidy).bind fun _ s₄ h₄ => Ok.spanFrom (Ok.pure ?_)
  unfold TypeExpr.exprs
  exact (h₁.reads.then h₂).append (h₃.then_took h₄).toMayRead

theorem members_succ (h : ExprSpecs source fuel) :
    MayParse source 1 (fuel + 1) (members (fuel + 1)) Member.allExprs := by
  intro s hs hfuel
  unfold members
  refine Ok.ifAtAny (fun _ => Ok.pure ?_) (Ok.ifAt (fun _ => ?_) (Ok.ifAcceptWord hs
    (fun s₁ h₁ => ?_) (Ok.ifAtAny (fun hword => ?_) (Ok.fail fun _ _ => by simp))))
  · unfold Member.allExprs
    exact hs.mayRead
  · -- fields
    refine (h.varDecl hs (by omega)).bind fun d s₁ ⟨h₁, _⟩ => ?_
    have hlen₁ := h₁.fewer
    refine (h.members h₁.tidy (by omega)).bind fun ms s₂ h₂ => Ok.pure ?_
    unfold Member.allExprs Member.exprs
    exact (h₁.append h₂).toMayRead
  · have hlen₁ := h₁.fewer
    exact (h.members h₁.tidy (by omega)).mono fun ms s₂ h₂ => (h₁.before_reads h₂).toMayRead
  · -- a method
    have hne : s.next.kind ≠ .endOfFile := by
      rintro heq
      rw [heq] at hword
      exact absurd hword (by decide)
    refine (h.header false hs hne (by omega)).bind fun d s₁ h₁ => ?_
    have hlen₁ := h₁.fewer
    refine (h.members h₁.tidy (by omega)).bind fun ms s₂ h₂ => Ok.pure ?_
    unfold Member.allExprs Member.exprs
    exact (h₁.append h₂).toMayRead

theorem varDecl_succ (h : ExprSpecs source fuel) (hs : s.Tidy source)
    (hfuel : 16 * s.ahead.length ≤ fuel + 1) :
    Ok (varDecl (fuel + 1)) s fun d s' =>
      Reads source s d.exprs s' ∧ Laid source s.lo s'.hi [d.span] := by
  unfold varDecl
  refine Ok.peek ((ok_identList hs (by omega)).bind fun names s₁ ⟨h₁, _⟩ => ?_)
  refine (ok_expectPunct h₁.tidy).bind fun _ s₂ h₂ => ?_
  have hlen₂ := (h₁.trans h₂).fewer
  refine (h.typeExpr h₂.tidy (by omega)).bind fun type s₃ h₃ => ?_
  refine (ok_semicolon h₃.tidy).bind fun _ s₄ h₄ => Ok.spanFrom (Ok.pure ?_)
  have hreads := ((h₁.trans h₂).before_reads h₃.toMayRead).then (.took h₄)
  unfold VarDecl.exprs
  exact ⟨hreads, hreads.took.laid⟩

theorem header_succ (h : ExprSpecs source fuel) (qualified : Bool) :
    ParsesWord source (fuel + 1) (header (fuel + 1) qualified) Header.exprs := by
  intro s hs hne hfuel
  have hrest : ∀ (kind : RoutineKind) (owner : Option Ident) (name : Ident) (s₁ : Input),
      Took source s s₁ → Ok (do
        let ps ← params fuel
        let result ← headerResult fuel kind
        let span ← spanFrom s.next.span
        semicolon
        let flags ← directives fuel false false
        return Header.mk kind owner name ps result flags.1 flags.2 span) s₁ fun d s' =>
          Reads source s d.exprs s' := by
    intro kind owner name s₁ h₁
    have hlen₁ := h₁.fewer
    refine (h.params h₁.tidy (by omega)).bind fun ps s₂ h₂ => ?_
    have hlen₂ := h₂.length_le
    refine (h.headerResult kind h₂.tidy (by omega)).bind fun result s₃ h₃ => Ok.spanFrom ?_
    refine (ok_semicolon h₃.tidy).bind fun _ s₄ h₄ => ?_
    have hlen₃ := h₃.length_le
    have hlen₄ := h₄.fewer
    refine (ok_directives h₄.tidy (by omega)).bind fun flags s₅ h₅ => Ok.pure ?_
    unfold Header.exprs
    exact (h₁.before_reads (h₂.append h₃)).then (Passed.trans (.took h₄) h₅)
  -- the name may stand behind that of a class and a point
  have hname : ∀ (kind : RoutineKind) (first : Ident) (owned : Bool) (s₁ : Input),
      Took source s s₁ → Ok (do
        let name ← if owned then ident else pure first
        let ps ← params fuel
        let result ← headerResult fuel kind
        let span ← spanFrom s.next.span
        semicolon
        let flags ← directives fuel false false
        return Header.mk kind (if owned then some first else none) name ps result flags.1 flags.2 span)
          s₁ fun d s' => Reads source s d.exprs s' := by
    intro kind first owned s₁ h₁
    refine Ok.ite (fun _ => ?_) fun _ => hrest kind _ first s₁ h₁
    exact (ok_ident h₁.tidy).bind fun name s₂ h₂ => hrest kind _ name s₂ (h₁.trans h₂.1)
  unfold header
  refine Ok.peek ((ok_advance hs hne).bind fun _ s₁ hword => ?_)
  have h₁ := hword.2
  refine (ok_ident h₁.tidy).bind fun first s₂ hfirst => ?_
  have h₂ := hfirst.1
  refine Ok.ite (fun _ => ?_) fun _ => hname _ first false s₂ (h₁.trans h₂)
  refine (ok_accept (by simp) h₂.tidy).bind fun owned s₃ h₃ => ?_
  exact hname _ first owned s₃ ((h₁.trans h₂).then h₃)

theorem headerResult_succ (h : ExprSpecs source fuel) (kind : RoutineKind) :
    MayParse source 0 (fuel + 1) (headerResult (fuel + 1) kind) TypeExpr.resultExprs := by
  intro s hs hfuel
  unfold headerResult
  refine Ok.ite (fun _ => ?_) fun _ => Ok.pure ?_
  · refine (ok_expectPunct hs).bind fun _ s₁ h₁ => ?_
    have hlen₁ := h₁.fewer
    refine (h.typeExpr h₁.tidy (by omega)).bind fun t s₂ h₂ => Ok.pure ?_
    unfold TypeExpr.resultExprs
    exact (h₁.before_reads h₂.toMayRead).toMayRead
  · unfold TypeExpr.resultExprs
    exact hs.mayRead

theorem not_paid (hs : s.Tidy source) (rank : Nat) : ¬ 16 * s.ahead.length + rank ≤ 0 := by
  have hpos := hs.length_pos
  omega

theorem exprSpecs_zero : ExprSpecs source 0 where
  expr _ hs hfuel := absurd hfuel (not_paid hs _)
  relationalTail _ _ _ hx hfuel := absurd hfuel (not_paid hx.tidy 0)
  simpleExpr _ hs hfuel := absurd hfuel (not_paid hs _)
  additiveTail _ _ _ hx hfuel := absurd hfuel (not_paid hx.tidy 0)
  term _ hs hfuel := absurd hfuel (not_paid hs _)
  multiplicativeTail _ _ _ hx hfuel := absurd hfuel (not_paid hx.tidy 0)
  factor _ hs hfuel := absurd hfuel (not_paid hs _)
  operand _ hs hfuel := absurd hfuel (not_paid hs _)
  attached _ _ _ _ hx _ hfuel := absurd hfuel (not_paid hx.tidy _)
  args _ hs hfuel := absurd hfuel (not_paid hs 0)
  exprList _ hs hfuel := absurd hfuel (not_paid hs _)
  primary _ hs hfuel := absurd hfuel (not_paid hs _)
  alloc _ hs _ hfuel := absurd hfuel (not_paid hs 0)
  typeExpr _ hs hfuel := absurd hfuel (not_paid hs _)
  arrayLength _ hs hfuel := absurd hfuel (not_paid hs 0)
  params _ hs hfuel := absurd hfuel (not_paid hs 0)
  paramGroups _ hs hfuel := absurd hfuel (not_paid hs 0)
  classBody _ hs _ hfuel := absurd hfuel (not_paid hs 0)
  members _ hs hfuel := absurd hfuel (not_paid hs _)
  varDecl _ hs hfuel := absurd hfuel (not_paid hs 0)
  header _ _ hs _ hfuel := absurd hfuel (not_paid hs 0)
  headerResult _ _ hs hfuel := absurd hfuel (not_paid hs 0)

theorem exprSpecs : ∀ fuel, ExprSpecs source fuel
  | 0 => exprSpecs_zero
  | fuel + 1 =>
    have h := exprSpecs fuel
    { expr := expr_succ h
      relationalTail := relationalTail_succ h
      simpleExpr := simpleExpr_succ h
      additiveTail := additiveTail_succ h
      term := term_succ h
      multiplicativeTail := multiplicativeTail_succ h
      factor := factor_succ h
      operand := operand_succ h
      attached := fun _ _ _ _ => attached_succ h
      args := args_succ h
      exprList := exprList_succ h
      primary := fun _ => primary_succ h
      alloc := fun _ => alloc_succ h
      typeExpr := typeExpr_succ h
      arrayLength := arrayLength_succ h
      params := params_succ h
      paramGroups := paramGroups_succ h
      classBody := classBody_succ h
      members := members_succ h
      varDecl := fun _ => varDecl_succ h
      header := header_succ h
      headerResult := headerResult_succ h }

end Pascaline.Tree.Parser
