import Pascaline.Proofs.Parsing.Expressions

/-!
# Parsers of statements

A statement may be empty, and then its parser takes no token.
-/

namespace Pascaline.Tree.Parser

open Input

variable {source : SourceFile} {fuel : Nat} {s : Input}

/-- The parsers of statements, given so much fuel. -/
structure StmtSpecs (source : SourceFile) (fuel : Nat) : Prop where
  stmt : MayParse source 7 fuel (stmt fuel) Stmt.exprs
  branch : MayParse source 8 fuel (branch fuel) Stmt.exprs
  elseBranch : MayParse source 0 fuel (elseBranch fuel) Stmt.elseExprs
  stmtList : ∀ close, MayParse source 8 fuel (stmtList fuel close) Stmt.allExprs
  block : ∀ ⦃s : Input⦄, s.Tidy source → 16 * s.ahead.length ≤ fuel →
    Ok (block fuel) s fun b s' => Reads source s b.exprs s' ∧ Laid source s.lo s'.hi [b.span]
  caseArms : MayParse source 8 fuel (caseArms fuel) CaseArm.allExprs

/-! ## Loops and branches -/

theorem ok_ifThen (h : StmtSpecs source fuel) {s₁ : Input} (h₁ : Took source s s₁)
    (hfuel : 16 * s.ahead.length ≤ fuel + 1) :
    Ok (do
      let cond ← expr fuel
      expectWord .kwThen SyntaxError.unexpectedToken
      let yes ← branch fuel
      let no ← elseBranch fuel
      return Stmt.ifThen cond yes no (← spanFrom s.next.span)) s₁ fun st s' =>
        MayRead source s st.exprs s' := by
  have hlen₁ := h₁.fewer
  refine ((exprSpecs fuel).expr h₁.tidy (by omega)).bind fun cond s₂ h₂ => ?_
  refine (ok_expectWord h₂.tidy).bind fun _ s₃ h₃ => ?_
  have hcond := (h₁.before_reads h₂.toMayRead).then (.took h₃)
  have hlen₂ := h₂.fewer
  have hlen₃ := h₃.fewer
  refine (h.branch h₃.tidy (by omega)).bind fun yes s₄ h₄ => ?_
  have hlen₄ := h₄.length_le
  refine (h.elseBranch h₄.tidy (by omega)).bind fun no s₅ h₅ => Ok.spanFrom (Ok.pure ?_)
  unfold Stmt.exprs
  exact (hcond.append (h₄.append h₅)).toMayRead

theorem ok_whileDo (h : StmtSpecs source fuel) {s₁ : Input} (h₁ : Took source s s₁)
    (hfuel : 16 * s.ahead.length ≤ fuel + 1) :
    Ok (do
      let cond ← expr fuel
      expectWord .kwDo SyntaxError.unexpectedToken
      let body ← branch fuel
      return Stmt.whileDo cond body (← spanFrom s.next.span)) s₁ fun st s' =>
        MayRead source s st.exprs s' := by
  have hlen₁ := h₁.fewer
  refine ((exprSpecs fuel).expr h₁.tidy (by omega)).bind fun cond s₂ h₂ => ?_
  refine (ok_expectWord h₂.tidy).bind fun _ s₃ h₃ => ?_
  have hcond := (h₁.before_reads h₂.toMayRead).then (.took h₃)
  have hlen₂ := h₂.fewer
  have hlen₃ := h₃.fewer
  refine (h.branch h₃.tidy (by omega)).bind fun body s₄ h₄ => Ok.spanFrom (Ok.pure ?_)
  unfold Stmt.exprs
  exact (hcond.append h₄).toMayRead

theorem ok_repeatUntil (h : StmtSpecs source fuel) {s₁ : Input} (h₁ : Took source s s₁)
    (hfuel : 16 * s.ahead.length ≤ fuel + 1) :
    Ok (do
      let body ← stmtList fuel .kwUntil
      expectWord .kwUntil SyntaxError.unexpectedToken
      let cond ← expr fuel
      return Stmt.repeatUntil body cond (← spanFrom s.next.span)) s₁ fun st s' =>
        MayRead source s st.exprs s' := by
  have hlen₁ := h₁.fewer
  refine (h.stmtList _ h₁.tidy (by omega)).bind fun body s₂ h₂ => ?_
  refine (ok_expectWord h₂.tidy).bind fun _ s₃ h₃ => ?_
  have hbody := h₁.before_reads (h₂.then_took h₃).toMayRead
  have hlen₃ := hbody.fewer
  refine ((exprSpecs fuel).expr h₃.tidy (by omega)).bind fun cond s₄ h₄ => Ok.spanFrom (Ok.pure ?_)
  unfold Stmt.exprs
  exact (hbody.append h₄.toMayRead).toMayRead

theorem ok_direction (hs : s.Tidy source) :
    Ok direction s fun _ s' => Took source s s' := by
  refine Ok.ifAcceptWord hs (fun s₁ h₁ => Ok.pure h₁) (Ok.ifAcceptWord hs (fun s₁ h₁ => Ok.pure h₁) ?_)
  exact Ok.fail fun _ _ => by simp

theorem ok_forTo (h : StmtSpecs source fuel) {s₁ : Input} (h₁ : Took source s s₁)
    (hfuel : 16 * s.ahead.length ≤ fuel + 1) :
    Ok (do
      let var ← ident
      expectPunct .assign SyntaxError.unexpectedToken
      let first ← expr fuel
      let down ← direction
      let last ← expr fuel
      expectWord .kwDo SyntaxError.unexpectedToken
      let body ← branch fuel
      return Stmt.forTo var first last down body (← spanFrom s.next.span)) s₁ fun st s' =>
        MayRead source s st.exprs s' := by
  refine (ok_ident h₁.tidy).bind fun var s₂ ⟨h₂, _⟩ => ?_
  refine (ok_expectPunct h₂.tidy).bind fun _ s₃ h₃ => ?_
  have htook := (h₁.trans h₂).trans h₃
  have hlen₃ := htook.fewer
  refine ((exprSpecs fuel).expr h₃.tidy (by omega)).bind fun first s₄ h₄ => ?_
  refine (ok_direction h₄.tidy).bind fun down s₅ h₅ => ?_
  have hfirst := (htook.before_reads h₄.toMayRead).then (.took h₅)
  have hlen₅ := hfirst.fewer
  refine ((exprSpecs fuel).expr h₅.tidy (by omega)).bind fun last s₆ h₆ => ?_
  refine (ok_expectWord h₆.tidy).bind fun _ s₇ h₇ => ?_
  have hlast := hfirst.append (h₆.then (.took h₇)).toMayRead
  have hlen₇ := hlast.fewer
  refine (h.branch h₇.tidy (by omega)).bind fun body s₈ h₈ => Ok.spanFrom (Ok.pure ?_)
  unfold Stmt.exprs
  exact (hlast.append h₈).toMayRead

theorem ok_caseOf (h : StmtSpecs source fuel) {s₁ : Input} (h₁ : Took source s s₁)
    (hfuel : 16 * s.ahead.length ≤ fuel + 1) :
    Ok (do
      let subject ← expr fuel
      expectWord .kwOf SyntaxError.unexpectedToken
      let arms ← caseArms fuel
      let otherwise ← if ← acceptWord .kwElse then stmtList fuel .kwEnd else pure []
      expectWord .kwEnd SyntaxError.expectEnd
      return Stmt.caseOf subject arms otherwise (← spanFrom s.next.span)) s₁ fun st s' =>
        MayRead source s st.exprs s' := by
  have hlen₁ := h₁.fewer
  refine ((exprSpecs fuel).expr h₁.tidy (by omega)).bind fun subject s₂ h₂ => ?_
  refine (ok_expectWord h₂.tidy).bind fun _ s₃ h₃ => ?_
  have hsubject := (h₁.before_reads h₂.toMayRead).then (.took h₃)
  have hlen₃ := hsubject.fewer
  refine (h.caseArms h₃.tidy (by omega)).bind fun arms s₄ h₄ => ?_
  have hend : ∀ (otherwise : List Stmt) (s₅ : Input),
      MayRead source s₄ (Stmt.allExprs otherwise) s₅ → Ok (do
        expectWord .kwEnd SyntaxError.expectEnd
        return Stmt.caseOf subject arms otherwise (← spanFrom s.next.span)) s₅ fun st s' =>
          MayRead source s st.exprs s' := by
    intro otherwise s₅ h₅
    refine (ok_expectWord h₅.tidy).bind fun _ s₆ h₆ => Ok.spanFrom (Ok.pure ?_)
    unfold Stmt.exprs
    exact (hsubject.append (h₄.append (h₅.then_took h₆).toMayRead)).toMayRead
  have hlen₄ := h₄.length_le
  refine Ok.ifAcceptWord h₄.tidy (fun s₅ h₅ => ?_) ?_
  · have hlen₅ := h₅.fewer
    refine (h.stmtList _ h₅.tidy (by omega)).bind fun otherwise s₆ h₆ => hend otherwise s₆ ?_
    exact (h₅.before_reads h₆).toMayRead
  · refine hend [] s₄ ?_
    unfold Stmt.allExprs
    exact h₄.tidy.mayRead

theorem ok_jump {s₁ : Input} (h₁ : Took source s s₁) (kind : JumpKind) (span : Span) :
    Ok (return Stmt.jump kind span) s₁ fun st s' => MayRead source s st.exprs s' := by
  refine Ok.pure ?_
  unfold Stmt.exprs
  exact h₁.reads.toMayRead

theorem stmt_succ (h : StmtSpecs source fuel) :
    MayParse source 7 (fuel + 1) (stmt (fuel + 1)) Stmt.exprs := by
  intro s hs hfuel
  have hpaid : 16 * s.ahead.length ≤ fuel + 1 := by omega
  unfold stmt
  refine Ok.peek ?_
  dsimp only
  refine Ok.ifAt (fun _ => Ok.pure ?_) (Ok.ifAt (fun _ => ?_) (Ok.ifAcceptWord hs
    (fun s₁ h₁ => ok_ifThen h h₁ hpaid) (Ok.ifAcceptWord hs (fun s₁ h₁ => ok_whileDo h h₁ hpaid)
    (Ok.ifAcceptWord hs (fun s₁ h₁ => ok_repeatUntil h h₁ hpaid) (Ok.ifAcceptWord hs
    (fun s₁ h₁ => ok_forTo h h₁ hpaid) (Ok.ifAcceptWord hs (fun s₁ h₁ => ok_caseOf h h₁ hpaid)
    (Ok.ifAcceptWord hs (fun s₁ h₁ => ok_jump h₁ _ _) (Ok.ifAcceptWord hs
    (fun s₁ h₁ => ok_jump h₁ _ _) (Ok.ifAcceptWord hs (fun s₁ h₁ => ok_jump h₁ _ _) ?_)))))))))
  · unfold Stmt.exprs
    exact hs.mayRead
  · refine (h.block hs (by omega)).bind fun b s₁ ⟨h₁, _⟩ => Ok.pure ?_
    unfold Stmt.exprs
    exact h₁.toMayRead
  · -- an assignment or a call
    refine ((exprSpecs fuel).expr hs (by omega)).bind fun left s₁ h₁ => ?_
    refine Ok.ifAcceptPunct h₁.tidy (fun s₂ h₂ => ?_) (Ok.spanFrom (Ok.pure ?_))
    · have hlen₁ := h₁.fewer
      have hlen₂ := h₂.fewer
      refine ((exprSpecs fuel).expr h₂.tidy (by omega)).bind fun right s₃ h₃ =>
        Ok.spanFrom (Ok.pure ?_)
      unfold Stmt.exprs
      exact ((h₁.then (.took h₂)).append h₃.toMayRead).toMayRead
    · unfold Stmt.exprs
      exact h₁.toMayRead

theorem branch_succ (h : StmtSpecs source fuel) :
    MayParse source 8 (fuel + 1) (branch (fuel + 1)) Stmt.exprs := by
  intro s hs hfuel
  unfold branch
  refine Ok.ifAtAny (fun _ => Ok.peek (Ok.pure ?_)) (h.stmt hs (by omega))
  unfold Stmt.exprs
  exact hs.mayRead

theorem elseBranch_succ (h : StmtSpecs source fuel) :
    MayParse source 0 (fuel + 1) (elseBranch (fuel + 1)) Stmt.elseExprs := by
  intro s hs hfuel
  unfold elseBranch
  refine Ok.ifAcceptWord hs (fun s₁ h₁ => ?_) (Ok.pure ?_)
  · have hlen₁ := h₁.fewer
    refine (h.branch h₁.tidy (by omega)).bind fun st s₂ h₂ => Ok.pure ?_
    unfold Stmt.elseExprs
    exact (h₁.before_reads h₂).toMayRead
  · unfold Stmt.elseExprs
    exact hs.mayRead

/-! ## Lists of statements -/

theorem stmtList_succ (h : StmtSpecs source fuel) (close : Keyword) :
    MayParse source 8 (fuel + 1) (stmtList (fuel + 1) close) Stmt.allExprs := by
  intro s hs hfuel
  unfold stmtList
  refine Ok.ifAt (fun _ => Ok.pure ?_) ?_
  · unfold Stmt.allExprs
    exact hs.mayRead
  · refine (h.stmt hs (by omega)).bind fun st s₁ h₁ => Ok.ifAt (fun _ => Ok.pure ?_) ?_
    · unfold Stmt.allExprs Stmt.allExprs
      rw [List.append_nil]
      exact h₁
    · refine (ok_semicolon h₁.tidy).bind fun _ s₂ h₂ => ?_
      have hlen₁ := h₁.length_le
      have hlen₂ := h₂.fewer
      refine (h.stmtList close h₂.tidy (by omega)).bind fun ss s₃ h₃ => Ok.pure ?_
      unfold Stmt.allExprs
      exact ((h₁.then_took h₂).append h₃).toMayRead

theorem block_succ (h : StmtSpecs source fuel) (hs : s.Tidy source)
    (hfuel : 16 * s.ahead.length ≤ fuel + 1) :
    Ok (block (fuel + 1)) s fun b s' =>
      Reads source s b.exprs s' ∧ Laid source s.lo s'.hi [b.span] := by
  unfold block
  refine (ok_expect (by simp) _ hs).bind fun t s₁ ⟨ht, h₁⟩ => ?_
  subst ht
  have hlen₁ := h₁.fewer
  dsimp only
  refine (h.stmtList _ h₁.tidy (by omega)).bind fun body s₂ h₂ => ?_
  refine (ok_expectWord h₂.tidy).bind fun _ s₃ h₃ => Ok.spanFrom (Ok.pure ?_)
  have hbody := h₁.before_reads (h₂.then_took h₃).toMayRead
  exact ⟨hbody, hbody.took.laid⟩

theorem caseArms_succ (h : StmtSpecs source fuel) :
    MayParse source 8 (fuel + 1) (caseArms (fuel + 1)) CaseArm.allExprs := by
  intro s hs hfuel
  unfold caseArms
  refine Ok.ifAtAny (fun _ => Ok.pure ?_) (Ok.peek ?_)
  · unfold CaseArm.allExprs
    exact hs.mayRead
  · refine ((exprSpecs fuel).exprList hs (by omega)).bind fun labels s₁ h₁ => ?_
    refine (ok_expectPunct h₁.tidy).bind fun _ s₂ h₂ => ?_
    have hlabels := h₁.then (.took h₂)
    have hlen₂ := hlabels.fewer
    refine (h.branch h₂.tidy (by omega)).bind fun body s₃ h₃ => Ok.spanFrom ?_
    have harm := hlabels.append h₃
    have hlen₃ := harm.fewer
    refine Ok.ifAcceptPunct h₃.tidy (fun s₄ h₄ => ?_) (Ok.pure ?_)
    · have hlen₄ := h₄.fewer
      refine (h.caseArms h₄.tidy (by omega)).bind fun arms s₅ h₅ => Ok.pure ?_
      unfold CaseArm.allExprs CaseArm.exprs
      exact ((harm.then (.took h₄)).append h₅).toMayRead
    · unfold CaseArm.allExprs CaseArm.exprs CaseArm.allExprs
      rw [List.append_nil]
      exact harm.toMayRead

theorem stmtSpecs_zero : StmtSpecs source 0 where
  stmt _ hs hfuel := absurd hfuel (not_paid hs _)
  branch _ hs hfuel := absurd hfuel (not_paid hs _)
  elseBranch _ hs hfuel := absurd hfuel (not_paid hs 0)
  stmtList _ _ hs hfuel := absurd hfuel (not_paid hs _)
  block _ hs hfuel := absurd hfuel (not_paid hs 0)
  caseArms _ hs hfuel := absurd hfuel (not_paid hs _)

theorem stmtSpecs : ∀ fuel, StmtSpecs source fuel
  | 0 => stmtSpecs_zero
  | fuel + 1 =>
    have h := stmtSpecs fuel
    { stmt := stmt_succ h
      branch := branch_succ h
      elseBranch := elseBranch_succ h
      stmtList := stmtList_succ h
      block := fun _ => block_succ h
      caseArms := caseArms_succ h }

end Pascaline.Tree.Parser
