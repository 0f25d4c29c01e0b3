import Pascaline.Proofs.Parsing.Statements

/-!
# Spans of parsed files

The declarations of a file are read one behind the other, as the expressions in them are. So the
checks of the spans of a file that parses all pass, and its expressions are orderly at any depth.
-/

namespace Pascaline.Tree

namespace Parser

open Input

variable {source : SourceFile} {fuel : Nat} {s s' s'' : Input} {xs ys : List Expr}
  {spans more : List Span}

/-! ## Declarations -/

/-- Between these states, declarations of these spans were read, and these expressions in them. -/
structure Declares (source : SourceFile) (s : Input) (xs : List Expr) (spans : List Span)
    (s' : Input) : Prop where
  reads : MayRead source s xs s'
  laid : Laid source s.lo s'.hi spans

theorem Declares.none (h : Passed source s s') : Declares source s [] [] s' := ⟨h.mayRead, .nil⟩

theorem Declares.append (h : Declares source s xs spans s') (h' : Declares source s' ys more s'') :
    Declares source s (xs ++ ys) (spans ++ more) s'' where
  reads := h.reads.append h'.reads
  laid := h.laid.append h'.laid h.reads.passed.lo_le h.reads.tidy.behind h'.reads.passed.hi_le

theorem ok_constDecl (hs : s.Tidy source) (hfuel : 16 * s.ahead.length ≤ fuel) :
    Ok (constDecl fuel) s fun d s' => Reads source s d.exprs s' ∧ Laid source s.lo s'.hi [d.span] := by
  have hvalue : ∀ (name : Ident) (type : Option TypeExpr) (s₁ : Input),
      Reads source s (TypeExpr.resultExprs type) s₁ → Ok (do
        expectPunct .eq SyntaxError.unexpectedToken
        let value ← expr fuel
        semicolon
        return ConstDecl.mk name type value (← spanFrom s.next.span)) s₁ fun d s' =>
          Reads source s d.exprs s' ∧ Laid source s.lo s'.hi [d.span] := by
    intro name type s₁ h₁
    refine (ok_expectPunct h₁.tidy).bind fun _ s₂ h₂ => ?_
    have hlen₁ := h₁.fewer
    have hlen₂ := h₂.fewer
    refine ((exprSpecs fuel).expr h₂.tidy (by omega)).bind fun value s₃ h₃ => ?_
    refine (ok_semicolon h₃.tidy).bind fun _ s₄ h₄ => Ok.spanFrom (Ok.pure ?_)
    have hreads := (h₁.then (.took h₂)).append (h₃.then (.took h₄)).toMayRead
    exact ⟨hreads, hreads.took.laid⟩
  unfold constDecl
  refine Ok.peek ((ok_ident hs).bind fun name s₁ ⟨h₁, _⟩ => ?_)
  refine Ok.ifAcceptPunct h₁.tidy (fun s₂ h₂ => ?_) ?_
  · have hlen := (h₁.trans h₂).fewer
    refine Ok.bind (P := fun t s' => Reads source s (TypeExpr.resultExprs t) s') ?_
      fun type s₃ h₃ => hvalue name type s₃ h₃
    rw [map_eq_pure_bind]
    refine ((exprSpecs fuel).typeExpr h₂.tidy (by omega)).bind fun t s₃ h₃ => Ok.pure ?_
    unfold TypeExpr.resultExprs
    exact (h₁.trans h₂).before_reads h₃.toMayRead
  · refine hvalue name none s₁ ?_
    unfold TypeExpr.resultExprs
    exact h₁.reads

theorem ok_typeDecl (hs : s.Tidy source) (hfuel : 16 * s.ahead.length ≤ fuel) :
    Ok (typeDecl fuel) s fun d s' =>
      Reads source s d.type.exprs s' ∧ Laid source s.lo s'.hi [d.span] := by
  refine Ok.peek ((ok_ident hs).bind fun name s₁ ⟨h₁, _⟩ => ?_)
  refine (ok_expectPunct h₁.tidy).bind fun _ s₂ h₂ => ?_
  have hlen := (h₁.trans h₂).fewer
  refine ((exprSpecs fuel).typeExpr h₂.tidy (by omega)).bind fun t s₃ h₃ => ?_
  refine (ok_semicolon h₃.tidy).bind fun _ s₄ h₄ => Ok.spanFrom (Ok.pure ?_)
  have hreads := ((h₁.trans h₂).before_reads h₃.toMayRead).then (.took h₄)
  exact ⟨hreads, hreads.took.laid⟩

theorem ok_localDecl {word : TokenKind} (hs : s.Tidy source) (hfuel : 16 * s.ahead.length ≤ fuel) :
    Ok (localDecl fuel word) s fun d s' =>
      Reads source s d.exprs s' ∧ Laid source s.lo s'.hi [d.span] := by
  refine Ok.ite (fun _ => ?_) fun _ => Ok.ite (fun _ => ?_) fun _ => ?_
  · exact (ok_constDecl hs hfuel).bind fun d s₁ h₁ => Ok.pure h₁
  · exact (ok_typeDecl hs hfuel).bind fun d s₁ h₁ => Ok.pure h₁
  · exact ((exprSpecs fuel).varDecl hs hfuel).bind fun d s₁ h₁ => Ok.pure h₁

theorem ok_sectionDecls {word : TokenKind} (hs : s.Tidy source)
    (hfuel : 16 * s.ahead.length + 1 ≤ fuel) :
    Ok (sectionDecls fuel word) s fun ds s' =>
      Declares source s (ds.flatMap LocalDecl.exprs) (ds.map LocalDecl.span) s' := by
  induction fuel generalizing s with
  | zero => exact absurd hfuel (not_paid hs _)
  | succ fuel ih =>
    unfold sectionDecls
    refine Ok.ifAt (fun _ => ?_) (Ok.pure (.none (.stay hs)))
    refine (ok_localDecl hs (by omega)).bind fun d s₁ ⟨h₁, hlaid⟩ => ?_
    have hlen₁ := h₁.fewer
    refine (ih h₁.tidy (by omega)).bind fun ds s₂ h₂ => Ok.pure ?_
    exact Declares.append ⟨h₁.toMayRead, hlaid⟩ h₂

theorem ne_endOfFile_of_mem {ks : List TokenKind} {k : TokenKind} (hk : k ∈ ks)
    (hks : .endOfFile ∉ ks) : k ≠ .endOfFile := by
  rintro rfl
  exact hks hk

theorem ok_localSections (hs : s.Tidy source) (hfuel : 16 * s.ahead.length ≤ fuel) :
    Ok (localSections fuel) s fun ds s' =>
      MayRead source s (ds.flatMap LocalDecl.exprs) s' := by
  induction fuel generalizing s with
  | zero => exact absurd hfuel (not_paid hs 0)
  | succ fuel ih =>
    unfold localSections
    refine Ok.ifAtAny (fun hword => ?_) (Ok.ifAtAny (fun _ => Ok.fail fun _ _ => by simp)
      (Ok.pure hs.mayRead))
    refine (ok_advance hs (ne_endOfFile_of_mem hword (by decide))).bind fun t s₁ ⟨_, h₁⟩ => ?_
    have hlen₁ := h₁.fewer
    refine (ok_sectionDecls h₁.tidy (by omega)).bind fun ds s₂ h₂ => ?_
    have hlen₂ := h₂.reads.length_le
    refine (ih h₂.reads.tidy (by omega)).bind fun rest s₃ h₃ => Ok.pure ?_
    rw [List.flatMap_append]
    exact ((h₁.before_reads h₂.reads).append h₃).toMayRead

theorem ok_routine {withBodies : Bool} (hs : s.Tidy source) (hne : s.next.kind ≠ .endOfFile)
    (hfuel : 16 * s.ahead.length ≤ fuel) :
    Ok (routine fuel withBodies) s fun d s' =>
      Reads source s d.exprs s' ∧ Laid source s.lo s'.hi [d.span] := by
  unfold routine
  refine Ok.peek (((exprSpecs fuel).header true hs hne hfuel).bind fun h s₁ h₁ => ?_)
  have hlen₁ := h₁.fewer
  have hplain : Ok (return RoutineDecl.mk h [] none (← spanFrom s.next.span)) s₁ fun d s' =>
      Reads source s d.exprs s' ∧ Laid source s.lo s'.hi [d.span] := by
    refine Ok.spanFrom (Ok.pure ⟨?_, h₁.took.laid⟩)
    simpa [RoutineDecl.exprs, bodyExprs] using h₁
  refine Ok.atAny fun _ _ => Ok.ite (fun _ => ?_) fun _ => hplain
  refine (ok_localSections h₁.tidy (by omega)).bind fun locals s₂ h₂ => ?_
  have hlen₂ := h₂.length_le
  refine ((stmtSpecs fuel).block h₂.tidy (by omega)).bind fun body s₃ ⟨h₃, _⟩ => ?_
  refine (ok_semicolon h₃.tidy).bind fun _ s₄ h₄ => Ok.spanFrom (Ok.pure ?_)
  have hreads := (h₁.append h₂).append (h₃.then (.took h₄)).toMayRead
  exact ⟨hreads, hreads.took.laid⟩

theorem ok_decls {withBodies : Bool} (hs : s.Tidy source)
    (hfuel : 16 * s.ahead.length + 1 ≤ fuel) :
    Ok (decls fuel withBodies) s fun ds s' =>
      Declares source s (ds.flatMap Decl.exprs) (ds.map Decl.span) s' := by
  induction fuel generalizing s with
  | zero => exact absurd hfuel (not_paid hs _)
  | succ fuel ih =>
    unfold decls
    refine Ok.ifAtAny (fun hword => ?_) (Ok.ifAtAny (fun hword => ?_)
      (Ok.pure (.none (.stay hs))))
    · refine (ok_advance hs (ne_endOfFile_of_mem hword (by decide))).bind fun t s₁ ht => ?_
      have h₁ := ht.2
      have hlen₁ := h₁.fewer
      refine (ok_sectionDecls h₁.tidy (by omega)).bind fun ds s₂ h₂ => ?_
      have hlen₂ := h₂.reads.length_le
      refine (ih h₂.reads.tidy (by omega)).bind fun rest s₃ h₃ => Ok.pure ?_
      have hall := (Declares.none (.took h₁)).append (h₂.append h₃)
      simpa [List.flatMap_map, Decl.exprs, Decl.span, Function.comp_def] using hall
    · have hne := ne_endOfFile_of_mem hword (by decide)
      refine (ok_routine hs hne (by omega)).bind fun r s₁ hr => ?_
      obtain ⟨h₁, hlaid⟩ := hr
      have hlen₁ := h₁.fewer
      refine (ih h₁.tidy (by omega)).bind fun rest s₂ h₂ => Ok.pure ?_
      exact Declares.append ⟨h₁.toMayRead, hlaid⟩ h₂

theorem ok_uses (hs : s.Tidy source) (hfuel : 16 * s.ahead.length ≤ fuel) :
    Ok (uses fuel) s fun ids s' =>
      Passed source s s' ∧ Laid source s.lo s'.hi (ids.map (·.span)) := by
  refine Ok.ifAcceptWord hs (fun s₁ h₁ => ?_) (Ok.pure ⟨.stay hs, .nil⟩)
  have hlen₁ := h₁.fewer
  refine (ok_identList h₁.tidy (by omega)).bind fun ids s₂ ⟨h₂, hids⟩ => ?_
  refine (ok_semicolon h₂.tidy).bind fun _ s₃ h₃ => Ok.pure ⟨?_, ?_⟩
  · exact .took ((h₁.trans h₂).trans h₃)
  · exact hids.mono (Passed.took h₁).lo_le h₃.hi_le

theorem ok_finish (hs : s.Tidy source) : Ok finish s fun _ s' => Took source s s' := by
  refine (ok_expectPunct hs).bind fun _ s₁ h₁ => Ok.ifAt (fun _ => Ok.pure h₁) ?_
  exact Ok.fail fun _ _ => by simp

end Parser

/-! ## Files -/

/-- The spans of a file are in order. -/
structure File.WellSpanned (source : SourceFile) (f : File) : Prop where
  whole : Laid source 0 source.content.length [f.span]
  name : Laid source f.span.start f.span.stop [f.name.span]
  interface : Laid source f.span.start f.span.stop (f.interface.map Decl.span)
  implementation : Laid source f.span.start f.span.stop (f.implementation.map Decl.span)
  uses : ∀ u ∈ f.allUses, Laid source f.span.start f.span.stop [u.span]
  body : ∀ b ∈ f.body, Laid source f.span.start f.span.stop [b.span]
  nested : ∀ x ∈ f.exprs, x.Nested

namespace Parser

open Input

variable {source : SourceFile} {fuel : Nat} {s s' s₁ s₂ : Input} {spans : List Span}

theorem laid_between (h : Laid source s₁.lo s₂.hi spans) (h₁ : Passed source s s₁)
    (h₂ : Passed source s₂ s') : Laid source s.lo s'.hi spans :=
  h.mono h₁.lo_le h₂.hi_le

theorem hi_le_length (h : s.Tidy source) : s.hi ≤ source.content.length := by
  have hsound := h.sound _ h.next_mem
  exact Nat.le_trans h.behind (Nat.le_trans hsound.le hsound.le_length)

theorem wellSpanned {f : File} (h : Took source s s')
    (hspan : f.span = s.next.span.cover s'.last) (hname : Laid source s.lo s'.hi [f.name.span])
    (hinterface : Laid source s.lo s'.hi (f.interface.map Decl.span))
    (himplementation : Laid source s.lo s'.hi (f.implementation.map Decl.span))
    (huses : ∀ u ∈ f.allUses, Laid source s.lo s'.hi [u.span])
    (hbody : ∀ b ∈ f.body, Laid source s.lo s'.hi [b.span]) (hnested : ∀ x ∈ f.exprs, x.Nested) :
    f.WellSpanned source := by
  rw [h.cover] at hspan
  constructor
  · rw [hspan]
    exact .single rfl h.lo_lt (Nat.zero_le _) (hi_le_length h.tidy)
  · rw [hspan]
    exact hname
  · rw [hspan]
    exact hinterface
  · rw [hspan]
    exact himplementation
  · rw [hspan]
    exact huses
  · rw [hspan]
    exact hbody
  · exact hnested

theorem laid_name {ids : List Ident} {lo hi : Nat} (h : Laid source lo hi (ids.map (·.span)))
    {u : Ident} (hu : u ∈ ids) : Laid source lo hi [u.span] := by
  have hmem : u.span ∈ ids.map (·.span) := List.mem_map_of_mem hu
  exact .single (h.file _ hmem) (h.nonempty _ hmem) (h.lo_le _ hmem) (h.le_hi _ hmem)

theorem ok_program (hs : s.Tidy source) (hne : s.next.kind ≠ .endOfFile)
    (hfuel : 16 * s.ahead.length ≤ fuel) :
    Ok (program fuel s.next.span) s fun f _ => f.WellSpanned source := by
  unfold program
  refine (ok_advance hs hne).bind fun _ s₁ ⟨_, h₁⟩ => ?_
  refine (ok_ident h₁.tidy).bind fun name s₂ ⟨h₂, hname⟩ => ?_
  refine (ok_semicolon h₂.tidy).bind fun _ s₃ h₃ => ?_
  have htook := (h₁.trans h₂).trans h₃
  have hlen₃ := htook.fewer
  refine (ok_uses h₃.tidy (by omega)).bind fun used s₄ ⟨h₄, hused⟩ => ?_
  have hlen₄ := h₄.length_le
  refine (ok_decls h₄.tidy (by omega)).bind fun ds s₅ h₅ => ?_
  have hlen₅ := h₅.reads.length_le
  refine ((stmtSpecs fuel).block h₅.reads.tidy (by omega)).bind fun body s₆ ⟨h₆, hbody⟩ => ?_
  refine (ok_finish h₆.tidy).bind fun _ s₇ h₇ => Ok.spanFrom (Ok.pure ?_)
  have to₆ : Passed source s₆ s₇ := .took h₇
  have to₅ := h₆.passed.trans to₆
  have to₄ := h₅.reads.passed.trans to₅
  have hexprs := h₅.reads.append h₆.toMayRead
  apply wellSpanned (htook.then (h₄.trans to₄)) rfl
  · exact laid_between hname (.took h₁) (.trans (.took h₃) (h₄.trans to₄))
  · exact .nil
  · exact laid_between h₅.laid (.trans (.took htook) h₄) to₅
  · intro u hu
    have hu : u ∈ used := by simpa [File.allUses] using hu
    exact laid_name (laid_between hused (.took htook) to₄) hu
  · rintro b hb
    obtain rfl : body = b := by simpa using hb
    exact laid_between hbody (Passed.trans (.took htook) (h₄.trans h₅.reads.passed)) to₆
  · simpa [File.exprs, bodyExprs] using hexprs.nested

theorem ok_initialization (hs : s.Tidy source) (hfuel : 16 * s.ahead.length ≤ fuel) :
    Ok (initialization fuel) s fun body s' => MayRead source s (bodyExprs body) s' ∧
      ∀ b ∈ body, Laid source s.lo s'.hi [b.span] := by
  refine Ok.ifAt (fun hword => ?_) (Ok.ifAt (fun _ => ?_) ?_)
  · refine (ok_advance hs (by rw [hword]; simp)).bind fun t s₁ ⟨ht, h₁⟩ => ?_
    subst ht
    have hlen₁ := h₁.fewer
    dsimp only
    refine ((stmtSpecs fuel).stmtList _ h₁.tidy (by omega)).bind fun body s₂ h₂ => ?_
    refine (ok_expectWord h₂.tidy).bind fun _ s₃ h₃ => Ok.spanFrom (Ok.pure ⟨?_, ?_⟩)
    · exact (h₁.before_reads (h₂.then_took h₃).toMayRead).toMayRead
    · rintro b hb
      obtain rfl := Option.mem_some_iff.mp hb
      exact (h₁.before_reads (h₂.then_took h₃).toMayRead).took.laid
  · refine ((stmtSpecs fuel).block hs hfuel).bind fun b s₁ ⟨h₁, hlaid⟩ => Ok.pure ⟨?_, ?_⟩
    · exact h₁.toMayRead
    · rintro b' hb
      obtain rfl := Option.mem_some_iff.mp hb
      exact hlaid
  · refine (ok_expectWord hs).bind fun _ s₁ h₁ => Ok.pure ⟨h₁.reads.toMayRead, ?_⟩
    rintro b hb
    cases hb

theorem ok_unit (hs : s.Tidy source) (hne : s.next.kind ≠ .endOfFile)
    (hfuel : 16 * s.ahead.length ≤ fuel) :
    Ok (unit fuel s.next.span) s fun f _ => f.WellSpanned source := by
  unfold unit
  refine (ok_advance hs hne).bind fun _ s₁ ⟨_, h₁⟩ => ?_
  refine (ok_ident h₁.tidy).bind fun name s₂ ⟨h₂, hname⟩ => ?_
  refine (ok_semicolon h₂.tidy).bind fun _ s₃ h₃ => ?_
  refine (ok_expectWord h₃.tidy).bind fun _ s₄ h₄ => ?_
  have htook := ((h₁.trans h₂).trans h₃).trans h₄
  have hlen₄ := htook.fewer
  refine (ok_uses h₄.tidy (by omega)).bind fun used s₅ ⟨h₅, hused⟩ => ?_
  have hlen₅ := h₅.length_le
  refine (ok_decls h₅.tidy (by omega)).bind fun interface s₆ h₆ => ?_
  have hlen₆ := h₆.reads.length_le
  refine (ok_expectWord h₆.reads.tidy).bind fun _ s₇ h₇ => ?_
  have hlen₇ := h₇.fewer
  refine (ok_uses h₇.tidy (by omega)).bind fun implUses s₈ ⟨h₈, himplUses⟩ => ?_
  have hlen₈ := h₈.length_le
  refine (ok_decls h₈.tidy (by omega)).bind fun implementation s₉ h₉ => ?_
  have hlen₉ := h₉.reads.length_le
  refine (ok_initialization h₉.reads.tidy (by omega)).bind fun body s₁₀ ⟨h₁₀, hbody⟩ => ?_
  refine (ok_finish h₁₀.tidy).bind fun _ s₁₁ h₁₁ => Ok.spanFrom (Ok.pure ?_)
  have to₁₀ : Passed source s₁₀ s₁₁ := .took h₁₁
  have to₉ := h₁₀.passed.trans to₁₀
  have to₈ := h₉.reads.passed.trans to₉
  have to₆ := Passed.trans (.took h₇) (h₈.trans to₈)
  have to₅ := h₆.reads.passed.trans to₆
  have from₅ : Passed source s s₅ := .trans (.took htook) h₅
  have from₇ := from₅.trans (h₆.reads.passed.trans (.took h₇))
  have from₈ := from₇.trans h₈
  have hexprs := ((h₆.reads.then_took h₇).then h₈).append (h₉.reads.append h₁₀)
  apply wellSpanned (htook.then (h₅.trans to₅)) rfl
  · exact laid_between hname (.took h₁) (.trans (.took (h₃.trans h₄)) (h₅.trans to₅))
  · exact laid_between h₆.laid from₅ to₆
  · exact laid_between h₉.laid from₈ to₉
  · intro u hu
    rcases List.mem_append.mp hu with hu | hu
    · exact laid_name (laid_between hused (.took htook) to₅) hu
    · exact laid_name (laid_between himplUses from₇ to₈) hu
  · exact fun b hb => laid_between (hbody b hb) (from₈.trans h₉.reads.passed) to₁₀
  · simpa [File.exprs] using hexprs.nested

theorem ok_file (hs : s.Tidy source) (hfuel : 16 * s.ahead.length ≤ fuel) :
    Ok (file fuel) s fun f _ => f.WellSpanned source := by
  unfold file
  refine Ok.peek ?_
  dsimp only
  refine Ok.ifAt (fun hword => ?_) (Ok.ifAt (fun hword => ?_) (Ok.fail fun _ _ => by simp))
  · exact ok_program hs (by rw [hword]; simp) hfuel
  · exact ok_unit hs (by rw [hword]; simp) hfuel

end Parser

/-! ## Checks -/

namespace File

variable {source : SourceFile} {f : File}

theorem within_of_laid {r : Span} {file : Span} (hfile : file.file = source.id)
    (h : Laid source file.start file.stop [r]) : within r file = true := by
  have hr : r ∈ [r] := List.mem_singleton_self r
  simp [within, (h.file r hr).trans hfile.symm, h.lo_le r hr, h.le_hi r hr]

theorem checkName_ok {id : Ident} {file : Span} (hfile : file.file = source.id)
    (h : Laid source file.start file.stop [id.span]) : checkName file id = .ok () := by
  have hlt := h.nonempty _ (List.mem_singleton_self _)
  unfold checkName
  rw [if_neg (Nat.not_le.mpr hlt), if_neg (by simp [within_of_laid hfile h])]

theorem checkDecls_ok {file : Span} (hfile : file.file = source.id) {ds : List Decl}
    (h : Laid source file.start file.stop (ds.map Decl.span)) {i previous : Nat}
    (hprevious : ∀ d ∈ ds, previous ≤ d.span.start) :
    checkDecls file i previous ds = .ok () := by
  induction ds generalizing i previous with
  | nil => rfl
  | cons d ds ih =>
    have hd : d.span ∈ (d :: ds).map Decl.span := List.mem_cons_self
    have hlt := h.nonempty _ hd
    have hlaid : Laid source file.start file.stop [d.span] :=
      .single (h.file _ hd) hlt (h.lo_le _ hd) (h.le_hi _ hd)
    have hle := hprevious d List.mem_cons_self
    unfold checkDecls
    rw [if_neg (Nat.not_le.mpr hlt), if_neg (by simp [within_of_laid hfile hlaid]),
      if_neg (Nat.not_lt.mpr hle)]
    have hordered := List.pairwise_cons.mp h.ordered
    refine ih ⟨?_, ?_, ?_, ?_, hordered.2⟩ fun d' hd' => ?_
    · exact fun r hr => h.file r (List.mem_cons_of_mem _ hr)
    · exact fun r hr => h.nonempty r (List.mem_cons_of_mem _ hr)
    · exact fun r hr => h.lo_le r (List.mem_cons_of_mem _ hr)
    · exact fun r hr => h.le_hi r (List.mem_cons_of_mem _ hr)
    · exact Nat.le_trans (Nat.le_of_lt hlt) (hordered.1 _ (List.mem_map_of_mem hd'))

theorem checkUses_ok {file : Span} (hfile : file.file = source.id) {us : List Ident}
    (h : ∀ u ∈ us, Laid source file.start file.stop [u.span]) : checkUses file us = .ok () := by
  induction us with
  | nil => rfl
  | cons u us ih =>
    unfold checkUses
    rw [checkName_ok hfile (h u List.mem_cons_self)]
    exact ih fun v hv => h v (List.mem_cons_of_mem u hv)

theorem WellSpanned.checkSpans (h : f.WellSpanned source) : f.checkSpans source = .ok () := by
  have hf : f.span ∈ [f.span] := List.mem_singleton_self _
  have hfile := h.whole.file _ hf
  have hlt := h.whole.nonempty _ hf
  have hle := h.whole.le_hi _ hf
  unfold File.checkSpans
  rw [if_neg (Nat.not_le.mpr hlt), if_neg (by simpa using hfile), if_neg (Nat.not_lt.mpr hle),
    checkName_ok hfile h.name, checkDecls_ok hfile h.interface fun _ _ => Nat.zero_le _,
    checkDecls_ok hfile h.implementation fun _ _ => Nat.zero_le _, checkUses_ok hfile h.uses]
  cases hbody : f.body with
  | none => rfl
  | some b =>
    have hwithin := within_of_laid hfile (h.body b hbody)
    simp [hwithin]
    rfl

end File

/-! ## Parsing a text -/

theorem tokens_errors (l : Lexer) : ∀ d ∈ l.tokens.2, d.isError = true := by
  have hstep : ∀ l : Lexer, ∀ d ∈ l.step.errors, d.isError = true := by
    intro l d hd
    have herror : ∃ start stop e, d = Lexer.diagnostic l.file start stop e := by
      unfold Lexer.step at hd
      dsimp only at hd
      split at hd
      · obtain ⟨place, -, rfl⟩ := List.mem_map.mp hd
        exact ⟨_, _, _, rfl⟩
      · rcases List.mem_append.mp hd with hd | hd
        · obtain ⟨place, -, rfl⟩ := List.mem_map.mp hd
          exact ⟨_, _, _, rfl⟩
        · obtain ⟨e, -, rfl⟩ := List.mem_map.mp hd
          exact ⟨_, _, _, rfl⟩
    obtain ⟨start, stop, e, rfl⟩ := herror
    rfl
  induction l using Lexer.tokens.induct with
  | case1 l s hend =>
    rw [Lexer.tokens, dif_pos hend]
    exact hstep l
  | case2 l s hkind words errors htokens ih =>
    rw [Lexer.tokens, dif_neg hkind]
    exact List.forall_mem_append.mpr ⟨hstep l, ih⟩

theorem tidy_start {source : SourceFile} {words : List Token} {last : Token}
    {errors : List Diagnostic} (h : Lexer.Tiles source.content source.id 0 words last errors)
    {s : Input} (hahead : s.ahead = words ++ [last]) (heof : s.eof = last) (hlast : s.last = {}) :
    s.Tidy source := by
  have hend := h.last_eq
  refine ⟨?_, ?_, ?_, ?_, ?_, ?_⟩
  · rw [hahead]
    refine List.forall_mem_append.mpr ⟨fun t ht => ?_, List.forall_mem_singleton.mpr ?_⟩
    · have hword := h.word t ht
      exact ⟨hword.file_eq, Nat.le_of_lt hword.start_lt, hword.stop_le, fun _ => hword.start_lt⟩
    · rw [hend]
      exact ⟨rfl, Nat.le_refl _, Nat.le_refl _, fun hne => absurd rfl hne⟩
  · rw [hahead]
    refine List.pairwise_append.mpr ⟨h.ordered, List.pairwise_singleton _ _, fun t ht u hu => ?_⟩
    obtain rfl := List.mem_singleton.mp hu
    rw [hend]
    exact (h.word t ht).stop_le
  · rw [hahead, heof, List.getLast?_append]
    rfl
  · rw [heof, hend]
  · rw [hlast]
  · unfold Input.hi
    rw [hlast]
    exact Nat.zero_le _

theorem ofTokens_spec {source : SourceFile} {tokens : List Token}
    (named : ∀ t ∈ tokens, t.Named) (h : source.tokenize.1 = tokens) :
    (∀ f, File.ofTokens tokens named = .ok f → f.WellSpanned source) ∧
      ∀ e, File.ofTokens tokens named = .error e → ∀ t, e ≠ .nestingTooDeep t := by
  obtain ⟨words, last, hwords, htiles⟩ := source.tokenize_tiles
  have htokens : tokens = words ++ [last] := h.symm.trans hwords
  unfold File.ofTokens
  split
  case h_1 hnone =>
    rw [htokens, List.getLast?_append] at hnone
    cases hnone
  case h_2 eof heof =>
    obtain rfl : last = eof := by
      rw [htokens, List.getLast?_append] at heof
      exact Option.some.inj heof
    have hmany : 16 * tokens.length ≤ Parser.enoughFuel tokens.length := by
      unfold Parser.enoughFuel
      omega
    exact (Parser.ok_file (tidy_start htiles htokens rfl rfl) hmany).result

theorem parse_cases (source : SourceFile) :
    (source.tokenize.2 ≠ [] ∧ File.parse source = ⟨none, source.tokenize.2⟩) ∨
    (∃ e : SyntaxError, source.tokenize.2 = [] ∧ File.parse source = ⟨none, [e.diagnostic]⟩ ∧
      ∀ t, e ≠ .nestingTooDeep t) ∨
    ∃ f : File, source.tokenize.2 = [] ∧ File.parse source = ⟨some f, []⟩ ∧
      f.WellSpanned source := by
  obtain ⟨hfile, herror⟩ := ofTokens_spec source.tokenize_named rfl
  unfold File.parse
  dsimp only
  by_cases hclean : source.tokenize.2 = []
  · rw [hclean, List.isEmpty_nil, if_pos rfl]
    cases hparse : File.ofTokens source.tokenize.1 source.tokenize_named with
    | error e => exact .inr (.inl ⟨e, rfl, rfl, herror e hparse⟩)
    | ok f => exact .inr (.inr ⟨f, rfl, rfl, hfile f hparse⟩)
  · rw [if_neg (by simpa using hclean)]
    exact .inl ⟨hclean, rfl⟩

/-- A text either parses or has errors, and if its tokens are in order then just one, which is found
at a token and is never a want of fuel. In a file that parses, the spans of the file, its names,
declarations and body pass all checks, and the parts of every expression, at any depth, lie in it
and follow one another. -/
theorem parsed_spans_are_sound (source : SourceFile) :
    ((File.parse source).file = none ↔ (File.parse source).errors ≠ []) ∧
    (∀ d ∈ (File.parse source).errors, d.isError = true) ∧
    (source.tokenize.2 = [] → (File.parse source).file = none →
      ∃ e : SyntaxError, (File.parse source).errors = [e.diagnostic] ∧
        ∀ t, e ≠ .nestingTooDeep t) ∧
    ∀ f, (File.parse source).file = some f →
      f.checkSpans source = .ok () ∧ ∀ x, f.Contains x → x.Orderly := by
  obtain ⟨hne, hparse⟩ | ⟨e, hclean, hparse, hproper⟩ | ⟨f, hclean, hparse, hspans⟩ :=
    parse_cases source
  · rw [hparse]
    refine ⟨by simpa using hne, tokens_errors _, fun hnil => absurd hnil hne, fun f hf => ?_⟩
    cases hf
  · rw [hparse]
    refine ⟨by simp, ?_, fun _ _ => ⟨e, rfl, hproper⟩, fun f hf => ?_⟩
    · exact List.forall_mem_singleton.mpr rfl
    · cases hf
  · rw [hparse]
    refine ⟨by simp, by simp, fun _ hnone => ?_, fun g hg => ?_⟩
    · cases hnone
    · obtain rfl := Option.some.inj hg
      exact ⟨hspans.checkSpans, fun x hx => (hx.nested hspans.nested).orderly⟩

/-- The span of the sum does not reach the parentheses around it. -/
example : (File.parse { (default : SourceFile) with
    content := utf8 "program p; begin x := (1 + 2) * 3 end." }).file.map
    (fun f => f.exprs.map fun x => (x.span.start, x.span.stop, x.parts.map (·.span.start))) =
      some [(17, 18, []), (23, 33, [23, 32])] := by
  decide +kernel

end Pascaline.Tree
