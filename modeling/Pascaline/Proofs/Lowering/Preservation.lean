import Pascaline.Proofs.Lowering.Statements

/-!
# Lowering preserves meaning

The code of a routine without calls, fields and arrays returns with what the routine means in its
variables, meets the fault that it means, or runs on for ever if it means nothing.

A `case` keeps its subject in a hidden slot. The labels are tested in order, and the bodies of the
arms stand in blocks of their own behind the tests.
-/

namespace Pascaline

namespace Bound

/-- The block of the first arm with an equal label. -/
def chosen (v : Value) : List CaseArm → List Nat → Option Nat
  | .arm labels _ :: arms, block :: blocks =>
    if labels.any v.equal then some block else chosen v arms blocks
  | _, _ => none

theorem execArms_of_none {types : TypeTable} {rounds : Nat} {v : Value} {arms : List CaseArm}
    {blocks : List Nat} {otherwise : Store → Option Flow} {st : Store}
    (hlength : blocks.length = arms.length) (h : chosen v arms blocks = none) :
    execArms types rounds v arms otherwise st = otherwise st := by
  induction arms generalizing blocks with
  | nil => rw [execArms]
  | cons arm arms ih =>
    obtain ⟨labels, body⟩ := arm
    cases blocks with
    | nil => cases hlength
    | cons block blocks =>
      rw [chosen] at h
      split at h
      · cases h
      case isFalse hlabels =>
        rw [execArms, if_neg hlabels]
        exact ih (Nat.succ.inj hlength) h

end Bound

namespace Target

open Site Builder Lower

variable {t : Target} {b b' b₀ b₁ : Builder} {s s' s₁ : Spot} {st : Store} {v : Value}
  {ops : List Value} {k n : Nat} {ctx : LowerContext}

/-! ## The tests -/

/-- The comparison with one label. -/
def testLabel (subject : Nat) (sp : Span) (label : Value) : Lower Unit := do
  emit .loadLocal subject 0 sp
  constant label sp
  op .eq sp

theorem testLabels_cons {subject arm : Nat} {sp : Span} {label : Value} {labels : List Value}
    (h : testLabels subject arm sp (label :: labels) b = .ok ((), b')) :
    ∃ b₁, testLabel subject sp label b.addBlock = .ok ((), b₁) ∧
      testLabels subject arm sp labels
        ((b₁.branch arm b.blocks.size sp.start).goTo b.blocks.size) = .ok ((), b') := by
  rw [testLabels, bind_eq (newBlock_eq _), bind_eq (emit_eq _ _ _ _ _), bind_eq (constant_eq _ _ _),
    bind_eq (op_eq _ _ _), bind_eq (branch_eq _ _ _ _), bind_eq (goTo_eq _ _)] at h
  refine ⟨_, ?_, h⟩
  rw [testLabel, bind_eq (emit_eq _ _ _ _ _), bind_eq (constant_eq _ _ _), op_eq]

theorem leads_testLabel {subject : Nat} {sp : Span} {label : Value} (hlabel : t.pool.Exact label)
    (h : testLabel subject sp label b = .ok ((), b')) (hb : b.current < b.blocks.size) :
    BuiltExpr b b' ∧ (b.Open → t.Holds b' → ∀ {s : Spot} {v : Value}, s.locals[subject]? = some v →
      t.Leads (s.on b []) (s.on b' [.ofBool (v.equal label)])) := by
  rw [testLabel, bind_eq (emit_eq _ _ _ _ _), bind_eq (constant_eq _ _ _), op_eq] at h
  obtain rfl := ok_inj h
  have hload := (BuiltExpr.refl hb).emit (i := ⟨.loadLocal, subject, 0, sp.start⟩) rfl
  have hconst := (hload.addConst label).emit (i := ⟨.const,
    (((b.emit ⟨.loadLocal, subject, 0, sp.start⟩).pool.addConst label).1 : Nat), 0, sp.start⟩) rfl
  refine ⟨hconst.emit rfl, ?_⟩
  intro hopen ht s v hv
  have htconst := ht.of_le (Le.emit _ _)
  have htload := htconst.of_le ((Le.addConst _ _).trans (Le.emit _ _))
  have hleads : t.Leads (s.on b []) _ := leads_loadLocal hopen hv htload
  have hleads' : t.Leads (s.on _ [v]) _ := leads_const (hload.opens hopen) hlabel htconst
  have hleads'' : t.Leads (s.on _ [label, v]) (s.on _ [.ofBool (v.equal label)]) :=
    leads_emit (hconst.opens hopen) ht fun hi => hop_relation rfl rfl rfl hi rfl
  exact (hleads.trans hleads').trans hleads''

/-- What the tests for a subject do: they lead to a block, or to their end. -/
structure Selects (t : Target) (b b' : Builder) (subject : Nat) (choice : Value → Option Nat) : Prop
    extends BuiltExpr b b' where
  selects : b.Open → t.Holds b' → ∀ {s : Spot} {v : Value}, s.locals[subject]? = some v →
    t.Leads (s.on b []) (((choice v).map (start s · [])).getD (s.on b' []))

theorem selects_labels {subject arm : Nat} {sp : Span} {labels : List Value}
    (hlabels : ∀ v ∈ labels, t.pool.Exact v) (h : testLabels subject arm sp labels b = .ok ((), b'))
    (hb : b.current < b.blocks.size) :
    t.Selects b b' subject fun v => if labels.any v.equal then some arm else none := by
  induction labels generalizing b with
  | nil =>
    rw [testLabels] at h
    obtain ⟨-, rfl⟩ := pure_ok.mp h
    exact ⟨BuiltExpr.refl hb, fun _ _ _ _ _ => Leads.refl _⟩
  | cons label labels ih =>
    obtain ⟨b₁, h₁, h⟩ := testLabels_cons h
    have hblock := (Built.refl hb).addBlock
    obtain ⟨htest, hleads⟩ := leads_testLabel (hlabels label (by simp)) h₁ hblock.inside
    have hbranch := htest.toBuilt.branch arm b.blocks.size sp.start
    have hnext : Empty _ b.blocks.size := Empty.fresh (k := 1) hb hbranch (by omega) (by omega)
    have hrest := ih (fun v hv => hlabels v (by simp [hv])) h hnext.lt
    have hmid := (hblock.trans hbranch).goTo (Nat.le_refl _) hnext.lt
    refine ⟨⟨hmid.trans hrest.toBuilt, ?_, fun _ => hrest.opens hnext.goTo.1⟩, ?_⟩
    · rw [hrest.locals, locals_goTo, Builder.branch, locals_emit, htest.locals, locals_addBlock]
    · intro hopen ht s v hv
      have htbranch := ht.of_le ((Le.goTo _ _).trans hrest.le)
      have hleads := hleads hopen.addBlock (htbranch.of_le (Le.emit _ _)) hv
      have hhop : t.Hop (s.on b₁ [.ofBool (v.equal label)]) _ :=
        hop_branch_on (htest.opens hopen.addBlock) htbranch
      rw [on_addBlock hopen.inside] at hleads
      rw [Value.isTrue_ofBool] at hhop
      refine (hleads.trans hhop.leads).trans ?_
      cases hequal : v.equal label with
      | true =>
        simp only [List.any_cons, hequal, Bool.true_or, if_true, Option.map_some, Option.getD_some]
        exact Leads.refl _
      | false =>
        simp only [List.any_cons, hequal, Bool.false_or, Bool.false_eq_true, if_false]
        rw [start_eq_on hnext]
        exact hrest.selects hnext.goTo.1 ht hv

/-- The parts of the arms do what they should. -/
def ArmsDo (t : Target) (ctx : LowerContext) : List Bound.CaseArm → Prop
  | [] => True
  | .arm labels body :: arms => (∀ v ∈ labels, t.pool.Exact v) ∧
    t.Does (stmts ctx body) (fun k => Bound.execAll ctx.types k body) ∧ t.ArmsDo ctx arms

theorem selects_arms {subject : Nat} {sp : Span} {arms : List Bound.CaseArm} {blocks : List Nat}
    (harms : t.ArmsDo ctx arms) (h : testArms subject sp arms blocks b = .ok ((), b'))
    (hb : b.current < b.blocks.size) :
    t.Selects b b' subject fun v => Bound.chosen v arms blocks := by
  induction arms generalizing b blocks with
  | nil =>
    rw [testArms] at h
    · obtain ⟨-, rfl⟩ := pure_ok.mp h
      exact ⟨BuiltExpr.refl hb, fun _ _ _ _ _ => by simpa [Bound.chosen] using Leads.refl _⟩
    · simp
  | cons arm arms ih =>
    obtain ⟨labels, body⟩ := arm
    cases blocks with
    | nil =>
      rw [testArms] at h
      · obtain ⟨-, rfl⟩ := pure_ok.mp h
        exact ⟨BuiltExpr.refl hb, fun _ _ _ _ _ => by simpa [Bound.chosen] using Leads.refl _⟩
      · simp
    | cons block blocks =>
      rw [testArms] at h
      obtain ⟨_, b₁, h₁, h⟩ := bind_ok.mp h
      have hlabels := selects_labels harms.1 h₁ hb
      have hrest := ih harms.2.2 h hlabels.inside
      refine ⟨hlabels.toBuiltExpr.trans hrest.toBuiltExpr, ?_⟩
      intro hopen ht s v hv
      have hleads := hlabels.selects hopen (ht.of_le hrest.le) hv
      simp only [Bound.chosen]
      split at hleads
      case isTrue hany =>
        rw [if_pos hany]
        exact hleads
      case isFalse hany =>
        rw [if_neg hany]
        exact hleads.trans (hrest.selects (hlabels.opens hopen) ht hv)

/-! ## The bodies -/

theorem armBlocks_eq (arms : List Bound.CaseArm) (b : Builder) :
    armBlocks arms b = .ok (List.range' b.blocks.size arms.length, b.addBlocks arms.length) := by
  induction arms generalizing b with
  | nil => rfl
  | cons arm arms ih =>
    rw [armBlocks, bind_eq (newBlock_eq _), bind_eq (ih _), size_addBlock, addBlocks_addBlock]
    rfl

/-- What the bodies of the arms do. The statement is built from `b₀`, and the arms before these from
there to `b`. -/
structure Bodies (t : Target) (ctx : LowerContext) (b₀ b b' : Builder) (done : Nat)
    (arms : List Bound.CaseArm) (blocks : List Nat) : Prop where
  built : Built b₀ b'
  le : Le b b'
  vacant : b'.Empty done
  ends : t.Holds b' → t.slots ≤ b₀.locals.size → ∀ {k : Nat} {st : Store} {s : Spot} {v : Value}
    {block : Nat} {otherwise : Store → Option Bound.Flow}, t.Shows st s →
      Bound.chosen v arms blocks = some block →
        t.Ends k b₀.locals.size b₀.loops (b'.goTo done) (start s block [])
          (Bound.execArms ctx.types k v arms otherwise st)

theorem bodies_nil {done : Nat} {arms : List Bound.CaseArm} {blocks : List Nat}
    (hchosen : ∀ v, Bound.chosen v arms blocks = none) (hbuilt : Built b₀ b) (hdone : b.Empty done) :
    t.Bodies ctx b₀ b b done arms blocks := by
  refine ⟨hbuilt, Le.refl b, hdone, ?_⟩
  intro _ _ k st s v block otherwise _ hblock
  rw [hchosen v] at hblock
  cases hblock

theorem bodies_arms {done : Nat} {sp : Span} {arms : List Bound.CaseArm} {blocks : List Nat}
    (harms : t.ArmsDo ctx arms) (h : armBodies ctx done sp arms blocks b = .ok ((), b'))
    (hbuilt : Built b₀ b) (hdone : b.Empty done)
    (hblocks : ∀ block ∈ blocks, b.Empty block ∧ b₀.blocks.size ≤ block)
    (hnodup : (done :: blocks).Nodup) : t.Bodies ctx b₀ b b' done arms blocks := by
  induction arms generalizing b blocks with
  | nil =>
    rw [armBodies] at h
    · obtain ⟨-, rfl⟩ := pure_ok.mp h
      exact bodies_nil (fun v => by simp [Bound.chosen]) hbuilt hdone
    · simp
  | cons arm arms ih =>
    obtain ⟨labels, body⟩ := arm
    cases blocks with
    | nil =>
      rw [armBodies] at h
      · obtain ⟨-, rfl⟩ := pure_ok.mp h
        exact bodies_nil (fun v => by simp [Bound.chosen]) hbuilt hdone
      · simp
    | cons block blocks =>
      rw [armBodies, bind_eq (goTo_eq _ _)] at h
      obtain ⟨_, b₁, h₁, h⟩ := bind_ok.mp h
      rw [bind_eq (jump_eq _ _ _)] at h
      obtain ⟨hne, hnotin, hnodup⟩ : done ≠ block ∧ block ∉ blocks ∧ (done :: blocks).Nodup := by
        simp only [List.nodup_cons, List.mem_cons, not_or] at hnodup ⊢
        exact ⟨hnodup.1.1, hnodup.2.1, hnodup.1.2, hnodup.2.2⟩
      obtain ⟨hblock, hle⟩ := hblocks block (by simp)
      have hmid := hbuilt.goTo hle hblock.lt
      have hbody := harms.2.1 h₁ hblock.lt
      have hjump := hbody.toBuilt.jump done sp.start
      have hrest := ih harms.2.2 h (hmid.trans hjump) (hdone.aside hjump hne)
        (fun block' hblock' => ⟨(hblocks block' (by simp [hblock'])).1.aside hjump
          (ne_of_mem_of_not_mem hblock' hnotin), (hblocks block' (by simp [hblock'])).2⟩) hnodup
      refine ⟨hrest.built, ((Le.goTo _ _).trans hjump.le).trans hrest.le, hrest.vacant, ?_⟩
      intro ht hslots k st s v block' otherwise hs hchosen
      rw [Bound.chosen] at hchosen
      rw [Bound.execArms]
      split at hchosen
      case isTrue hany =>
        cases hchosen
        rw [if_pos hany, start_eq_on hblock]
        have htjump := ht.of_le hrest.le
        exact (hbody.part hmid hblock.goTo.1 (htjump.of_le (Le.jump _ _ _)) hslots hs).jump htjump hrest.vacant
      case isFalse hany =>
        rw [if_neg hany]
        exact hrest.ends ht hslots hs hchosen

/-! ## The whole statement -/

theorem stmt_caseOf {subject : Bound.Expr} {arms : List Bound.CaseArm} {otherwise : List Bound.Stmt}
    {sp : Span} (h : stmt ctx (.caseOf subject arms otherwise sp) b = .ok ((), b')) :
    ∃ shape b₁ b₂ b₃ b₄ b₅, ctx.types.slotShape subject.type = .ok shape ∧
      expr ctx subject (b.addLocal shape) = .ok ((), b₁) ∧
      b₂ = b₁.emit ⟨.storeLocal, b.locals.size, 0, subject.span.start⟩ ∧
      testArms b.locals.size sp arms (List.range' (b₂.blocks.size + 1) arms.length)
        (b₂.addBlocks (arms.length + 1)) = .ok ((), b₃) ∧
      stmts ctx otherwise b₃ = .ok ((), b₄) ∧
      armBodies ctx b₂.blocks.size sp arms (List.range' (b₂.blocks.size + 1) arms.length)
        (b₄.jump b₂.blocks.size sp.start) = .ok ((), b₅) ∧
      b' = b₅.goTo b₂.blocks.size := by
  rw [stmt] at h
  obtain ⟨shape, _, hshape, h⟩ := bind_ok.mp h
  obtain ⟨heq, rfl⟩ := lift_ok.mp hshape
  rw [bind_eq (temp_eq _ _)] at h
  obtain ⟨_, b₁, hsubject, h⟩ := bind_ok.mp h
  rw [bind_eq (emit_eq _ _ _ _ _), bind_eq (newBlock_eq _), bind_eq (armBlocks_eq _ _), size_addBlock,
    addBlocks_addBlock] at h
  obtain ⟨_, b₃, htests, h⟩ := bind_ok.mp h
  obtain ⟨_, b₄, hotherwise, h⟩ := bind_ok.mp h
  rw [bind_eq (jump_eq _ _ _)] at h
  obtain ⟨_, b₅, hbodies, h⟩ := bind_ok.mp h
  rw [goTo_eq] at h
  exact ⟨shape, b₁, _, b₃, b₄, b₅, heq, hsubject, rfl, htests, hotherwise, hbodies,
    (ok_inj h).symm⟩

theorem does_case {subject : Bound.Expr} {arms : List Bound.CaseArm} {otherwise : List Bound.Stmt}
    {sp : Span} {eval : Store → Except FaultCause Value} {act : Nat → Store → Option Bound.Flow}
    (hsubject : t.Computes (expr ctx subject) eval) (harms : t.ArmsDo ctx arms)
    (hother : t.Does (stmts ctx otherwise) act) :
    t.Does (stmt ctx (.caseOf subject arms otherwise sp)) fun k st =>
      Bound.Flow.with (eval st) fun v => Bound.execArms ctx.types k v arms (act k) st := by
  intro b b' h hb
  obtain ⟨shape, b₁, b₂, b₃, b₄, b₅, -, hb₁, hb₂, hb₃, hb₄, hb₅, rfl⟩ := stmt_caseOf h
  have hsubject := hsubject hb₁ hb
  have hstore := hsubject.toBuilt.emit ⟨.storeLocal, b.locals.size, 0, subject.span.start⟩
  rw [← hb₂] at hstore
  have hopening := ((Built.refl hb).addLocal shape).trans hstore
  have hsize := hopening.origin.size
  have htests := selects_arms harms hb₃ (hopening.addBlocks _).inside
  have hmid := (hopening.addBlocks (arms.length + 1)).trans htests.toBuilt
  have hother := hother hb₄ hmid.inside
  have hjump := hother.toBuilt.jump b₂.blocks.size sp.start
  have htail := htests.toBuilt.trans hjump
  have hdone : Empty _ b₂.blocks.size := Empty.fresh hopening.inside htail (by omega) (by omega)
  have hbodies : t.Bodies ctx b (b₄.jump b₂.blocks.size sp.start) b₅ b₂.blocks.size arms
      (List.range' (b₂.blocks.size + 1) arms.length) := by
    refine bodies_arms harms hb₅ (hmid.trans hjump) hdone ?_ ?_
    · intro block hblock
      obtain ⟨hlo, hhi⟩ : b₂.blocks.size + 1 ≤ block ∧ block < b₂.blocks.size + 1 + arms.length := by
        simpa [List.mem_range'_1] using hblock
      exact ⟨Empty.fresh hopening.inside htail (by omega) (by omega), by omega⟩
    · have hnodup : (List.range' b₂.blocks.size (arms.length + 1)).Nodup := List.nodup_range'
      rwa [List.range'_succ] at hnodup
  refine ⟨hbodies.built.goTo hsize hbodies.vacant.lt, ?_⟩
  intro hopen ht hslots k st s hs
  have htbodies := ht.of_le (Le.goTo _ _)
  have htjump := htbodies.of_le hbodies.le
  have hother' := htjump.of_le (Le.jump _ _ _)
  have httests := hother'.of_le hother.le
  have htstore := httests.of_le (((Built.refl hopening.inside).addBlocks _).le.trans htests.le)
  rw [hb₂] at htstore
  have hopen₀ : (b.addLocal shape).Open := hopen.of_eq rfl rfl
  have hopen₁ := hsubject.opens hopen₀
  have hlt : b.locals.size < s.locals.size := by
    have hlocals := (htstore.of_le (Le.emit _ _)).locals
    rw [hsubject.locals, Builder.addLocal, Array.size_push] at hlocals
    rw [hs.size]
    omega
  have hyields : t.Yields (s.on b []) _ _ := hsubject.yields hopen₀ (htstore.of_le (Le.emit _ _)) hs
  refine Ends.with hyields (fun v _ => ?_) fun v => Keeps.of_eq rfl
  obtain ⟨s', hs', hst, hkeeps, hv⟩ := leads_storeHidden (v := v) hopen₁ hslots hlt hs htstore
  refine Ends.after hs' hkeeps ?_
  rw [← hb₂]
  have hopen₂ : b₂.Open := by
    rw [hb₂]
    exact hopen₁.emit rfl
  rw [← on_addBlocks hopen₂ (arms.length + 1)]
  have hleads := htests.selects (hopen₂.addBlocks _) httests hv
  cases hchosen : Bound.chosen v arms (List.range' (b₂.blocks.size + 1) arms.length) with
  | none =>
    rw [hchosen, Option.map_none, Option.getD_none] at hleads
    rw [Bound.execArms_of_none (by simp) hchosen]
    refine Ends.after hleads (Keeps.of_eq rfl) ?_
    exact (hother.part hmid (htests.opens (hopen₂.addBlocks _)) hother' hslots hst).jump htjump
      hbodies.vacant
  | some block =>
    rw [hchosen, Option.map_some, Option.getD_some] at hleads
    exact Ends.after hleads (Keeps.of_eq rfl) (hbodies.ends htbodies hslots hst hchosen)

/-! ## All statements -/

mutual

theorem does_stmt (ctx : LowerContext) : ∀ (x : Bound.Stmt), x.Plain t.slots t.pool.Exact →
    t.Does (stmt ctx x) fun k => x.exec ctx.types k
  | .assign target value sp, hx => by
    unfold stmt
    exact (does_assign hx.1 (computes_expr ctx hx.2)).congr fun k st => by rw [Bound.Stmt.exec]
  | .expr _ _, hx => hx.elim
  | .ifElse cond yes [] sp, hx =>
    (does_if (computes_expr ctx hx.1) (does_stmts ctx yes hx.2.1)).congr fun k st => by
      rw [Bound.Stmt.exec, Bound.execAll]
  | .ifElse cond yes (x :: xs) sp, hx =>
    (does_ifElse (by simp) (computes_expr ctx hx.1) (does_stmts ctx yes hx.2.1)
      (does_stmts ctx (x :: xs) hx.2.2)).congr fun k st => by rw [Bound.Stmt.exec]
  | .whileDo cond body sp, hx =>
    (does_while (computes_expr ctx hx.1) (does_stmts ctx body hx.2)).congr fun k st => by
      rw [Bound.Stmt.exec]
  | .repeatUntil body cond sp, hx =>
    (does_repeat (computes_expr ctx hx.1) (does_stmts ctx body hx.2)).congr fun k st => by
      rw [Bound.Stmt.exec]
  | .forTo var first last down body sp, hx =>
    (does_for hx.1 (computes_expr ctx hx.2.1) (computes_expr ctx hx.2.2.1)
      (does_stmts ctx body hx.2.2.2)).congr fun k st => by rw [Bound.Stmt.exec]
  | .caseOf subject arms otherwise sp, hx =>
    (does_case (computes_expr ctx hx.1) (armsDo ctx arms hx.2.1)
      (does_stmts ctx otherwise hx.2.2)).congr fun k st => by rw [Bound.Stmt.exec]
  | .exit sp, _ => by
    unfold stmt
    exact does_exit.congr fun k st => by rw [Bound.Stmt.exec]
  | .break sp, _ => by
    unfold stmt
    exact does_break.congr fun k st => by rw [Bound.Stmt.exec]
  | .continue sp, _ => by
    unfold stmt
    exact does_continue.congr fun k st => by rw [Bound.Stmt.exec]

theorem does_stmts (ctx : LowerContext) : ∀ (xs : List Bound.Stmt), Bound.PlainAll t.slots t.pool.Exact xs →
    t.Does (stmts ctx xs) fun k => Bound.execAll ctx.types k xs
  | [], _ => by
    unfold stmts
    exact does_nothing.congr fun k st => by rw [Bound.execAll]
  | x :: xs, hx => by
    unfold stmts
    exact (does_seq (does_stmt ctx x hx.1) (does_stmts ctx xs hx.2)).congr fun k st => by
      rw [Bound.execAll]

theorem armsDo (ctx : LowerContext) : ∀ (arms : List Bound.CaseArm),
    Bound.PlainArms t.slots t.pool.Exact arms → t.ArmsDo ctx arms
  | [], _ => trivial
  | .arm _ body :: arms, hx => ⟨hx.1, does_stmts ctx body hx.2.1, armsDo ctx arms hx.2.2⟩

end

end Target

/-! ## Routines -/

/-- The innermost frame of a machine executes a routine of a unit. Its first `slots` slots and the
variables of the units hold what the store says. -/
structure Machine.Executes (m : Machine) (p : Program) (unit : Nat) (code : Routine) (slots : Nat)
    (callers : List Frame) (st : Store) (f : Frame) : Prop where
  running : m.halted = false ∧ m.stopping = false
  frames : m.frames = f :: callers
  unit : f.unit = unit
  routine : f.routine = code
  size : f.locals.size = code.locals.size
  slots : ∀ i < slots, f.locals[i]? = some (st.slots i)
  globals : ∀ ref unit slot, p.globalAt? ref = some (unit, slot) →
    (m.globals[unit]?).bind (·[slot]?) = some (st.globals ref)

namespace Target

open Site Builder Lower

variable {t : Target} {b : Builder} {s : Spot} {st : Store} {m : Machine} {f : Frame}

theorem executes_of_stands (hs : t.Shows st s) (hm : t.Stands s m) :
    ∃ f, m.Executes t.program t.unit t.routine t.slots t.callers st f ∧ f.instr? = t.instrAt s := by
  obtain ⟨hhalted, hstopping, hglobals, f, hframes, hf⟩ := hm
  refine ⟨f, ⟨⟨hhalted, hstopping⟩, hframes, hf.unit, hf.routine, ?_, ?_, ?_⟩, ?_⟩
  · rw [hf.locals, hs.size]
  · rw [hf.locals]
    exact hs.slots
  · rw [hglobals]
    exact hs.globals
  · unfold Frame.instr?
    rw [hf.block, hf.routine, hf.ip, if_neg (by omega)]
    rfl

theorem stands_of_executes
    (h : m.Executes t.program t.unit t.routine t.slots t.callers st f)
    (hblock : f.block = 0) (hip : f.ip = 0) (hops : f.operands = []) :
    t.Shows st ⟨0, 0, [], f.locals, m.globals⟩ ∧ t.Stands ⟨0, 0, [], f.locals, m.globals⟩ m :=
  ⟨⟨h.size, h.slots, h.globals⟩, h.running.1, h.running.2, rfl, f, h.frames, h.unit, h.routine, hblock,
    hip, hops, rfl⟩

/-- A return is met with these variables. -/
def Returns (t : Target) (s : Spot) (st : Store) : Prop :=
  ∃ s' i, t.Leads s s' ∧ t.Shows st s' ∧ t.instrAt s' = some i ∧ i.op = .ret

theorem Ends.result {k n : Nat} {flow : Bound.Flow} (h : t.Ends k n [] b s (some flow))
    (hret : b.Open → ∀ s' : Spot, ∃ i, t.instrAt (s'.on b []) = some i ∧ i.op = .ret) :
    (∀ st, flow.result = .ok st → t.Returns s st) ∧
      ∀ c, flow.result = .error c → t.Fails s c.code := by
  rcases flow with st | st | st | st | c
  · obtain ⟨hb, s', hs', hst, -⟩ := h
    obtain ⟨i, hi, hop⟩ := hret hb s'
    exact ⟨fun st' hst' => by cases hst'; exact ⟨_, i, hs', hst.on b [], hi, hop⟩, nofun⟩
  · exact ⟨fun st' hst' => by cases hst'; exact h, nofun⟩
  · obtain ⟨l, ls, s', hloops, -⟩ := h
    cases hloops
  · obtain ⟨l, ls, s', hloops, -⟩ := h
    cases hloops
  · exact ⟨nofun, fun c' hc' => by cases hc'; exact h⟩

end Target

namespace Lower

open Builder

/-- The builder that a routine starts with. -/
def opening (pool : Pool) (locals : List Shape) : Builder :=
  { pool, locals := locals.toArray, blocks := #[#[]] }

theorem opening_open (pool : Pool) (locals : List Shape) : (opening pool locals).Open :=
  ⟨Nat.zero_lt_one, rfl⟩

theorem lowerRoutine_ok {types : TypeTable} {pool pool' : Pool} {r : Bound.Routine} {code : Routine}
    (h : CompiledUnit.lowerRoutine types pool r = .ok (code, pool')) :
    ∃ locals b, locals.length = r.slots.length ∧
      stmts ⟨types, r.name, r.result.isSome⟩ r.body (opening pool locals) = .ok ((), b) ∧
      code.locals = b.locals ∧ pool' = b.pool ∧
      code.blocks = closeAll ⟨types, r.name, r.result.isSome⟩ r.span b.blocks := by
  unfold CompiledUnit.lowerRoutine at h
  obtain ⟨locals, hlocals, h⟩ := except_bind_ok h
  obtain ⟨⟨_, b⟩, hbody, h⟩ := except_bind_ok h
  cases h
  exact ⟨locals, b, (mapM_eq_ok hlocals).length_eq.symm, hbody, rfl, rfl, rfl⟩

theorem getElem?_closeAll {ctx : LowerContext} {sp : Span} {blocks : Blocks} {i : Nat}
    {is : Array Instr} (h : blocks[i]? = some is) :
    ∃ is', (closeAll ctx sp blocks)[i]? = some is' ∧ is.toList <+: is'.toList := by
  unfold closeAll
  rw [Array.getElem?_map, h, Option.map_some]
  split
  · exact ⟨is, rfl, List.prefix_refl _⟩
  · exact ⟨_, rfl, by simp⟩

theorem ret_closeAll {b : Builder} (hb : b.Open) (ctx : LowerContext) (sp : Span) :
    ∃ i, ((closeAll ctx sp b.blocks)[b.current]?).bind (·[b.block.size]?) = some i ∧ i.op = .ret := by
  refine ⟨{ op := .ret, a := if ctx.hasResult then 1 else 0, pos := sp.stop }, ?_, rfl⟩
  unfold closeAll
  rw [Array.getElem?_map, getElem?_block hb.inside, Option.map_some, if_neg (by simp [hb.notClosed]),
    Option.bind_some]
  simp

end Lower

open Lower in
/-- What the code of a routine does with its variables is what the routine means. The condition on
constants is that none of them was taken for another one, which looks the same, in the pool. -/
theorem lowering_preserves_meaning {units : List CompiledUnit} {p : Program} {k : Nat} {u : LinkedUnit}
    {types : TypeTable} {pool pool' : Pool} {r : Bound.Routine} {code : Routine}
    {callers : List Frame} {st : Store} {m : Machine} {f : Frame}
    (hlink : Program.link units = .ok p) (hu : p.units[k]? = some u)
    (hcode : CompiledUnit.lowerRoutine types pool r = .ok (code, pool'))
    (hconsts : pool'.consts.toList <+: u.unit.pool.consts.toList)
    (hglobals : pool'.globals.toList <+: u.unit.pool.globals.toList)
    (hbody : Bound.PlainAll r.slots.length pool'.Exact r.body)
    (hm : m.Executes p k code r.slots.length callers st f)
    (hblock : f.block = 0) (hip : f.ip = 0) (hoperands : f.operands = []) :
    (∀ rounds st', r.meaning types rounds st = some (.ok st') →
      ∃ n m' f' i, p.Steps n m m' ∧ m'.Executes p k code r.slots.length callers st' f' ∧
        f'.instr? = some i ∧ i.op = .ret) ∧
    (∀ rounds c, r.meaning types rounds st = some (.error c) →
      ∃ n m' fault m'', p.Steps n m m' ∧ Exec.step p m' = .error (.fault fault) m'' ∧
        fault.cause.code = c.code) ∧
    ((∀ rounds, r.meaning types rounds st = none) →
      ∀ n, ∃ m' f', p.Steps n m m' ∧ m'.frames = f' :: callers ∧ f'.routine = code) := by
  obtain ⟨locals, b, hlocals, hstmts, hcodeLocals, rfl, hblocks⟩ := lowerRoutine_ok hcode
  let t : Target :=
    { program := p, unit := k, linked := u, found := hu, routine := code, callers,
      slots := r.slots.length, pool := b.pool, consts := hconsts,
      globals := fun i ref hi => (Program.links_of_link hlink).globals (Array.mem_of_getElem? hu)
        (getElem?_of_isPrefix hglobals hi) }
  have hopen := opening_open pool locals
  have hdoes := t.does_stmts _ r.body hbody hstmts hopen.inside
  have hholds : t.Holds b := by
    refine ⟨?_, List.prefix_refl _, List.prefix_refl _, Nat.le_of_eq (congrArg Array.size hcodeLocals.symm)⟩
    intro i is his
    show ∃ is' : Array Instr, code.blocks[i]? = some is' ∧ _
    rw [hblocks]
    exact getElem?_closeAll his
  have hslots : t.slots ≤ (opening pool locals).locals.size := by
    simp [opening, hlocals, t]
  obtain ⟨hs, hstands⟩ := Target.stands_of_executes (t := t) hm hblock hip hoperands
  have hends : ∀ rounds, t.Ends rounds _ [] b ⟨0, 0, [], f.locals, m.globals⟩
      (Bound.execAll types rounds r.body st) :=
    fun rounds => hdoes.ends hopen hholds hslots hs
  have hret : b.Open → ∀ s' : Spot, ∃ i, t.instrAt (s'.on b []) = some i ∧ i.op = .ret := by
    intro hb s'
    obtain ⟨i, hi, hop⟩ := ret_closeAll hb ⟨types, r.name, r.result.isSome⟩ r.span
    rw [← hblocks] at hi
    exact ⟨i, hi, hop⟩
  refine ⟨?_, ?_, ?_⟩
  · intro rounds st' hmeaning
    obtain ⟨flow, hflow, hresult⟩ := Option.map_eq_some_iff.mp hmeaning
    have h := hends rounds
    rw [hflow] at h
    obtain ⟨s', i, ⟨n, hpath⟩, hs', hi, hop⟩ := (h.result hret).1 st' hresult
    obtain ⟨m', hsteps, hm'⟩ := hpath.steps hstands
    obtain ⟨f', hf', hinstr⟩ := Target.executes_of_stands hs' hm'
    exact ⟨n, m', f', i, hsteps, hf', hinstr.trans hi, hop⟩
  · intro rounds c hmeaning
    obtain ⟨flow, hflow, hresult⟩ := Option.map_eq_some_iff.mp hmeaning
    have h := hends rounds
    rw [hflow] at h
    obtain ⟨n, s', hpath, hfaults⟩ := (h.result hret).2 c hresult
    obtain ⟨m', hsteps, hm'⟩ := hpath.steps hstands
    obtain ⟨fault, m'', hstep, hc⟩ := hfaults m' hm'
    exact ⟨n, m', fault, m'', hsteps, hstep, hc⟩
  · intro hmeaning n
    have h := hends n
    rw [Option.map_eq_none_iff.mp (hmeaning n)] at h
    obtain ⟨j, s', hj, hpath⟩ := h
    obtain ⟨s₁, hpath⟩ := hpath.cut hj
    obtain ⟨m', hsteps, hm'⟩ := hpath.steps hstands
    obtain ⟨f', hframes, hf'⟩ := hm'.frames
    exact ⟨m', f', hsteps, hframes, hf'.routine⟩

/-- Adds up the numbers from 1 to 4. -/
def summing : Bound.Routine :=
  { name := "sum", symbol := 0, owner := 0, span := {},
    slots := [⟨"total", TypeTable.integer⟩, ⟨"i", TypeTable.integer⟩],
    body := [
      .assign (.frameVar 0 0 TypeTable.integer {}) (.const (.int 0) TypeTable.integer {}) {},
      .forTo (.frameVar 1 1 TypeTable.integer {}) (.const (.int 1) TypeTable.integer {})
        (.const (.int 4) TypeTable.integer {}) false
        [.assign (.frameVar 0 0 TypeTable.integer {})
          (.binary .add (.frameVar 0 0 TypeTable.integer {}) (.frameVar 1 1 TypeTable.integer {})
            TypeTable.integer {}) {}] {}] }

@[irreducible] def summingCode : Routine × Pool :=
  (CompiledUnit.lowerRoutine .empty {} summing).toOption.getD default

def summingUnit : CompiledUnit :=
  { name := "sums", display := "sums", pool := summingCode.2, table := some #[summingCode.1] }

@[irreducible] def summingProgram : Program := (Program.link [summingUnit]).toOption.getD {}

/-- The third slot is hidden. -/
def summingFrame : Frame :=
  { unit := 0, name := "sum", routine := summingCode.1, locals := Array.replicate 3 (.int 7) }

def summingStart : Machine := { heap := .ofBudget 4, maxFrames := 1, frames := [summingFrame] }

def summingStore : Store := ⟨fun _ => .int 7, fun _ => .invalid⟩

theorem lowering_preserves_meaning_sum : ∃ n m' f' i, summingProgram.Steps n summingStart m' ∧
    m'.frames = [f'] ∧ f'.instr? = some i ∧ i.op = .ret ∧
    (f'.locals[0]?).map Value.number = some 10 := by
  have hlink : Program.link [summingUnit] = .ok summingProgram := by
    unfold summingProgram
    exact eq_ok_of_isSome (by decide +kernel)
  have hcode : CompiledUnit.lowerRoutine .empty {} summing = .ok (summingCode.1, summingCode.2) := by
    rw [Prod.eta]
    unfold summingCode
    exact eq_ok_of_isSome (by decide +kernel)
  have hunits : (summingProgram.units[0]?).isSome = true := by decide +kernel
  obtain ⟨u, hu⟩ := Option.isSome_iff_exists.mp hunits
  have hunit : u.unit = summingUnit := by
    have hmem := (Program.links_of_link hlink).mem_units (Array.mem_of_getElem? hu)
    simpa only [List.mem_singleton] using hmem
  have hpool : u.unit.pool = summingCode.2 := by
    rw [hunit, summingUnit]
  have hbody : Bound.PlainAll summing.slots.length summingCode.2.Exact summing.body := by
    simp [summing, Bound.PlainAll, Bound.Stmt.Plain, Bound.Expr.Plain, Bound.Expr.isVar, Pool.Exact]
  have hm : summingStart.Executes summingProgram 0 summingCode.1 summing.slots.length []
      summingStore summingFrame := by
    refine ⟨⟨rfl, rfl⟩, rfl, rfl, rfl, by decide +kernel, ?_, ?_⟩
    · intro i hi
      have hi : i < 3 := Nat.lt_of_lt_of_le hi (by decide)
      simp [summingFrame, summingStore, hi]
    · intro ref unit slot hat
      obtain ⟨j, hj, hat⟩ := Option.bind_eq_some_iff.mp hat
      rw [(Program.links_of_link hlink).units_eq] at hat
      have hempty : ([summingUnit].getD j {}).globals = [] := by cases j <;> rfl
      rw [hempty, if_pos (by simp; omega)] at hat
      cases hat
  have hmeaning : ((summing.meaning .empty 4 summingStore).bind Except.toOption).map
      (fun st => (st.slots 0).number) = some 10 := by decide +kernel
  obtain ⟨st, hst, hten⟩ := Option.map_eq_some_iff.mp hmeaning
  obtain ⟨r, hr, hst⟩ := Option.bind_eq_some_iff.mp hst
  obtain rfl : r = .ok st := by
    cases r with
    | error e => cases hst
    | ok a => cases hst; rfl
  obtain ⟨n, m', f', i, hsteps, hm', hi, hret⟩ := (lowering_preserves_meaning hlink hu hcode
    (hpool ▸ List.prefix_refl _) (hpool ▸ List.prefix_refl _) hbody hm rfl rfl rfl).1 4 st hr
  refine ⟨n, m', f', i, hsteps, hm'.frames, hi, hret, ?_⟩
  rw [hm'.slots 0 (by decide), Option.map_some]
  rw [hten]

/-- Stores both zeros. -/
def zeros : Bound.Routine :=
  { name := "zeros", symbol := 0, owner := 0, span := {},
    slots := [⟨"x", TypeTable.real⟩, ⟨"y", TypeTable.real⟩],
    body := [
      .assign (.frameVar 0 0 TypeTable.real {}) (.const (.real 0.0) TypeTable.real {}) {},
      .assign (.frameVar 1 1 TypeTable.real {}) (.const (.real (-0.0)) TypeTable.real {}) {}] }

/-- The second zero is taken for the first: the code stores one constant twice, and the meaning of the
routine is two different ones. -/
theorem lowering_merges_zeros :
    (CompiledUnit.lowerRoutine .empty {} zeros).toOption.map (fun c =>
      (c.1.blocks.map (·.map fun i => (i.op, i.a)), c.2.consts.size)) =
      some (#[#[(.const, 0), (.storeLocal, 0), (.const, 0), (.storeLocal, 1), (.ret, 0)]], 1) ∧
    ((zeros.meaning .empty 1 ⟨fun _ => .invalid, fun _ => .invalid⟩).bind Except.toOption).map
      (fun st => ((st.slots 0).asReal.toBits, (st.slots 1).asReal.toBits)) =
      some (0, 0x8000000000000000) := by
  refine ⟨by decide +kernel, by decide +kernel⟩

end Pascaline
