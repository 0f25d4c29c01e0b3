import Pascaline.Proofs.Lowering.Endings

/-!
# Code of statements

Each kind of statement does what its parts make it do. Loops go by induction over their rounds.
-/

namespace Pascaline

namespace Target

open Site Builder Lower

variable {t : Target} {b b' b₁ : Builder} {s s' s₁ : Spot} {st : Store} {v : Value}
  {ops : List Value} {k n : Nat} {loops : List LoopTarget} {ctx : LowerContext}

/-! ## Stores -/

theorem Shows.on (h : t.Shows st s) (b : Builder) (ops : List Value) : t.Shows st (s.on b ops) :=
  ⟨h.size, h.slots, h.globals⟩

theorem Shows.setSlot (h : t.Shows st s) {slot : Nat} (hslot : slot < s.locals.size) (v : Value) :
    t.Shows (st.setSlot slot v) { s with locals := s.locals.set! slot v } := by
  refine ⟨by simpa using h.size, ?_, h.globals⟩
  intro i hi
  by_cases heq : i = slot
  · subst heq
    simp [Store.setSlot, hslot]
  · simp [Store.setSlot, heq, Array.getElem?_setIfInBounds_ne (Ne.symm heq), h.slots i hi]

theorem Shows.setHidden (h : t.Shows st s) {slot : Nat} (hslot : t.slots ≤ slot) (v : Value) :
    t.Shows st { s with locals := s.locals.set! slot v } := by
  refine ⟨by simpa using h.size, ?_, h.globals⟩
  intro i hi
  have hne : slot ≠ i := by omega
  simp [Array.getElem?_setIfInBounds_ne hne, h.slots i hi]

theorem Shows.setGlobal (h : t.Shows st s) {ref : GlobalRef} {unit slot : Nat}
    (hat : t.program.globalAt? ref = some (unit, slot)) (v : Value) :
    t.Shows (st.setGlobal ref v) { s with globals := s.globals.modify unit (·.set! slot v) } := by
  refine ⟨h.size, h.slots, ?_⟩
  intro ref' unit' slot' hat'
  have hold := h.globals ref' unit' slot' hat'
  obtain ⟨row, hrow, hold⟩ := Option.bind_eq_some_iff.mp hold
  have hlt : slot' < row.size := (Array.getElem?_eq_some_iff.mp hold).1
  rw [Array.getElem?_modify, hrow]
  by_cases href : ref' = ref
  · subst href
    obtain ⟨rfl, rfl⟩ : unit' = unit ∧ slot' = slot := by simpa [hat'] using hat
    simp [Store.setGlobal, hlt]
  · have hplace : ¬(unit = unit' ∧ slot = slot') := by
      rintro ⟨rfl, rfl⟩
      exact href (Program.globalAt?_inj hat' hat)
    by_cases hunit : unit = unit'
    · have hslot : slot ≠ slot' := fun hslot => hplace ⟨hunit, hslot⟩
      simp [Store.setGlobal, href, hunit, Array.getElem?_setIfInBounds_ne hslot, hold]
    · simp [Store.setGlobal, href, hunit, hold]

/-- What a store into a variable does. -/
structure Stores (t : Target) (b b' : Builder) (var : Bound.Expr) : Prop extends BuiltExpr b b' where
  stores : b.Open → t.Holds b' → ∀ {st : Store} {s : Spot} (v : Value),
    t.Shows st s → ∃ s', t.Leads (s.on b [v]) (s'.on b' []) ∧
      t.Shows (st.put v var) s' ∧ ∀ n, t.Keeps n s s'

theorem stores_storeVar {var : Bound.Expr} (hvar : var.isVar t.slots)
    (h : storeVar ctx var b = .ok ((), b')) (hb : b.current < b.blocks.size) : t.Stores b b' var := by
  obtain ⟨name, slot, type, sp, rfl, hslot⟩ | ⟨m, slot, type, sp, rfl⟩ := Bound.Expr.isVar_cases hvar
  · rw [storeVar, emit_eq] at h
    cases h
    refine ⟨(BuiltExpr.refl hb).emit rfl, ?_⟩
    intro hopen ht st s v hs
    have hlt : slot < s.locals.size := (Array.getElem?_eq_some_iff.mp (hs.slots slot hslot)).1
    refine ⟨{ s with locals := s.locals.set! slot v }, ?_, hs.setSlot hlt v, ?_⟩
    · rw [hopen.emit_eq] at ht ⊢
      have hi : t.instrAt (s.on b [v]) = some _ := instrAt_on hopen.inside ht
      have hhop := hop_storeLocal hi rfl hlt
      rw [next_on hopen.inside] at hhop
      exact hhop.leads
    · intro n i hi hn
      have hne : slot ≠ i := by omega
      simp [Array.getElem?_setIfInBounds_ne hne]
  · rw [storeVar, bind_eq (addGlobal_eq _ _), emit_eq] at h
    cases h
    refine ⟨((BuiltExpr.refl hb).addGlobal _).emit rfl, ?_⟩
    intro hopen ht st s v hs
    have hopen' : (b.addGlobal ⟨m, slot⟩).Open := hopen.of_eq rfl rfl
    obtain ⟨⟨unit, place⟩, hplace, hat⟩ := global_place (ht.of_le (Le.emit _ _))
    refine ⟨{ s with globals := s.globals.modify unit (·.set! place v) }, ?_, hs.setGlobal hat v, ?_⟩
    · rw [hopen'.emit_eq] at ht ⊢
      have hi : t.instrAt (s.on _ [v]) = some _ := instrAt_on hopen'.inside ht
      have hhop := hop_storeGlobal hi hplace rfl
      rw [next_on hopen'.inside] at hhop
      exact hhop.leads
    · exact fun n => Keeps.of_eq rfl

theorem leads_storeHidden (hb : b.Open) {slot pos : Nat} (hslot : t.slots ≤ slot)
    (hlt : slot < s.locals.size) (hs : t.Shows st s)
    (ht : t.Holds (b.emit ⟨.storeLocal, slot, 0, pos⟩)) :
    ∃ s', t.Leads (s.on b [v]) (s'.on (b.emit ⟨.storeLocal, slot, 0, pos⟩) []) ∧
      t.Shows st s' ∧ t.Keeps slot s s' ∧ s'.locals[slot]? = some v := by
  refine ⟨{ s with locals := s.locals.set! slot v }, ?_, hs.setHidden hslot v, ?_, ?_⟩
  · rw [hb.emit_eq] at ht ⊢
    have hi : t.instrAt (s.on b [v]) = some _ := instrAt_on hb.inside ht
    have hhop := hop_storeLocal hi rfl hlt
    rw [next_on hb.inside] at hhop
    exact hhop.leads
  · intro i hi hn
    have hne : slot ≠ i := by omega
    simp [Array.getElem?_setIfInBounds_ne hne]
  · simp [hlt]

/-! ## Simple statements -/

theorem assign_eq {var value : Bound.Expr} (hvar : var.isVar n) :
    assign ctx value var = (expr ctx value >>= fun _ => storeVar ctx var) := by
  obtain ⟨name, slot, type, sp, rfl, -⟩ | ⟨m, slot, type, sp, rfl⟩ := Bound.Expr.isVar_cases hvar
  · rfl
  · rfl

theorem does_assign {var value : Bound.Expr} {eval : Store → Except FaultCause Value}
    (hvar : var.isVar t.slots) (hvalue : t.Computes (expr ctx value) eval) :
    t.Does (assign ctx value var) fun _ st => Bound.Flow.with (eval st) fun v =>
      some (.next (st.put v var)) := by
  intro b b' h hb
  rw [assign_eq hvar] at h
  obtain ⟨_, b₁, h₁, h⟩ := bind_ok.mp h
  have hbuilt := hvalue h₁ hb
  have hstore := stores_storeVar hvar h hbuilt.inside
  refine ⟨hbuilt.toBuilt.trans hstore.toBuilt, ?_⟩
  intro hopen ht hslots k st s hs
  have hopen₁ := hbuilt.opens hopen
  refine Ends.with (hbuilt.yields hopen (ht.of_le hstore.le) hs) (fun v _ => ?_) fun v => Keeps.of_eq rfl
  obtain ⟨s', hs', hst, hkeeps⟩ := hstore.stores hopen₁ ht v hs
  exact ⟨hstore.opens hopen₁, s', hs', hst, hkeeps _⟩

theorem does_nothing : t.Does (pure ()) fun _ st => some (.next st) := by
  intro b b' h hb
  obtain ⟨-, rfl⟩ := pure_ok.mp h
  exact ⟨Built.refl hb, fun hopen _ _ _ _ s hs => ⟨hopen, s, Leads.refl _, hs, Keeps.of_eq rfl⟩⟩

theorem does_exit {sp : Span} : t.Does (ret ctx sp) fun _ st => some (.exit st) := by
  intro b b' h hb
  rw [ret_eq] at h
  cases h
  refine ⟨(Built.refl hb).emit _, ?_⟩
  intro hopen ht _ _ st s hs
  rw [hopen.emit_eq] at ht
  exact ⟨_, _, Leads.refl _, hs.on b [], instrAt_on hopen.inside ht, rfl⟩

theorem does_break {sp : Span} :
    t.Does (innermost ctx >>= fun l => jump l.leave sp) fun _ st => some (.break st) := by
  intro b b' h hb
  obtain ⟨l, b₁, h₁, h⟩ := bind_ok.mp h
  obtain ⟨rfl, ls, hloops⟩ := innermost_ok.mp h₁
  rw [jump_eq] at h
  cases h
  refine ⟨(Built.refl hb).jump _ _, ?_⟩
  intro hopen ht _ _ st s hs
  exact ⟨l, ls, s, hloops, (hop_jump_on hopen ht).leads, hs, Keeps.of_eq rfl⟩

theorem does_continue {sp : Span} :
    t.Does (innermost ctx >>= fun l => jump l.next sp) fun _ st => some (.continue st) := by
  intro b b' h hb
  obtain ⟨l, b₁, h₁, h⟩ := bind_ok.mp h
  obtain ⟨rfl, ls, hloops⟩ := innermost_ok.mp h₁
  rw [jump_eq] at h
  cases h
  refine ⟨(Built.refl hb).jump _ _, ?_⟩
  intro hopen ht _ _ st s hs
  exact ⟨l, ls, s, hloops, (hop_jump_on hopen ht).leads, hs, Keeps.of_eq rfl⟩

theorem does_seq {x y : Lower Unit} {f g : Nat → Store → Option Bound.Flow} (hx : t.Does x f)
    (hy : t.Does y g) : t.Does (x >>= fun _ => y) fun k st =>
      Bound.Flow.then (f k st) (g k) := by
  intro b b' h hb
  obtain ⟨_, b₁, h₁, h⟩ := bind_ok.mp h
  have hbuilt₁ := hx h₁ hb
  have hbuilt₂ := hy h hbuilt₁.inside
  refine ⟨hbuilt₁.toBuilt.trans hbuilt₂.toBuilt, ?_⟩
  intro hopen ht hslots k st s hs
  refine Ends.then (hbuilt₁.ends hopen (ht.of_le hbuilt₂.le) hslots hs) fun hopen₁ st' s' hs' _ => ?_
  exact hbuilt₂.part hbuilt₁.toBuilt hopen₁ ht hslots hs'

/-! ## Conditions -/

theorem stmt_if {cond : Bound.Expr} {yes : List Bound.Stmt} {sp : Span}
    (h : stmt ctx (.ifElse cond yes [] sp) b = .ok ((), b')) :
    ∃ b₁ b₂, expr ctx cond (b.addBlocks 2) = .ok ((), b₁) ∧
      stmts ctx yes ((b₁.branch b.blocks.size (b.blocks.size + 1) sp.start).goTo b.blocks.size) =
        .ok ((), b₂) ∧
      b' = (b₂.jump (b.blocks.size + 1) sp.start).goTo (b.blocks.size + 1) := by
  rw [stmt, bind_eq (newBlock_eq _), bind_eq (newBlock_eq _), size_addBlock] at h
  obtain ⟨_, _, helse, h⟩ := bind_ok.mp h
  obtain ⟨rfl, rfl⟩ := pure_ok.mp helse
  obtain ⟨_, b₁, hcond, h⟩ := bind_ok.mp h
  rw [bind_eq (branch_eq _ _ _ _), bind_eq (goTo_eq _ _)] at h
  obtain ⟨_, b₂, hyes, h⟩ := bind_ok.mp h
  rw [bind_eq (jump_eq _ _ _)] at h
  cases h
  exact ⟨b₁, b₂, hcond, hyes, rfl⟩

theorem stmt_ifElse {cond : Bound.Expr} {yes no : List Bound.Stmt} {sp : Span} (hno : no ≠ [])
    (h : stmt ctx (.ifElse cond yes no sp) b = .ok ((), b')) :
    ∃ b₁ b₂ b₃, expr ctx cond (b.addBlocks 3) = .ok ((), b₁) ∧
      stmts ctx yes ((b₁.branch b.blocks.size (b.blocks.size + 2) sp.start).goTo b.blocks.size) =
        .ok ((), b₂) ∧
      stmts ctx no ((b₂.jump (b.blocks.size + 1) sp.start).goTo (b.blocks.size + 2)) = .ok ((), b₃) ∧
      b' = (b₃.jump (b.blocks.size + 1) sp.start).goTo (b.blocks.size + 1) := by
  have hempty : no.isEmpty = false := by simpa using hno
  rw [stmt, bind_eq (newBlock_eq _), bind_eq (newBlock_eq _), hempty, size_addBlock] at h
  obtain ⟨_, _, helse, h⟩ := bind_ok.mp h
  rw [newBlock_eq] at helse
  cases helse
  obtain ⟨_, b₁, hcond, h⟩ := bind_ok.mp h
  rw [bind_eq (branch_eq _ _ _ _), bind_eq (goTo_eq _ _)] at h
  obtain ⟨_, b₂, hyes, h⟩ := bind_ok.mp h
  rw [bind_eq (jump_eq _ _ _)] at h
  obtain ⟨_, _, hgoTo, h⟩ := bind_ok.mp h
  cases hgoTo
  obtain ⟨_, b₃, hno, h⟩ := bind_ok.mp h
  rw [bind_eq (jump_eq _ _ _)] at h
  cases h
  simp only [size_addBlock] at hcond hyes hno
  exact ⟨b₁, b₂, b₃, hcond, hyes, hno, rfl⟩

theorem does_if {cond : Bound.Expr} {yes : List Bound.Stmt} {sp : Span}
    {eval : Store → Except FaultCause Value} {act : Nat → Store → Option Bound.Flow}
    (hcond : t.Computes (expr ctx cond) eval) (hyes : t.Does (stmts ctx yes) act) :
    t.Does (stmt ctx (.ifElse cond yes [] sp)) fun k st => Bound.Flow.with (eval st) fun v =>
      if v.isTrue then act k st else some (.next st) := by
  intro b b' h hb
  obtain ⟨b₁, b₂, hb₁, hb₂, rfl⟩ := stmt_if h
  have hblocks := (Built.refl hb).addBlocks 2
  have hcond := hcond hb₁ hblocks.inside
  have hbranch := hcond.toBuilt.branch b.blocks.size (b.blocks.size + 1) sp.start
  have hthen : Empty _ b.blocks.size := Empty.fresh hb hbranch (by omega) (by omega)
  have hdone : Empty _ (b.blocks.size + 1) := Empty.fresh hb hbranch (by omega) (by omega)
  have hmid := (hblocks.trans hbranch).goTo (Nat.le_refl _) hthen.lt
  have hyes := hyes hb₂ hthen.lt
  have hjump := hyes.toBuilt.jump (b.blocks.size + 1) sp.start
  have hdone := hdone.aside hjump (by omega)
  refine ⟨(hmid.trans hjump).goTo (by omega) hdone.lt, ?_⟩
  intro hopen ht hslots k st s hs
  have htjump := ht.of_le (Le.goTo _ _)
  have htbranch := htjump.of_le ((Le.goTo _ _).trans hjump.le)
  have hopen₀ := hopen.addBlocks 2
  rw [← on_addBlocks hopen 2]
  refine Ends.with (hcond.yields hopen₀ (htbranch.of_le (Le.emit _ _)) hs) (fun v _ => ?_)
    fun v => Keeps.of_eq rfl
  refine Ends.after (hop_branch_on (hcond.opens hopen₀) htbranch).leads (Keeps.of_eq rfl) ?_
  cases v.isTrue with
  | true =>
    simp only [if_true]
    rw [start_eq_on hthen]
    exact (hyes.part hmid hthen.goTo.1 (htjump.of_le (Le.jump _ _ _)) hslots hs).jump htjump hdone
  | false =>
    simp only [Bool.false_eq_true, if_false]
    rw [start_eq_on hdone]
    exact ⟨hdone.goTo.1, s, Leads.refl _, hs, Keeps.of_eq rfl⟩

theorem does_ifElse {cond : Bound.Expr} {yes no : List Bound.Stmt} {sp : Span}
    {eval : Store → Except FaultCause Value} {act act' : Nat → Store → Option Bound.Flow} (hne : no ≠ [])
    (hcond : t.Computes (expr ctx cond) eval) (hyes : t.Does (stmts ctx yes) act)
    (hno : t.Does (stmts ctx no) act') :
    t.Does (stmt ctx (.ifElse cond yes no sp)) fun k st => Bound.Flow.with (eval st) fun v =>
      if v.isTrue then act k st else act' k st := by
  intro b b' h hb
  obtain ⟨b₁, b₂, b₃, hb₁, hb₂, hb₃, rfl⟩ := stmt_ifElse hne h
  have hblocks := (Built.refl hb).addBlocks 3
  have hcond := hcond hb₁ hblocks.inside
  have hbranch := hcond.toBuilt.branch b.blocks.size (b.blocks.size + 2) sp.start
  have hthen : Empty _ b.blocks.size := Empty.fresh hb hbranch (by omega) (by omega)
  have hdone : Empty _ (b.blocks.size + 1) := Empty.fresh hb hbranch (by omega) (by omega)
  have helse : Empty _ (b.blocks.size + 2) := Empty.fresh hb hbranch (by omega) (by omega)
  have hmid := (hblocks.trans hbranch).goTo (Nat.le_refl _) hthen.lt
  have hyes := hyes hb₂ hthen.lt
  have hjump := hyes.toBuilt.jump (b.blocks.size + 1) sp.start
  have hdone := hdone.aside hjump (by omega)
  have helse := helse.aside hjump (by omega)
  have hmid' := (hmid.trans hjump).goTo (by omega) helse.lt
  have hno := hno hb₃ helse.lt
  have hjump' := hno.toBuilt.jump (b.blocks.size + 1) sp.start
  have hdone := hdone.aside hjump' (by omega)
  refine ⟨(hmid'.trans hjump').goTo (by omega) hdone.lt, ?_⟩
  intro hopen ht hslots k st s hs
  have htjump' := ht.of_le (Le.goTo _ _)
  have htjump := htjump'.of_le ((Le.goTo _ _).trans hjump'.le)
  have htbranch := htjump.of_le ((Le.goTo _ _).trans hjump.le)
  have hopen₀ := hopen.addBlocks 3
  rw [← on_addBlocks hopen 3]
  refine Ends.with (hcond.yields hopen₀ (htbranch.of_le (Le.emit _ _)) hs) (fun v _ => ?_)
    fun v => Keeps.of_eq rfl
  refine Ends.after (hop_branch_on (hcond.opens hopen₀) htbranch).leads (Keeps.of_eq rfl) ?_
  cases v.isTrue with
  | true =>
    simp only [if_true]
    rw [start_eq_on hthen]
    exact (hyes.part hmid hthen.goTo.1 (htjump.of_le (Le.jump _ _ _)) hslots hs).jump htjump hdone
  | false =>
    simp only [Bool.false_eq_true, if_false]
    rw [start_eq_on helse]
    exact (hno.part hmid' helse.goTo.1 (htjump'.of_le (Le.jump _ _ _)) hslots hs).jump htjump' hdone

/-! ## Loops -/

/-- What the code of the body of a loop does. -/
structure Loops (t : Target) (l : LoopTarget) (b b' : Builder)
    (act : Nat → Store → Option Bound.Flow) : Prop extends Built b b' where
  ends : b.Open → t.Holds b' → t.slots ≤ b.locals.size → ∀ {k : Nat} {st : Store} {s : Spot},
    t.Shows st s → t.Ends k b.locals.size (l :: b.loops) b' (s.on b []) (act k st)

theorem loops_inLoop {l : LoopTarget} {x : Lower Unit} {act : Nat → Store → Option Bound.Flow}
    (hx : t.Does x act) (h : inLoop l x b = .ok ((), b')) (hb : b.current < b.blocks.size) :
    t.Loops l b b' act := by
  obtain ⟨b₁, h₁, rfl⟩ := inLoop_ok.mp h
  have hbuilt := hx h₁ hb
  have hloops : b₁.loops.tail = b.loops := congrArg List.tail hbuilt.loops
  have hle := ((Le.withLoops b _).trans hbuilt.le).trans (Le.withLoops b₁ b₁.loops.tail)
  have hfrom : From b b₁ :=
    ⟨hbuilt.origin.size, hbuilt.origin.kept, hbuilt.origin.current, hbuilt.origin.inside⟩
  refine ⟨⟨hle, hfrom.of_eq rfl rfl, hloops⟩, ?_⟩
  intro hopen ht hslots k st s hs
  have hends := hbuilt.ends (hopen.of_eq rfl rfl) (ht.of_le (Le.withLoops b₁ _)) hslots (k := k) hs
  rcases hact : act k st with - | (st' | st' | st' | st' | c) <;> rw [hact] at hends
  case some.next => exact ⟨hends.1.of_eq rfl rfl, hends.2⟩
  all_goals exact hends

theorem Loops.part {l : LoopTarget} {act : Nat → Store → Option Bound.Flow}
    (h : t.Loops l b₁ b' act) (hbuilt : Built b b₁) (hopen : b₁.Open) (ht : t.Holds b')
    (hslots : t.slots ≤ b.locals.size) (hs : t.Shows st s) :
    t.Ends k b.locals.size (l :: b.loops) b' (s.on b₁ []) (act k st) := by
  rw [← hbuilt.loops]
  have hlocals := hbuilt.le.locals
  exact (h.ends hopen ht (Nat.le_trans hslots hlocals) hs).mono (Nat.le_refl _) hlocals

theorem stmt_whileDo {cond : Bound.Expr} {body : List Bound.Stmt} {sp : Span}
    (h : stmt ctx (.whileDo cond body sp) b = .ok ((), b')) :
    ∃ b₁ b₂, expr ctx cond (((b.addBlocks 3).jump b.blocks.size sp.start).goTo b.blocks.size) =
        .ok ((), b₁) ∧
      inLoop ⟨b.blocks.size + 2, b.blocks.size⟩ (stmts ctx body)
        ((b₁.branch (b.blocks.size + 1) (b.blocks.size + 2) cond.span.start).goTo
          (b.blocks.size + 1)) = .ok ((), b₂) ∧
      b' = (b₂.jump b.blocks.size sp.start).goTo (b.blocks.size + 2) := by
  rw [stmt, bind_eq (newBlock_eq _), bind_eq (newBlock_eq _), bind_eq (newBlock_eq _),
    bind_eq (jump_eq _ _ _), bind_eq (goTo_eq _ _)] at h
  obtain ⟨_, b₁, hcond, h⟩ := bind_ok.mp h
  rw [bind_eq (branch_eq _ _ _ _), bind_eq (goTo_eq _ _)] at h
  obtain ⟨_, b₂, hbody, h⟩ := bind_ok.mp h
  rw [bind_eq (jump_eq _ _ _), goTo_eq] at h
  cases h
  simp only [size_addBlock] at hcond hbody ⊢
  exact ⟨b₁, b₂, hcond, hbody, rfl⟩

theorem stmt_repeatUntil {cond : Bound.Expr} {body : List Bound.Stmt} {sp : Span}
    (h : stmt ctx (.repeatUntil body cond sp) b = .ok ((), b')) :
    ∃ b₁ b₂, inLoop ⟨b.blocks.size + 2, b.blocks.size + 1⟩ (stmts ctx body)
        (((b.addBlocks 3).jump b.blocks.size sp.start).goTo b.blocks.size) = .ok ((), b₁) ∧
      expr ctx cond ((b₁.jump (b.blocks.size + 1) sp.start).goTo (b.blocks.size + 1)) =
        .ok ((), b₂) ∧
      b' = (b₂.branch (b.blocks.size + 2) b.blocks.size cond.span.start).goTo (b.blocks.size + 2) := by
  rw [stmt, bind_eq (newBlock_eq _), bind_eq (newBlock_eq _), bind_eq (newBlock_eq _),
    bind_eq (jump_eq _ _ _), bind_eq (goTo_eq _ _)] at h
  obtain ⟨_, b₁, hbody, h⟩ := bind_ok.mp h
  rw [bind_eq (jump_eq _ _ _), bind_eq (goTo_eq _ _)] at h
  obtain ⟨_, b₂, hcond, h⟩ := bind_ok.mp h
  rw [bind_eq (branch_eq _ _ _ _), goTo_eq] at h
  cases h
  simp only [size_addBlock] at hcond hbody ⊢
  exact ⟨b₁, b₂, hbody, hcond, rfl⟩

theorem lasts_zero (s : Spot) : t.Lasts 0 s := ⟨0, s, Nat.le_refl _, .here s⟩

theorem does_while {cond : Bound.Expr} {body : List Bound.Stmt} {sp : Span}
    {eval : Store → Except FaultCause Value} {act : Nat → Store → Option Bound.Flow}
    (hcond : t.Computes (expr ctx cond) eval) (hbody : t.Does (stmts ctx body) act) :
    t.Does (stmt ctx (.whileDo cond body sp)) fun k => Bound.whileLoop eval (act k) k := by
  intro b b' h hb
  obtain ⟨b₁, b₂, hb₁, hb₂, rfl⟩ := stmt_whileDo h
  have hjump := (Built.refl ((Built.refl hb).addBlocks 3).inside).jump b.blocks.size sp.start
  have htest : Empty _ b.blocks.size := Empty.fresh hb hjump (by omega) (by omega)
  have hstart : Empty _ (b.blocks.size + 1) := Empty.fresh hb hjump (by omega) (by omega)
  have hleave : Empty _ (b.blocks.size + 2) := Empty.fresh hb hjump (by omega) (by omega)
  have hmid := (((Built.refl hb).addBlocks 3).trans hjump).goTo (by omega) htest.lt
  have hcond := hcond hb₁ htest.goTo.1.inside
  have hbranch := hcond.toBuilt.branch (b.blocks.size + 1) (b.blocks.size + 2) cond.span.start
  have hstart := hstart.aside hbranch (by omega)
  have hleave := hleave.aside hbranch (by omega)
  have hmid' := (hmid.trans hbranch).goTo (by omega) hstart.lt
  have hbody := loops_inLoop hbody hb₂ hstart.goTo.1.inside
  have hback := hbody.toBuilt.jump b.blocks.size sp.start
  have hleave := hleave.aside hback (by omega)
  refine ⟨(hmid'.trans hback).goTo (by omega) hleave.lt, ?_⟩
  intro hopen ht hslots k st s hs
  have htback := ht.of_le (Le.goTo _ _)
  have htbranch := htback.of_le ((Le.goTo _ _).trans hback.le)
  have htjump := htbranch.of_le ((Le.goTo _ _).trans hbranch.le)
  -- Each round begins at the test and passes the branch behind it.
  have hloop : ∀ {j : Nat}, j ≤ k → ∀ {st : Store} {s : Spot}, t.Shows st s →
      t.Ends j b.locals.size b.loops ((b₂.jump b.blocks.size sp.start).goTo (b.blocks.size + 2))
        (start s b.blocks.size []) (Bound.whileLoop eval (act k) j st) := by
    intro j hj
    induction j with
    | zero => exact fun _ => lasts_zero _
    | succ j ih =>
      intro st s hs
      rw [start_eq_on htest]
      refine Ends.with (hcond.yields htest.goTo.1 (htbranch.of_le (Le.emit _ _)) hs) (fun v _ => ?_)
        fun v => Keeps.of_eq rfl
      refine Ends.hop (hop_branch_on (hcond.opens htest.goTo.1) htbranch) (Keeps.of_eq rfl) ?_
      cases v.isTrue with
      | true =>
        simp only [if_true]
        rw [start_eq_on hstart]
        have hround := hbody.part hmid' hstart.goTo.1 (htback.of_le (Le.jump _ _ _)) hslots (k := k) hs
        refine Ends.round (hround.mono (by omega) (Nat.le_refl _)) htback hleave ?_
        exact fun st' s' hs' _ => ih (by omega) hs'
      | false =>
        simp only [Bool.false_eq_true, if_false]
        rw [start_eq_on hleave]
        exact ⟨hleave.goTo.1, s, Leads.refl _, hs, Keeps.of_eq rfl⟩
  rw [← on_addBlocks hopen 3]
  exact (hloop (Nat.le_refl k) hs).after (hop_jump_on (hopen.addBlocks 3) htjump).leads
    (Keeps.of_eq rfl)

theorem does_repeat {cond : Bound.Expr} {body : List Bound.Stmt} {sp : Span}
    {eval : Store → Except FaultCause Value} {act : Nat → Store → Option Bound.Flow}
    (hcond : t.Computes (expr ctx cond) eval) (hbody : t.Does (stmts ctx body) act) :
    t.Does (stmt ctx (.repeatUntil body cond sp)) fun k => Bound.repeatLoop eval (act k) k := by
  intro b b' h hb
  obtain ⟨b₁, b₂, hb₁, hb₂, rfl⟩ := stmt_repeatUntil h
  have hjump := (Built.refl ((Built.refl hb).addBlocks 3).inside).jump b.blocks.size sp.start
  have hstart : Empty _ b.blocks.size := Empty.fresh hb hjump (by omega) (by omega)
  have htest : Empty _ (b.blocks.size + 1) := Empty.fresh hb hjump (by omega) (by omega)
  have hleave : Empty _ (b.blocks.size + 2) := Empty.fresh hb hjump (by omega) (by omega)
  have hmid := (((Built.refl hb).addBlocks 3).trans hjump).goTo (by omega) hstart.lt
  have hbody := loops_inLoop hbody hb₁ hstart.goTo.1.inside
  have hback := hbody.toBuilt.jump (b.blocks.size + 1) sp.start
  have htest := htest.aside hback (by omega)
  have hleave := hleave.aside hback (by omega)
  have hmid' := (hmid.trans hback).goTo (by omega) htest.lt
  have hcond := hcond hb₂ htest.goTo.1.inside
  have hbranch := hcond.toBuilt.branch (b.blocks.size + 2) b.blocks.size cond.span.start
  have hleave := hleave.aside hbranch (by omega)
  refine ⟨(hmid'.trans hbranch).goTo (by omega) hleave.lt, ?_⟩
  intro hopen ht hslots k st s hs
  have htbranch := ht.of_le (Le.goTo _ _)
  have htback := htbranch.of_le ((Le.goTo _ _).trans hbranch.le)
  have htjump := htback.of_le ((Le.goTo _ _).trans hback.le)
  -- Each round begins at the body and passes the branch at its end.
  have hloop : ∀ {j : Nat}, j ≤ k → ∀ {st : Store} {s : Spot}, t.Shows st s →
      t.Ends j b.locals.size b.loops
        ((b₂.branch (b.blocks.size + 2) b.blocks.size cond.span.start).goTo (b.blocks.size + 2))
        (start s b.blocks.size []) (Bound.repeatLoop eval (act k) j st) := by
    intro j hj
    induction j with
    | zero => exact fun _ => lasts_zero _
    | succ j ih =>
      intro st s hs
      rw [start_eq_on hstart]
      have hround := hbody.part hmid hstart.goTo.1 (htback.of_le (Le.jump _ _ _)) hslots (k := k) hs
      refine Ends.round (hround.mono hj (Nat.le_refl _)) htback hleave fun st' s' hs' _ => ?_
      rw [start_eq_on htest]
      refine Ends.with (hcond.yields htest.goTo.1 (htbranch.of_le (Le.emit _ _)) hs') (fun v _ => ?_)
        fun v => Keeps.of_eq rfl
      refine Ends.hop (hop_branch_on (hcond.opens htest.goTo.1) htbranch) (Keeps.of_eq rfl) ?_
      cases v.isTrue with
      | true =>
        simp only [if_true]
        rw [start_eq_on hleave]
        exact ⟨hleave.goTo.1, s', Leads.refl _, hs', Keeps.of_eq rfl⟩
      | false => exact ih (by omega) hs'
  rw [← on_addBlocks hopen 3]
  exact (hloop (Nat.le_refl k) hs).after (hop_jump_on (hopen.addBlocks 3) htjump).leads
    (Keeps.of_eq rfl)

/-! ### Counting loops -/

/-- The loop itself, once its variable and its limit are stored. -/
def forRest (ctx : LowerContext) (var : Bound.Expr) (limit : Nat) (down : Bool)
    (body : List Bound.Stmt) (sp : Span) : Lower Unit := do
  let test ← newBlock
  let start ← newBlock
  let next ← newBlock
  let step ← newBlock
  let leave ← newBlock
  jump test sp
  goTo test
  forControl ctx var limit (if down then .ge else .le) start leave sp
  goTo start
  inLoop ⟨leave, next⟩ (stmts ctx body)
  jump next sp
  goTo next
  forControl ctx var limit .eq leave step sp
  goTo step
  expr ctx var
  op (if down then .pred else .succ) sp
  storeVar ctx var
  jump start sp
  goTo leave

theorem stmt_forTo {var first last : Bound.Expr} {down : Bool} {body : List Bound.Stmt} {sp : Span}
    (h : stmt ctx (.forTo var first last down body sp) b = .ok ((), b')) :
    ∃ b₁ b₂ b₃ shape, ctx.types.slotShape var.type = .ok shape ∧
      expr ctx first b = .ok ((), b₁) ∧ storeVar ctx var b₁ = .ok ((), b₂) ∧
      expr ctx last (b₂.addLocal shape) = .ok ((), b₃) ∧
      forRest ctx var b₂.locals.size down body sp
        (b₃.emit ⟨.storeLocal, b₂.locals.size, 0, last.span.start⟩) = .ok ((), b') := by
  rw [stmt] at h
  obtain ⟨_, b₁, hfirst, h⟩ := bind_ok.mp h
  obtain ⟨_, b₂, hstore, h⟩ := bind_ok.mp h
  obtain ⟨shape, _, hshape, h⟩ := bind_ok.mp h
  obtain ⟨heq, rfl⟩ := lift_ok.mp hshape
  rw [bind_eq (temp_eq _ _)] at h
  obtain ⟨_, b₃, hlast, h⟩ := bind_ok.mp h
  rw [bind_eq (emit_eq _ _ _ _ _)] at h
  exact ⟨b₁, b₂, b₃, shape, heq, hfirst, hstore, hlast, h⟩

theorem forRest_ok {var : Bound.Expr} {limit : Nat} {down : Bool} {body : List Bound.Stmt} {sp : Span}
    (h : forRest ctx var limit down body sp b = .ok ((), b')) :
    ∃ b₁ b₂ b₃ b₄ b₅, forControl ctx var limit (if down then .ge else .le) (b.blocks.size + 1)
        (b.blocks.size + 4) sp (((b.addBlocks 5).jump b.blocks.size sp.start).goTo b.blocks.size) =
        .ok ((), b₁) ∧
      inLoop ⟨b.blocks.size + 4, b.blocks.size + 2⟩ (stmts ctx body) (b₁.goTo (b.blocks.size + 1)) =
        .ok ((), b₂) ∧
      forControl ctx var limit .eq (b.blocks.size + 4) (b.blocks.size + 3) sp
        ((b₂.jump (b.blocks.size + 2) sp.start).goTo (b.blocks.size + 2)) = .ok ((), b₃) ∧
      expr ctx var (b₃.goTo (b.blocks.size + 3)) = .ok ((), b₄) ∧
      storeVar ctx var (b₄.emit ⟨if down then .pred else .succ, 0, 0, sp.start⟩) = .ok ((), b₅) ∧
      b' = (b₅.jump (b.blocks.size + 1) sp.start).goTo (b.blocks.size + 4) := by
  rw [forRest, bind_eq (newBlock_eq _), bind_eq (newBlock_eq _), bind_eq (newBlock_eq _),
    bind_eq (newBlock_eq _), bind_eq (newBlock_eq _), bind_eq (jump_eq _ _ _), bind_eq (goTo_eq _ _)] at h
  obtain ⟨_, b₁, htest, h⟩ := bind_ok.mp h
  rw [bind_eq (goTo_eq _ _)] at h
  obtain ⟨_, b₂, hbody, h⟩ := bind_ok.mp h
  rw [bind_eq (jump_eq _ _ _), bind_eq (goTo_eq _ _)] at h
  obtain ⟨_, b₃, hnext, h⟩ := bind_ok.mp h
  rw [bind_eq (goTo_eq _ _)] at h
  obtain ⟨_, b₄, hvar, h⟩ := bind_ok.mp h
  rw [bind_eq (op_eq _ _ _)] at h
  obtain ⟨_, b₅, hstore, h⟩ := bind_ok.mp h
  rw [bind_eq (jump_eq _ _ _), goTo_eq] at h
  cases h
  simp only [size_addBlock] at htest hbody hnext hvar hstore ⊢
  exact ⟨b₁, b₂, b₃, b₄, b₅, htest, hbody, hnext, hvar, hstore, rfl⟩

theorem eval_var {types : TypeTable} {var : Bound.Expr} (hvar : var.isVar n) (st : Store) :
    var.eval types st = .ok (st.get var) := by
  obtain ⟨name, slot, type, sp, rfl, -⟩ | ⟨m, slot, type, sp, rfl⟩ := Bound.Expr.isVar_cases hvar
  · simp only [Bound.Expr.eval, Store.get]
  · simp only [Bound.Expr.eval, Store.get]

theorem plain_of_isVar {K : Value → Prop} {var : Bound.Expr} (hvar : var.isVar n) : var.Plain n K := by
  obtain ⟨name, slot, type, sp, rfl, h⟩ | ⟨m, slot, type, sp, rfl⟩ := Bound.Expr.isVar_cases hvar
  · exact h
  · trivial

theorem computes_var {var : Bound.Expr} (hvar : var.isVar t.slots) :
    t.Computes (expr ctx var) fun st => .ok (st.get var) := by
  have heval : var.eval ctx.types = fun st => .ok (st.get var) := funext (eval_var hvar)
  rw [← heval]
  exact computes_expr ctx (plain_of_isVar hvar)

/-- What the tests of a counting loop do. -/
structure Controls (t : Target) (b b' : Builder) (var : Bound.Expr) (limit : Nat)
    (rel : Value → Value → Bool) (yes no : Nat) : Prop extends Built b b' where
  tests : b.Open → t.Holds b' → ∀ {st : Store} {s : Spot} {bound : Value}, t.Shows st s →
    s.locals[limit]? = some bound →
      ∃ s₁, t.Leads (s.on b []) s₁ ∧ s₁.locals = s.locals ∧
        t.Hop s₁ (start s (if rel (st.get var) bound then yes else no) [])

theorem controls_forControl {var : Bound.Expr} {limit : Nat} {op : Op} {rel : Value → Value → Bool}
    {yes no : Nat} {sp : Span} (hvar : var.isVar t.slots) (hop : op.binary? = none)
    (hop' : op.unary? = none) (hrel : op.relation? = some rel) (hclose : op.isTerminator = false)
    (h : forControl ctx var limit op yes no sp b = .ok ((), b')) (hb : b.current < b.blocks.size) :
    t.Controls b b' var limit rel yes no := by
  unfold forControl at h
  obtain ⟨_, b₁, hb₁, h⟩ := bind_ok.mp h
  rw [bind_eq (emit_eq _ _ _ _ _), bind_eq (op_eq _ _ _), branch_eq] at h
  obtain rfl := ok_inj h
  have hload := computes_var hvar hb₁ hb
  have hlimit := hload.toBuiltExpr.emit (i := ⟨.loadLocal, limit, 0, sp.start⟩) rfl
  have htest := hlimit.emit (i := ⟨op, 0, 0, sp.start⟩) hclose
  refine ⟨htest.toBuilt.branch yes no sp.start, ?_⟩
  intro hopen ht st s bound hs hbound
  have httest := ht.of_le (Le.emit _ _)
  have htlimit := httest.of_le (Le.emit _ _)
  have hleads : t.Leads (s.on b []) (s.on b₁ [st.get var]) :=
    hload.yields hopen (htlimit.of_le (Le.emit _ _)) hs
  have hleads' : t.Leads (s.on b₁ [st.get var]) _ :=
    leads_loadLocal (hload.opens hopen) hbound htlimit
  have hleads'' : t.Leads (s.on _ [bound, st.get var]) (s.on _ [.ofBool (rel (st.get var) bound)]) :=
    leads_emit (hlimit.opens hopen) httest fun hi => hop_relation hop hop' hrel hi rfl
  refine ⟨_, (hleads.trans hleads').trans hleads'', rfl, ?_⟩
  have hhop : t.Hop (s.on _ [.ofBool (rel (st.get var) bound)]) _ :=
    hop_branch_on (htest.opens hopen) ht
  rwa [Value.isTrue_ofBool] at hhop

theorem evaluates_step {var : Bound.Expr} {down : Bool} {pos : Nat} (hvar : var.isVar t.slots)
    (h : expr ctx var b = .ok ((), b')) (hb : b.current < b.blocks.size) :
    t.Evaluates b (b'.emit ⟨if down then .pred else .succ, 0, 0, pos⟩) fun st =>
      (Bound.forStep down (st.get var)).orFault := by
  have hload := computes_var hvar h hb
  refine ⟨hload.toBuiltExpr.emit (by cases down <;> rfl), ?_⟩
  intro hopen ht st s ops hs
  have hleads : t.Leads (s.on b ops) (s.on b' (st.get var :: ops)) :=
    hload.yields hopen (ht.of_le (Le.emit _ _)) hs
  refine Yields.after hleads ?_
  cases down with
  | true => exact yields_unary (hload.opens hopen) rfl rfl ht
  | false => exact yields_unary (hload.opens hopen) rfl rfl ht

theorem controls_forStarts {var : Bound.Expr} {limit : Nat} {down : Bool} {yes no : Nat} {sp : Span}
    (hvar : var.isVar t.slots)
    (h : forControl ctx var limit (if down then .ge else .le) yes no sp b = .ok ((), b'))
    (hb : b.current < b.blocks.size) :
    t.Controls b b' var limit (Bound.forStarts down) yes no := by
  cases down with
  | true => exact controls_forControl hvar rfl rfl rfl rfl h hb
  | false => exact controls_forControl hvar rfl rfl rfl rfl h hb

/-- What a counting loop does once its limit is stored. -/
structure Counts (t : Target) (b b' : Builder) (var : Bound.Expr) (limit : Nat) (down : Bool)
    (act : Nat → Store → Option Bound.Flow) : Prop extends Built b b' where
  ends : b.Open → t.Holds b' → t.slots ≤ limit → limit < b.locals.size →
    ∀ {k : Nat} {st : Store} {s : Spot} {bound : Value}, t.Shows st s →
      s.locals[limit]? = some bound → t.Ends k b.locals.size b.loops b' (s.on b [])
        (if Bound.forStarts down (st.get var) bound then
          Bound.forLoop var bound (Bound.forStep down) (act k) k st
        else some (.next st))

theorem counts_forRest {var : Bound.Expr} {limit : Nat} {down : Bool} {body : List Bound.Stmt}
    {sp : Span} {act : Nat → Store → Option Bound.Flow} (hvar : var.isVar t.slots)
    (hbody : t.Does (stmts ctx body) act)
    (h : forRest ctx var limit down body sp b = .ok ((), b')) (hb : b.current < b.blocks.size) :
    t.Counts b b' var limit down act := by
  obtain ⟨b₁, b₂, b₃, b₄, b₅, hb₁, hb₂, hb₃, hb₄, hb₅, rfl⟩ := forRest_ok h
  have hjump := (Built.refl ((Built.refl hb).addBlocks 5).inside).jump b.blocks.size sp.start
  have htest : Empty _ b.blocks.size := Empty.fresh hb hjump (by omega) (by omega)
  have hstart : Empty _ (b.blocks.size + 1) := Empty.fresh hb hjump (by omega) (by omega)
  have hnext : Empty _ (b.blocks.size + 2) := Empty.fresh hb hjump (by omega) (by omega)
  have hstep : Empty _ (b.blocks.size + 3) := Empty.fresh hb hjump (by omega) (by omega)
  have hleave : Empty _ (b.blocks.size + 4) := Empty.fresh hb hjump (by omega) (by omega)
  have hmid := (((Built.refl hb).addBlocks 5).trans hjump).goTo (by omega) htest.lt
  have hfirst := controls_forStarts hvar hb₁ htest.goTo.1.inside
  have hstart := hstart.aside hfirst.toBuilt (by omega)
  have hnext := hnext.aside hfirst.toBuilt (by omega)
  have hstep := hstep.aside hfirst.toBuilt (by omega)
  have hleave := hleave.aside hfirst.toBuilt (by omega)
  have hmid₁ := (hmid.trans hfirst.toBuilt).goTo (by omega) hstart.lt
  have hbody := loops_inLoop hbody hb₂ hstart.goTo.1.inside
  have hback := hbody.toBuilt.jump (b.blocks.size + 2) sp.start
  have hnext := hnext.aside hback (by omega)
  have hstep := hstep.aside hback (by omega)
  have hleave := hleave.aside hback (by omega)
  have hmid₂ := (hmid₁.trans hback).goTo (by omega) hnext.lt
  have hlast := controls_forControl (t := t) hvar rfl rfl rfl rfl hb₃ hnext.goTo.1.inside
  have hstep := hstep.aside hlast.toBuilt (by omega)
  have hleave := hleave.aside hlast.toBuilt (by omega)
  have hmid₃ := (hmid₂.trans hlast.toBuilt).goTo (by omega) hstep.lt
  have hvalue : t.Evaluates _ (b₄.emit ⟨if down then .pred else .succ, 0, 0, sp.start⟩) _ :=
    evaluates_step hvar hb₄ hstep.goTo.1.inside
  have hstore := stores_storeVar hvar hb₅ hvalue.inside
  have hagain := (hvalue.toBuilt.trans hstore.toBuilt).jump (b.blocks.size + 1) sp.start
  have hleave := hleave.aside hagain (by omega)
  refine ⟨(hmid₃.trans hagain).goTo (by omega) hleave.lt, ?_⟩
  intro hopen ht hslots hlimit k st s bound hs hbound
  have htagain := ht.of_le (Le.goTo _ _)
  have htstore := htagain.of_le (Le.jump _ _ _)
  have htlast := htagain.of_le ((Le.goTo _ _).trans hagain.le)
  have htback := htlast.of_le ((Le.goTo _ _).trans hlast.le)
  have htfirst := htback.of_le ((Le.goTo _ _).trans hback.le)
  have htjump := htfirst.of_le ((Le.goTo _ _).trans hfirst.le)
  -- Each round begins at the body; the limit stays in its slot.
  have hloop : ∀ {j : Nat}, j ≤ k → ∀ {st : Store} {s : Spot}, t.Shows st s →
      s.locals[limit]? = some bound →
      t.Ends j b.locals.size b.loops
        ((b₅.jump (b.blocks.size + 1) sp.start).goTo (b.blocks.size + 4))
        (start s (b.blocks.size + 1) [])
        (Bound.forLoop var bound (Bound.forStep down) (act k) j st) := by
    intro j hj
    induction j with
    | zero => exact fun _ _ => lasts_zero _
    | succ j ih =>
      intro st s hs hbound
      rw [start_eq_on hstart]
      have hround := hbody.part hmid₁ hstart.goTo.1 (htback.of_le (Le.jump _ _ _))
        (Nat.le_trans hslots (Nat.le_of_lt hlimit)) (k := k) hs
      refine Ends.round (hround.mono hj (Nat.le_refl _)) htback hleave fun st' s' hs' hkeeps => ?_
      have hbound' : s'.locals[limit]? = some bound := (hkeeps limit hslots hlimit).trans hbound
      rw [start_eq_on hnext]
      obtain ⟨s₁, hs₁, hlocals, hhop⟩ := hlast.tests hnext.goTo.1 htlast hs' hbound'
      refine Ends.after hs₁ (Keeps.of_eq hlocals) (Ends.hop hhop (Keeps.of_eq hlocals.symm) ?_)
      cases (st'.get var).equal bound with
      | true =>
        simp only [if_true]
        rw [start_eq_on hleave]
        exact ⟨hleave.goTo.1, s', Leads.refl _, hs', Keeps.of_eq rfl⟩
      | false =>
        simp only [Bool.false_eq_true, if_false]
        rw [start_eq_on hstep]
        refine Ends.with (hvalue.yields hstep.goTo.1 (htstore.of_le hstore.le) hs') (fun v _ => ?_)
          fun v => Keeps.of_eq rfl
        have hopen₄ := hvalue.opens hstep.goTo.1
        obtain ⟨s'', hs'', hst, hkeeps'⟩ := hstore.stores hopen₄ htstore v hs'
        have hback' : t.Hop (s''.on b₅ []) _ := hop_jump_on (hstore.opens hopen₄) htagain
        refine Ends.after (hs''.trans hback'.leads) (hkeeps' _) (ih (by omega) hst ?_)
        exact (hkeeps' _ limit hslots hlimit).trans hbound'
  rw [← on_addBlocks hopen 5]
  refine Ends.after (hop_jump_on (hopen.addBlocks 5) htjump).leads (Keeps.of_eq rfl) ?_
  rw [start_eq_on htest]
  obtain ⟨s₁, hs₁, hlocals, hhop⟩ := hfirst.tests htest.goTo.1 htfirst hs hbound
  refine Ends.after (hs₁.trans hhop.leads) (Keeps.of_eq rfl) ?_
  cases Bound.forStarts down (st.get var) bound with
  | true => exact hloop (Nat.le_refl k) hs hbound
  | false =>
    simp only [Bool.false_eq_true, if_false]
    rw [start_eq_on hleave]
    exact ⟨hleave.goTo.1, s, Leads.refl _, hs, Keeps.of_eq rfl⟩

theorem does_for {var first last : Bound.Expr} {down : Bool} {body : List Bound.Stmt} {sp : Span}
    {eval eval' : Store → Except FaultCause Value} {act : Nat → Store → Option Bound.Flow}
    (hvar : var.isVar t.slots) (hfirst : t.Computes (expr ctx first) eval)
    (hlast : t.Computes (expr ctx last) eval') (hbody : t.Does (stmts ctx body) act) :
    t.Does (stmt ctx (.forTo var first last down body sp)) fun k st =>
      Bound.Flow.with (eval st) fun v => Bound.Flow.with (eval' (st.put v var)) fun bound =>
        if Bound.forStarts down ((st.put v var).get var) bound then
          Bound.forLoop var bound (Bound.forStep down) (act k) k (st.put v var)
        else some (.next (st.put v var)) := by
  intro b b' h hb
  obtain ⟨b₁, b₂, b₃, shape, -, hb₁, hb₂, hb₃, hrest⟩ := stmt_forTo h
  have hfirst := hfirst hb₁ hb
  have hstore := stores_storeVar hvar hb₂ hfirst.inside
  have hvarBuilt := hfirst.toBuilt.trans hstore.toBuilt
  have hlast := hlast hb₃ hvarBuilt.inside
  have hlimit := hlast.toBuilt.emit ⟨.storeLocal, b₂.locals.size, 0, last.span.start⟩
  have hcount := counts_forRest hvar hbody hrest hlimit.inside
  have hopening := (hvarBuilt.addLocal shape).trans hlimit
  refine ⟨hopening.trans hcount.toBuilt, ?_⟩
  intro hopen ht hslots k st s hs
  have htlimit := ht.of_le hcount.le
  have htlast := htlimit.of_le (Le.emit _ _)
  have htstore := htlast.of_le ((Le.addLocal _ _).trans hlast.le)
  have hlocals₂ : b₂.locals.size = b.locals.size := by rw [hstore.locals, hfirst.locals]
  have hopen₁ := hfirst.opens hopen
  have hopen₂ : (b₂.addLocal shape).Open := (hstore.opens hopen₁).of_eq rfl rfl
  refine Ends.with (hfirst.yields hopen (htstore.of_le hstore.le) hs) (fun v _ => ?_)
    fun v => Keeps.of_eq rfl
  obtain ⟨s', hs', hst, hkeeps⟩ := hstore.stores hopen₁ htstore v hs
  refine Ends.after hs' (hkeeps _) ?_
  refine Ends.with (hlast.yields hopen₂ htlast hst) (fun bound _ => ?_) fun bound => Keeps.of_eq rfl
  have hlocals₃ : b₃.locals.size = b₂.locals.size + 1 := by
    rw [hlast.locals]
    simp [Builder.addLocal]
  have hlt : b₂.locals.size < s'.locals.size := by
    have := htlast.locals
    rw [hst.size]
    omega
  have hopen₃ := hlast.opens hopen₂
  obtain ⟨s'', hs'', hst', hkeeps', hbound⟩ := leads_storeHidden (v := bound) hopen₃
    (by omega) hlt hst htlimit
  refine Ends.after hs'' (hkeeps'.mono (by omega)) ?_
  have hends := hcount.ends (hopen₃.emit rfl) ht (by omega) (by rw [locals_emit]; omega) (k := k) hst' hbound
  rw [hopening.loops] at hends
  exact hends.mono (Nat.le_refl _) hopening.le.locals

end Target

end Pascaline
