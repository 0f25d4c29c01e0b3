import Pascaline.Proofs.Lowering.Pools
import Pascaline.Proofs.Lowering.Regions
import Pascaline.Proofs.Machine.Validated

/-!
# Lowered code is well-formed

What lowering makes of a routine passes the check of its blocks, wherever the routine leaves its
loops or returns: no block is empty, every block ends in its only terminator, and everything that a
jump or a branch names is there. The slots that the code uses are those that the routine names and
hidden ones, which its frame has.
-/

namespace Pascaline

/-! ## The check -/

namespace Blocks

variable {bs : Blocks} {is : Array Instr} {i : Instr}

/-- None of the instructions is a terminator. -/
def Plain (is : Array Instr) : Prop := ∀ i ∈ is, i.op.isTerminator = false

/-- The last instruction is a terminator, and the only one. -/
def Ended (is : Array Instr) : Prop :=
  ∃ init last, is = init.push last ∧ last.op.isTerminator = true ∧ Plain init

/-- There is a block to start at, every block ends in its only terminator, and all targets exist. -/
structure WellFormed (bs : Blocks) : Prop where
  first : 0 < bs.size
  ends : ∀ is ∈ bs, Ended is
  targets : ∀ {k ip : Nat} {i : Instr} {target : Int}, bs.instr? k ip = some i → i.Names target →
    bs.has target = true

theorem ended_iff : Ended is ↔ 0 < is.size ∧
    ∀ (k : Nat) (i : Instr), is[k]? = some i → (i.op.isTerminator = true ↔ k + 1 = is.size) := by
  constructor
  · rintro ⟨init, last, rfl, hlast, hinit⟩
    refine ⟨by simp, fun k i hi => ?_⟩
    rw [Array.getElem?_push] at hi
    split at hi
    case isTrue hk =>
      cases hi
      simp [hlast, hk]
    case isFalse hk =>
      have hlt := (Array.getElem?_eq_some_iff.mp hi).1
      simp [hinit i (Array.mem_of_getElem? hi), Nat.ne_of_lt hlt]
  · rintro ⟨hsize, hplace⟩
    obtain ⟨init, last, rfl⟩ := Array.exists_push_of_size_pos hsize
    refine ⟨init, last, rfl, (hplace init.size last (by simp)).mpr (by simp), fun i hi => ?_⟩
    obtain ⟨k, hk⟩ := Array.getElem?_of_mem hi
    have hlt := (Array.getElem?_eq_some_iff.mp hk).1
    have hpush : (init.push last)[k]? = some i := by
      rw [Array.getElem?_push_lt hlt, ← Array.getElem?_eq_getElem hlt, hk]
    rw [← Bool.not_eq_true, hplace k i hpush, Array.size_push]
    omega

theorem validate_eq_ok_iff_wellFormed : bs.validate = .ok () ↔ bs.WellFormed := by
  rw [validate_eq_ok_iff]
  constructor
  · rintro ⟨hfirst, hblock⟩
    refine ⟨hfirst, fun is his => ?_, fun {k ip i target} hi hnames => ?_⟩
    · obtain ⟨b, hb⟩ := Array.getElem?_of_mem his
      obtain ⟨hsize, hchecked⟩ := hblock b is hb
      exact ended_iff.mpr ⟨hsize, fun k i hi => (hchecked k i hi).ends⟩
    · obtain ⟨is, his, hi⟩ := Option.bind_eq_some_iff.mp hi
      have hchecked := (hblock k is his).2 ip i hi
      rcases hnames with ⟨hop, rfl⟩ | ⟨hop, rfl | rfl⟩
      · exact hchecked.jump hop
      · exact (hchecked.branch hop).1
      · exact (hchecked.branch hop).2
  · intro h
    refine ⟨h.first, fun b is his => ?_⟩
    obtain ⟨hsize, hplace⟩ := ended_iff.mp (h.ends is (Array.mem_of_getElem? his))
    refine ⟨hsize, fun k i hi => ?_⟩
    have hinstr : bs.instr? b k = some i := Option.bind_eq_some_iff.mpr ⟨is, his, hi⟩
    exact ⟨hplace k i hi, fun hop => h.targets hinstr (.inl ⟨hop, rfl⟩),
      fun hop => ⟨h.targets hinstr (.inr ⟨hop, .inl rfl⟩), h.targets hinstr (.inr ⟨hop, .inr rfl⟩)⟩⟩

theorem Plain.push (h : Plain is) (hi : i.op.isTerminator = false) : Plain (is.push i) := by
  intro j hj
  rcases Array.mem_push.mp hj with hj | rfl
  · exact h j hj
  · exact hi

theorem Ended.isClosed (h : Ended is) : Lower.isClosed is = true := by
  obtain ⟨init, last, rfl, hlast, -⟩ := h
  simp [Lower.isClosed, hlast]

theorem Plain.not_isClosed (h : Plain is) : Lower.isClosed is = false := by
  unfold Lower.isClosed
  cases hback : is.back? with
  | none => rfl
  | some i => exact h i (Array.mem_of_back? hback)

end Blocks

/-! ## Blocks under construction -/

namespace Builder

open Blocks

variable {R : References} {own : Nat} {b b' : Builder} {i : Instr}

/-- Every block is still without a terminator or ends in its only one. -/
def Tidy (b : Builder) : Prop :=
  ∀ (k : Nat) (is : Array Instr), b.blocks[k]? = some is → Plain is ∨ Ended is

/-- The blocks are tidy, and the slots that the instructions use may be named or are hidden ones. -/
structure Orderly (R : References) (own : Nat) (b : Builder) : Prop where
  frame : own ≤ b.locals.size
  ends : b.Tidy
  slots : ∀ {k ip : Nat} {i : Instr}, b.blocks.instr? k ip = some i → b.Admits R own i

theorem Admits.mono (h : b.Admits R own i) (hle : b.locals.size ≤ b'.locals.size) :
    b'.Admits R own i := by
  intro hlocal
  obtain ⟨n, hn, hslot⟩ := h hlocal
  exact ⟨n, hn, hslot.imp id (·.mono hle)⟩

theorem Tidy.addBlock (h : b.Tidy) : b.addBlock.Tidy := by
  intro k is his
  rw [Builder.addBlock, Array.getElem?_push] at his
  split at his
  · cases his
    exact .inl fun i hi => by simp at hi
  · exact h k is his

/-- An open block is still without a terminator, so it may end in the instruction that comes next. -/
theorem Tidy.append (h : b.Tidy) (hopen : Lower.isClosed b.block = false) (i : Instr) :
    (b.append i).Tidy := by
  intro k is his
  rw [Builder.append, Array.getElem?_modify] at his
  split at his
  case isFalse => exact h k is his
  case isTrue hk =>
    obtain ⟨is₀, his₀, rfl⟩ := Option.map_eq_some_iff.mp his
    have hblock : b.block = is₀ := by
      rw [block, Array.getD_eq_getD_getElem?, hk, his₀, Option.getD_some]
    have hplain : Plain is₀ := (h k is₀ his₀).resolve_right fun hended => by
      rw [hblock, hended.isClosed] at hopen
      cases hopen
    cases hi : i.op.isTerminator with
    | false => exact .inl (hplain.push hi)
    | true => exact .inr ⟨is₀, i, rfl, hi, hplain⟩

theorem Tidy.emit (h : b.Tidy) (i : Instr) : (b.emit i).Tidy := by
  unfold Builder.emit
  split
  case isTrue =>
    have hnew : (b.addBlock.goTo b.blocks.size).Tidy := h.addBlock
    exact hnew.append (Empty.addBlock b).goTo.1.notClosed i
  case isFalse hopen => exact h.append (by simpa using hopen) i

theorem Orderly.of_eq (h : b.Orderly R own) (hblocks : b'.blocks = b.blocks)
    (hlocals : b.locals.size ≤ b'.locals.size) : b'.Orderly R own :=
  ⟨Nat.le_trans h.frame hlocals, fun k is his => h.ends k is (hblocks ▸ his),
    fun hi => (h.slots (hblocks ▸ hi)).mono hlocals⟩

theorem Orderly.emit (h : b.Orderly R own) (hi : b.Admits R own i) : (b.emit i).Orderly R own := by
  refine ⟨by simpa using h.frame, h.ends.emit i, fun hj => ?_⟩
  rcases instr?_of_emit hj with hj | rfl
  · exact (h.slots hj).mono (by simp)
  · exact hi.mono (by simp)

theorem stable_orderly (R : References) (own : Nat) : Stable R own (Orderly R own) where
  frame h := h.frame
  block h := ⟨h.frame, h.ends.addBlock, fun hi => h.slots (instr?_of_addBlock hi)⟩
  goTo _ h := h.of_eq rfl (Nat.le_refl _)
  loops _ h := h.of_eq rfl (Nat.le_refl _)
  emit hi h := h.emit hi
  slot shape h := h.of_eq rfl (by simp [addLocal])
  const _ h := h.of_eq rfl (Nat.le_refl _)
  shape _ h := h.of_eq rfl (Nat.le_refl _)
  native _ h := h.of_eq rfl (Nat.le_refl _)
  call _ h := h.of_eq rfl (Nat.le_refl _)
  global _ h := h.of_eq rfl (Nat.le_refl _)
  object _ h := h.of_eq rfl (Nat.le_refl _)

theorem Orderly.closeAll (h : b.Orderly R own) (ctx : LowerContext) (sp : Span) :
    ∀ is ∈ Lower.closeAll ctx sp b.blocks, Ended is := by
  intro is his
  unfold Lower.closeAll at his
  obtain ⟨is₀, his₀, rfl⟩ := Array.mem_map.mp his
  obtain ⟨k, hk⟩ := Array.getElem?_of_mem his₀
  rcases h.ends k is₀ hk with hplain | hended
  · rw [if_neg (by simp [hplain.not_isClosed])]
    exact ⟨_, _, rfl, rfl, hplain⟩
  · rwa [if_pos hended.isClosed]

end Builder

namespace Lower

open Builder

theorem instr?_opening (pool : Pool) (locals : List Shape) (k ip : Nat) :
    (opening pool locals).blocks.instr? k ip = none := by
  unfold opening Blocks.instr?
  cases k with
  | zero => rfl
  | succ k => rfl

theorem opening_orderly (R : References) (pool : Pool) (locals : List Shape) :
    (opening pool locals).Orderly R locals.length := by
  refine ⟨by simp [opening], fun k is his => .inl fun i hi => ?_, fun {k ip i} hi => ?_⟩
  · obtain ⟨ip, hip⟩ := Array.getElem?_of_mem hi
    have hinstr : (opening pool locals).blocks.instr? k ip = some i :=
      Option.bind_eq_some_iff.mpr ⟨is, his, hip⟩
    rw [instr?_opening] at hinstr
    cases hinstr
  · rw [instr?_opening] at hi
    cases hi

/-! ## Targets -/

theorem Declared.mono {m n : Nat} {e : Bound.Expr} (h : Declared m e) (hle : m ≤ n) :
    Declared n e := by
  cases e with
  | frameVar symbol slot type sp => exact Nat.lt_of_lt_of_le h hle
  | _ => trivial

theorem exists_declared (e : Bound.Expr) : ∃ n, Declared n e := by
  cases e with
  | frameVar symbol slot type sp => exact ⟨slot + 1, Nat.lt_succ_self slot⟩
  | _ => exact ⟨0, trivial⟩

theorem Assigns.mono {m n : Nat} {s : Bound.Stmt} (h : Assigns m s) (hle : m ≤ n) :
    Assigns n s := by
  cases s with
  | assign target value sp => exact Declared.mono h hle
  | forTo var first last down body sp => exact Declared.mono h hle
  | _ => trivial

theorem exists_assigns (ss : List Bound.Stmt) : ∃ n, ∀ s ∈ ss, Assigns n s := by
  induction ss with
  | nil => exact ⟨0, nofun⟩
  | cons s ss ih =>
    obtain ⟨n, hss⟩ := ih
    obtain ⟨m, hs⟩ : ∃ m, Assigns m s := by
      cases s with
      | assign target value sp => exact exists_declared target
      | forTo var first last down body sp => exact exists_declared var
      | _ => exact ⟨0, trivial⟩
    refine ⟨max m n, List.forall_mem_cons.mpr ⟨hs.mono (Nat.le_max_left m n), fun s' hs' => ?_⟩⟩
    exact (hss s' hs').mono (Nat.le_max_right m n)

section

variable {ctx : LowerContext} {ss : List Bound.Stmt} {pool : Pool} {locals : List Shape} {b : Builder}

theorem exists_grown_of_stmts (h : stmts ctx ss (opening pool locals) = .ok ((), b)) :
    ∃ n, Grown n (opening pool locals) b := by
  obtain ⟨n, hss⟩ := exists_assigns (Bound.Stmt.flattenAll ss)
  exact ⟨n, (lays_stmts ctx ss hss h (opening_open pool locals).inside).toGrown⟩

theorem size_pos_of_stmts (h : stmts ctx ss (opening pool locals) = .ok ((), b)) :
    0 < b.blocks.size := by
  obtain ⟨n, hgrown⟩ := exists_grown_of_stmts h
  exact Nat.lt_of_lt_of_le Nat.zero_lt_one hgrown.origin.size

/-- No loop is around the body of a routine, so it leads only to blocks that were opened for it. -/
theorem targets_of_stmts (h : stmts ctx ss (opening pool locals) = .ok ((), b)) {k ip : Nat}
    {i : Instr} {target : Int} (hi : b.blocks.instr? k ip = some i) (hnames : i.Names target) :
    b.blocks.has target = true := by
  obtain ⟨n, hgrown⟩ := exists_grown_of_stmts h
  rcases hgrown.added hi with hi | hallows
  · rw [instr?_opening] at hi
    cases hi
  · obtain ⟨j, rfl, ⟨-, hlt⟩ | ⟨l, hl, -⟩⟩ := hallows.leads hnames
    · simp [Blocks.has, hlt]
    · cases hl

end

end Lower

/-! ## Routines -/

/-- Some expression of the routine stands for the variable in this slot of the frame. -/
def Bound.Routine.Names (r : Bound.Routine) (slot : Nat) : Prop :=
  ∃ symbol type sp, .frameVar symbol slot type sp ∈ r.exprs

theorem Bound.Routine.expr_refers {r : Bound.Routine} {e : Bound.Expr} (he : e ∈ r.exprs) :
    e.Refers { References.any with slots := r.Names } := by
  cases e with
  | frameVar symbol slot type sp => exact ⟨symbol, type, sp, he⟩
  | _ => simp [Bound.Expr.Refers, References.any]

section

open Lower

variable {types : TypeTable} {pool pool' : Pool} {r : Bound.Routine} {code : Routine}

/-- What was in order while the routine was lowered, before its open blocks were closed. -/
theorem orderly_of_lowerRoutine (h : CompiledUnit.lowerRoutine types pool r = .ok (code, pool')) :
    ∃ b : Builder, b.Orderly { References.any with slots := r.Names } r.slots.length ∧
      0 < b.blocks.size ∧ (∀ {k ip : Nat} {i : Instr} {target : Int},
        b.blocks.instr? k ip = some i → i.Names target → b.blocks.has target = true) ∧
      code.locals = b.locals ∧
      code.blocks = closeAll ⟨types, r.name, r.result.isSome⟩ r.span b.blocks := by
  obtain ⟨locals, b, hlength, hstmts, hlocals, -, hblocks⟩ := lowerRoutine_ok h
  have horderly : b.Orderly { References.any with slots := r.Names } locals.length :=
    maintains_stmts (Builder.stable_orderly _ _) _ r.body
      (CompiledUnit.stmts_refer fun e he => Bound.Routine.expr_refers he) _ _ _ hstmts
      (opening_orderly _ pool locals)
  exact ⟨b, hlength ▸ horderly, size_pos_of_stmts hstmts, targets_of_stmts hstmts, hlocals, hblocks⟩

theorem wellFormed_of_lowerRoutine
    (h : CompiledUnit.lowerRoutine types pool r = .ok (code, pool')) : code.blocks.WellFormed := by
  obtain ⟨b, horderly, hfirst, htargets, -, hblocks⟩ := orderly_of_lowerRoutine h
  have hsize : code.blocks.size = b.blocks.size := by rw [hblocks, closeAll, Array.size_map]
  refine ⟨hsize ▸ hfirst, hblocks ▸ horderly.closeAll _ r.span, fun {k ip i target} hi hnames => ?_⟩
  rw [hblocks] at hi
  rcases instr?_of_closeAll hi with hi | hret
  · rw [Blocks.has, hsize]
    exact htargets hi hnames
  · simp [Instr.Names, hret] at hnames

/-- The code of a routine passes its check. A slot that an instruction uses is one that the routine
names, or a hidden one, which the frame has behind the slots of the routine. -/
theorem lowered_code_is_well_formed
    (h : CompiledUnit.lowerRoutine types pool r = .ok (code, pool')) :
    code.blocks.validate = .ok () ∧ code.blocks.WellFormed ∧
      ∀ {k ip : Nat} {i : Instr}, code.blocks.instr? k ip = some i → i.op.isLocal = true →
        ∃ n : Nat, i.a = n ∧ (r.Names n ∨ r.slots.length ≤ n ∧ n < code.locals.size) := by
  have hwell := wellFormed_of_lowerRoutine h
  refine ⟨Blocks.validate_eq_ok_iff_wellFormed.mpr hwell, hwell, fun {k ip i} hi hlocal => ?_⟩
  obtain ⟨b, horderly, -, -, hlocals, hblocks⟩ := orderly_of_lowerRoutine h
  rw [hblocks] at hi
  rw [hlocals]
  rcases instr?_of_closeAll hi with hi | hret
  · exact horderly.slots hi hlocal
  · rw [hret] at hlocal
    cases hlocal

end

/-- Leaves its loops and returns in the midst of statements. -/
def leaping : Bound.Routine :=
  { name := "leap", symbol := 0, owner := 0, span := {}, slots := [⟨"i", TypeTable.integer⟩],
    body := [
      .forTo (.frameVar 0 0 TypeTable.integer {}) (.const (.int 1) TypeTable.integer {})
        (.const (.int 9) TypeTable.integer {}) false [
          .whileDo (.const (.ofBool true) TypeTable.boolean {}) [.break {}, .continue {}] {},
          .caseOf (.frameVar 0 0 TypeTable.integer {}) [.arm [.int 4] [.exit {}, .continue {}]]
            [.break {}] {}] {},
      .exit {},
      .assign (.frameVar 0 0 TypeTable.integer {}) (.const (.int 2) TypeTable.integer {}) {}] }

@[irreducible] def leapingCode : Routine × Pool :=
  (CompiledUnit.lowerRoutine .empty {} leaping).toOption.getD default

/-- The last of its blocks, which nothing reaches, holds what stands behind the `exit`. -/
theorem lowered_code_is_well_formed_leaping :
    leapingCode.1.blocks.size = 13 ∧
      (leapingCode.1.blocks[12]?).map (·.map Instr.op) = some #[.const, .storeLocal, .ret] ∧
      leapingCode.1.blocks.validate = .ok () ∧ leapingCode.1.blocks.WellFormed ∧
      leapingCode.1.locals.size = 3 ∧
      ∀ {k ip : Nat} {i : Instr}, leapingCode.1.blocks.instr? k ip = some i → i.op.isLocal = true →
        ∃ n : Nat, i.a = n ∧ (leaping.Names n ∨ 1 ≤ n ∧ n < 3) := by
  have hcode : CompiledUnit.lowerRoutine .empty {} leaping = .ok (leapingCode.1, leapingCode.2) := by
    rw [Prod.eta]
    unfold leapingCode
    exact eq_ok_of_isSome (by decide +kernel)
  obtain ⟨hvalid, hwell, hslots⟩ := lowered_code_is_well_formed hcode
  have hsize : leapingCode.1.locals.size = 3 := by decide +kernel
  rw [hsize] at hslots
  exact ⟨by decide +kernel, by decide +kernel, hvalid, hwell, hsize, hslots⟩

end Pascaline
