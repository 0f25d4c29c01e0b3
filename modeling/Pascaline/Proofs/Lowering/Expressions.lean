import Pascaline.Proofs.Lowering.Building
import Pascaline.Proofs.Machine.Path
import Pascaline.Proofs.Program.Link

/-!
# Code of expressions

The code of an expression leaves its value on top of the operand stack, or meets its fault. Nothing
else changes.
-/

namespace Pascaline

@[simp] theorem Value.isTrue_ofBool (x : Bool) : (Value.ofBool x).isTrue = x := by
  cases x <;> decide

namespace Exec

/-- The part of `loadChar` behind its operands. -/
def loadCharOf (text index : Value) : Exec Unit :=
  match text with
  | .string s => do
    let cs := Utf8.chars s
    let k ← Exec.index index cs.length
    push (.char (Int64.ofNat ((cs.getD k ' ').toNat)))
  | v => invalid (.loadChar v.kind)

theorem loadCharOf_ok {text index v : Value} (h : text.charAt index = .ok v) :
    loadCharOf text index = push v := by
  cases text with
  | string s =>
    cases index
    case int n | char n =>
      simp only [Value.charAt] at h
      split at h
      · cases h
      case isFalse hn =>
        cases h
        simp only [loadCharOf, Exec.index, if_neg hn]
        rfl
    all_goals cases h
  | _ => cases h

theorem loadCharOf_error {text index : Value} {c : FaultCause} (h : text.charAt index = .error c) :
    ∃ c', loadCharOf text index = raise c' ∧ c'.code = c.code := by
  cases text with
  | string s =>
    cases index
    case int n | char n =>
      simp only [Value.charAt] at h
      split at h
      case isTrue hn =>
        cases h
        simp only [loadCharOf, Exec.index, if_pos hn]
        exact ⟨_, rfl, rfl⟩
      · cases h
    all_goals
      cases h
      exact ⟨_, rfl, rfl⟩
  | _ =>
    cases h
    exact ⟨_, rfl, rfl⟩

end Exec

/-- No other constant of the pool takes the place of this one. Only a real can be taken for another
one, as the zeros compare equal. -/
def Pool.Exact (pool : Pool) (v : Value) : Prop :=
  ∀ x y : Float, v = .real y → .real x ∈ pool.consts → x == y → x = y

theorem Value.eq_of_sameConstant {u v : Value} (h : u.sameConstant v) :
    u = v ∨ ∃ x y : Float, u = .real x ∧ v = .real y ∧ x == y := by
  cases u <;> cases v
  case real.real x y => exact Or.inr ⟨x, y, rfl, rfl, h⟩
  all_goals simp_all [Value.sameConstant]

/-- The finished code of a routine, in a linked program. The frame has `slots` declared slots; those
behind them are hidden. `pool` is that of the unit when the routine was finished. -/
structure Target extends Site where
  slots : Nat
  pool : Pool
  consts : pool.consts.toList <+: linked.unit.pool.consts.toList
  globals : ∀ (i : Nat) (ref : GlobalRef), pool.globals[i]? = some ref →
    ∃ place, linked.globals[i]? = some place ∧ program.globalAt? ref = some place

namespace Target

variable {t : Target} {b b' : Builder} {s : Spot} {st : Store} {v : Value} {ops : List Value}

/-- The code of a builder is part of the finished code. -/
structure Holds (t : Target) (b : Builder) : Prop where
  blocks : ∀ (i : Nat) (is : Array Instr), b.blocks[i]? = some is →
    ∃ is' : Array Instr, t.routine.blocks[i]? = some is' ∧ is.toList <+: is'.toList
  consts : b.pool.consts.toList <+: t.pool.consts.toList
  globals : b.pool.globals.toList <+: t.pool.globals.toList
  locals : b.locals.size ≤ t.routine.locals.size

theorem Holds.of_le (h : t.Holds b') (hle : b.Le b') : t.Holds b := by
  refine ⟨?_, hle.consts.trans h.consts, hle.globals.trans h.globals, Nat.le_trans hle.locals h.locals⟩
  intro i is his
  obtain ⟨is₁, his₁, hle₁⟩ := hle.blocks i is his
  obtain ⟨is', his', hle'⟩ := h.blocks i is₁ his₁
  exact ⟨is', his', hle₁.trans hle'⟩

/-- The frame and the units hold what the store says. -/
structure Shows (t : Target) (st : Store) (s : Spot) : Prop where
  size : s.locals.size = t.routine.locals.size
  slots : ∀ i < t.slots, s.locals[i]? = some (st.slots i)
  globals : ∀ ref unit slot, t.program.globalAt? ref = some (unit, slot) →
    (s.globals[unit]?).bind (·[slot]?) = some (st.globals ref)

end Target

/-- The same memory, at the end of what a builder has made. -/
def Spot.on (s : Spot) (b : Builder) (operands : List Value) : Spot :=
  { s with block := b.current, ip := b.block.size, operands }

namespace Target

open Site

variable {t : Target} {b b' : Builder} {s : Spot} {st : Store} {v : Value} {ops ops' : List Value}

theorem instrAt_on (hb : b.current < b.blocks.size) {i : Instr} (h : t.Holds (b.append i)) :
    t.instrAt (s.on b ops) = some i := by
  have hblock : (b.append i).blocks[b.current]? = some (b.block.push i) := by
    rw [Builder.append, Array.getElem?_modify, if_pos rfl, Builder.getElem?_block hb, Option.map_some]
  obtain ⟨is, his, hle⟩ := h.blocks _ _ hblock
  have hi : is.toList[b.block.size]? = some i := by
    obtain ⟨rest, hrest⟩ := hle
    rw [← hrest]
    simp
  unfold Site.instrAt
  rw [show t.routine.blocks[(s.on b ops).block]? = some is from his]
  simpa [Spot.on] using hi

theorem next_on (hb : b.current < b.blocks.size) (i : Instr) :
    next (s.on b ops) ops' = s.on (b.append i) ops' := by
  simp only [next, Spot.on, Builder.block_append hb, Array.size_push]
  rfl

theorem leads_emit (hb : b.Open) {i : Instr} (ht : t.Holds (b.emit i))
    (hop : t.instrAt (s.on b ops) = some i → t.Hop (s.on b ops) (next (s.on b ops) ops')) :
    t.Leads (s.on b ops) (s.on (b.emit i) ops') := by
  rw [hb.emit_eq] at ht ⊢
  rw [← next_on hb.inside]
  exact (hop (instrAt_on hb.inside ht)).leads

theorem fails_emit (hb : b.Open) {i : Instr} (ht : t.Holds (b.emit i)) {c : Nat}
    (hop : t.instrAt (s.on b ops) = some i → t.Faults (s.on b ops) c) :
    t.Fails (s.on b ops) c := by
  rw [hb.emit_eq] at ht
  exact (hop (instrAt_on hb.inside ht)).fails

theorem on_addBlock (hb : b.current < b.blocks.size) : s.on b.addBlock ops = s.on b ops := by
  simp only [Spot.on, Builder.block_addBlock hb]
  rfl

theorem on_addBlocks (hb : b.Open) (k : Nat) : s.on (b.addBlocks k) ops = s.on b ops := by
  induction k with
  | zero => rfl
  | succ k ih => rw [Builder.addBlocks, on_addBlock (hb.addBlocks k).inside, ih]

theorem start_eq_on {n : Nat} (h : b.Empty n) : start s n ops = s.on (b.goTo n) ops := by
  simp only [Spot.on, h.goTo.2]
  rfl

theorem hop_jump_on (hb : b.Open) {n pos : Nat} (ht : t.Holds (b.jump n pos)) :
    t.Hop (s.on b ops) (start s n ops) := by
  rw [hb.jump_eq] at ht
  exact hop_jump (instrAt_on hb.inside ht)

theorem hop_branch_on (hb : b.Open) {yes no pos : Nat}
    (ht : t.Holds (b.branch yes no pos)) :
    t.Hop (s.on b (v :: ops)) (start s (if v.isTrue then yes else no) ops) := by
  rw [Builder.branch, hb.emit_eq] at ht
  exact hop_branch (instrAt_on hb.inside ht) rfl

/-! ## Variables and constants -/

theorem enter_same {α : Type} (same : α → α → Bool) (xs : Array α) (x : α) :
    ∃ y, (Pool.enter same xs x).2[(Pool.enter same xs x).1]? = some y ∧ (y = x ∨ same y x) := by
  unfold Pool.enter
  split
  case h_1 i hi =>
    obtain ⟨hlt, hsame, -⟩ := Array.findIdx?_eq_some_iff_getElem.mp hi
    exact ⟨xs[i], by simp [hlt], Or.inr hsame⟩
  case h_2 => exact ⟨x, by simp, Or.inl rfl⟩

theorem leads_const (hb : b.Open) {pos : Nat} (hv : t.pool.Exact v)
    (ht : t.Holds ((b.addConst v).emit ⟨.const, ((b.pool.addConst v).1 : Nat), 0, pos⟩)) :
    t.Leads (s.on b ops)
      (s.on ((b.addConst v).emit ⟨.const, ((b.pool.addConst v).1 : Nat), 0, pos⟩) (v :: ops)) := by
  have hopen : (b.addConst v).Open := hb.of_eq rfl rfl
  refine leads_emit hopen ht fun hi => hop_const hi ?_
  have hpool := (ht.of_le (Builder.Le.emit _ _)).consts
  obtain ⟨u, hu, hsame⟩ := enter_same Value.sameConstant b.pool.consts v
  have hu : t.pool.consts[(b.pool.addConst v).1]? = some u := getElem?_of_isPrefix hpool hu
  have huv : u = v := by
    rcases hsame with heq | hsame
    · exact heq
    · rcases Value.eq_of_sameConstant hsame with heq | ⟨x, y, rfl, rfl, hxy⟩
      · exact heq
      · rw [hv x y rfl (Array.mem_of_getElem? hu) hxy]
  exact getElem?_of_isPrefix t.consts (huv ▸ hu)

theorem global_place {ref : GlobalRef} (ht : t.Holds (b.addGlobal ref)) :
    ∃ place, t.linked.globals[(b.pool.addGlobal ref).1]? = some place ∧
      t.program.globalAt? ref = some place := by
  obtain ⟨r, hr, hsame⟩ := enter_same (· == ·) b.pool.globals ref
  obtain rfl : r = ref := hsame.elim id fun h => by simpa using h
  exact t.globals _ r (getElem?_of_isPrefix ht.globals hr)

theorem leads_loadLocal (hb : b.Open) {n pos : Nat} (hv : s.locals[n]? = some v)
    (ht : t.Holds (b.emit ⟨.loadLocal, n, 0, pos⟩)) :
    t.Leads (s.on b ops) (s.on (b.emit ⟨.loadLocal, n, 0, pos⟩) (v :: ops)) :=
  leads_emit hb ht fun hi => hop_loadLocal hi hv

theorem leads_loadGlobal (hb : b.Open) {ref : GlobalRef} {pos : Nat} (hs : t.Shows st s)
    (ht : t.Holds ((b.addGlobal ref).emit ⟨.loadGlobal, ((b.pool.addGlobal ref).1 : Nat), 0, pos⟩)) :
    t.Leads (s.on b ops)
      (s.on ((b.addGlobal ref).emit ⟨.loadGlobal, ((b.pool.addGlobal ref).1 : Nat), 0, pos⟩)
        (st.globals ref :: ops)) := by
  have hopen : (b.addGlobal ref).Open := hb.of_eq rfl rfl
  obtain ⟨⟨unit, slot⟩, hplace, hat⟩ := global_place (ht.of_le (Builder.Le.emit _ _))
  exact leads_emit hopen ht fun hi => hop_loadGlobal hi hplace (hs.globals ref unit slot hat)

/-! ## Results -/

/-- From a place a value leads on, and a fault is met. -/
def Yields (t : Target) (s : Spot) (next : Value → Spot) : Except FaultCause Value → Prop
  | .ok v => t.Leads s (next v)
  | .error c => t.Fails s c.code

theorem Yields.bind {mid next : Value → Spot} {r : Except FaultCause Value}
    {f : Value → Except FaultCause Value} (h : t.Yields s mid r)
    (hf : ∀ v, t.Yields (mid v) next (f v)) : t.Yields s next (r >>= f) := by
  cases r with
  | error c => exact h
  | ok v =>
    have hv := hf v
    show t.Yields s next (f v)
    cases hfv : f v with
    | error c =>
      rw [hfv] at hv
      exact Leads.fails h hv
    | ok v' =>
      rw [hfv] at hv
      exact Leads.trans h hv

theorem Yields.after {s₁ : Spot} {next : Value → Spot} {r : Except FaultCause Value}
    (h : t.Leads s s₁) (h' : t.Yields s₁ next r) : t.Yields s next r := by
  cases r with
  | error c => exact h.fails h'
  | ok v => exact h.trans h'

theorem Yields.then {mid next : Value → Spot} {r : Except FaultCause Value}
    (h : t.Yields s mid r) (hnext : ∀ v, t.Leads (mid v) (next v)) : t.Yields s next r := by
  cases r with
  | error c => exact h
  | ok v => exact Leads.trans h (hnext v)

theorem yields_unary (hb : b.Open) {op : Op} {f : Value → Value.Outcome} {pos : Nat} {x : Value}
    (hop : op.binary? = none) (hf : op.unary? = some f) (ht : t.Holds (b.emit ⟨op, 0, 0, pos⟩)) :
    t.Yields (s.on b (x :: ops)) (fun v => s.on (b.emit ⟨op, 0, 0, pos⟩) (v :: ops))
      (f x).orFault := by
  cases hx : f x with
  | ok v => exact leads_emit hb ht fun hi => hop_unary hop hf hi rfl hx
  | error e => exact fails_emit hb ht fun hi => faults_unary hop hf hi rfl hx

theorem yields_binary (hb : b.Open) {op : Op} {f : Value → Value → Value.Outcome} {pos : Nat}
    {x y : Value} (hf : op.binary? = some f) (ht : t.Holds (b.emit ⟨op, 0, 0, pos⟩)) :
    t.Yields (s.on b (y :: x :: ops)) (fun v => s.on (b.emit ⟨op, 0, 0, pos⟩) (v :: ops))
      (f x y).orFault := by
  cases hxy : f x y with
  | ok v => exact leads_emit hb ht fun hi => hop_binary hf hi rfl hxy
  | error e => exact fails_emit hb ht fun hi => faults_binary hf hi rfl hxy

theorem yields_operator (hb : b.Open) (o : Bound.BinaryOp) {pos : Nat} {x y : Value}
    (ht : t.Holds (b.emit ⟨Lower.binaryOp o, 0, 0, pos⟩)) :
    t.Yields (s.on b (y :: x :: ops))
      (fun v => s.on (b.emit ⟨Lower.binaryOp o, 0, 0, pos⟩) (v :: ops)) (o.apply x y).orFault := by
  cases o
  case eq | ne | lt | le | gt | ge => exact leads_emit hb ht fun hi => hop_relation rfl rfl rfl hi rfl
  all_goals exact yields_binary hb rfl ht

theorem leads_convert (hb : b.Open) (c : Bound.Conversion) {op : Op} {pos : Nat} {x : Value}
    (hop : op = match c with
      | .intToReal => .intToReal
      | .charToString => .charToString)
    (ht : t.Holds (b.emit ⟨op, 0, 0, pos⟩)) :
    t.Leads (s.on b (x :: ops)) (s.on (b.emit ⟨op, 0, 0, pos⟩) (c.apply x :: ops)) := by
  subst hop
  cases c with
  | intToReal => exact leads_emit hb ht fun hi => hop_convert (f := fun v => .real v.asReal) rfl hi rfl
  | charToString =>
    refine leads_emit hb ht fun hi => hop_convert (f := Bound.Conversion.charToString.apply) ?_ hi rfl
    refine congrArg (Exec.pop >>= ·) (funext fun x => ?_)
    cases x <;> rfl

theorem yields_loadChar (hb : b.Open) {pos : Nat} {text index : Value}
    (ht : t.Holds (b.emit ⟨.loadChar, 0, 0, pos⟩)) :
    t.Yields (s.on b (index :: text :: ops)) (fun v => s.on (b.emit ⟨.loadChar, 0, 0, pos⟩) (v :: ops))
      (text.charAt index) := by
  have hinstr : Exec.instr t.program t.linked ⟨.loadChar, 0, 0, pos⟩ =
      (Exec.pop >>= fun k => Exec.pop >>= fun v => Exec.loadCharOf v k) := rfl
  cases hchar : text.charAt index with
  | ok v =>
    refine leads_emit hb ht fun hi => hop_of hi ?_
    rw [hinstr]
    refine operands_binary (f := Exec.loadCharOf) rfl ?_
    rw [Exec.loadCharOf_ok hchar]
    exact push_on v
  | error c =>
    refine fails_emit hb ht fun hi => faults_of hi ?_
    rw [hinstr]
    refine operands_binary (f := Exec.loadCharOf) rfl ?_
    obtain ⟨c', hc', hcode⟩ := Exec.loadCharOf_error hchar
    rw [hc']
    exact Exec.Triple.raise fun m _ => ⟨_, rfl, hcode⟩

end Target

/-! ## Expressions -/

namespace Lower

open Builder

variable {ctx : LowerContext} {b b' : Builder} {n : Nat} {K : Value → Prop}

/-- What lowering an expression does to a builder. -/
structure BuiltExpr (b b' : Builder) : Prop extends Built b b' where
  locals : b'.locals = b.locals
  opens : b.Open → b'.Open

theorem BuiltExpr.trans {b₁ : Builder} (h : BuiltExpr b b₁) (h' : BuiltExpr b₁ b') :
    BuiltExpr b b' :=
  ⟨h.toBuilt.trans h'.toBuilt, h'.locals.trans h.locals, fun hb => h'.opens (h.opens hb)⟩

theorem BuiltExpr.emit (h : BuiltExpr b b') {i : Instr} (hi : i.op.isTerminator = false) :
    BuiltExpr b (b'.emit i) :=
  ⟨h.toBuilt.emit i, (locals_emit b' i).trans h.locals, fun hb => (h.opens hb).emit hi⟩

theorem BuiltExpr.refl (h : b.current < b.blocks.size) : BuiltExpr b b :=
  ⟨Built.refl h, rfl, id⟩

theorem BuiltExpr.addConst (h : BuiltExpr b b') (v : Value) : BuiltExpr b (b'.addConst v) :=
  ⟨h.toBuilt.addConst v, h.locals, fun hb => (h.opens hb).of_eq rfl rfl⟩

theorem BuiltExpr.addGlobal (h : BuiltExpr b b') (r : GlobalRef) : BuiltExpr b (b'.addGlobal r) :=
  ⟨h.toBuilt.addGlobal r, h.locals, fun hb => (h.opens hb).of_eq rfl rfl⟩

theorem BuiltExpr.addBlock (h : BuiltExpr b b') : BuiltExpr b b'.addBlock :=
  ⟨h.toBuilt.addBlock, h.locals, fun hb => (h.opens hb).addBlock⟩

/-- The branch behind the left side of a short `and` or `or`. -/
def shortBranch (o : Bound.BinaryOp) (rest done pos : Nat) : Instr :=
  if o = .and then ⟨.branch, rest, done, pos⟩ else ⟨.branch, done, rest, pos⟩

theorem expr_short {o : Bound.BinaryOp} {left right : Bound.Expr} {type : TypeId} {sp : Span}
    (hshort : isShort o (ctx.types.kind type))
    (h : expr ctx (.binary o left right type sp) b = .ok ((), b')) :
    ∃ b₁ b₂, expr ctx left b.addBlock.addBlock = .ok ((), b₁) ∧
      expr ctx right ((((b₁.emit ⟨.dup, 0, 0, sp.start⟩).emit
        (shortBranch o b.blocks.size (b.blocks.size + 1) sp.start)).goTo b.blocks.size).emit
          ⟨.pop, 0, 0, sp.start⟩) = .ok ((), b₂) ∧
      b' = (b₂.jump (b.blocks.size + 1) sp.start).goTo (b.blocks.size + 1) := by
  rw [expr, if_pos hshort, bind_eq (newBlock_eq _), bind_eq (newBlock_eq _), size_addBlock] at h
  obtain ⟨_, b₁, hleft, h⟩ := bind_ok.mp h
  rw [bind_eq (op_eq _ _ _)] at h
  have hrest : (do
      goTo b.blocks.size
      op .pop sp
      expr ctx right
      jump (b.blocks.size + 1) sp
      goTo (b.blocks.size + 1) : Lower Unit) ((b₁.emit ⟨.dup, 0, 0, sp.start⟩).emit
        (shortBranch o b.blocks.size (b.blocks.size + 1) sp.start)) = .ok ((), b') := by
    unfold shortBranch
    by_cases ho : o = .and
    · rw [if_pos ho] at h ⊢
      rw [bind_eq (branch_eq _ _ _ _)] at h
      exact h
    · rw [if_neg ho] at h ⊢
      rw [bind_eq (branch_eq _ _ _ _)] at h
      exact h
  rw [bind_eq (goTo_eq _ _), bind_eq (op_eq _ _ _)] at hrest
  obtain ⟨_, b₂, hright, hrest⟩ := bind_ok.mp hrest
  rw [bind_eq (jump_eq _ _ _), goTo_eq] at hrest
  cases hrest
  exact ⟨b₁, b₂, hleft, hright, rfl⟩

/-- Lowering a short operator: `branched` is the builder behind the branch, `joined` the one at its
end. -/
structure BuiltShort (b branched joined : Builder) : Prop where
  built : BuiltExpr b (joined.goTo (b.blocks.size + 1))
  rest : branched.Empty b.blocks.size
  done : joined.Empty (b.blocks.size + 1)
  le : Le branched joined

theorem builtShort {b₁ b₂ : Builder} {branch : Instr} {pos : Nat} (hb : b.current < b.blocks.size)
    (hleft : BuiltExpr b.addBlock.addBlock b₁)
    (hright : ((b₁.emit branch).goTo b.blocks.size).current < ((b₁.emit branch).goTo b.blocks.size).blocks.size →
      BuiltExpr (((b₁.emit branch).goTo b.blocks.size).emit ⟨.pop, 0, 0, pos⟩) b₂) :
    BuiltShort b (b₁.emit branch) (b₂.jump (b.blocks.size + 1) pos) := by
  have hcurrent : b.addBlock.addBlock.current = b.current := rfl
  have hbranch := hleft.toBuilt.emit branch
  have hsize := hbranch.origin.size
  simp only [size_addBlock] at hsize
  have hrest : (b₁.emit branch).Empty b.blocks.size :=
    (Empty.addBlock b).more.from hbranch.origin (by omega)
  have hdone : (b₁.emit branch).Empty (b.blocks.size + 1) := by
    refine Empty.from ?_ hbranch.origin (by omega)
    simpa using Empty.addBlock b.addBlock
  have hmid : Built b ((b₁.emit branch).goTo b.blocks.size) :=
    (((Built.refl hb).addBlock.addBlock).trans hbranch).goTo (Nat.le_refl _) hrest.lt
  have hpop := (Built.refl hmid.inside).emit ⟨.pop, 0, 0, pos⟩
  have hright := hright hmid.inside
  have hjump := (hpop.trans hright.toBuilt).jump (b.blocks.size + 1) pos
  have hdone' : (b₂.jump (b.blocks.size + 1) pos).Empty (b.blocks.size + 1) :=
    Empty.from (b := (b₁.emit branch).goTo b.blocks.size) hdone hjump.origin (by simp [Builder.goTo])
  refine ⟨⟨(hmid.trans hjump).goTo (by omega) hdone'.lt, ?_, fun _ => hdone'.goTo.1⟩, hrest, hdone', ?_⟩
  · rw [locals_goTo, locals_jump, hright.locals, locals_emit, locals_goTo, locals_emit, hleft.locals,
      locals_addBlock, locals_addBlock]
  · exact (Le.goTo _ _).trans hjump.le

theorem builtExpr_expr (ctx : LowerContext) : ∀ (e : Bound.Expr), e.Plain n K → ∀ {b b' : Builder},
    expr ctx e b = .ok ((), b') → b.current < b.blocks.size → BuiltExpr b b'
  | .const v _ sp, _, b, b', h, hb => by
    rw [expr, constant_eq] at h
    cases h
    exact ((BuiltExpr.refl hb).addConst v).emit rfl
  | .frameVar _ slot _ sp, _, b, b', h, hb => by
    rw [expr, emit_eq] at h
    cases h
    exact (BuiltExpr.refl hb).emit rfl
  | .unitVar m slot _ sp, _, b, b', h, hb => by
    rw [expr, bind_eq (addGlobal_eq _ _), emit_eq] at h
    cases h
    exact ((BuiltExpr.refl hb).addGlobal _).emit rfl
  | .character text index _ sp, ⟨htext, hindex⟩, b, b', h, hb => by
    rw [expr] at h
    obtain ⟨_, b₁, h₁, h⟩ := bind_ok.mp h
    obtain ⟨_, b₂, h₂, h⟩ := bind_ok.mp h
    rw [op_eq] at h
    cases h
    have hbuilt₁ := builtExpr_expr ctx text htext h₁ hb
    have hbuilt₂ := builtExpr_expr ctx index hindex h₂ hbuilt₁.inside
    exact (hbuilt₁.trans hbuilt₂).emit rfl
  | .unary o x _ sp, hx, b, b', h, hb => by
    unfold expr at h
    obtain ⟨_, b₁, h₁, h⟩ := bind_ok.mp h
    rw [op_eq] at h
    cases h
    exact (builtExpr_expr ctx x hx h₁ hb).emit (by cases o <;> rfl)
  | .convert c x _ sp, hx, b, b', h, hb => by
    unfold expr at h
    obtain ⟨_, b₁, h₁, h⟩ := bind_ok.mp h
    rw [op_eq] at h
    cases h
    exact (builtExpr_expr ctx x hx h₁ hb).emit (by cases c <;> rfl)
  | .binary o left right type sp, ⟨hleft, hright⟩, b, b', h, hb => by
    by_cases hshort : isShort o (ctx.types.kind type)
    · obtain ⟨b₁, b₂, h₁, h₂, rfl⟩ := expr_short hshort h
      have hbuilt₁ := builtExpr_expr ctx left hleft h₁ (Built.refl hb).addBlock.addBlock.inside
      exact (builtShort hb (hbuilt₁.emit rfl) fun hmid =>
        builtExpr_expr ctx right hright h₂ ((Built.refl hmid).emit _).inside).built
    · rw [expr, if_neg hshort] at h
      obtain ⟨_, b₁, h₁, h⟩ := bind_ok.mp h
      obtain ⟨_, b₂, h₂, h⟩ := bind_ok.mp h
      rw [op_eq] at h
      cases h
      have hbuilt₁ := builtExpr_expr ctx left hleft h₁ hb
      have hbuilt₂ := builtExpr_expr ctx right hright h₂ hbuilt₁.inside
      exact (hbuilt₁.trans hbuilt₂).emit (by cases o <;> rfl)

end Lower

namespace Target

open Builder Lower Site

variable {t : Target} {b b' : Builder} {s : Spot} {st : Store} {v : Value} {ops : List Value}

/-- The branch of a short operator goes on with the right side unless the left one decides. -/
theorem hop_shortBranch (hb : b.Open) {o : Bound.BinaryOp} (ho : o = .and ∨ o = .or) {rest done pos : Nat}
    (ht : t.Holds (b.emit (shortBranch o rest done pos))) :
    t.Hop (s.on b (v :: ops)) (start s (if v.isTrue == (o == .and) then rest else done) ops) := by
  rcases ho with rfl | rfl
  · have hhop : t.Hop (s.on b (v :: ops)) _ := hop_branch_on hb ht
    cases hv : v.isTrue <;> simpa [hv] using hhop
  · have hhop : t.Hop (s.on b (v :: ops)) _ := hop_branch_on hb ht
    cases hv : v.isTrue <;> simpa [hv] using hhop

theorem yields_expr (ctx : LowerContext) : ∀ (e : Bound.Expr), e.Plain t.slots t.pool.Exact →
    ∀ {b b' : Builder}, expr ctx e b = .ok ((), b') → b.Open → t.Holds b' →
    ∀ {st : Store} {s : Spot} {ops : List Value}, t.Shows st s →
      t.Yields (s.on b ops) (fun v => s.on b' (v :: ops)) (e.eval ctx.types st)
  | .const v _ sp, he, b, b', h, hb, ht, st, s, ops, hs => by
    rw [expr, constant_eq] at h
    cases h
    exact leads_const hb he ht
  | .frameVar _ slot _ sp, he, b, b', h, hb, ht, st, s, ops, hs => by
    rw [expr, emit_eq] at h
    cases h
    exact leads_loadLocal hb (hs.slots slot he) ht
  | .unitVar m slot _ sp, _, b, b', h, hb, ht, st, s, ops, hs => by
    rw [expr, bind_eq (addGlobal_eq _ _), emit_eq] at h
    cases h
    exact leads_loadGlobal hb hs ht
  | .character text index _ sp, ⟨htext, hindex⟩, b, b', h, hb, ht, st, s, ops, hs => by
    rw [expr] at h
    obtain ⟨_, b₁, h₁, h⟩ := bind_ok.mp h
    obtain ⟨_, b₂, h₂, h⟩ := bind_ok.mp h
    rw [op_eq] at h
    cases h
    have hbuilt₁ := builtExpr_expr ctx text htext h₁ hb.inside
    have hbuilt₂ := builtExpr_expr ctx index hindex h₂ hbuilt₁.inside
    have hb₁ := hbuilt₁.opens hb
    have ht₂ := ht.of_le (Le.emit _ _)
    unfold Bound.Expr.eval
    refine (yields_expr ctx text htext h₁ hb (ht₂.of_le hbuilt₂.le) hs).bind fun x => ?_
    refine (yields_expr ctx index hindex h₂ hb₁ ht₂ hs).bind fun y => ?_
    exact yields_loadChar (hbuilt₂.opens hb₁) ht
  | .unary o x _ sp, hx, b, b', h, hb, ht, st, s, ops, hs => by
    unfold expr at h
    obtain ⟨_, b₁, h₁, h⟩ := bind_ok.mp h
    rw [op_eq] at h
    cases h
    have hb₁ := (builtExpr_expr ctx x hx h₁ hb.inside).opens hb
    unfold Bound.Expr.eval
    refine (yields_expr ctx x hx h₁ hb (ht.of_le (Le.emit _ _)) hs).bind fun v => ?_
    cases o with
    | neg => exact yields_unary hb₁ rfl rfl ht
    | not => exact yields_unary hb₁ rfl rfl ht
  | .convert c x _ sp, hx, b, b', h, hb, ht, st, s, ops, hs => by
    unfold expr at h
    obtain ⟨_, b₁, h₁, h⟩ := bind_ok.mp h
    rw [op_eq] at h
    cases h
    have hb₁ := (builtExpr_expr ctx x hx h₁ hb.inside).opens hb
    unfold Bound.Expr.eval
    refine (yields_expr ctx x hx h₁ hb (ht.of_le (Le.emit _ _)) hs).bind fun v => ?_
    exact leads_convert hb₁ c rfl ht
  | .binary o left right type sp, ⟨hleft, hright⟩, b, b', h, hb, ht, st, s, ops, hs => by
    unfold Bound.Expr.eval
    by_cases hshort : isShort o (ctx.types.kind type)
    · simp only [hshort, if_true]
      obtain ⟨b₁, b₂, h₁, h₂, rfl⟩ := expr_short hshort h
      have ho : o = .and ∨ o = .or := by
        simp only [isShort, Bool.and_eq_true, Bool.or_eq_true, decide_eq_true_eq] at hshort
        exact hshort.1
      have hb₀ := hb.addBlock.addBlock
      have hbuilt₁ := (builtExpr_expr ctx left hleft h₁ hb₀.inside)
      have hdup := hbuilt₁.emit (i := ⟨.dup, 0, 0, sp.start⟩) rfl
      have hbuilt : BuiltShort b _ (b₂.jump (b.blocks.size + 1) sp.start) := builtShort hb.inside hdup fun hmid =>
        builtExpr_expr ctx right hright h₂ ((Built.refl hmid).emit _).inside
      have ht' : t.Holds (b₂.jump (b.blocks.size + 1) sp.start) := ht.of_le (Le.goTo _ _)
      have htbranch := ht'.of_le hbuilt.le
      have htdup := htbranch.of_le (Le.emit _ _)
      rw [← on_addBlock hb.inside, ← on_addBlock hb.addBlock.inside]
      refine (yields_expr ctx left hleft h₁ hb₀ (htdup.of_le (Le.emit _ _)) hs).bind fun x => ?_
      refine Yields.after (leads_emit (hbuilt₁.opens hb₀) htdup fun hi => hop_dup hi rfl) ?_
      refine Yields.after (hop_shortBranch (hdup.opens hb₀) ho htbranch).leads ?_
      cases hx : x.isTrue == (o == .and) with
      | false =>
        simp only [Bool.false_eq_true, if_false]
        rw [start_eq_on hbuilt.done]
        exact Leads.refl _
      | true =>
        simp only [if_true]
        rw [start_eq_on hbuilt.rest]
        have hrest := hbuilt.rest.goTo.1
        have hpop := hrest.emit (i := ⟨.pop, 0, 0, sp.start⟩) rfl
        have hbuilt₂ := builtExpr_expr ctx right hright h₂ hpop.inside
        have ht₂ := ht'.of_le (Le.jump _ _ _)
        refine Yields.after (leads_emit hrest (ht₂.of_le hbuilt₂.le) fun hi => hop_pop hi rfl) ?_
        refine (yields_expr ctx right hright h₂ hpop ht₂ hs).then fun y => ?_
        rw [← start_eq_on hbuilt.done]
        exact (hop_jump_on (hbuilt₂.opens hpop) ht').leads
    · simp only [hshort, if_false, Bool.false_eq_true]
      rw [expr, if_neg hshort] at h
      obtain ⟨_, b₁, h₁, h⟩ := bind_ok.mp h
      obtain ⟨_, b₂, h₂, h⟩ := bind_ok.mp h
      rw [op_eq] at h
      cases h
      have hbuilt₁ := builtExpr_expr ctx left hleft h₁ hb.inside
      have hbuilt₂ := builtExpr_expr ctx right hright h₂ hbuilt₁.inside
      have hb₁ := hbuilt₁.opens hb
      have ht₂ := ht.of_le (Le.emit _ _)
      refine (yields_expr ctx left hleft h₁ hb (ht₂.of_le hbuilt₂.le) hs).bind fun x => ?_
      refine (yields_expr ctx right hright h₂ hb₁ ht₂ hs).bind fun y => ?_
      exact yields_operator (hbuilt₂.opens hb₁) o ht

end Target

end Pascaline
