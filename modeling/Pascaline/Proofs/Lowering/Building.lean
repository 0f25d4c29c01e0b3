import Pascaline.Lowering

/-!
# Building blocks

What the parts of the lowering do to a builder. Blocks are only added and only grow at their end.
Until the builder goes elsewhere, of the blocks that are there only the current one grows.
-/

namespace Pascaline

namespace Builder

variable {b b' b₀ b₁ : Builder}

/-- The instructions of the current block. -/
def block (b : Builder) : Array Instr := b.blocks.getD b.current #[]

def addBlock (b : Builder) : Builder := { b with blocks := b.blocks.push #[] }

def goTo (b : Builder) (block : Nat) : Builder := { b with current := block }

def append (b : Builder) (i : Instr) : Builder :=
  { b with blocks := b.blocks.modify b.current (·.push i) }

def emit (b : Builder) (i : Instr) : Builder :=
  if Lower.isClosed b.block then (b.addBlock.goTo b.blocks.size).append i else b.append i

def jump (b : Builder) (target pos : Nat) : Builder :=
  if Lower.isClosed b.block then b else b.emit ⟨.jump, target, 0, pos⟩

def branch (b : Builder) (yes no pos : Nat) : Builder := b.emit ⟨.branch, yes, no, pos⟩

def addLocal (b : Builder) (shape : Shape) : Builder := { b with locals := b.locals.push shape }

def addConst (b : Builder) (v : Value) : Builder := { b with pool := (b.pool.addConst v).2 }

def addGlobal (b : Builder) (r : GlobalRef) : Builder := { b with pool := (b.pool.addGlobal r).2 }

def withLoops (b : Builder) (loops : List LoopTarget) : Builder := { b with loops }

/-! ## Growth -/

/-- Nothing of `b` is lost in `b'`. -/
structure Le (b b' : Builder) : Prop where
  blocks : ∀ (i : Nat) (is : Array Instr), b.blocks[i]? = some is →
    ∃ is' : Array Instr, b'.blocks[i]? = some is' ∧ is.toList <+: is'.toList
  consts : b.pool.consts.toList <+: b'.pool.consts.toList
  globals : b.pool.globals.toList <+: b'.pool.globals.toList
  locals : b.locals.size ≤ b'.locals.size

theorem Le.refl (b : Builder) : Le b b :=
  ⟨fun _ is h => ⟨is, h, List.prefix_refl _⟩, List.prefix_refl _, List.prefix_refl _, Nat.le_refl _⟩

theorem Le.trans (h : Le b b₁) (h' : Le b₁ b') : Le b b' := by
  refine ⟨?_, h.consts.trans h'.consts, h.globals.trans h'.globals, Nat.le_trans h.locals h'.locals⟩
  intro i is his
  obtain ⟨is₁, his₁, hle⟩ := h.blocks i is his
  obtain ⟨is', his', hle'⟩ := h'.blocks i is₁ his₁
  exact ⟨is', his', hle.trans hle'⟩

/-- `b` comes from `b₀` by adding blocks and going to added ones: of the blocks that were there only
the current one may have grown. -/
structure From (b₀ b : Builder) : Prop where
  size : b₀.blocks.size ≤ b.blocks.size
  kept : ∀ i < b₀.blocks.size, i ≠ b₀.current → b.blocks[i]? = b₀.blocks[i]?
  current : b.current = b₀.current ∨ b₀.blocks.size ≤ b.current
  inside : b.current < b.blocks.size

theorem From.refl (h : b.current < b.blocks.size) : From b b :=
  ⟨Nat.le_refl _, fun _ _ _ => rfl, Or.inl rfl, h⟩

theorem From.trans (h : From b₀ b₁) (h' : From b₁ b) : From b₀ b := by
  refine ⟨Nat.le_trans h.size h'.size, ?_, ?_, h'.inside⟩
  · intro i hi hne
    have hne₁ : i ≠ b₁.current := by
      rcases h.current with heq | hle
      · rwa [heq]
      · omega
    rw [h'.kept i (Nat.lt_of_lt_of_le hi h.size) hne₁, h.kept i hi hne]
  · have hsize := h.size
    rcases h'.current with heq | hle
    · rw [heq]
      exact h.current
    · exact Or.inr (Nat.le_trans hsize hle)

theorem From.goTo (h : From b₀ b) {t : Nat} (ht : b₀.blocks.size ≤ t) (ht' : t < b.blocks.size) :
    From b₀ (b.goTo t) :=
  ⟨h.size, h.kept, Or.inr ht, ht'⟩

/-- The current block can take more instructions. -/
structure Open (b : Builder) : Prop where
  inside : b.current < b.blocks.size
  notClosed : Lower.isClosed b.block = false

theorem getElem?_block (h : b.current < b.blocks.size) : b.blocks[b.current]? = some b.block := by
  simp [block, h]

/-! ## The parts -/

theorem Le.of_eq (hblocks : b'.blocks = b.blocks) (hpool : b'.pool = b.pool)
    (hlocals : b'.locals = b.locals) : Le b b' := by
  refine ⟨?_, ?_, ?_, ?_⟩
  · intro i is his
    exact ⟨is, hblocks ▸ his, List.prefix_refl _⟩
  · exact hpool ▸ List.prefix_refl _
  · exact hpool ▸ List.prefix_refl _
  · exact Nat.le_of_eq (congrArg Array.size hlocals.symm)

theorem Le.goTo (b : Builder) (t : Nat) : Le b (b.goTo t) := Le.of_eq rfl rfl rfl

theorem Le.withLoops (b : Builder) (loops : List LoopTarget) : Le b (b.withLoops loops) :=
  Le.of_eq rfl rfl rfl

theorem Le.addLocal (b : Builder) (shape : Shape) : Le b (b.addLocal shape) := by
  refine ⟨fun _ is h => ⟨is, h, List.prefix_refl _⟩, List.prefix_refl _, List.prefix_refl _, ?_⟩
  simp [Builder.addLocal]

theorem Le.addBlock (b : Builder) : Le b b.addBlock := by
  refine ⟨?_, List.prefix_refl _, List.prefix_refl _, Nat.le_refl _⟩
  intro i is his
  refine ⟨is, ?_, List.prefix_refl _⟩
  have hi : i < b.blocks.size := (Array.getElem?_eq_some_iff.mp his).1
  have hne : i ≠ b.blocks.size := Nat.ne_of_lt hi
  rw [Builder.addBlock, Array.getElem?_push, if_neg hne, his]

theorem Le.append (b : Builder) (i : Instr) : Le b (b.append i) := by
  refine ⟨?_, List.prefix_refl _, List.prefix_refl _, Nat.le_refl _⟩
  intro t is his
  by_cases ht : b.current = t
  · refine ⟨is.push i, ?_, by simp⟩
    rw [Builder.append, Array.getElem?_modify, if_pos ht, his, Option.map_some]
  · refine ⟨is, ?_, List.prefix_refl _⟩
    rw [Builder.append, Array.getElem?_modify, if_neg ht, his]

theorem Le.emit (b : Builder) (i : Instr) : Le b (b.emit i) := by
  unfold Builder.emit
  split
  · exact ((Le.addBlock b).trans (Le.goTo _ _)).trans (Le.append _ i)
  · exact Le.append b i

theorem Le.jump (b : Builder) (target pos : Nat) : Le b (b.jump target pos) := by
  unfold Builder.jump
  split
  · exact Le.refl b
  · exact Le.emit b _

theorem enter_prefix {α : Type} (same : α → α → Bool) (xs : Array α) (x : α) :
    xs.toList <+: (Pool.enter same xs x).2.toList := by
  unfold Pool.enter
  split
  · exact List.prefix_refl _
  · simp

theorem Le.addConst (b : Builder) (v : Value) : Le b (b.addConst v) :=
  ⟨fun _ is h => ⟨is, h, List.prefix_refl _⟩, enter_prefix _ _ _, List.prefix_refl _, Nat.le_refl _⟩

theorem Le.addGlobal (b : Builder) (r : GlobalRef) : Le b (b.addGlobal r) :=
  ⟨fun _ is h => ⟨is, h, List.prefix_refl _⟩, List.prefix_refl _, enter_prefix _ _ _, Nat.le_refl _⟩

theorem From.of_eq (h : From b₀ b) (hblocks : b'.blocks = b.blocks) (hcurrent : b'.current = b.current) :
    From b₀ b' :=
  ⟨hblocks ▸ h.size, hblocks ▸ h.kept, hcurrent ▸ h.current, hblocks ▸ hcurrent ▸ h.inside⟩

theorem From.addBlock (h : From b₀ b) : From b₀ b.addBlock := by
  have hsize := h.size
  have hinside := h.inside
  refine ⟨?_, ?_, h.current, ?_⟩
  · simp only [Builder.addBlock, Array.size_push]
    omega
  · intro i hi hne
    rw [Builder.addBlock, Array.getElem?_push, if_neg (by omega), h.kept i hi hne]
  · simp only [Builder.addBlock, Array.size_push]
    omega

theorem From.append (h : From b₀ b) (i : Instr) : From b₀ (b.append i) := by
  refine ⟨?_, ?_, h.current, ?_⟩
  · simpa [Builder.append] using h.size
  · intro t ht hne
    have hne' : b.current ≠ t := by
      rcases h.current with heq | hle
      · rw [heq]
        exact hne.symm
      · omega
    rw [Builder.append, Array.getElem?_modify, if_neg hne', h.kept t ht hne]
  · simpa [Builder.append] using h.inside

theorem From.emit (h : From b₀ b) (i : Instr) : From b₀ (b.emit i) := by
  unfold Builder.emit
  split
  · refine From.append (From.goTo h.addBlock h.size ?_) i
    simp [Builder.addBlock]
  · exact h.append i

theorem From.jump (h : From b₀ b) (target pos : Nat) : From b₀ (b.jump target pos) := by
  unfold Builder.jump
  split
  · exact h
  · exact h.emit _

/-! ## Open blocks -/

theorem Open.emit_eq (h : b.Open) (i : Instr) : b.emit i = b.append i := by
  rw [Builder.emit, h.notClosed]
  rfl

theorem Open.jump_eq (h : b.Open) (target pos : Nat) :
    b.jump target pos = b.append ⟨.jump, target, 0, pos⟩ := by
  rw [Builder.jump, h.notClosed, if_neg (by simp), h.emit_eq]

theorem block_append (h : b.current < b.blocks.size) (i : Instr) :
    (b.append i).block = b.block.push i := by
  have hget : (b.append i).blocks[b.current]? = some (b.block.push i) := by
    rw [append, Array.getElem?_modify, if_pos rfl, getElem?_block h, Option.map_some]
  rw [block, Array.getD_eq_getD_getElem?]
  exact congrArg (·.getD #[]) hget

theorem Open.append (h : b.Open) {i : Instr} (hi : i.op.isTerminator = false) :
    (b.append i).Open := by
  refine ⟨by simpa [Builder.append] using h.inside, ?_⟩
  rw [block_append h.inside]
  simp [Lower.isClosed, hi]

theorem Open.of_eq (h : b.Open) (hblocks : b'.blocks = b.blocks) (hcurrent : b'.current = b.current) :
    b'.Open := by
  have hblock : b'.block = b.block := by rw [block, block, hblocks, hcurrent]
  exact ⟨hblocks ▸ hcurrent ▸ h.inside, hblock ▸ h.notClosed⟩

theorem block_addBlock (h : b.current < b.blocks.size) : b.addBlock.block = b.block := by
  simp [block, addBlock, h, Array.getD_eq_getD_getElem?, Array.getElem?_push, Nat.ne_of_lt h]

theorem Open.addBlock (h : b.Open) : b.addBlock.Open := by
  have hinside := h.inside
  refine ⟨?_, ?_⟩
  · simp only [Builder.addBlock, Array.size_push]
    omega
  · rw [block_addBlock hinside]
    exact h.notClosed

/-- A block that nothing has been put into. -/
def Empty (b : Builder) (t : Nat) : Prop := b.blocks[t]? = some #[]

theorem Empty.addBlock (b : Builder) : b.addBlock.Empty b.blocks.size := by
  simp [Empty, Builder.addBlock]

@[simp] theorem size_addBlock (b : Builder) : b.addBlock.blocks.size = b.blocks.size + 1 := by
  simp [Builder.addBlock]

theorem Empty.lt {t : Nat} (h : b.Empty t) : t < b.blocks.size := (Array.getElem?_eq_some_iff.mp h).1

theorem Empty.more {t : Nat} (h : b.Empty t) : b.addBlock.Empty t := by
  rw [Empty, Builder.addBlock, Array.getElem?_push, if_neg (Nat.ne_of_lt h.lt)]
  exact h

theorem Empty.from {t : Nat} (h : b.Empty t) (hfrom : From b b') (ht : t ≠ b.current) :
    b'.Empty t := by
  rw [Empty, hfrom.kept t h.lt ht]
  exact h

theorem Empty.goTo {t : Nat} (h : b.Empty t) : (b.goTo t).Open ∧ (b.goTo t).block = #[] := by
  have hblock : (b.goTo t).block = #[] := by
    simp only [block, Builder.goTo, Array.getD_eq_getD_getElem?]
    rw [show b.blocks[t]? = some #[] from h]
    rfl
  exact ⟨⟨(Array.getElem?_eq_some_iff.mp h).1, by rw [hblock]; rfl⟩, hblock⟩

/-! ## Builders made from others -/

/-- What lowering an expression or a statement does to a builder. -/
structure Built (b b' : Builder) : Prop where
  le : Le b b'
  origin : From b b'
  loops : b'.loops = b.loops

theorem Built.refl (h : b.current < b.blocks.size) : Built b b := ⟨Le.refl b, From.refl h, rfl⟩

theorem Built.trans (h : Built b b₁) (h' : Built b₁ b') : Built b b' :=
  ⟨h.le.trans h'.le, h.origin.trans h'.origin, h'.loops.trans h.loops⟩

theorem Built.addBlock (h : Built b b') : Built b b'.addBlock :=
  ⟨h.le.trans (Le.addBlock b'), h.origin.addBlock, h.loops⟩

theorem loops_emit (b : Builder) (i : Instr) : (b.emit i).loops = b.loops := by
  unfold Builder.emit
  split <;> rfl

theorem Built.emit (h : Built b b') (i : Instr) : Built b (b'.emit i) :=
  ⟨h.le.trans (Le.emit b' i), h.origin.emit i, (loops_emit b' i).trans h.loops⟩

theorem Built.jump (h : Built b b') (target pos : Nat) : Built b (b'.jump target pos) := by
  unfold Builder.jump
  split
  · exact h
  · exact h.emit _

theorem Built.branch (h : Built b b') (yes no pos : Nat) : Built b (b'.branch yes no pos) :=
  h.emit _

theorem Built.addConst (h : Built b b') (v : Value) : Built b (b'.addConst v) :=
  ⟨h.le.trans (Le.addConst b' v), h.origin.of_eq rfl rfl, h.loops⟩

theorem Built.addGlobal (h : Built b b') (r : GlobalRef) : Built b (b'.addGlobal r) :=
  ⟨h.le.trans (Le.addGlobal b' r), h.origin.of_eq rfl rfl, h.loops⟩

theorem Built.addLocal (h : Built b b') (shape : Shape) : Built b (b'.addLocal shape) :=
  ⟨h.le.trans (Le.addLocal b' shape), h.origin.of_eq rfl rfl, h.loops⟩

theorem Built.goTo (h : Built b b') {t : Nat} (ht : b.blocks.size ≤ t) (ht' : t < b'.blocks.size) :
    Built b (b'.goTo t) :=
  ⟨h.le.trans (Le.goTo b' t), h.origin.goTo ht ht', h.loops⟩

/-- Opens so many blocks. -/
def addBlocks (b : Builder) : Nat → Builder
  | 0 => b
  | k + 1 => (b.addBlocks k).addBlock

@[simp] theorem current_addBlocks (b : Builder) (k : Nat) : (b.addBlocks k).current = b.current := by
  induction k with
  | zero => rfl
  | succ k ih => exact ih

@[simp] theorem locals_addBlocks (b : Builder) (k : Nat) : (b.addBlocks k).locals = b.locals := by
  induction k with
  | zero => rfl
  | succ k ih => exact ih

@[simp] theorem size_addBlocks (b : Builder) (k : Nat) :
    (b.addBlocks k).blocks.size = b.blocks.size + k := by
  induction k with
  | zero => rfl
  | succ k ih => rw [addBlocks, size_addBlock, ih, Nat.add_assoc]

theorem addBlocks_addBlock (b : Builder) (k : Nat) : b.addBlock.addBlocks k = b.addBlocks (k + 1) := by
  induction k with
  | zero => rfl
  | succ k ih => exact congrArg Builder.addBlock ih

theorem Built.addBlocks (h : Built b b') (k : Nat) : Built b (b'.addBlocks k) := by
  induction k with
  | zero => exact h
  | succ k ih => exact ih.addBlock

theorem Open.addBlocks (h : b.Open) (k : Nat) : (b.addBlocks k).Open := by
  induction k with
  | zero => exact h
  | succ k ih => exact ih.addBlock

theorem Empty.addBlocks (b : Builder) {k t : Nat} (ht : b.blocks.size ≤ t)
    (ht' : t < b.blocks.size + k) : (b.addBlocks k).Empty t := by
  induction k with
  | zero => omega
  | succ k ih =>
    by_cases heq : t = (b.addBlocks k).blocks.size
    · rw [heq]
      exact Empty.addBlock _
    · rw [size_addBlocks] at heq
      exact (ih (by omega)).more

theorem Empty.built {t : Nat} (h : b.Empty t) (hbuilt : Built b b') (ht : t ≠ b.current) :
    b'.Empty t :=
  h.from hbuilt.origin ht

theorem Empty.fresh {k t : Nat} (hb : b.current < b.blocks.size) (hbuilt : Built (b.addBlocks k) b')
    (ht : b.blocks.size ≤ t) (ht' : t < b.blocks.size + k) : b'.Empty t :=
  (Empty.addBlocks b ht ht').built hbuilt (by rw [current_addBlocks]; omega)

/-- A block stays empty while code goes to another one. -/
theorem Empty.aside {t u : Nat} (h : b.Empty t) (hbuilt : Built (b.goTo u) b') (ht : t ≠ u) :
    b'.Empty t :=
  Empty.built (b := b.goTo u) h hbuilt ht

theorem Built.inside (h : Built b b') : b'.current < b'.blocks.size := h.origin.inside

@[simp] theorem locals_goTo (b : Builder) (t : Nat) : (b.goTo t).locals = b.locals := rfl

@[simp] theorem locals_addBlock (b : Builder) : b.addBlock.locals = b.locals := rfl

@[simp] theorem locals_emit (b : Builder) (i : Instr) : (b.emit i).locals = b.locals := by
  unfold Builder.emit
  split <;> rfl

@[simp] theorem pool_emit (b : Builder) (i : Instr) : (b.emit i).pool = b.pool := by
  unfold Builder.emit
  split <;> rfl

@[simp] theorem locals_jump (b : Builder) (target pos : Nat) : (b.jump target pos).locals = b.locals := by
  unfold Builder.jump
  split
  · rfl
  · exact locals_emit b _

theorem Open.emit (h : b.Open) {i : Instr} (hi : i.op.isTerminator = false) : (b.emit i).Open := by
  rw [h.emit_eq]
  exact h.append hi

end Builder

/-! ## Running the parts -/

namespace Lower

variable {α β : Type} {b b' : Builder}

theorem bind_ok {x : Lower α} {f : α → Lower β} {c : β} :
    (x >>= f) b = .ok (c, b') ↔ ∃ a b₁, x b = .ok (a, b₁) ∧ f a b₁ = .ok (c, b') := by
  simp only [Bind.bind, StateT.bind, Except.bind]
  cases x b with
  | error e => simp
  | ok r =>
    obtain ⟨a, b₁⟩ := r
    constructor
    · exact fun h => ⟨a, b₁, rfl, h⟩
    · rintro ⟨_, _, h, h'⟩
      cases h
      exact h'

theorem bind_eq {x : Lower α} {f : α → Lower β} {a : α} {b₁ : Builder} (hx : x b = .ok (a, b₁)) :
    (x >>= f) b = f a b₁ := by
  simp only [Bind.bind, StateT.bind, Except.bind, hx]

theorem pure_ok {a c : α} : (pure a : Lower α) b = .ok (c, b') ↔ a = c ∧ b = b' := by
  show (Except.ok (a, b) : Except LowerError (α × Builder)) = .ok (c, b') ↔ _
  rw [Except.ok.injEq, Prod.mk.injEq]

theorem ok_inj (h : (Except.ok ((), b) : Except LowerError (Unit × Builder)) = .ok ((), b')) :
    b = b' := by
  injection h with h
  exact congrArg Prod.snd h

theorem newBlock_eq (b : Builder) : newBlock b = .ok (b.blocks.size, b.addBlock) := rfl

theorem goTo_eq (b : Builder) (t : Nat) : goTo t b = .ok ((), b.goTo t) := rfl

theorem emit_eq (b : Builder) (o : Op) (x y : Int) (sp : Span) :
    emit o x y sp b = .ok ((), b.emit ⟨o, x, y, sp.start⟩) := by
  have hclosed : closed b = .ok (isClosed b.block, b) := rfl
  unfold emit Builder.emit
  simp only [Bind.bind, StateT.bind, Except.bind, hclosed]
  cases isClosed b.block with
  | true => rfl
  | false => rfl

theorem op_eq (b : Builder) (o : Op) (sp : Span) :
    op o sp b = .ok ((), b.emit ⟨o, 0, 0, sp.start⟩) := emit_eq b o 0 0 sp

theorem branch_eq (b : Builder) (yes no : Nat) (sp : Span) :
    branch yes no sp b = .ok ((), b.branch yes no sp.start) := emit_eq b _ _ _ sp

theorem ret_eq (b : Builder) (ctx : LowerContext) (sp : Span) :
    ret ctx sp b = .ok ((), b.emit ⟨.ret, if ctx.hasResult then 1 else 0, 0, sp.start⟩) :=
  emit_eq b _ _ _ sp

theorem jump_eq (b : Builder) (t : Nat) (sp : Span) :
    jump t sp b = .ok ((), b.jump t sp.start) := by
  have hclosed : closed b = .ok (isClosed b.block, b) := rfl
  unfold jump Builder.jump
  simp only [Bind.bind, StateT.bind, Except.bind, hclosed]
  cases isClosed b.block with
  | true => rfl
  | false => exact emit_eq b _ _ _ sp

theorem temp_eq (b : Builder) (shape : Shape) :
    temp shape b = .ok (b.locals.size, b.addLocal shape) := rfl

theorem constant_eq (b : Builder) (v : Value) (sp : Span) :
    constant v sp b =
      .ok ((), (b.addConst v).emit ⟨.const, ((b.pool.addConst v).1 : Nat), 0, sp.start⟩) :=
  emit_eq (b.addConst v) _ _ _ sp

theorem addGlobal_eq (b : Builder) (r : GlobalRef) :
    pooled (·.addGlobal r) b = .ok ((b.pool.addGlobal r).1, b.addGlobal r) := rfl

theorem lift_ok {x : Except LowerError α} {a : α} :
    (liftM x : Lower α) b = .ok (a, b') ↔ x = .ok a ∧ b = b' := by
  cases x with
  | error e => simp [liftM, monadLift, MonadLift.monadLift, StateT.lift, Bind.bind, Except.bind]
  | ok c =>
    simp [liftM, monadLift, MonadLift.monadLift, StateT.lift, Bind.bind, Except.bind, Pure.pure,
      Except.pure]

theorem inLoop_ok {target : LoopTarget} {body : Lower Unit} :
    inLoop target body b = .ok ((), b') ↔
      ∃ b₁, body (b.withLoops (target :: b.loops)) = .ok ((), b₁) ∧
        b' = b₁.withLoops b₁.loops.tail := by
  unfold inLoop
  rw [bind_ok]
  constructor
  · rintro ⟨_, b₀, h₀, h⟩
    cases h₀
    obtain ⟨_, b₁, h₁, h⟩ := bind_ok.mp h
    cases h
    exact ⟨b₁, h₁, rfl⟩
  · rintro ⟨b₁, h₁, rfl⟩
    exact ⟨(), _, rfl, bind_ok.mpr ⟨(), b₁, h₁, rfl⟩⟩

theorem innermost_ok {ctx : LowerContext} {l : LoopTarget} :
    innermost ctx b = .ok (l, b') ↔ b = b' ∧ ∃ ls, b.loops = l :: ls := by
  unfold innermost
  rw [bind_eq (show (get : Lower Builder) b = .ok (b, b) from rfl)]
  cases b.loops with
  | nil =>
    constructor
    · intro h
      cases h
    · rintro ⟨-, ls, h⟩
      cases h
  | cons l' ls =>
    rw [pure_ok]
    constructor
    · rintro ⟨rfl, rfl⟩
      exact ⟨rfl, ls, rfl⟩
    · rintro ⟨rfl, ls', h⟩
      cases h
      exact ⟨rfl, rfl⟩

end Lower

end Pascaline
