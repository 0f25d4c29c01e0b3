import Pascaline.Proofs.Lowering.Balance
import Pascaline.Proofs.Lowering.Traversal

/-!
# Where the code of a statement leads

The code of a statement leads only to blocks that are opened for it and to the places of the loop
around it, and it stores only into declared slots and into hidden ones that are its own. The blocks
between its first and its last one are finished with it: later code goes elsewhere.
-/

namespace Pascaline

/-- Operations that neither lead elsewhere in the routine nor store into a slot. -/
def Op.isAside : Op → Bool
  | jump | branch | storeLocal => false
  | _ => true

theorem Op.isAside_of_isQuiet {o : Op} (h : o.isQuiet = true) : o.isAside = true := by
  cases o <;> first | rfl | cases h

namespace Instr

/-- The blocks that an instruction names. -/
def Names (i : Instr) (target : Int) : Prop :=
  i.op = .jump ∧ target = i.a ∨ i.op = .branch ∧ (target = i.a ∨ target = i.b)

end Instr

namespace Builder

variable {slots size : Nat} {b b' b₀ b₁ c c' d : Builder} {i : Instr} {k ip t : Nat} {R R' : Nat → Prop}

@[simp] theorem current_goTo (b : Builder) (t : Nat) : (b.goTo t).current = t := rfl

/-! ## Instructions that are added -/

/-- Where code that is added may lead when there are `size` blocks. -/
def Reaches (b₀ : Builder) (size : Nat) (target : Int) : Prop :=
  ∃ j : Nat, target = j ∧
    (b₀.blocks.size ≤ j ∧ j < size ∨ ∃ l ∈ b₀.loops.head?, j = l.next ∨ j = l.leave)

/-- What an instruction that is added may do. The first `slots` slots are declared. -/
structure Allows (slots : Nat) (b₀ : Builder) (size : Nat) (i : Instr) : Prop where
  leads : ∀ {target : Int}, i.Names target → b₀.Reaches size target
  stores : i.op = .storeLocal → i.a.toNat < slots ∨ b₀.locals.size ≤ i.a.toNat

/-- What becomes of a builder while code is added. -/
structure Grown (slots : Nat) (b₀ b : Builder) : Prop extends Built b₀ b where
  added : ∀ {k ip : Nat} {i : Instr}, b.blocks.instr? k ip = some i →
    b₀.blocks.instr? k ip = some i ∨ Allows slots b₀ b.blocks.size i

theorem Reaches.fresh (h : b₀.blocks.size ≤ t) (ht : t < size) : b₀.Reaches size t :=
  ⟨t, rfl, .inl ⟨h, ht⟩⟩

theorem Reaches.mono {size' : Nat} {target : Int} (h : b₀.Reaches size target) (hsize : size ≤ size') :
    b₀.Reaches size' target := by
  obtain ⟨j, hj, ⟨hle, hlt⟩ | hl⟩ := h
  · exact ⟨j, hj, .inl ⟨hle, Nat.lt_of_lt_of_le hlt hsize⟩⟩
  · exact ⟨j, hj, .inr hl⟩

theorem Reaches.of_built {target : Int} (h : b₁.Reaches size target) (hbuilt : Built b₀ b₁) :
    b₀.Reaches size target := by
  obtain ⟨j, hj, ⟨hle, hlt⟩ | hl⟩ := h
  · exact ⟨j, hj, .inl ⟨Nat.le_trans hbuilt.origin.size hle, hlt⟩⟩
  · exact ⟨j, hj, .inr (hbuilt.loops ▸ hl)⟩

theorem Allows.mono {size' : Nat} (h : Allows slots b₀ size i) (hsize : size ≤ size') :
    Allows slots b₀ size' i :=
  ⟨fun hi => (h.leads hi).mono hsize, h.stores⟩

theorem Allows.of_built (h : Allows slots b₁ size i) (hbuilt : Built b₀ b₁) :
    Allows slots b₀ size i :=
  ⟨fun hi => (h.leads hi).of_built hbuilt,
    fun hi => (h.stores hi).imp id (Nat.le_trans hbuilt.le.locals)⟩

theorem Allows.aside (h : i.op.isAside = true) : Allows slots b₀ size i := by
  refine ⟨?_, fun hop => by rw [hop] at h; cases h⟩
  rintro target (⟨hop, -⟩ | ⟨hop, -⟩)
  · rw [hop] at h
    cases h
  · rw [hop] at h
    cases h

theorem Allows.jump {target p : Nat} (h : b₀.Reaches size target) :
    Allows slots b₀ size ⟨.jump, target, 0, p⟩ := by
  refine ⟨?_, nofun⟩
  rintro target' (⟨-, rfl⟩ | ⟨hop, -⟩)
  · exact h
  · cases hop

theorem Allows.branch {yes no p : Nat} (hyes : b₀.Reaches size yes) (hno : b₀.Reaches size no) :
    Allows slots b₀ size ⟨.branch, yes, no, p⟩ := by
  refine ⟨?_, nofun⟩
  rintro target (⟨hop, -⟩ | ⟨-, rfl | rfl⟩)
  · cases hop
  · exact hyes
  · exact hno

theorem Allows.store {slot p : Nat} (h : slot < slots ∨ b₀.locals.size ≤ slot) :
    Allows slots b₀ size ⟨.storeLocal, slot, 0, p⟩ := by
  refine ⟨?_, fun _ => h⟩
  rintro target (⟨hop, -⟩ | ⟨hop, -⟩)
  · cases hop
  · cases hop

theorem instr?_of_append {j : Instr} (h : (b.append i).blocks.instr? k ip = some j) :
    b.blocks.instr? k ip = some j ∨ j = i := by
  obtain ⟨is, his, hj⟩ := Option.bind_eq_some_iff.mp h
  rw [Builder.append, Array.getElem?_modify] at his
  split at his
  · obtain ⟨is₀, his₀, rfl⟩ := Option.map_eq_some_iff.mp his
    rw [Array.getElem?_push] at hj
    split at hj
    · exact .inr (Option.some.inj hj).symm
    · exact .inl (Option.bind_eq_some_iff.mpr ⟨is₀, his₀, hj⟩)
  · exact .inl (Option.bind_eq_some_iff.mpr ⟨is, his, hj⟩)

theorem instr?_of_addBlock (h : b.addBlock.blocks.instr? k ip = some i) :
    b.blocks.instr? k ip = some i := by
  obtain ⟨is, his, hi⟩ := Option.bind_eq_some_iff.mp h
  rw [Builder.addBlock, Array.getElem?_push] at his
  split at his
  · cases his
    simp at hi
  · exact Option.bind_eq_some_iff.mpr ⟨is, his, hi⟩

theorem instr?_of_emit {j : Instr} (h : (b.emit i).blocks.instr? k ip = some j) :
    b.blocks.instr? k ip = some j ∨ j = i := by
  unfold Builder.emit at h
  split at h
  · exact (instr?_of_append h).imp instr?_of_addBlock id
  · exact instr?_of_append h

theorem Grown.refl (h : b.current < b.blocks.size) : Grown slots b b := ⟨Built.refl h, .inl⟩

theorem Grown.trans (h : Grown slots b₀ b₁) (h' : Grown slots b₁ b) : Grown slots b₀ b := by
  refine ⟨h.toBuilt.trans h'.toBuilt, fun hi => ?_⟩
  rcases h'.added hi with hi | hi
  · exact (h.added hi).imp id (·.mono h'.origin.size)
  · exact .inr (hi.of_built h.toBuilt)

theorem Grown.emit (h : Grown slots b₀ b) (hi : Allows slots b₀ b.blocks.size i) :
    Grown slots b₀ (b.emit i) := by
  have hsize := ((Built.refl h.inside).emit i).origin.size
  refine ⟨h.toBuilt.emit i, fun hj => ?_⟩
  rcases instr?_of_emit hj with hj | rfl
  · exact (h.added hj).imp id (·.mono hsize)
  · exact .inr (hi.mono hsize)

theorem Grown.jump {p : Nat} (h : Grown slots b₀ b) (ht : b₀.Reaches b.blocks.size t) :
    Grown slots b₀ (b.jump t p) := by
  unfold Builder.jump
  split
  · exact h
  · exact h.emit (.jump ht)

theorem Grown.branch {yes no p : Nat} (h : Grown slots b₀ b) (hyes : b₀.Reaches b.blocks.size yes)
    (hno : b₀.Reaches b.blocks.size no) : Grown slots b₀ (b.branch yes no p) :=
  h.emit (.branch hyes hno)

theorem Grown.of_eq (h : Grown slots b₀ b) (hbuilt : Built b₀ b') (hblocks : b'.blocks = b.blocks) :
    Grown slots b₀ b' := by
  refine ⟨hbuilt, fun {k ip i} hi => ?_⟩
  rw [hblocks] at hi ⊢
  exact h.added hi

theorem Grown.goTo (h : Grown slots b₀ b) (ht : b₀.blocks.size ≤ t) (ht' : t < b.blocks.size) :
    Grown slots b₀ (b.goTo t) :=
  h.of_eq (h.toBuilt.goTo ht ht') rfl

theorem Grown.addLocal (h : Grown slots b₀ b) (shape : Shape) : Grown slots b₀ (b.addLocal shape) :=
  h.of_eq (h.toBuilt.addLocal shape) rfl

theorem Grown.addBlock (h : Grown slots b₀ b) : Grown slots b₀ b.addBlock := by
  refine ⟨h.toBuilt.addBlock, fun hi => ?_⟩
  refine (h.added (instr?_of_addBlock hi)).imp id (·.mono ?_)
  rw [size_addBlock]
  exact Nat.le_succ _

theorem Grown.addBlocks (h : Grown slots b₀ b) (n : Nat) : Grown slots b₀ (b.addBlocks n) := by
  induction n with
  | zero => exact h
  | succ n ih => exact ih.addBlock

theorem Built.inLoop {l : LoopTarget} (h : Built b₀ b)
    (h' : Built (b.withLoops (l :: b.loops)) b₁) : Built b₀ (b₁.withLoops b₁.loops.tail) := by
  have hfrom : From b b₁ := ⟨h'.origin.size, h'.origin.kept, h'.origin.current, h'.origin.inside⟩
  exact h.trans ⟨((Le.withLoops b _).trans h'.le).trans (Le.withLoops b₁ _), hfrom.of_eq rfl rfl,
    congrArg List.tail h'.loops⟩

theorem Grown.inLoop {l : LoopTarget} (h : Grown slots b₀ b)
    (h' : Grown slots (b.withLoops (l :: b.loops)) b₁) (hnext : b₀.Reaches b₁.blocks.size l.next)
    (hleave : b₀.Reaches b₁.blocks.size l.leave) :
    Grown slots b₀ (b₁.withLoops b₁.loops.tail) := by
  refine ⟨h.toBuilt.inLoop h'.toBuilt, fun {k ip i} hi => ?_⟩
  rcases h'.added hi with hi | hallows
  · exact (h.added hi).imp id (·.mono h'.origin.size)
  · refine .inr ⟨fun {target} hnames => ?_,
      fun hop => (hallows.stores hop).imp id (Nat.le_trans h.le.locals)⟩
    obtain ⟨j, rfl, ⟨hle, hlt⟩ | ⟨l', hl', hj⟩⟩ := hallows.leads hnames
    · exact .fresh (Nat.le_trans h.origin.size hle) hlt
    · obtain rfl : l = l' := by simpa [Builder.withLoops] using hl'
      rcases hj with rfl | rfl
      · exact hnext
      · exact hleave

theorem Le.size_le (h : Le b b') : b.blocks.size ≤ b'.blocks.size := by
  refine Nat.le_of_not_lt fun hlt => ?_
  obtain ⟨is, his, -⟩ := h.blocks b'.blocks.size _ (Array.getElem?_eq_getElem hlt)
  exact absurd (Array.getElem?_eq_some_iff.mp his).1 (Nat.lt_irrefl _)

/-- So many blocks have been opened first. -/
structure Opened (slots n : Nat) (b₀ b : Builder) : Prop extends Grown slots b₀ b where
  opened : b₀.blocks.size + n ≤ b.blocks.size

section Opened

variable {n p : Nat}

theorem opened_addBlocks (hb : b.current < b.blocks.size) (n : Nat) :
    Opened slots n b (b.addBlocks n) :=
  ⟨(Grown.refl hb).addBlocks n, Nat.le_of_eq (size_addBlocks b n).symm⟩

theorem Opened.trans (h : Opened slots n b₀ b₁) (h' : Grown slots b₁ b) : Opened slots n b₀ b :=
  ⟨h.toGrown.trans h', Nat.le_trans h.opened h'.origin.size⟩

theorem Opened.reaches (h : Opened slots n b₀ b) (ht : b₀.blocks.size ≤ t)
    (ht' : t < b₀.blocks.size + n) : b₀.Reaches b.blocks.size t :=
  .fresh ht (Nat.lt_of_lt_of_le ht' h.opened)

theorem Opened.emit (h : Opened slots n b₀ b) (hi : Allows slots b₀ b.blocks.size i) :
    Opened slots n b₀ (b.emit i) :=
  ⟨h.toGrown.emit hi, Nat.le_trans h.opened (Le.emit b i).size_le⟩

theorem Opened.jump (h : Opened slots n b₀ b) (ht : b₀.blocks.size ≤ t)
    (ht' : t < b₀.blocks.size + n) : Opened slots n b₀ (b.jump t p) :=
  ⟨h.toGrown.jump (h.reaches ht ht'), Nat.le_trans h.opened (Le.jump b t p).size_le⟩

theorem Opened.branch (h : Opened slots n b₀ b) (yes no : Nat)
    (hyes : b₀.blocks.size ≤ yes ∧ yes < b₀.blocks.size + n)
    (hno : b₀.blocks.size ≤ no ∧ no < b₀.blocks.size + n) :
    Opened slots n b₀ (b.branch yes no p) :=
  h.emit (.branch (h.reaches hyes.1 hyes.2) (h.reaches hno.1 hno.2))

theorem Opened.goTo (h : Opened slots n b₀ b) (ht : b₀.blocks.size ≤ t)
    (ht' : t < b₀.blocks.size + n) : Opened slots n b₀ (b.goTo t) :=
  ⟨h.toGrown.goTo ht (Nat.lt_of_lt_of_le ht' h.opened), h.opened⟩

end Opened

/-! ## Blocks that are finished -/

/-- The blocks that code has been put into between `c` and `c'`. -/
def Range (c c' : Builder) (k : Nat) : Prop :=
  (k = c.current ∨ c.blocks.size ≤ k) ∧ k < c'.blocks.size

/-- These blocks are finished in `b`, as they were in `c'`. -/
structure Finished (R : Nat → Prop) (c' b : Builder) : Prop where
  inside : ∀ k, R k → k < c'.blocks.size
  kept : ∀ k, R k → b.blocks[k]? = c'.blocks[k]?
  aside : ¬R b.current

theorem Finished.lt (h : Finished R c' b) (hk : R k) : k < b.blocks.size := by
  have hsome := h.kept k hk
  rw [Array.getElem?_eq_getElem (h.inside k hk)] at hsome
  exact (Array.getElem?_eq_some_iff.mp hsome).1

theorem Finished.built (h : Finished R c' b) (hbuilt : Built b b') : Finished R c' b' := by
  have hne : ∀ k, R k → k ≠ b.current := fun k hk heq => h.aside (heq ▸ hk)
  refine ⟨h.inside, fun k hk => ?_, fun hcurrent => ?_⟩
  · rw [hbuilt.origin.kept k (h.lt hk) (hne k hk), h.kept k hk]
  · rcases hbuilt.origin.current with heq | hle
    · exact h.aside (heq ▸ hcurrent)
    · exact absurd (h.lt hcurrent) (Nat.not_lt.mpr hle)

theorem Finished.goTo (h : Finished R c' b) (ht : ¬R t) : Finished R c' (b.goTo t) :=
  ⟨h.inside, h.kept, ht⟩

theorem Finished.trans (h : Finished R d c') (h' : Finished R' c' b)
    (hle : ∀ k, R k → k ≠ c'.current → R' k) : Finished R d b := by
  have hin : ∀ k, R k → R' k := fun k hk => hle k hk fun heq => h.aside (heq ▸ hk)
  exact ⟨h.inside, fun k hk => (h'.kept k (hin k hk)).trans (h.kept k hk),
    fun hcurrent => h'.aside (hin _ hcurrent)⟩

end Builder

namespace Bound.Stmt

mutual

theorem flatten_trans (s : Stmt) : ∀ s₁ ∈ s.flatten, ∀ s₂ ∈ s₁.flatten, s₂ ∈ s.flatten := by
  intro s₁ h₁ s₂ h₂
  cases s with
  | ifElse cond yes no sp =>
    rw [flatten, List.mem_cons, List.mem_append] at h₁ ⊢
    rcases h₁ with rfl | h₁ | h₁
    · rwa [flatten, List.mem_cons, List.mem_append] at h₂
    · exact .inr (.inl (flattenAll_trans yes s₁ h₁ s₂ h₂))
    · exact .inr (.inr (flattenAll_trans no s₁ h₁ s₂ h₂))
  | whileDo cond body sp =>
    rw [flatten, List.mem_cons] at h₁ ⊢
    rcases h₁ with rfl | h₁
    · rwa [flatten, List.mem_cons] at h₂
    · exact .inr (flattenAll_trans body s₁ h₁ s₂ h₂)
  | repeatUntil body cond sp =>
    rw [flatten, List.mem_cons] at h₁ ⊢
    rcases h₁ with rfl | h₁
    · rwa [flatten, List.mem_cons] at h₂
    · exact .inr (flattenAll_trans body s₁ h₁ s₂ h₂)
  | forTo var first last down body sp =>
    rw [flatten, List.mem_cons] at h₁ ⊢
    rcases h₁ with rfl | h₁
    · rwa [flatten, List.mem_cons] at h₂
    · exact .inr (flattenAll_trans body s₁ h₁ s₂ h₂)
  | caseOf subject arms otherwise sp =>
    rw [flatten, List.mem_cons, List.mem_append] at h₁ ⊢
    rcases h₁ with rfl | h₁ | h₁
    · rwa [flatten, List.mem_cons, List.mem_append] at h₂
    · exact .inr (.inl (flattenArms_trans arms s₁ h₁ s₂ h₂))
    · exact .inr (.inr (flattenAll_trans otherwise s₁ h₁ s₂ h₂))
  | _ =>
    obtain rfl := List.mem_singleton.mp h₁
    exact h₂

theorem flattenAll_trans (ss : List Stmt) :
    ∀ s₁ ∈ flattenAll ss, ∀ s₂ ∈ s₁.flatten, s₂ ∈ flattenAll ss := by
  intro s₁ h₁ s₂ h₂
  cases ss with
  | nil => exact (List.not_mem_nil h₁).elim
  | cons s ss =>
    rw [flattenAll, List.mem_append] at h₁ ⊢
    exact h₁.imp (flatten_trans s s₁ · s₂ h₂) (flattenAll_trans ss s₁ · s₂ h₂)

theorem flattenArms_trans (arms : List CaseArm) :
    ∀ s₁ ∈ flattenArms arms, ∀ s₂ ∈ s₁.flatten, s₂ ∈ flattenArms arms := by
  intro s₁ h₁ s₂ h₂
  cases arms with
  | nil => exact (List.not_mem_nil h₁).elim
  | cons arm arms =>
    obtain ⟨labels, body⟩ := arm
    rw [flattenArms, List.mem_append] at h₁ ⊢
    exact h₁.imp (flattenAll_trans body s₁ · s₂ h₂) (flattenArms_trans arms s₁ · s₂ h₂)

end

end Bound.Stmt

namespace Lower

open Builder Bound.Expr

variable {α β : Type} {slots t : Nat} {x : Lower α} {b b' b₀ b₁ : Builder} {ctx : LowerContext}
  {ss : List Bound.Stmt} {s : Bound.Stmt}

theorem instr?_of_closeAll {sp : Span} {blocks : Blocks} {k ip : Nat} {i : Instr}
    (h : (closeAll ctx sp blocks).instr? k ip = some i) :
    blocks.instr? k ip = some i ∨ i.op = .ret := by
  obtain ⟨is, his, hi⟩ := Option.bind_eq_some_iff.mp h
  unfold closeAll at his
  rw [Array.getElem?_map] at his
  obtain ⟨is₀, his₀, rfl⟩ := Option.map_eq_some_iff.mp his
  split at hi
  · exact .inl (Option.bind_eq_some_iff.mpr ⟨is₀, his₀, hi⟩)
  · rw [Array.getElem?_push] at hi
    split at hi
    · cases hi
      exact .inr rfl
    · exact .inl (Option.bind_eq_some_iff.mpr ⟨is₀, his₀, hi⟩)

/-! ## Expressions -/

/-- Code that leads nowhere and stores nothing by itself. -/
def Adds (slots : Nat) (x : Lower α) : Prop :=
  ∀ ⦃b b' : Builder⦄ ⦃a : α⦄, x b = .ok (a, b') → b.current < b.blocks.size → Grown slots b b'

theorem adds_pure (a : α) : Adds slots (pure a) := by
  intro b b' a' h hb
  obtain ⟨-, rfl⟩ := pure_ok.mp h
  exact Grown.refl hb

theorem Adds.bind {f : α → Lower β} (hx : Adds slots x) (hf : ∀ a, Adds slots (f a)) :
    Adds slots (x >>= f) := by
  intro b b' c h hb
  obtain ⟨a, b₁, h₁, h⟩ := bind_ok.mp h
  have hgrown := hx h₁ hb
  exact hgrown.trans (hf a h hgrown.inside)

theorem adds_emit {o : Op} {a a' : Int} {sp : Span} (ho : o.isAside = true) :
    Adds slots (emit o a a' sp) := by
  intro b b' c h hb
  rw [emit_eq] at h
  cases h
  exact (Grown.refl hb).emit (.aside ho)

theorem adds_pooled {f : Pool → Nat × Pool}
    (hconsts : ∀ pool : Pool, pool.consts.toList <+: (f pool).2.consts.toList)
    (hglobals : ∀ pool : Pool, pool.globals.toList <+: (f pool).2.globals.toList) :
    Adds slots (pooled f) := by
  intro b b' n h hb
  cases h
  have hle : Le b { b with pool := (f b.pool).2 } :=
    ⟨fun _ is his => ⟨is, his, List.prefix_refl _⟩, hconsts b.pool, hglobals b.pool, Nat.le_refl _⟩
  exact (Grown.refl hb).of_eq ⟨hle, (From.refl hb).of_eq rfl rfl, rfl⟩ rfl

theorem adds_constant (v : Value) (sp : Span) : Adds slots (constant v sp) :=
  (adds_pooled (fun _ => enter_prefix _ _ _) fun _ => List.prefix_refl _).bind fun _ => adds_emit rfl

theorem adds_global {o : Op} {sp : Span} (ref : GlobalRef) (ho : o.isAside = true) :
    Adds slots (pooled (·.addGlobal ref) >>= fun n => emit o n 0 sp) :=
  (adds_pooled (fun _ => List.prefix_refl _) fun _ => enter_prefix _ _ _).bind fun _ => adds_emit ho

theorem adds_entry {f : Pool → Nat × Pool} (hconsts : ∀ pool : Pool, (f pool).2.consts = pool.consts)
    (hglobals : ∀ pool : Pool, (f pool).2.globals = pool.globals) : Adds slots (pooled f) := by
  exact adds_pooled (fun pool => ⟨[], by rw [hconsts, List.append_nil]⟩)
    fun pool => ⟨[], by rw [hglobals, List.append_nil]⟩

theorem adds_addCall (ref : RoutineRef) : Adds slots (pooled (·.addCall ref)) :=
  adds_entry (fun _ => rfl) fun _ => rfl

theorem adds_elementShape (ctx : LowerContext) (elem : TypeId) : Adds slots (elementShape ctx elem) := by
  intro b b' n h hb
  obtain ⟨shape, _, hshape, h⟩ := bind_ok.mp h
  obtain ⟨-, rfl⟩ := lift_ok.mp hshape
  exact adds_pooled (fun _ => List.prefix_refl _) (fun _ => List.prefix_refl _) h hb

theorem adds_short {o : Bound.BinaryOp} {left right : Bound.Expr} {type : TypeId} {sp : Span}
    (hshort : isShort o (ctx.types.kind type) = true) (hleft : Adds slots (expr ctx left))
    (hright : Adds slots (expr ctx right)) :
    Adds slots (expr ctx (.binary o left right type sp)) := by
  intro b b' _ h hb
  obtain ⟨b₁, b₂, h₁, h₂, rfl⟩ := expr_short hshort h
  have hblocks : Opened slots 2 b b.addBlock.addBlock := opened_addBlocks hb 2
  have hdup := (hblocks.trans (hleft h₁ hblocks.inside)).emit
    (i := ⟨.dup, 0, 0, sp.start⟩) (.aside rfl)
  have hbranch : Allows slots b (b₁.emit ⟨.dup, 0, 0, sp.start⟩).blocks.size
      (shortBranch o b.blocks.size (b.blocks.size + 1) sp.start) := by
    have hrest := hdup.reaches (Nat.le_refl _) (Nat.lt_add_of_pos_right Nat.two_pos)
    have hdone := hdup.reaches (Nat.le_succ _) (Nat.lt_succ_self _)
    unfold shortBranch
    split
    · exact .branch hrest hdone
    · exact .branch hdone hrest
  have hpop := ((hdup.emit hbranch).goTo (Nat.le_refl _) (by omega)).emit
    (i := ⟨.pop, 0, 0, sp.start⟩) (.aside rfl)
  have hjoined := (hpop.trans (hright h₂ hpop.inside)).jump (p := sp.start) (Nat.le_succ _) (by omega)
  exact (hjoined.goTo (Nat.le_succ _) (by omega)).toGrown

theorem adds_pieces (slots : Nat) (ctx : LowerContext) :
    Pieces .any ctx (fun _ x => Adds slots x) (Adds slots) where
  nothing := adds_pure ()
  part := id
  seq := .bind
  last := .bind
  emit ho _ _ _ := adds_emit (Op.isAside_of_isQuiet ho)
  load _ _ := adds_emit rfl
  const _ := adds_pooled (fun _ => enter_prefix _ _ _) fun _ => List.prefix_refl _
  native _ := adds_entry (fun _ => rfl) fun _ => rfl
  shape := adds_elementShape ctx
  call _ := adds_addCall _
  global _ := adds_pooled (fun _ => List.prefix_refl _) fun _ => enter_prefix _ _ _
  object _ := adds_entry (fun _ => rfl) fun _ => rfl
  short := adds_short

theorem adds_expr (ctx : LowerContext) (e : Bound.Expr) : Adds slots (expr ctx e) :=
  (adds_pieces slots ctx).expr e fun x _ => x.refers_any

/-! ## Statements -/

/-- What is stored into is no hidden slot. -/
def Declared (slots : Nat) : Bound.Expr → Prop
  | .frameVar _ slot _ _ => slot < slots
  | _ => True

/-- The variables that a statement itself assigns are declared. -/
def Assigns (slots : Nat) : Bound.Stmt → Prop
  | .assign target _ _ => Declared slots target
  | .forTo var _ _ _ _ _ => Declared slots var
  | _ => True

theorem adds_storeLocal {slot : Nat} {sp : Span} (h : slot < slots) :
    Adds slots (emit .storeLocal slot 0 sp) := by
  intro b b' c heq hb
  rw [emit_eq] at heq
  cases heq
  exact (Grown.refl hb).emit (.store (.inl h))

theorem adds_storeVar {var : Bound.Expr} (hvar : Declared slots var) :
    Adds slots (storeVar ctx var) := by
  cases var with
  | frameVar symbol slot type sp => exact adds_storeLocal hvar
  | unitVar m slot type sp => exact adds_global _ rfl
  | _ => exact fun _ _ _ h => nomatch h

theorem adds_assign {target : Bound.Expr} (value : Bound.Expr) (h : Declared slots target) :
    Adds slots (assign ctx value target) := by
  have hvalue : Adds slots (expr ctx value) := adds_expr ctx value
  cases target with
  | frameVar symbol slot type sp => exact hvalue.bind fun _ => adds_storeLocal h
  | unitVar m slot type sp => exact hvalue.bind fun _ => adds_global _ rfl
  | field object offset type sp =>
    exact (adds_expr ctx object).bind fun _ => hvalue.bind fun _ => adds_emit rfl
  | element array index type sp =>
    exact (adds_expr ctx array).bind fun _ => (adds_expr ctx index).bind fun _ =>
      hvalue.bind fun _ => adds_emit rfl
  | character text index type sp =>
    exact (adds_expr ctx text).bind fun _ => (adds_expr ctx index).bind fun _ =>
      hvalue.bind fun _ => adds_emit rfl
  | deref pointer type sp =>
    exact (adds_expr ctx pointer).bind fun _ => (adds_constant _ sp).bind fun _ =>
      hvalue.bind fun _ => adds_emit rfl
  | _ => exact fun _ _ _ h => nomatch h

/-- A statement of the code from `b₀` to `b`: its blocks are finished, but for the last one. -/
def Placed (ctx : LowerContext) (s : Bound.Stmt) (b₀ b : Builder) : Prop :=
  ∃ c c', stmt ctx s c = .ok ((), c') ∧ From b₀ c ∧ b₀.locals.size ≤ c.locals.size ∧ Le c' b ∧
    Finished (fun k => Range c c' k ∧ k ≠ c'.current) c' b

theorem Placed.built (h : Placed ctx s b₀ b) (hbuilt : Built b b') : Placed ctx s b₀ b' := by
  obtain ⟨c, c', hs, hfrom, hlocals, hle, hfinished⟩ := h
  exact ⟨c, c', hs, hfrom, hlocals, hle.trans hbuilt.le, hfinished.built hbuilt⟩

/-- Later code goes to a block that was opened before the statement, and for another one. -/
theorem Placed.goTo (h : Placed ctx s b₀ b) (ht : t < b₀.blocks.size) (hne : t ≠ b₀.current) :
    Placed ctx s b₀ (b.goTo t) := by
  obtain ⟨c, c', hs, hfrom, hlocals, hle, hfinished⟩ := h
  refine ⟨c, c', hs, hfrom, hlocals, hle.trans (Le.goTo _ _), hfinished.goTo ?_⟩
  rintro ⟨⟨heq | hge, -⟩, -⟩
  · rcases hfrom.current with hcurrent | hcurrent
    · exact hne (heq.trans hcurrent)
    · omega
  · exact absurd hfrom.size (by omega)

theorem Placed.jump {u p : Nat} (h : Placed ctx s b₀ b) (hb : b.current < b.blocks.size)
    (ht : t < b₀.blocks.size) (hne : t ≠ b₀.current) : Placed ctx s b₀ ((b.jump u p).goTo t) :=
  (h.built ((Built.refl hb).jump u p)).goTo ht hne

theorem Placed.within (h : Placed ctx s b₁ b) (hbuilt : Built b₀ b₁) : Placed ctx s b₀ b := by
  obtain ⟨c, c', hs, hfrom, hlocals, hrest⟩ := h
  exact ⟨c, c', hs, hbuilt.origin.trans hfrom, Nat.le_trans hbuilt.le.locals hlocals, hrest⟩

theorem Placed.inLoop {ls ls' : List LoopTarget} (h : Placed ctx s (b₀.withLoops ls) b) :
    Placed ctx s b₀ (b.withLoops ls') := by
  obtain ⟨c, c', hs, hfrom, hlocals, hle, hfinished⟩ := h
  exact ⟨c, c', hs, ⟨hfrom.size, hfrom.kept, hfrom.current, hfrom.inside⟩, hlocals,
    hle.trans (Le.withLoops _ _), ⟨hfinished.inside, hfinished.kept, hfinished.aside⟩⟩

/-- Code that has been added, with these statements in it. -/
structure Laid (slots : Nat) (ctx : LowerContext) (ss : List Bound.Stmt) (b b' : Builder) : Prop
    extends Grown slots b b' where
  placed : ∀ s ∈ ss, Placed ctx s b b'

/-- Code with these statements in it. -/
def Lays (slots : Nat) (ctx : LowerContext) (x : Lower Unit) (ss : List Bound.Stmt) : Prop :=
  ∀ ⦃b b' : Builder⦄, x b = .ok ((), b') → b.current < b.blocks.size → Laid slots ctx ss b b'

theorem Adds.lays {x : Lower Unit} (hx : Adds slots x) : Lays slots ctx x [] :=
  fun _ _ h hb => ⟨hx h hb, nofun⟩

theorem Lays.seq {x y : Lower Unit} {ss' : List Bound.Stmt} (hx : Lays slots ctx x ss)
    (hy : Lays slots ctx y ss') : Lays slots ctx (x >>= fun _ => y) (ss ++ ss') := by
  intro b b' h hb
  obtain ⟨_, b₁, h₁, h⟩ := bind_ok.mp h
  have hx := hx h₁ hb
  have hy := hy h hx.inside
  refine ⟨hx.toGrown.trans hy.toGrown, fun s hs => ?_⟩
  rcases List.mem_append.mp hs with hs | hs
  · exact (hx.placed s hs).built hy.toBuilt
  · exact (hy.placed s hs).within hx.toBuilt

theorem Lays.self (h : Lays slots ctx (stmt ctx s) ss) : Lays slots ctx (stmt ctx s) (s :: ss) := by
  intro b b' hs hb
  have hlaid := h hs hb
  refine ⟨hlaid.toGrown, fun s' hs' => ?_⟩
  rcases List.mem_cons.mp hs' with rfl | hs'
  · exact ⟨b, b', hs, .refl hb, Nat.le_refl _, Le.refl _, fun k hk => hk.1.2, fun _ _ => rfl,
      fun hk => hk.2 rfl⟩
  · exact hlaid.placed s' hs'

theorem Adds.alone (h : Adds slots (stmt ctx s)) : Lays slots ctx (stmt ctx s) [s] := h.lays.self

theorem lays_inLoop {n : Nat} {l : LoopTarget} {x : Lower Unit} (hx : Lays slots ctx x ss)
    (h : inLoop l x b = .ok ((), b')) (hb : Opened slots n b₀ b)
    (hnext : b₀.blocks.size ≤ l.next ∧ l.next < b₀.blocks.size + n)
    (hleave : b₀.blocks.size ≤ l.leave ∧ l.leave < b₀.blocks.size + n) :
    Opened slots n b₀ b' ∧ Built b b' ∧ ∀ s ∈ ss, Placed ctx s b b' := by
  obtain ⟨b₁, h₁, rfl⟩ := inLoop_ok.mp h
  have hlaid := hx h₁ hb.inside
  have hsize : b₀.blocks.size + n ≤ b₁.blocks.size := Nat.le_trans hb.opened hlaid.origin.size
  have hnext' := Reaches.fresh hnext.1 (Nat.lt_of_lt_of_le hnext.2 hsize)
  have hleave' := Reaches.fresh hleave.1 (Nat.lt_of_lt_of_le hleave.2 hsize)
  have hgrown := hb.toGrown.inLoop hlaid.toGrown hnext' hleave'
  exact ⟨⟨hgrown, hsize⟩, (Built.refl hb.inside).inLoop hlaid.toBuilt, fun s hs => (hlaid.placed s hs).inLoop⟩

theorem lays_if {cond : Bound.Expr} {yes : List Bound.Stmt} {sp : Span}
    (hyes : Lays slots ctx (stmts ctx yes) ss) :
    Lays slots ctx (stmt ctx (.ifElse cond yes [] sp)) ss := by
  intro b b' h hb
  obtain ⟨b₁, b₂, h₁, h₂, rfl⟩ := Target.stmt_if h
  have hblocks : Opened slots 2 b (b.addBlocks 2) := opened_addBlocks hb 2
  have hcond := hblocks.trans (adds_expr ctx cond h₁ hblocks.inside)
  have hthen := (hcond.branch (p := sp.start) (b.blocks.size) (b.blocks.size + 1)
    (by omega) (by omega)).goTo (Nat.le_refl _) (by omega)
  have hyes := hyes h₂ hthen.inside
  have hdone := (hthen.trans hyes.toGrown).jump (p := sp.start) (t := b.blocks.size + 1)
    (by omega) (by omega)
  refine ⟨(hdone.goTo (by omega) (by omega)).toGrown, fun s hs => ?_⟩
  exact ((hyes.placed s hs).jump hyes.inside (Nat.lt_of_lt_of_le (by omega) hthen.opened)
    (by simp)).within hthen.toBuilt

theorem lays_ifElse {cond : Bound.Expr} {yes no ss' : List Bound.Stmt} {sp : Span} (hne : no ≠ [])
    (hyes : Lays slots ctx (stmts ctx yes) ss) (hno : Lays slots ctx (stmts ctx no) ss') :
    Lays slots ctx (stmt ctx (.ifElse cond yes no sp)) (ss ++ ss') := by
  intro b b' h hb
  obtain ⟨b₁, b₂, b₃, h₁, h₂, h₃, rfl⟩ := Target.stmt_ifElse hne h
  have hblocks : Opened slots 3 b (b.addBlocks 3) := opened_addBlocks hb 3
  have hcond := hblocks.trans (adds_expr ctx cond h₁ hblocks.inside)
  have hthen := (hcond.branch (p := sp.start) (b.blocks.size) (b.blocks.size + 2)
    (by omega) (by omega)).goTo (Nat.le_refl _) (by omega)
  have hyes := hyes h₂ hthen.inside
  have helse := ((hthen.trans hyes.toGrown).jump (p := sp.start) (t := b.blocks.size + 1)
    (by omega) (by omega)).goTo (t := b.blocks.size + 2) (by omega) (by omega)
  have hno := hno h₃ helse.inside
  have hdone := (helse.trans hno.toGrown).jump (p := sp.start) (t := b.blocks.size + 1)
    (by omega) (by omega)
  refine ⟨(hdone.goTo (by omega) (by omega)).toGrown, fun s hs => ?_⟩
  have hsize := hthen.opened
  have hsize' := helse.opened
  rcases List.mem_append.mp hs with hs | hs
  · have hplaced := (hyes.placed s hs).jump (u := b.blocks.size + 1) (p := sp.start)
      (t := b.blocks.size + 2) hyes.inside (by omega) (by simp)
    exact ((hplaced.built hno.toBuilt).jump hno.inside (by omega) (by simp)).within
      hthen.toBuilt
  · exact ((hno.placed s hs).jump hno.inside (by omega) (by simp)).within helse.toBuilt

theorem lays_while {cond : Bound.Expr} {body : List Bound.Stmt} {sp : Span}
    (hbody : Lays slots ctx (stmts ctx body) ss) :
    Lays slots ctx (stmt ctx (.whileDo cond body sp)) ss := by
  intro b b' h hb
  obtain ⟨b₁, b₂, h₁, h₂, rfl⟩ := Target.stmt_whileDo h
  have htest := ((opened_addBlocks hb 3 : Opened slots 3 b _).jump (p := sp.start) (t := b.blocks.size)
    (by omega) (by omega)).goTo (t := b.blocks.size) (by omega) (by omega)
  have hcond := htest.trans (adds_expr ctx cond h₁ htest.inside)
  have hstart := (hcond.branch (p := cond.span.start) (b.blocks.size + 1)
    (b.blocks.size + 2) (by omega) (by omega)).goTo (t := b.blocks.size + 1) (by omega) (by omega)
  obtain ⟨hbody, hbuilt, hplaced⟩ := lays_inLoop hbody h₂ hstart (by simp) (by simp)
  have hback := hbody.jump (p := sp.start) (t := b.blocks.size) (by omega) (by omega)
  refine ⟨(hback.goTo (by omega) (by omega)).toGrown, fun s hs => ?_⟩
  exact ((hplaced s hs).jump hbuilt.inside (Nat.lt_of_lt_of_le (by omega) hstart.opened)
    (by simp)).within hstart.toBuilt

theorem lays_repeat {cond : Bound.Expr} {body : List Bound.Stmt} {sp : Span}
    (hbody : Lays slots ctx (stmts ctx body) ss) :
    Lays slots ctx (stmt ctx (.repeatUntil body cond sp)) ss := by
  intro b b' h hb
  obtain ⟨b₁, b₂, h₁, h₂, rfl⟩ := Target.stmt_repeatUntil h
  have hstart := ((opened_addBlocks hb 3 : Opened slots 3 b _).jump (p := sp.start) (t := b.blocks.size)
    (by omega) (by omega)).goTo (t := b.blocks.size) (by omega) (by omega)
  obtain ⟨hbody, hbuilt, hplaced⟩ := lays_inLoop hbody h₁ hstart (by simp) (by simp)
  have htest := (hbody.jump (p := sp.start) (t := b.blocks.size + 1) (by omega) (by omega)).goTo
    (t := b.blocks.size + 1) (by omega) (by omega)
  have hcond : Grown slots _ b₂ := adds_expr ctx cond h₂ htest.inside
  have hdone := (htest.trans hcond).branch (p := cond.span.start) (b.blocks.size + 2)
    (b.blocks.size) (by omega) (by omega)
  refine ⟨(hdone.goTo (by omega) (by omega)).toGrown, fun s hs => ?_⟩
  have hsize := hstart.opened
  have hplaced := ((hplaced s hs).jump (u := b.blocks.size + 1) (p := sp.start)
    (t := b.blocks.size + 1) hbuilt.inside (by omega) (by simp)).built hcond.toBuilt
  have hplaced := hplaced.built ((Built.refl hcond.inside).branch (b.blocks.size + 2) b.blocks.size
    cond.span.start)
  exact (hplaced.goTo (by omega) (by simp)).within hstart.toBuilt

/-! ### Counting loops -/

theorem opened_forControl {n limit yes no : Nat} {var : Bound.Expr} {cmp : Op} {sp : Span}
    (hcmp : cmp.isAside = true) (h : forControl ctx var limit cmp yes no sp b = .ok ((), b'))
    (hb : Opened slots n b₀ b) (hyes : b₀.blocks.size ≤ yes ∧ yes < b₀.blocks.size + n)
    (hno : b₀.blocks.size ≤ no ∧ no < b₀.blocks.size + n) :
    Opened slots n b₀ b' ∧ Built b b' := by
  unfold forControl at h
  obtain ⟨_, b₁, h₁, h⟩ := bind_ok.mp h
  rw [bind_eq (emit_eq _ _ _ _ _), bind_eq (op_eq _ _ _), branch_eq] at h
  obtain rfl := ok_inj h
  have hvar : Grown slots b b₁ := adds_expr ctx var h₁ hb.inside
  have htest := ((hb.trans hvar).emit (i := ⟨.loadLocal, limit, 0, sp.start⟩) (.aside rfl)).emit
    (i := ⟨cmp, 0, 0, sp.start⟩) (.aside hcmp)
  exact ⟨htest.branch yes no hyes hno, ((hvar.toBuilt.emit _).emit _).branch yes no sp.start⟩

/-- The parts of a counting loop whose variable and limit are stored: behind the first test, the body,
the second test, the variable and the step. -/
structure LoopCode (ctx : LowerContext) (var : Bound.Expr) (limit : Nat) (down : Bool)
    (body : List Bound.Stmt) (sp : Span) (b : Builder) where
  tested : Builder
  bodied : Builder
  compared : Builder
  loaded : Builder
  stepped : Builder
  test_eq : forControl ctx var limit (if down then .ge else .le) (b.blocks.size + 1)
    (b.blocks.size + 4) sp (((b.addBlocks 5).jump b.blocks.size sp.start).goTo b.blocks.size) =
      .ok ((), tested)
  body_eq : inLoop ⟨b.blocks.size + 4, b.blocks.size + 2⟩ (stmts ctx body)
    (tested.goTo (b.blocks.size + 1)) = .ok ((), bodied)
  next_eq : forControl ctx var limit .eq (b.blocks.size + 4) (b.blocks.size + 3) sp
    ((bodied.jump (b.blocks.size + 2) sp.start).goTo (b.blocks.size + 2)) = .ok ((), compared)
  load_eq : expr ctx var (compared.goTo (b.blocks.size + 3)) = .ok ((), loaded)
  store_eq : storeVar ctx var (loaded.emit ⟨if down then .pred else .succ, 0, 0, sp.start⟩) =
    .ok ((), stepped)

/-- Where the builder goes on. -/
def LoopCode.behind {var : Bound.Expr} {limit : Nat} {down : Bool} {body : List Bound.Stmt}
    {sp : Span} (code : LoopCode ctx var limit down body sp b) : Builder :=
  (code.stepped.jump (b.blocks.size + 1) sp.start).goTo (b.blocks.size + 4)

theorem loopCode_of_forRest {var : Bound.Expr} {limit : Nat} {down : Bool} {body : List Bound.Stmt}
    {sp : Span} (h : Target.forRest ctx var limit down body sp b = .ok ((), b')) :
    ∃ code : LoopCode ctx var limit down body sp b, b' = code.behind := by
  obtain ⟨b₁, b₂, b₃, b₄, b₅, h₁, h₂, h₃, h₄, h₅, h⟩ := Target.forRest_ok h
  exact ⟨⟨b₁, b₂, b₃, b₄, b₅, h₁, h₂, h₃, h₄, h₅⟩, h⟩

namespace LoopCode

variable {var : Bound.Expr} {limit : Nat} {down : Bool} {body : List Bound.Stmt} {sp : Span}

/-- How the parts of a counting loop are built, and where the statements of its body are. -/
structure Stages (slots : Nat) (ss : List Bound.Stmt) (code : LoopCode ctx var limit down body sp b) :
    Prop where
  test : Opened slots 5 b (((b.addBlocks 5).jump b.blocks.size sp.start).goTo b.blocks.size)
  tested : Built (((b.addBlocks 5).jump b.blocks.size sp.start).goTo b.blocks.size) code.tested
  start : Opened slots 5 b (code.tested.goTo (b.blocks.size + 1))
  bodied : Built (code.tested.goTo (b.blocks.size + 1)) code.bodied
  placed : ∀ s ∈ ss, Placed ctx s (code.tested.goTo (b.blocks.size + 1)) code.bodied
  next : Opened slots 5 b ((code.bodied.jump (b.blocks.size + 2) sp.start).goTo (b.blocks.size + 2))
  compared : Built ((code.bodied.jump (b.blocks.size + 2) sp.start).goTo (b.blocks.size + 2))
    code.compared
  step : Opened slots 5 b (code.compared.goTo (b.blocks.size + 3))
  loaded : Built (code.compared.goTo (b.blocks.size + 3)) code.loaded
  stepped : Built (code.loaded.emit ⟨if down then .pred else .succ, 0, 0, sp.start⟩) code.stepped
  done : Grown slots b code.behind

theorem stages (code : LoopCode ctx var limit down body sp b) (hb : b.current < b.blocks.size)
    (hvar : Declared slots var) (hbody : Lays slots ctx (stmts ctx body) ss) :
    code.Stages slots ss := by
  obtain ⟨tested, bodied, compared, loaded, stepped, h₁, h₂, h₃, h₄, h₅⟩ := code
  have htest := ((opened_addBlocks hb 5 : Opened slots 5 b _).jump (p := sp.start) (t := b.blocks.size)
    (by omega) (by omega)).goTo (t := b.blocks.size) (by omega) (by omega)
  obtain ⟨htested, hbuilt₁⟩ := opened_forControl (by cases down <;> rfl) h₁ htest (by omega) (by omega)
  have hstart := htested.goTo (t := b.blocks.size + 1) (by omega) (by omega)
  obtain ⟨hbodied, hbuilt₂, hplaced⟩ := lays_inLoop hbody h₂ hstart (by simp) (by simp)
  have hnext := (hbodied.jump (p := sp.start) (t := b.blocks.size + 2) (by omega) (by omega)).goTo
    (t := b.blocks.size + 2) (by omega) (by omega)
  obtain ⟨hcompared, hbuilt₃⟩ := opened_forControl rfl h₃ hnext (by omega) (by omega)
  have hstep := hcompared.goTo (t := b.blocks.size + 3) (by omega) (by omega)
  have hloaded : Grown slots _ loaded := adds_expr ctx var h₄ hstep.inside
  have hvalue := (hstep.trans hloaded).emit
    (i := ⟨if down then .pred else .succ, 0, 0, sp.start⟩) (.aside (by cases down <;> rfl))
  have hstored := adds_storeVar hvar h₅ hvalue.inside
  have hdone := ((hvalue.trans hstored).jump (p := sp.start) (t := b.blocks.size + 1) (by omega)
    (by omega)).goTo (t := b.blocks.size + 4) (by omega) (by omega)
  exact ⟨htest, hbuilt₁, hstart, hbuilt₂, hplaced, hnext, hbuilt₃, hstep, hloaded.toBuilt,
    hstored.toBuilt, hdone.toGrown⟩

/-- The blocks of the body. -/
def Inside (code : LoopCode ctx var limit down body sp b) : Nat → Prop :=
  Range (code.tested.goTo (b.blocks.size + 1)) (code.bodied.jump (b.blocks.size + 2) sp.start)

variable {code : LoopCode ctx var limit down body sp b}

theorem not_inside (h : code.Stages slots ss) {j : Nat} (hj : j < 5) (hne : j ≠ 1) :
    ¬code.Inside (b.blocks.size + j) := by
  have hopened := h.start.opened
  rintro ⟨heq | hge, -⟩
  · rw [current_goTo] at heq
    omega
  · omega

theorem built_step (h : code.Stages slots ss) :
    Built (code.compared.goTo (b.blocks.size + 3)) (code.stepped.jump (b.blocks.size + 1) sp.start) :=
  (h.loaded.trans (((Built.refl h.loaded.inside).emit _).trans h.stepped)).jump _ _

theorem finished_body (h : code.Stages slots ss) :
    Finished code.Inside (code.bodied.jump (b.blocks.size + 2) sp.start) code.behind := by
  have hnext : Finished code.Inside (code.bodied.jump (b.blocks.size + 2) sp.start)
      ((code.bodied.jump (b.blocks.size + 2) sp.start).goTo (b.blocks.size + 2)) :=
    ⟨fun k hk => hk.2, fun _ _ => rfl, not_inside h (by omega) (by omega)⟩
  have hstep := (hnext.built h.compared).goTo (not_inside h (j := 3) (by omega) (by omega))
  exact (hstep.built (built_step h)).goTo (not_inside h (j := 4) (by omega) (by omega))

theorem placed_body (h : code.Stages slots ss) {s : Bound.Stmt} (hs : s ∈ ss) :
    Placed ctx s b code.behind := by
  have hopened := h.start.opened
  have hnext := (h.placed s hs).jump (u := b.blocks.size + 2) (p := sp.start)
    (t := b.blocks.size + 2) h.bodied.inside (by omega) (by simp)
  have hstep := (hnext.built h.compared).goTo (t := b.blocks.size + 3) (by omega) (by simp)
  have hdone := (hstep.built (built_step h)).goTo (t := b.blocks.size + 4) (by omega) (by simp)
  exact hdone.within h.start.toBuilt

end LoopCode

theorem lays_forRest {var : Bound.Expr} {limit : Nat} {down : Bool} {body : List Bound.Stmt}
    {sp : Span} (hvar : Declared slots var) (hbody : Lays slots ctx (stmts ctx body) ss) :
    Lays slots ctx (Target.forRest ctx var limit down body sp) ss := by
  intro b b' h hb
  obtain ⟨code, rfl⟩ := loopCode_of_forRest h
  have hstages := code.stages hb hvar hbody
  exact ⟨hstages.done, fun s hs => LoopCode.placed_body hstages hs⟩

theorem lays_for {var first last : Bound.Expr} {down : Bool} {body : List Bound.Stmt} {sp : Span}
    (hvar : Declared slots var) (hbody : Lays slots ctx (stmts ctx body) ss) :
    Lays slots ctx (stmt ctx (.forTo var first last down body sp)) ss := by
  intro b b' h hb
  obtain ⟨b₁, b₂, b₃, shape, -, h₁, h₂, h₃, hrest⟩ := Target.stmt_forTo h
  have hfirst : Grown slots b b₁ := adds_expr ctx first h₁ hb
  have hstore := adds_storeVar hvar h₂ hfirst.inside
  have hstored := hfirst.trans hstore
  have hlast : Grown slots _ b₃ := adds_expr ctx last h₃ (hstored.addLocal shape).inside
  have hlimit := ((hstored.addLocal shape).trans hlast).emit
    (i := ⟨.storeLocal, b₂.locals.size, 0, last.span.start⟩) (.store (.inr hstored.le.locals))
  have hrest := lays_forRest hvar hbody hrest hlimit.inside
  exact ⟨hlimit.trans hrest.toGrown, fun s hs => (hrest.placed s hs).within hlimit.toBuilt⟩

/-! ### Cases -/

theorem opened_labels {n subject arm : Nat} {sp : Span} {vs : List Value}
    (h : testLabels subject arm sp vs b = .ok ((), b')) (hb : Opened slots n b₀ b)
    (harm : b₀.blocks.size ≤ arm ∧ arm < b₀.blocks.size + n) : Opened slots n b₀ b' ∧ Built b b' := by
  induction vs generalizing b with
  | nil =>
    obtain ⟨-, rfl⟩ := pure_ok.mp h
    exact ⟨hb, Built.refl hb.inside⟩
  | cons v vs ih =>
    obtain ⟨b₁, h₁, h⟩ := Target.testLabels_cons h
    have hblock : Opened slots 1 b b.addBlock := opened_addBlocks hb.inside 1
    have htest : Adds slots (Target.testLabel subject sp v) :=
      (adds_emit rfl).bind fun _ => (adds_constant v sp).bind fun _ => adds_emit rfl
    have htest := hblock.trans (htest h₁ hblock.inside)
    have hb₁ := hb.trans htest.toGrown
    have hbranch := hb₁.emit (.branch (p := sp.start) (hb₁.reaches harm.1 harm.2)
      (.fresh hb.origin.size htest.opened))
    have hnext : b.blocks.size < (b₁.branch arm b.blocks.size sp.start).blocks.size :=
      Nat.lt_of_lt_of_le htest.opened (Le.emit _ _).size_le
    obtain ⟨hb', hbuilt⟩ := ih h ⟨hbranch.toGrown.goTo hb.origin.size hnext, hbranch.opened⟩
    exact ⟨hb', ((htest.toBuilt.branch _ _ _).goTo (Nat.le_refl _) hnext).trans hbuilt⟩

theorem opened_arms {n subject : Nat} {sp : Span} {arms : List Bound.CaseArm} {blocks : List Nat}
    (h : testArms subject sp arms blocks b = .ok ((), b')) (hb : Opened slots n b₀ b)
    (hblocks : ∀ k ∈ blocks, b₀.blocks.size ≤ k ∧ k < b₀.blocks.size + n) :
    Opened slots n b₀ b' ∧ Built b b' := by
  induction arms generalizing b blocks with
  | nil =>
    rw [testArms] at h
    · obtain ⟨-, rfl⟩ := pure_ok.mp h
      exact ⟨hb, Built.refl hb.inside⟩
    · simp
  | cons arm arms ih =>
    obtain ⟨vs, body⟩ := arm
    cases blocks with
    | nil =>
      rw [testArms] at h
      · obtain ⟨-, rfl⟩ := pure_ok.mp h
        exact ⟨hb, Built.refl hb.inside⟩
      · simp
    | cons k ks =>
      rw [testArms] at h
      obtain ⟨_, b₁, h₁, h⟩ := bind_ok.mp h
      obtain ⟨hb₁, hbuilt₁⟩ := opened_labels h₁ hb (hblocks k List.mem_cons_self)
      obtain ⟨hb', hbuilt⟩ := ih h hb₁ fun k' hk' => hblocks k' (List.mem_cons_of_mem _ hk')
      exact ⟨hb', hbuilt₁.trans hbuilt⟩

/-- The bodies of arms, with these statements in them. What was placed before stays where it is. -/
def LaysArms (slots : Nat) (ctx : LowerContext) (arms : List Bound.CaseArm) (ss : List Bound.Stmt) :
    Prop :=
  ∀ ⦃b₀ b b' : Builder⦄ ⦃n done : Nat⦄ ⦃blocks : List Nat⦄ ⦃sp : Span⦄,
    armBodies ctx done sp arms blocks b = .ok ((), b') → Opened slots n b₀ b →
      blocks.length = arms.length →
      (∀ k ∈ done :: blocks, b₀.blocks.size ≤ k ∧ k < b₀.blocks.size + n) → (done :: blocks).Nodup →
        Opened slots n b₀ b' ∧ (∀ s ∈ ss, Placed ctx s b₀ (b'.goTo done)) ∧
          ∀ {s : Bound.Stmt} {c : Builder}, Placed ctx s c b →
            (∀ k ∈ blocks, k < c.blocks.size ∧ k ≠ c.current) → Placed ctx s c b'

theorem laysArms_nil : LaysArms slots ctx [] [] := by
  intro b₀ b b' n done blocks sp h hb hlength _ _
  obtain rfl := List.eq_nil_of_length_eq_zero hlength
  rw [armBodies] at h
  · obtain ⟨-, rfl⟩ := pure_ok.mp h
    exact ⟨hb, nofun, fun h _ => h⟩
  · simp

theorem laysArms_cons {vs : List Value} {body ss' : List Bound.Stmt} {arms : List Bound.CaseArm}
    (hbody : Lays slots ctx (stmts ctx body) ss) (harms : LaysArms slots ctx arms ss') :
    LaysArms slots ctx (.arm vs body :: arms) (ss ++ ss') := by
  intro b₀ b b' n done blocks sp h hb hlength hrange hnodup
  obtain ⟨k, ks, rfl⟩ := List.exists_cons_of_length_eq_add_one hlength
  rw [armBodies, bind_eq (goTo_eq _ _)] at h
  obtain ⟨_, b₁, h₁, h⟩ := bind_ok.mp h
  rw [bind_eq (jump_eq _ _ _)] at h
  obtain ⟨hdone, hk, hrange'⟩ : _ ∧ _ ∧ _ :=
    ⟨hrange done (by simp), hrange k (by simp), fun k' (hk' : k' ∈ ks) => hrange k' (by simp [hk'])⟩
  obtain ⟨hne, hnotin, hnodup⟩ : done ≠ k ∧ k ∉ ks ∧ (done :: ks).Nodup := by
    simp only [List.nodup_cons, List.mem_cons, not_or] at hnodup ⊢
    exact ⟨hnodup.1.1, hnodup.2.1, hnodup.1.2, hnodup.2.2⟩
  have hstart := hb.goTo hk.1 hk.2
  have hlaid := hbody h₁ hstart.inside
  have hjump := (Built.refl hlaid.inside).jump done sp.start
  obtain ⟨hb', hplaced, hkeeps⟩ := harms h
    ((hstart.trans hlaid.toGrown).jump hdone.1 hdone.2) (by simpa using hlength)
    (by simpa using ⟨hdone, hrange'⟩) hnodup
  have hsize := hstart.opened
  refine ⟨hb', fun s hs => ?_, fun h hblocks => ?_⟩
  · rcases List.mem_append.mp hs with hs | hs
    · have hkept := hkeeps ((hlaid.placed s hs).built hjump) fun k' hk' =>
        ⟨by have := hrange' k' hk'; omega, ne_of_mem_of_not_mem hk' hnotin⟩
      exact (hkept.goTo (by omega) hne).within hstart.toBuilt
    · exact hplaced s hs
  · have hgo := h.goTo (hblocks k (by simp)).1 (hblocks k (by simp)).2
    exact hkeeps ((hgo.built hlaid.toBuilt).built hjump) fun k' hk' => hblocks k' (by simp [hk'])

theorem lays_case {subject : Bound.Expr} {arms : List Bound.CaseArm}
    {otherwise ss' : List Bound.Stmt} {sp : Span} (harms : LaysArms slots ctx arms ss)
    (hotherwise : Lays slots ctx (stmts ctx otherwise) ss') :
    Lays slots ctx (stmt ctx (.caseOf subject arms otherwise sp)) (ss ++ ss') := by
  intro b b' h hb
  obtain ⟨shape, b₁, b₂, b₃, b₄, b₅, -, h₁, rfl, h₃, h₄, h₅, rfl⟩ := Target.stmt_caseOf h
  have hslot : Grown slots b (b.addLocal shape) := (Grown.refl hb).addLocal shape
  have hstore := (hslot.trans (adds_expr ctx subject h₁ hslot.inside)).emit
    (i := ⟨.storeLocal, b.locals.size, 0, subject.span.start⟩) (.store (.inr (Nat.le_refl _)))
  generalize b₁.emit ⟨.storeLocal, b.locals.size, 0, subject.span.start⟩ = b₂ at h₃ h₄ h₅ hstore ⊢
  have hrange : ∀ k ∈ b₂.blocks.size :: List.range' (b₂.blocks.size + 1) arms.length,
      b₂.blocks.size ≤ k ∧ k < b₂.blocks.size + (arms.length + 1) := by
    intro k hk
    rw [← List.range'_succ, List.mem_range'_1] at hk
    exact hk
  have hnodup : (b₂.blocks.size :: List.range' (b₂.blocks.size + 1) arms.length).Nodup := by
    rw [← List.range'_succ]
    exact List.nodup_range'
  obtain ⟨htests, hbuilt⟩ := opened_arms h₃ (opened_addBlocks hstore.inside _) fun k hk =>
    hrange k (by simp [hk])
  have hother := hotherwise h₄ htests.inside
  have hdone := (htests.trans hother.toGrown).jump (p := sp.start) (t := b₂.blocks.size)
    (Nat.le_refl _) (by omega)
  obtain ⟨hb₅, hplaced, hkeeps⟩ := harms h₅ hdone (by simp) hrange hnodup
  refine ⟨hstore.trans (hb₅.goTo (Nat.le_refl _) (by omega)).toGrown, fun s hs => ?_⟩
  refine Placed.within ?_ hstore.toBuilt
  rcases List.mem_append.mp hs with hs | hs
  · exact hplaced s hs
  -- the blocks of the arms were opened before the tests
  · have haside : ∀ k ∈ b₂.blocks.size :: List.range' (b₂.blocks.size + 1) arms.length,
        k < b₃.blocks.size ∧ k ≠ b₃.current := by
      intro k hk
      have hk := hrange k hk
      have hinside := hstore.inside
      have hopened := htests.opened
      have hcurrent := hbuilt.origin.current
      rw [current_addBlocks, size_addBlocks] at hcurrent
      omega
    have hkept := hkeeps ((hother.placed s hs).built ((Built.refl hother.inside).jump _ _))
      fun k hk => haside k (by simp [hk])
    have hkept := hkept.goTo (haside _ List.mem_cons_self).1 (haside _ List.mem_cons_self).2
    exact hkept.within (((Built.refl hstore.inside).addBlocks _).trans hbuilt)

/-! ### All statements -/

theorem adds_innermost {place : LoopTarget → Nat} {sp : Span}
    (hplace : ∀ l, place l = l.next ∨ place l = l.leave) :
    Adds slots (innermost ctx >>= fun l => jump (place l) sp) := by
  intro b b' _ h hb
  obtain ⟨l, b₁, h₁, h⟩ := bind_ok.mp h
  obtain ⟨rfl, ls, hls⟩ := innermost_ok.mp h₁
  rw [jump_eq] at h
  cases h
  exact (Grown.refl hb).jump ⟨_, rfl, .inr ⟨l, by simp [hls], hplace l⟩⟩

theorem adds_call {e : Bound.Expr} {sp : Span} : Adds slots (stmt ctx (.expr e sp)) := by
  rw [stmt]
  refine (adds_expr ctx e).bind fun _ => ?_
  dsimp only
  split
  case isTrue => exact adds_emit rfl
  case isFalse => exact adds_pure ()

mutual

theorem lays_stmt (ctx : LowerContext) (s : Bound.Stmt) (hs : ∀ s' ∈ s.flatten, Assigns slots s') :
    Lays slots ctx (stmt ctx s) s.flatten := by
  have hself := hs s s.mem_flatten_self
  cases s with
  | assign target value sp =>
    refine Adds.alone ?_
    rw [stmt]
    exact adds_assign value hself
  | expr e sp => exact Adds.alone adds_call
  | ifElse cond yes no sp =>
    have hyes := lays_stmts ctx yes fun s' hs' => hs s' (by simp [Bound.Stmt.flatten, hs'])
    have hno := lays_stmts ctx no fun s' hs' => hs s' (by simp [Bound.Stmt.flatten, hs'])
    refine Lays.self ?_
    by_cases hempty : no = []
    · subst hempty
      rw [Bound.Stmt.flattenAll, List.append_nil]
      exact lays_if hyes
    · exact lays_ifElse hempty hyes hno
  | whileDo cond body sp =>
    exact Lays.self (lays_while (lays_stmts ctx body fun s' hs' =>
      hs s' (by simp [Bound.Stmt.flatten, hs'])))
  | repeatUntil body cond sp =>
    exact Lays.self (lays_repeat (lays_stmts ctx body fun s' hs' =>
      hs s' (by simp [Bound.Stmt.flatten, hs'])))
  | forTo var first last down body sp =>
    exact Lays.self (lays_for hself (lays_stmts ctx body fun s' hs' =>
      hs s' (by simp [Bound.Stmt.flatten, hs'])))
  | caseOf subject arms otherwise sp =>
    exact Lays.self (lays_case
      (lays_arms ctx arms fun s' hs' => hs s' (by simp [Bound.Stmt.flatten, hs']))
      (lays_stmts ctx otherwise fun s' hs' => hs s' (by simp [Bound.Stmt.flatten, hs'])))
  | exit sp =>
    refine Adds.alone ?_
    rw [stmt]
    exact adds_emit rfl
  | «break» sp =>
    refine Adds.alone ?_
    rw [stmt]
    exact adds_innermost fun l => .inr rfl
  | «continue» sp =>
    refine Adds.alone ?_
    rw [stmt]
    exact adds_innermost fun l => .inl rfl

theorem lays_stmts (ctx : LowerContext) (ss : List Bound.Stmt)
    (hss : ∀ s ∈ Bound.Stmt.flattenAll ss, Assigns slots s) :
    Lays slots ctx (stmts ctx ss) (Bound.Stmt.flattenAll ss) := by
  cases ss with
  | nil =>
    rw [stmts]
    exact (adds_pure ()).lays
  | cons s ss =>
    rw [stmts]
    exact (lays_stmt ctx s fun s' hs' => hss s' (by simp [Bound.Stmt.flattenAll, hs'])).seq
      (lays_stmts ctx ss fun s' hs' => hss s' (by simp [Bound.Stmt.flattenAll, hs']))

theorem lays_arms (ctx : LowerContext) (arms : List Bound.CaseArm)
    (harms : ∀ s ∈ Bound.Stmt.flattenArms arms, Assigns slots s) :
    LaysArms slots ctx arms (Bound.Stmt.flattenArms arms) := by
  cases arms with
  | nil => exact laysArms_nil
  | cons arm arms =>
    obtain ⟨vs, body⟩ := arm
    exact laysArms_cons
      (lays_stmts ctx body fun s' hs' => harms s' (by simp [Bound.Stmt.flattenArms, hs']))
      (lays_arms ctx arms fun s' hs' => harms s' (by simp [Bound.Stmt.flattenArms, hs']))

end

end Lower

end Pascaline
