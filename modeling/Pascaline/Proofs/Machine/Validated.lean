import Pascaline.Proofs.Machine.Startup

/-!
# Validated code

What the check of a unit says about its code, and what follows for a run: a frame, whether it runs
or waits for a call to return, always stands before an instruction.
-/

namespace Pascaline

/-! ## Blocks -/

namespace Blocks

variable {bs : Blocks}

/-- The instruction stands there in the blocks. -/
def At (bs : Blocks) (b k : Nat) (i : Instr) : Prop :=
  ∃ code : Array Instr, bs[b]? = some code ∧ code[k]? = some i

/-- Every block has an end, which is its only terminator, and all targets exist. -/
structure Closed (bs : Blocks) : Prop where
  first : 0 < bs.size
  nonempty : ∀ b < bs.size, ∃ i, At bs b 0 i
  next : ∀ b k i, At bs b k i → i.op.isTerminator = false → ∃ j, At bs b (k + 1) j
  jump : ∀ b k i, At bs b k i → i.op = .jump → bs.has i.a = true
  branch : ∀ b k i, At bs b k i → i.op = .branch → bs.has i.a = true ∧ bs.has i.b = true

/-- What the check asks of an instruction at a place of a block with so many instructions. -/
structure Checked (bs : Blocks) (count k : Nat) (i : Instr) : Prop where
  ends : i.op.isTerminator = true ↔ k + 1 = count
  jump : i.op = .jump → bs.has i.a = true
  branch : i.op = .branch → bs.has i.a = true ∧ bs.has i.b = true

theorem checkInstr_eq_ok_iff {b count k : Nat} {i : Instr} :
    bs.checkInstr b count k i = .ok () ↔ bs.Checked count k i := by
  have hends : (i.op.isTerminator != (k + 1 == count)) = false ↔
      (i.op.isTerminator = true ↔ k + 1 = count) := by
    rw [bne_eq_false_iff_eq, Bool.eq_iff_iff, beq_iff_eq]
  unfold checkInstr
  split
  case isTrue hne =>
    refine ⟨nofun, fun h => ?_⟩
    rw [hends.mpr h.ends] at hne
    cases hne
  case isFalse heq =>
    rw [Bool.not_eq_true, hends] at heq
    split
    case h_1 hop =>
      rw [ite_eq_left_iff]
      refine ⟨fun h => ⟨heq, fun _ => by_contra fun hhas => ?_, by simp [hop]⟩,
        fun h hhas => absurd (h.jump hop) hhas⟩
      cases h hhas
    case h_2 hop =>
      rw [ite_eq_left_iff, Bool.and_eq_true]
      refine ⟨fun h => ⟨heq, by simp [hop], fun _ => by_contra fun hhas => ?_⟩,
        fun h hhas => absurd (h.branch hop) hhas⟩
      cases h hhas
    case h_3 hjump hbranch =>
      exact ⟨fun _ => ⟨heq, fun hop => absurd hop hjump, fun hop => absurd hop hbranch⟩, fun _ => rfl⟩

theorem checkBlock_eq_ok_iff {b : Nat} {code : Array Instr} : bs.checkBlock b code = .ok () ↔
    0 < code.size ∧ ∀ (k : Nat) (i : Instr), code[k]? = some i → bs.Checked code.size k i := by
  unfold checkBlock
  split
  case isTrue hempty =>
    refine ⟨nofun, fun h => ?_⟩
    rw [Array.isEmpty_iff_size_eq_zero] at hempty
    omega
  case isFalse hne =>
    rw [Array.isEmpty_iff_size_eq_zero] at hne
    rw [forM_eq_ok_iff, and_iff_right (Nat.pos_of_ne_zero hne)]
    constructor
    · intro h k i hi
      exact checkInstr_eq_ok_iff.mp
        (h (i, k) (List.mem_zipIdx_iff_getElem?.mpr (by simpa using hi)))
    · rintro h ⟨i, k⟩ hmem
      exact checkInstr_eq_ok_iff.mpr
        (h k i (by simpa using List.mem_zipIdx_iff_getElem?.mp hmem))

theorem validate_eq_ok_iff : bs.validate = .ok () ↔ 0 < bs.size ∧
    ∀ (b : Nat) (code : Array Instr), bs[b]? = some code → 0 < code.size ∧
      ∀ (k : Nat) (i : Instr), code[k]? = some i → bs.Checked code.size k i := by
  unfold validate
  split
  case isTrue hempty =>
    refine ⟨nofun, fun h => ?_⟩
    rw [Array.isEmpty_iff_size_eq_zero] at hempty
    omega
  case isFalse hne =>
    rw [Array.isEmpty_iff_size_eq_zero] at hne
    rw [forM_eq_ok_iff, and_iff_right (Nat.pos_of_ne_zero hne)]
    constructor
    · intro h b code hcode
      exact checkBlock_eq_ok_iff.mp
        (h (code, b) (List.mem_zipIdx_iff_getElem?.mpr (by simpa using hcode)))
    · rintro h ⟨code, b⟩ hmem
      exact checkBlock_eq_ok_iff.mpr
        (h b code (by simpa using List.mem_zipIdx_iff_getElem?.mp hmem))

theorem closed_of_validate (h : bs.validate = .ok ()) : Closed bs := by
  obtain ⟨hfirst, hblock⟩ := validate_eq_ok_iff.mp h
  have hat : ∀ b k i, At bs b k i → ∃ code : Array Instr, bs[b]? = some code ∧ k < code.size ∧
      bs.Checked code.size k i := by
    rintro b k i ⟨code, hcode, hi⟩
    exact ⟨code, hcode, (Array.getElem?_eq_some_iff.mp hi).1, (hblock b code hcode).2 k i hi⟩
  refine ⟨hfirst, fun b hb => ?_, fun b k i hi hop => ?_, fun b k i hi hop => ?_, fun b k i hi hop => ?_⟩
  · have hcode : bs[b]? = some bs[b] := Array.getElem?_eq_getElem hb
    exact ⟨_, _, hcode, Array.getElem?_eq_getElem (hblock b _ hcode).1⟩
  · obtain ⟨code, hcode, hlt, hchecked⟩ := hat b k i hi
    have hlast : k + 1 ≠ code.size := by
      rw [Ne, ← hchecked.ends, hop]
      simp
    exact ⟨_, code, hcode, Array.getElem?_eq_getElem (Nat.lt_of_le_of_ne hlt hlast)⟩
  · obtain ⟨code, -, -, hchecked⟩ := hat b k i hi
    exact hchecked.jump hop
  · obtain ⟨code, -, -, hchecked⟩ := hat b k i hi
    exact hchecked.branch hop

end Blocks

/-! ## Frames -/

namespace Frame

variable {p : Program} {f g : Frame} {i : Instr}

/-- The frame stands before an instruction of code that was checked. -/
structure Ready (p : Program) (f : Frame) : Prop where
  unit : ∃ u, p.units[f.unit]? = some u
  code : Blocks.Closed f.routine.blocks
  instr : ∃ i, f.instr? = some i

theorem instr?_eq_some : f.instr? = some i ↔
    0 ≤ f.block ∧ Blocks.At f.routine.blocks f.block.toNat f.ip i := by
  unfold instr? Blocks.At
  by_cases hblock : f.block < 0
  · simp [hblock, Int.not_le.mpr hblock]
  · simp [hblock, Int.not_lt.mp hblock, Option.bind_eq_some_iff]

theorem Ready.of_eq (hf : f.Ready p) (hunit : g.unit = f.unit) (hroutine : g.routine = f.routine)
    (hblock : g.block = f.block) (hip : g.ip = f.ip) : g.Ready p := by
  refine ⟨hunit ▸ hf.unit, hroutine ▸ hf.code, ?_⟩
  obtain ⟨i, hi⟩ := hf.instr
  refine ⟨i, ?_⟩
  rw [instr?_eq_some] at hi ⊢
  rwa [hroutine, hblock, hip]

theorem ready_start (hunit : ∃ u, p.units[f.unit]? = some u)
    (hcode : Blocks.Closed f.routine.blocks) (hblock : f.routine.blocks.has f.block = true)
    (hip : f.ip = 0) : f.Ready p := by
  simp only [Blocks.has, Bool.and_eq_true, decide_eq_true_eq] at hblock
  obtain ⟨i, hi⟩ := hcode.nonempty f.block.toNat (by omega)
  exact ⟨hunit, hcode, i, instr?_eq_some.mpr ⟨hblock.1, hip ▸ hi⟩⟩

theorem Ready.fetch (hf : f.Ready p) (hi : f.instr? = some i) (hop : i.op.isTerminator = false)
    (span : Span) : (f.fetch span).Ready p := by
  obtain ⟨hblock, hat⟩ := instr?_eq_some.mp hi
  obtain ⟨j, hj⟩ := hf.code.next _ _ i hat hop
  exact ⟨hf.unit, hf.code, j, instr?_eq_some.mpr ⟨hblock, hj⟩⟩

/-- What a jump makes of the frame. -/
structure Jumps (i : Instr) (f g : Frame) : Prop where
  unit : g.unit = f.unit
  routine : g.routine = f.routine
  ip : g.ip = 0
  block : g.block = i.a ∨ i.op = .branch ∧ g.block = i.b

theorem Ready.jumps (hf : f.Ready p) (hi : f.instr? = some i) (hop : i.op = .jump ∨ i.op = .branch)
    {span : Span} (h : Jumps i (f.fetch span) g) : g.Ready p := by
  have hat := (instr?_eq_some.mp hi).2
  have hunit : ∃ u, p.units[g.unit]? = some u := h.unit ▸ hf.unit
  have hcode : Blocks.Closed g.routine.blocks := h.routine ▸ hf.code
  refine ready_start hunit hcode ?_ h.ip
  have hroutine : g.routine = f.routine := h.routine
  rw [hroutine]
  rcases h.block with hblock | ⟨hbranch, hblock⟩
  · rw [hblock]
    rcases hop with hop | hop
    · exact hf.code.jump _ _ i hat hop
    · exact (hf.code.branch _ _ i hat hop).1
  · rw [hblock]
    exact (hf.code.branch _ _ i hat hbranch).2

end Frame

/-! ## Programs -/

namespace Program

variable {units : List CompiledUnit} {p : Program}

theorem Links.callable (h : Links units p) {lu : LinkedUnit} (hlu : lu ∈ p.units) :
    Exec.Callable p lu p.Has := by
  refine ⟨fun c hc => ?_, fun k hk c hc => ?_, fun name n v i r hn hr => ?_⟩
  · obtain ⟨u, hu⟩ := forall₂_mem_right h.units (Array.mem_toList_iff.mpr hlu)
    obtain ⟨ref, href⟩ := linkUnit_calls hu hc
    exact h.has.mpr (resolve_ok href)
  · obtain ⟨kd, hkd⟩ := forall₂_mem_right h.classes (Array.mem_toList_iff.mpr hk)
    obtain ⟨ref, href⟩ := (linkClass_ok hkd).2.2 c hc
    exact h.has.mpr (resolve_ok href)
  · unfold unit? at hn
    obtain ⟨n', -, hn⟩ := Option.bind_eq_some_iff.mp hn
    obtain ⟨u, hu, hpair⟩ := Option.map_eq_some_iff.mp hn
    cases hpair
    exact has_iff.mpr ⟨u, hu, hr⟩

theorem Links.closed (h : Links units p) (hvalid : ∀ u ∈ units, u.validate = .ok ()) {c : Callee}
    (hc : p.Has c) : Blocks.Closed c.routine.blocks := by
  obtain ⟨u, hu, hr⟩ := h.has.mp hc
  have hcheck := hvalid u (List.mem_of_getElem? hu)
  unfold CompiledUnit.validate at hcheck
  dsimp only at hcheck
  split at hcheck
  · obtain ⟨_, hthrow, -⟩ := except_bind_ok hcheck
    cases hthrow
  obtain ⟨_, hroutines, -⟩ := except_bind_ok hcheck
  have hroutine := forM_eq_ok_iff.mp hroutines _ (Array.mem_toList_iff.mpr (mem_routines hr))
  unfold CompiledUnit.checkRoutine at hroutine
  split at hroutine
  · cases hroutine
  · rename_i hblocks
    exact Blocks.closed_of_validate hblocks

end Program

/-! ## Steps -/

namespace Exec

theorem reshapes_jump (p : Program) (u : LinkedUnit) {i : Instr}
    (hop : i.op = .jump ∨ i.op = .branch) :
    Reshapes (instr p u i) (OnTop (Frame.Jumps i)) := by
  have hjump : ∀ block : Int, (block = i.a ∨ i.op = .branch ∧ block = i.b) →
      Reshapes (modifyTop ({ · with block, ip := 0 })) (OnTop (Frame.Jumps i)) :=
    fun block hblock => (reshapes_modifyTop _).mono fun _ _ h =>
      h ▸ OnTop.modifyHead (fun _ => ⟨rfl, rfl, rfl, hblock⟩) _
  rcases hop with hop | hop
  · have hinstr : instr p u i = modifyTop ({ · with block := i.a, ip := 0 }) := by
      unfold instr control
      simp only [hop]
      rfl
    rw [hinstr]
    exact hjump _ (.inl rfl)
  · have hinstr : instr p u i = (do
        if (← pop).isTrue then modifyTop ({ · with block := i.a, ip := 0 })
        else modifyTop ({ · with block := i.b, ip := 0 })) := by
      unfold instr control
      simp only [hop]
      rfl
    rw [hinstr]
    refine Reshapes.bind calm_pop (fun v => .ite (hjump _ (.inl rfl)) (hjump _ (.inr ⟨hop, rfl⟩)))
      fun h h' => h.alike_trans h' fun f g k hfg hgk => ?_
    exact ⟨hgk.unit.trans hfg.unit, hgk.routine.trans hfg.routine, hgk.ip, hgk.block⟩

end Exec


namespace Program

/-- Instructions call routines of the program, and the code of these was checked. -/
structure Checked (p : Program) : Prop where
  callable : ∀ u ∈ p.units, Exec.Callable p u p.Has
  closed : ∀ c, p.Has c → Blocks.Closed c.routine.blocks

theorem Links.isChecked {units : List CompiledUnit} {p : Program} (h : Links units p)
    (hvalid : ∀ u ∈ units, u.validate = .ok ()) : p.Checked :=
  ⟨fun _ hu => h.callable hu, fun _ hc => h.closed hvalid hc⟩

end Program

namespace Machine

variable {p : Program} {m m' m₀ : Machine}

/-- All frames, the running one and those that wait, stand before an instruction. -/
def Ready (p : Program) (m : Machine) : Prop := ∀ f ∈ m.frames, f.Ready p

theorem ready_begin (hp : p.Checked) {c : Callee} (hc : p.Has c) {f : Frame} (hunit : f.unit = c.unit)
    (hroutine : f.routine = c.routine) (hblock : f.block = 0) (hip : f.ip = 0) : f.Ready p := by
  obtain ⟨u, hu, -⟩ := Program.has_iff.mp hc
  have hcode := hp.closed c hc
  refine Frame.ready_start ⟨u, hunit ▸ hu⟩ (hroutine ▸ hcode) ?_ hip
  rw [hroutine, hblock]
  simp [Blocks.has, hcode.first]

theorem isTerminator_eq_false {op : Op} (hret : op ≠ .ret) (hjump : ¬(op = .jump ∨ op = .branch)) :
    op.isTerminator = false := by
  unfold Op.isTerminator
  split <;> simp_all

/-- After a call the caller goes on behind it, and the callee starts at its first block. -/
theorem ready_calls (hp : p.Checked) {f : Frame} {rest gs : List Frame} {i : Instr} {span : Span}
    (hf : f.Ready p) (hrest : ∀ g ∈ rest, g.Ready p) (hi : f.instr? = some i)
    (hcall : i.op ∈ Op.routineCalls) {c : Callee} (hc : p.Has c)
    (h : Exec.Calls c i.taken (f.fetch span :: rest) gs) : ∀ g ∈ gs, g.Ready p := by
  obtain ⟨g, hg, rfl⟩ := h
  have hop : i.op.isTerminator = false := by
    simp only [Op.routineCalls, List.mem_cons, List.not_mem_nil, or_false] at hcall
    rcases hcall with hop | hop | hop <;> rw [hop] <;> rfl
  have hwaits : ((f.fetch span).suspend i.taken).Ready p :=
    (hf.fetch hi hop span).of_eq rfl rfl rfl rfl
  exact List.forall_mem_cons.mpr ⟨ready_begin hp hc hg.unit hg.routine hg.block hg.ip,
    List.forall_mem_cons.mpr ⟨hwaits, hrest⟩⟩

theorem ready_returns {f : Frame} {rest gs : List Frame} {i : Instr}
    (hrest : ∀ g ∈ rest, g.Ready p) (h : Exec.Returns i (f :: rest) gs) :
    ∀ g ∈ gs, g.Ready p := by
  obtain ⟨t, _, result, heq, -, rfl⟩ := h
  obtain ⟨-, rfl⟩ := List.cons.inj heq
  cases rest with
  | nil => simp
  | cons g rest =>
    obtain ⟨hg, hrest⟩ := List.forall_mem_cons.mp hrest
    exact List.forall_mem_cons.mpr ⟨hg.of_eq rfl rfl rfl rfl, hrest⟩

/-- The next instruction of the top frame leaves all frames before an instruction. -/
theorem Ready.instr (hp : p.Checked) (hm : m.Ready p) {f : Frame} {rest : List Frame}
    (hframes : m.frames = f :: rest) (hhalted : m.halted = false)
    (h : Exec.step p m = .ok () m') : m'.Ready p := by
  unfold Machine.Ready at hm ⊢
  rw [hframes] at hm
  obtain ⟨hf, hrest⟩ := List.forall_mem_cons.mp hm
  obtain ⟨i, span, hi, hturn⟩ := turns_of_step h hhalted hframes
  have hgoes : ∀ (R : List Frame → List Frame → Prop),
      (∀ u, p.units[f.unit]? = some u → Exec.Turns R (Exec.instr p u i)) →
      (∀ gs, R (f.fetch span :: rest) gs → ∀ g ∈ gs, g.Ready p) → ∀ g ∈ m'.frames, g.Ready p := by
    intro R hR hready
    rcases hturn R hR with ⟨-, hnone⟩ | ⟨-, hframes'⟩
    · simp [hnone]
    · exact hready _ hframes'
  by_cases hcall : i.op ∈ Op.routineCalls
  · refine hgoes (fun fs gs => ∃ c, p.Has c ∧ Exec.Calls c i.taken fs gs) (fun u hu => ?_)
      fun gs ⟨c, hc, h⟩ => ready_calls hp hf hrest hi hcall hc h
    rw [Exec.instr_eq_control p u (List.mem_cons_of_mem _ hcall)]
    have hu' := hp.callable u (Array.mem_of_getElem? hu)
    exact (hu'.reshapes_routineCall hcall).turns fun _ _ => id
  by_cases hret : i.op = .ret
  · refine hgoes (Exec.Returns i) (fun u _ => ?_) fun gs h => ready_returns hrest h
    have hleave : Exec.instr p u i = Exec.leave (i.a = 1) := by
      rw [Exec.instr_eq_control p u (by simp [hret])]
      unfold Exec.control
      simp only [hret]
    rw [hleave]
    exact (Exec.reshapes_leave i).turns fun _ _ => id
  by_cases hjump : i.op = .jump ∨ i.op = .branch
  · refine hgoes (OnTop (Frame.Jumps i))
      (fun u _ => (Exec.reshapes_jump p u hjump).turns fun _ _ => id) ?_
    rintro _ (_ | hjumps)
    exact List.forall_mem_cons.mpr ⟨hf.jumps hi hjump hjumps, hrest⟩
  · refine hgoes (OnTop (Frame.Moves i)) (fun u _ => Exec.turns_other p u hcall hret) ?_
    rintro _ (_ | hmoves)
    have hplace := hmoves.place.resolve_right fun ⟨_, hgoes⟩ =>
      hjump (hgoes.imp And.left And.left)
    have hnext := hf.fetch hi (isTerminator_eq_false hret hjump) span
    exact List.forall_mem_cons.mpr
      ⟨hnext.of_eq hmoves.unit hmoves.routine hplace.1 hplace.2, hrest⟩

theorem Ready.step (hp : p.Checked) (hm : m.Ready p) (h : Exec.step p m = .ok () m') :
    m'.Ready p := by
  by_cases hhalted : m.halted = true
  · have hsame : m' = m := by
      unfold Exec.step at h
      rw [Exec.get_bind, if_pos hhalted] at h
      cases h
      rfl
    exact hsame ▸ hm
  rw [Bool.not_eq_true] at hhalted
  cases hframes : m.frames with
  | cons f rest => exact hm.instr hp hframes hhalted h
  | nil =>
    unfold Machine.Ready
    rcases advance_or_halted h hhalted with ⟨-, hnone⟩ | hadv
    · simp [hnone]
    cases hadv with
    | ended _ _ hsame => simp [hsame, hframes]
    | @enter f e _ _ hf hstarts =>
      obtain ⟨n, k⟩ := e
      obtain rfl : f.unit = n := (callee?_unit hstarts.callee).1
      have hc : p.Has ⟨f.unit, k, f.routine⟩ := hstarts.callee
      have hready : f.Ready p := ready_begin hp hc rfl rfl hstarts.block hstarts.ip
      simpa [hf] using hready
    | instr hsome => simp [hframes] at hsome

theorem Ready.after (hp : p.Checked) (hm : m₀.Ready p) {n : Nat}
    (hrun : ∀ k < n, ((m₀.after p k).step p).stop = none) : (m₀.after p n).Ready p := by
  induction n with
  | zero => exact hm
  | succ n ih =>
    refine (ih fun k hk => hrun k (Nat.lt_succ_of_lt hk)).step hp ?_
    have hstop := hrun n (Nat.lt_succ_self n)
    rw [Machine.after]
    unfold Machine.step at hstop ⊢
    cases hx : Exec.step p (m₀.after p n) with
    | ok a m => rfl
    | error err m =>
      rw [hx] at hstop
      cases hstop

end Machine

/-! ## Faults -/

/-- The run has come to a place where no instruction stands. -/
def FaultCause.isOffCode : FaultCause → Bool
  | .invalidCode (.noInstruction _ _ _) => true
  | _ => false

namespace Exec

variable {α β : Type} {x : Exec α}

/-- However `x` fails, it is not for lack of an instruction. -/
def Spares (x : Exec α) : Prop := ∀ m f m', x m = .error (.fault f) m' → f.cause.isOffCode = false

theorem Spares.bind {f : α → Exec β} (hx : Spares x) (hf : ∀ a, Spares (f a)) :
    Spares (x >>= f) := by
  intro m e m' h
  simp only [Bind.bind, EStateM.bind] at h
  cases hxm : x m with
  | ok a m₁ =>
    rw [hxm] at h
    exact hf a m₁ e m' h
  | error e' m₁ =>
    rw [hxm] at h
    cases h
    exact hx m e _ hxm

theorem Spares.ite {c : Prop} [Decidable c] {y : Exec α} (hx : Spares x) (hy : Spares y) :
    Spares (if c then x else y) := by
  split
  · exact hx
  · exact hy

theorem spares_of_ok (h : ∀ m, ∃ a m', x m = .ok a m') : Spares x := by
  intro m f m' hx
  obtain ⟨a, m₁, ha⟩ := h m
  rw [ha] at hx
  cases hx

theorem spares_pure (a : α) : Spares (pure a : Exec α) := spares_of_ok fun _ => ⟨_, _, rfl⟩

theorem spares_get : Spares (get : Exec Machine) := spares_of_ok fun _ => ⟨_, _, rfl⟩

theorem spares_set (m : Machine) : Spares (set m : Exec PUnit) := spares_of_ok fun _ => ⟨_, _, rfl⟩

theorem spares_modify (f : Machine → Machine) : Spares (modify f : Exec PUnit) :=
  spares_of_ok fun _ => ⟨_, _, rfl⟩

theorem spares_breakdown : Spares (breakdown : Exec α) := by
  intro m f m' h
  cases h

theorem spares_raise {c : FaultCause} (hc : c.isOffCode = false) : Spares (raise c : Exec α) := by
  intro m f m' h
  cases h
  exact hc

/-- A block goes on only if a check does not stop it. -/
theorem Spares.unless {c : Prop} [Decidable c] {cause : FaultCause} {f : α → Exec β} {y : Exec β}
    (hcause : cause.isOffCode = false) (hy : Spares y) :
    Spares (if c then raise cause >>= f else y) := by
  refine .ite ?_ hy
  intro m e m' h
  cases h
  exact hcause

theorem Spares.unlessBroken {c : Prop} [Decidable c] {f : α → Exec β} {y : Exec β}
    (hy : Spares y) : Spares (if c then breakdown >>= f else y) := by
  refine .ite ?_ hy
  intro m e m' h
  cases h

theorem spares_expect (o : Option α) : Spares (expect o) := by
  cases o with
  | none => exact spares_breakdown
  | some a => exact spares_pure a

theorem spares_entry (xs : Array α) (i : Int) : Spares (entry xs i) := spares_expect _

theorem spares_top : Spares top := spares_get.bind fun _ => spares_expect _

theorem spares_peek : Spares peek := spares_top.bind fun _ => spares_expect _

theorem spares_push (v : Value) : Spares (push v) := spares_modify _

theorem spares_pop : Spares pop := by
  intro m f m' h
  unfold pop at h
  split at h
  · split at h <;> cases h
  · cases h

theorem spares_popMany (n : Int) : Spares (popMany n) :=
  spares_top.bind fun _ => .ite spares_breakdown ((spares_modify _).bind fun _ => spares_pure _)

theorem spares_log (e : Machine → TraceEvent) : Spares (log e) := spares_modify _

theorem Spares.discard (hx : Spares x) : Spares (Functor.discard x) := by
  intro m f m' h
  simp only [Functor.discard, Functor.mapConst, EStateM.map, Function.comp] at h
  cases hxm : x m with
  | ok a m₁ =>
    rw [hxm] at h
    cases h
  | error e m₁ =>
    rw [hxm] at h
    cases h
    exact hx m f _ hxm

theorem spares_reserve (words : Int) : Spares (reserve words) := by
  unfold reserve
  refine .ite (spares_pure _) (spares_get.bind fun _ => .ite (spares_pure _) ?_)
  refine Spares.bind (spares_get.bind fun _ => (spares_modify _).bind fun _ =>
    spares_get.bind fun _ => spares_log _) fun _ => spares_get.bind fun _ => ?_
  exact .ite (spares_get.bind fun _ => spares_raise rfl) (spares_pure _)

theorem spares_alloc (kind : CellKind) (n : Int) : Spares (alloc kind n) := by
  unfold alloc
  exact .unlessBroken ((spares_of_ok fun _ => ⟨_, _, rfl⟩).bind fun _ =>
    (spares_log _).bind fun _ => spares_pure _)

theorem spares_fill {x : Exec Value} (hx : Spares x) (n : Nat) (vs : Array Value) :
    Spares (fill x n vs) := by
  induction n generalizing vs with
  | zero => exact spares_pure _
  | succ n ih => exact hx.bind fun _ => ih _

theorem spares_zero (s : Shape) : Spares (zero s) := by
  induction s with
  | array n e ih =>
    exact (spares_alloc _ _).bind fun _ => (spares_fill ih _ _).bind fun _ =>
      (spares_modify _).bind fun _ => spares_pure _
  | hollow => exact spares_raise rfl
  | _ => exact spares_pure _

theorem spares_zeroAll (ss : List Shape) : Spares (zeroAll ss) := by
  induction ss with
  | nil => exact spares_pure _
  | cons s ss ih => exact (spares_zero s).bind fun _ => ih.bind fun _ => spares_pure _

theorem spares_check (o : Value.Outcome) : Spares (check o) := by
  unfold check
  split
  · exact spares_pure _
  · exact spares_raise rfl
  · exact spares_raise rfl

theorem spares_object (v : Value) : Spares (object v) := by
  unfold object
  split
  · exact spares_raise rfl
  · refine spares_get.bind fun m => ?_
    split
    · split
      · exact spares_pure _
      · exact spares_raise rfl
    · exact spares_raise rfl
  · exact spares_raise rfl

theorem spares_array (v : Value) : Spares (array v) := by
  unfold array
  split
  · exact spares_raise rfl
  · refine spares_get.bind fun m => ?_
    split
    · split
      · exact spares_pure _
      · exact spares_raise rfl
    · exact spares_raise rfl
  · exact spares_raise rfl

theorem spares_slot (offset : Int) (size : Nat) : Spares (slot offset size) :=
  .ite (spares_raise rfl) (spares_pure _)

theorem spares_index (i : Value) (length : Nat) : Spares (index i length) := by
  unfold index
  split
  · exact .ite (spares_raise rfl) (spares_pure _)
  · exact .ite (spares_raise rfl) (spares_pure _)
  · exact spares_raise rfl

theorem spares_routineValue (p : Program) (v : Value) : Spares (routineValue p v) := by
  unfold routineValue
  split
  · exact spares_raise rfl
  · split
    · exact spares_raise rfl
    · split
      · exact spares_raise rfl
      · exact spares_pure _
  · exact spares_raise rfl

theorem spares_frameWords (r : Routine) : Spares (frameWords r) :=
  .ite spares_breakdown (.ite (spares_pure _) (spares_pure _))

theorem spares_enter (p : Program) (c : Callee) (args : List Value) : Spares (enter p c args) := by
  have hput : ∀ m : Machine, Spares (do
      let own ← zeroAll (ownShapes c.routine)
      let display := ((p.units[c.unit]?).map (·.unit.display)).getD ""
      let span := (m.frames.head?.map (·.span)).getD ⟨0, 0, 0⟩
      let frame : Frame := { unit := c.unit, name := display ++ "." ++ c.routine.name,
                             routine := c.routine, locals := (args ++ own).toArray, span }
      modify fun m => { m with frames := frame :: m.frames }
      log fun m => .enter m.frames.length frame.name) :=
    fun m => (spares_zeroAll _).bind fun _ => (spares_modify _).bind fun _ => spares_log _
  unfold enter
  exact spares_get.bind fun m => .unless rfl (.unless rfl (.unlessBroken (hput m)))

theorem spares_call (p : Program) (c : Callee) (argc : Int) : Spares (call p c argc) := by
  unfold call
  refine spares_get.bind fun m => .unless rfl (spares_top.bind fun f => .unless rfl ?_)
  exact (spares_frameWords _).bind fun _ => (spares_reserve _).bind fun _ =>
    (spares_popMany _).bind fun _ => (spares_modify _).bind fun _ => spares_enter p c _

theorem spares_leave (withResult : Bool) : Spares (leave withResult) := by
  have hdrop : ∀ (name : String) (result : Option Value) (k : Exec Unit), Spares k → Spares (do
      log fun m => .leave m.frames.length name result
      modify fun m => { m with frames := m.frames.tail }
      modifyTop ({ · with state := .running })
      k) := fun _ _ _ hk => (spares_log _).bind fun _ => (spares_modify _).bind fun _ =>
    (spares_modify _).bind fun _ => hk
  unfold leave
  refine spares_top.bind fun f => (spares_modify _).bind fun _ => ?_
  dsimp only
  split
  · exact .unless rfl ((spares_entry _ _).bind fun v => hdrop f.name (some v) _ (spares_push v))
  · exact hdrop f.name none _ (spares_pure _)

theorem spares_callNative (n : Native) (argc : Int) : Spares (callNative n argc) := by
  unfold callNative
  refine (spares_popMany _).bind fun args => .unlessBroken (spares_get.bind fun m => ?_)
  split
  · exact spares_modify _
  · exact spares_raise rfl
  · exact spares_breakdown
  · exact (spares_modify _).bind fun _ => .ite (spares_push _) (spares_pure _)

theorem spares_access (u : LinkedUnit) (i : Instr) : Spares (access u i) := by
  unfold access
  split
  · exact spares_top.bind fun f => (spares_entry _ _).bind fun v => spares_push v
  · exact spares_pop.bind fun v => spares_top.bind fun f =>
      (spares_entry _ _).discard.bind fun _ => spares_modify _
  · exact (spares_entry _ _).bind fun place => spares_get.bind fun m =>
      (spares_expect _).bind fun v => spares_push v
  · exact (spares_entry _ _).bind fun place => spares_pop.bind fun v => spares_modify _
  · exact spares_pop.bind fun v => (spares_object v).bind fun c =>
      (spares_slot _ _).bind fun k => spares_push _
  · exact spares_pop.bind fun v => spares_pop.bind fun w => (spares_object w).bind fun c =>
      (spares_slot _ _).bind fun k => spares_modify _
  · exact spares_pop.bind fun k => spares_pop.bind fun v => (spares_array v).bind fun c =>
      (spares_index _ _).bind fun k => spares_push _
  · exact spares_pop.bind fun v => spares_pop.bind fun k => spares_pop.bind fun w =>
      (spares_array w).bind fun c => (spares_index _ _).bind fun k => spares_modify _
  · refine spares_pop.bind fun k => spares_pop.bind fun v => ?_
    split
    · exact (spares_index _ _).bind fun k => spares_push _
    · exact spares_raise rfl
  · exact spares_raise rfl

theorem spares_allocate (p : Program) (u : LinkedUnit) (i : Instr) : Spares (allocate p u i) := by
  unfold allocate
  split
  · exact (spares_entry _ _).bind fun k => (spares_expect _).bind fun c =>
      (spares_reserve _).bind fun _ => (spares_alloc _ _).bind fun h =>
      (spares_zeroAll _).bind fun _ => (spares_modify _).bind fun _ => spares_push _
  · exact spares_peek.bind fun v => spares_modify _
  · refine (spares_entry _ _).bind fun elem => spares_peek.bind fun v => ?_
    split
    · exact .unless rfl (spares_get.bind fun m => .unless rfl ((spares_reserve _).bind fun _ =>
        spares_pop.discard.bind fun _ => (spares_zero _).bind fun _ => spares_push _))
    · exact spares_raise rfl
  · exact (spares_entry _ _).bind fun elem => (spares_reserve _).bind fun _ =>
      (spares_zero _).bind fun _ => spares_push _
  · exact spares_raise rfl

theorem spares_control (p : Program) (u : LinkedUnit) (i : Instr) : Spares (control p u i) := by
  unfold control
  dsimp only
  split
  · exact spares_modify _
  · exact spares_pop.bind fun v => .ite (spares_modify _) (spares_modify _)
  · exact spares_leave _
  · exact (spares_entry _ _).bind fun c => spares_call p c _
  · refine spares_top.bind fun f => .unless rfl ((spares_object _).bind fun c => ?_)
    split
    · exact spares_raise rfl
    · exact .unless rfl ((spares_entry _ _).bind fun c => spares_call p c _)
  · exact spares_top.bind fun f => .unless rfl (.unlessBroken ((spares_routineValue p _).bind
      fun c => (spares_modify _).bind fun _ => spares_call p c _))
  · exact (spares_entry _ _).bind fun n => spares_callNative n _
  · exact spares_raise rfl

theorem spares_instr (p : Program) (u : LinkedUnit) (i : Instr) : Spares (instr p u i) := by
  unfold instr
  split
  · exact spares_pop.bind fun y => spares_pop.bind fun x => (spares_check _).bind fun v =>
      spares_push v
  · exact spares_pop.bind fun x => (spares_check _).bind fun v => spares_push v
  · exact spares_pop.bind fun y => spares_pop.bind fun x => spares_push _
  · split
    case h_1 => exact spares_pure _
    case h_2 => exact (spares_entry _ _).bind fun v => spares_push v
    case h_3 => exact spares_pop.discard
    case h_4 => exact spares_peek.bind fun v => spares_push v
    case h_5 => exact spares_pop.bind fun v => spares_push _
    case h_6 =>
      refine spares_pop.bind fun v => ?_
      split
      · exact spares_push _
      · exact spares_push _
    case h_7 => exact (spares_entry _ _).bind fun c => spares_push _
    case h_17 | h_18 | h_19 | h_20 => exact spares_allocate p u i
    case h_21 => exact spares_control p u i
    all_goals exact spares_access u i

theorem spares_marking {x : Exec Unit} (hx : Spares x) : Spares (marking x) := by
  intro m f m' h
  unfold marking at h
  cases hxm : x m with
  | ok a m₁ =>
    rw [hxm] at h
    cases h
  | error e m₁ =>
    rw [hxm] at h
    cases h
    exact hx m f m₁ hxm

end Exec

namespace Machine

variable {p : Program} {m : Machine}

/-- If all frames stand before an instruction, the next step finds one. -/
theorem Ready.spares (hm : m.Ready p) {f : Fault} (h : (m.step p).stop = some (.fault f)) :
    f.cause.isOffCode = false := by
  obtain ⟨m', hstep⟩ : ∃ m', Exec.step p m = .error (.fault f) m' := by
    unfold Machine.step at h
    split at h
    · cases h
    · cases h
      exact ⟨_, by assumption⟩
  unfold Exec.step at hstep
  rw [Exec.get_bind] at hstep
  cases hhalted : m.halted with
  | true =>
    simp only [hhalted, if_true] at hstep
    cases hstep
  | false =>
  cases hstop : m.stopping with
  | true =>
    simp only [hhalted, hstop, Bool.false_eq_true, if_false, if_true] at hstep
    cases hstep
    rfl
  | false =>
  simp only [hhalted, hstop, Bool.false_eq_true, if_false] at hstep
  cases hframes : m.frames with
  | cons g rest =>
    have hg := hm g (by simp [hframes])
    obtain ⟨i, hi⟩ := hg.instr
    obtain ⟨u, hu⟩ := hg.unit
    simp only [hframes, hi, hu] at hstep
    exact ((Exec.spares_set _).bind fun _ => (Exec.spares_log _).bind fun _ =>
      Exec.spares_marking (Exec.spares_instr p u i)) _ _ _ hstep
  | nil =>
  cases hpending : m.pending with
  | nil =>
    simp only [hframes, hpending] at hstep
    cases hstep
  | cons e rest =>
  simp only [hframes, hpending] at hstep
  cases hc : e.callee? p with
  | none =>
    simp only [hc] at hstep
    cases hstep
    rfl
  | some c =>
    simp only [hc] at hstep
    exact ((Exec.spares_set _).bind fun _ => (Exec.spares_frameWords _).bind fun _ =>
      (Exec.spares_reserve _).bind fun _ => Exec.spares_enter p c []) _ _ _ hstep

end Machine

/-- A run of checked units never leaves the code: every frame, whether it runs or waits, stands
before an instruction, and no step fails for lack of one. -/
theorem code_is_never_left {units : List CompiledUnit} {p : Program} {o : RunOptions}
    {m₀ : Machine} (hvalid : ∀ u ∈ units, u.validate = .ok ()) (hlink : Program.link units = .ok p)
    (hstart : Machine.start p o = .ok m₀) {n : Nat}
    (hrun : ∀ k < n, ((m₀.after p k).step p).stop = none) :
    (∀ f ∈ (m₀.after p n).frames, ∃ i, f.instr? = some i) ∧
    ∀ f, ((m₀.after p n).step p).stop = some (.fault f) → ∀ routine block ip,
      f.cause ≠ .invalidCode (.noInstruction routine block ip) := by
  have hp := (Program.links_of_link hlink).isChecked hvalid
  have hm₀ : m₀.Ready p := by
    intro f hf
    rw [(Machine.start_ready hstart).1] at hf
    cases hf
  have hm := hm₀.after hp hrun
  refine ⟨fun f hf => (hm f hf).instr, fun f hf routine block ip hcause => ?_⟩
  have hspared := hm.spares hf
  rw [hcause] at hspared
  cases hspared

/-- While a unit that starts up calls a routine, the caller and the callee stand before an
instruction. -/
theorem code_is_never_left_desk :
    (∀ u ∈ startUnits, u.validate = .ok ()) ∧
      (startMachine.after startProgram 6).frames.length = 2 ∧
      ∀ f ∈ (startMachine.after startProgram 6).frames, ∃ i, f.instr? = some i := by
  have hvalid : ∀ u ∈ startUnits, u.validate = .ok () := by
    intro u hu
    simp only [startUnits, List.mem_cons, List.not_mem_nil, or_false] at hu
    rcases hu with rfl | rfl | rfl <;> rfl
  have hlink : Program.link startUnits = .ok startProgram := eq_ok_of_isSome (by decide +kernel)
  have hstart : Machine.start startProgram {} = .ok startMachine :=
    eq_ok_of_isSome (by decide +kernel)
  have hdepth : (startMachine.after startProgram 6).frames.length = 2 := by decide +kernel
  have hproceeds : startMachine.Proceeds startProgram 6 := by
    unfold Machine.Proceeds
    decide +kernel
  have hrun : ∀ k < 6, ((startMachine.after startProgram k).step startProgram).stop = none :=
    fun k hk => (hproceeds k hk).1
  exact ⟨hvalid, hdepth, (code_is_never_left hvalid hlink hstart hrun).1⟩

end Pascaline
