import Pascaline.Proofs.Lowering.Stacks
import Pascaline.Proofs.Machine.Path
import Pascaline.Proofs.Machine.Startup

/-!
# A routine under those it calls

The frame of a routine waits while what it has called is executed, the routine itself among them. It
keeps its place and its slots meanwhile. Only instructions of the routine move the frame, so it stays
in blocks whose instructions do not lead out of them.

How often the frame of a routine comes to the start of a block, and what is in a variable then. A run
is put together from stretches: passes from block to block, in which nothing is called, and rounds of a
loop, in which anything may be executed that does not leave its body.
-/

namespace Pascaline

namespace Machine

variable {p : Program} {m m' : Machine} {n k : Nat}

theorem halted_after (h : m.Proceeds p n) (hm : m.halted = false) (hk : k ≤ n) :
    (m.after p k).halted = false := by
  cases k with
  | zero => exact hm
  | succ k => exact (h k hk).2

theorem stopping_of_step (h : Exec.step p m = .ok () m') (hm : m.halted = false) :
    m.stopping = false := by
  unfold Exec.step at h
  rw [Exec.get_bind] at h
  cases hstop : m.stopping with
  | false => rfl
  | true =>
    simp only [hm, hstop, Bool.false_eq_true, if_false, if_true] at h
    cases h

end Machine

namespace Site

variable {w : Site} {f g : Frame} {m m' : Machine} {n k : Nat} {s : Spot}

/-- The frame executes the routine, and what the routine has called lies on it. -/
structure Active (w : Site) (f : Frame) (m : Machine) : Prop where
  frames : ∃ inner, m.frames = inner ++ f :: w.callers
  unit : f.unit = w.unit
  routine : f.routine = w.routine

/-- There are more frames than those that wait for the routine. -/
def Deep (w : Site) (m : Machine) : Prop := w.callers.length < m.frames.length

/-- The machine is about to execute a block of the routine. -/
def isAt (w : Site) (block : Nat) (m : Machine) : Bool :=
  !m.halted && !m.stopping && m.frames.length == w.callers.length + 1 &&
    m.frames.head?.any fun f => f.block == (block : Int) && f.ip == 0

theorem isAt_iff {block : Nat} : w.isAt block m = true ↔ m.halted = false ∧ m.stopping = false ∧
    ∃ f below, m.frames = f :: below ∧ below.length = w.callers.length ∧ f.block = block ∧
      f.ip = 0 := by
  cases hframes : m.frames with
  | nil => simp [isAt, hframes]
  | cons f below => simp [isAt, hframes, and_assoc]

theorem Active.deep (h : w.Active f m) : w.Deep m := by
  obtain ⟨inner, hframes⟩ := h.frames
  rw [Deep, hframes]
  simp
  omega

theorem Active.stands (h : w.Active f m) (hm : m.frames.length = w.callers.length + 1) :
    m.frames = f :: w.callers := by
  obtain ⟨inner, hframes⟩ := h.frames
  obtain rfl : inner = [] := by
    rw [hframes, List.length_append, List.length_cons] at hm
    exact List.eq_nil_of_length_eq_zero (by omega)
  exact hframes

theorem Stands.active (h : w.Stands s m) : ∃ f, w.Active f m ∧ m.frames = f :: w.callers ∧
    w.Fits s f := by
  obtain ⟨f, hframes, hf⟩ := h.frames
  exact ⟨f, ⟨⟨[], hframes⟩, hf.unit, hf.routine⟩, hframes, hf⟩

/-! ## Steps -/

/-- What a step makes of the frame, unless the routine is left. -/
inductive Goes (w : Site) (f : Frame) (m : Machine) (g : Frame) (m' : Machine) : Prop where
  | waits (hframes : m.frames ≠ f :: w.callers) (h : f.Alike g)
  | calls {span : Span} (h : (f.fetch span).Alike g)
  | moves {i : Instr} {span : Span} (hi : f.instr? = some i) (hframes : m'.frames = g :: w.callers)
      (h : Frame.Moves i (f.fetch span) g)

theorem Active.step_top (h : w.Active f m) (hframes : m.frames = f :: w.callers)
    (hstep : Exec.step w.program m = .ok () m') (hm : m.halted = false) (hm' : m'.halted = false)
    (hdeep : w.Deep m') : ∃ g, w.Active g m' ∧ w.Goes f m g m' := by
  obtain ⟨i, span, hi, hturn⟩ := Machine.turns_of_step hstep hm hframes
  have hgoes : ¬(m'.halted = true ∧ m'.frames = []) := by simp [hm']
  by_cases hcall : i.op ∈ Op.routineCalls
  · obtain ⟨-, c, new, -, hframes'⟩ := (hturn _ fun u _ => by
      rw [Exec.instr_eq_control w.program u (List.mem_cons_of_mem _ hcall)]
      exact (Exec.reshapes_routineCall w.program u hcall).turns fun _ _ => id).resolve_left hgoes
    have halike : (f.fetch span).Alike ((f.fetch span).suspend i.taken) := ⟨rfl, rfl, rfl, rfl, rfl⟩
    exact ⟨_, ⟨⟨[new], hframes'⟩, h.unit, h.routine⟩, .calls halike⟩
  by_cases hret : i.op = .ret
  · obtain ⟨-, hturn⟩ := (hturn _ fun u _ => Exec.turns_instr w.program u i).resolve_left hgoes
    cases hturn with
    | stay _ hop => exact absurd hret hop
    | call _ hop => exact absurd hop hcall
    | ret _ hreturns =>
      obtain ⟨t, rest, result, heq, -, hframes'⟩ := hreturns
      obtain ⟨-, rfl⟩ := List.cons.inj heq
      rw [Deep, hframes', List.length_modifyHead] at hdeep
      exact absurd hdeep (Nat.lt_irrefl _)
  · obtain ⟨-, hturn⟩ :=
      (hturn _ fun u _ => Exec.turns_other w.program u hcall hret).resolve_left hgoes
    generalize hgs : m'.frames = gs at hturn
    cases hturn with
    | @top _ g _ hmoves =>
      exact ⟨g, ⟨⟨[], hgs⟩, hmoves.unit.trans h.unit, hmoves.routine.trans h.routine⟩,
        .moves hi hgs hmoves⟩

theorem Active.step (h : w.Active f m) (hstep : Exec.step w.program m = .ok () m')
    (hm : m.halted = false) (hm' : m'.halted = false) (hdeep : w.Deep m') :
    ∃ g, w.Active g m' ∧ w.Goes f m g m' := by
  obtain ⟨inner, hframes⟩ := h.frames
  cases inner with
  | nil => exact h.step_top hframes hstep hm hm' hdeep
  | cons t inner =>
    have hbelow : m.frames ≠ f :: w.callers := by
      intro heq
      have hlength := congrArg List.length (hframes.symm.trans heq)
      simp only [List.length_append, List.length_cons] at hlength
      omega
    have hwaits : ∀ inner', m'.frames = inner' ++ f :: w.callers →
        ∃ g, w.Active g m' ∧ w.Goes f m g m' :=
      fun inner' h' => ⟨f, ⟨⟨inner', h'⟩, h.unit, h.routine⟩, .waits hbelow (.refl f)⟩
    obtain ⟨i, span, -, hturn⟩ := Machine.turns_of_step hstep hm hframes
    obtain ⟨-, hturn⟩ := (hturn _ fun u _ => Exec.turns_instr w.program u i).resolve_left
      (by simp [hm'])
    cases hturn with
    | stay _ _ hsame =>
      generalize hgs : m'.frames = gs at hsame
      cases hsame with
      | @top _ t' _ _ _ => exact hwaits (t' :: inner) hgs
    | call _ _ hcall =>
      obtain ⟨new, -, hframes'⟩ := hcall
      exact hwaits (new :: (t.fetch span).suspend i.taken :: inner) hframes'
    | ret _ hreturns =>
      obtain ⟨_, _, result, heq, -, hframes'⟩ := hreturns
      obtain ⟨-, rfl⟩ := List.cons.inj heq
      cases inner with
      | nil =>
        -- what the routine has called hands over its result
        exact ⟨f.resume result, ⟨⟨[], hframes'⟩, h.unit, h.routine⟩,
          .waits hbelow ⟨rfl, rfl, rfl, rfl, rfl⟩⟩
      | cons t' inner => exact hwaits (t'.resume result :: inner) hframes'

/-! ## Blocks that are not left -/

/-- The blocks `inside` lead only to each other, but not to the start of `start`, and to the places of
a loop. Nothing is stored into a slot there. -/
structure Encloses (code : Blocks) (inside : Nat → Prop) (start slot : Nat) (l : LoopTarget) :
    Prop where
  leads : ∀ {k ip : Nat} {i : Instr} {target : Int}, inside k → code.instr? k ip = some i →
    i.op = .jump ∧ target = i.a ∨ i.op = .branch ∧ (target = i.a ∨ target = i.b) →
      ∃ j : Nat, target = j ∧ (inside j ∧ j ≠ start ∨ j = l.next ∨ j = l.leave)
  stores : ∀ {k ip : Nat} {i : Instr}, inside k → code.instr? k ip = some i → i.op = .storeLocal →
    i.a.toNat ≠ slot

/-- Where the frame of the routine is while blocks are not left. -/
inductive Keeps (w : Site) (inside : Nat → Prop) (start : Nat) (l : LoopTarget) (f : Frame)
    (m : Machine) : Prop where
  | inside {k : Nat} (hblock : f.block = k) (hk : inside k) (hstart : k = start → f.ip ≠ 0)
  | outside (hframes : m.frames = f :: w.callers) (hip : f.ip = 0)
      (hblock : f.block = l.next ∨ f.block = l.leave)

variable {inside : Nat → Prop} {start slot : Nat} {l : LoopTarget}

theorem instr?_of_block (h : w.Active f m) {i : Instr} (hi : f.instr? = some i)
    (hblock : f.block = k) : w.routine.blocks.instr? k f.ip = some i := by
  unfold Frame.instr? at hi
  rw [hblock, h.routine, if_neg (by omega)] at hi
  exact hi

theorem Encloses.step (henc : Encloses w.routine.blocks inside start slot l) (h : w.Active f m)
    (hblock : f.block = k) (hk : inside k) (hgoes : w.Goes f m g m')
    (hstart : k = start → f.ip ≠ 0 ∨ m.frames = f :: w.callers) :
    g.locals[slot]? = f.locals[slot]? ∧ w.Keeps inside start l g m' := by
  cases hgoes with
  | waits hbelow halike =>
    refine ⟨by rw [halike.locals], .inside (halike.block.trans hblock) hk fun heq => ?_⟩
    rw [halike.ip]
    exact (hstart heq).resolve_right hbelow
  | @calls span halike =>
    refine ⟨by rw [halike.locals]; rfl, .inside (halike.block.trans hblock) hk fun _ => ?_⟩
    rw [halike.ip]
    exact Nat.succ_ne_zero _
  | @moves i span hi hframes hmoves =>
    have hinstr := instr?_of_block h hi hblock
    constructor
    · rcases hmoves.locals with heq | ⟨hop, v, heq⟩
      · rw [heq]
        rfl
      · rw [heq]
        exact Array.getElem?_setIfInBounds_ne (henc.stores hk hinstr hop)
    · rcases hmoves.place with ⟨hsame, hip⟩ | ⟨hip, hplace⟩
      · refine .inside (hsame.trans hblock) hk fun _ => ?_
        rw [hip]
        exact Nat.succ_ne_zero _
      · obtain ⟨j, hj, hto⟩ : ∃ j : Nat, g.block = j ∧ _ := henc.leads hk hinstr hplace
        rcases hto with ⟨hin, hne⟩ | rfl | rfl
        · exact .inside hj hin fun heq => absurd heq hne
        · exact .outside hframes hip (.inl hj)
        · exact .outside hframes hip (.inr hj)

theorem Encloses.run (henc : Encloses w.routine.blocks inside start slot l) (h : w.Active f m)
    (hframes : m.frames = f :: w.callers) (hblock : f.block = start) (hstart : inside start)
    (hm : m.halted = false) (hgo : m.Proceeds w.program n)
    (hdeep : ∀ k ≤ n, w.Deep (m.after w.program k))
    (hstays : ∀ k < n, w.isAt l.next (m.after w.program k) = false ∧
      w.isAt l.leave (m.after w.program k) = false) {k : Nat} (hpos : 0 < k) (hk : k ≤ n) :
    ∃ g, w.Active g (m.after w.program k) ∧ g.locals[slot]? = f.locals[slot]? ∧
      w.Keeps inside start l g (m.after w.program k) := by
  induction k with
  | zero => exact absurd hpos (Nat.lt_irrefl 0)
  | succ k ih =>
    have hlt : k < n := Nat.lt_of_succ_le hk
    have hstep := Machine.step_eq_after hgo hlt
    have hhalted := Machine.halted_after hgo hm (Nat.le_of_lt hlt)
    rcases Nat.eq_zero_or_pos k with rfl | hpos
    · obtain ⟨g, hg, hgoes⟩ := h.step_top hframes hstep hm (hgo 0 hlt).2 (hdeep 1 hk)
      obtain ⟨hslot, hkeeps⟩ := henc.step h hblock hstart hgoes fun _ => .inr hframes
      exact ⟨g, hg, hslot, hkeeps⟩
    · obtain ⟨g, hg, hslot, hkeeps⟩ := ih hpos (Nat.le_of_lt hlt)
      cases hkeeps with
      | inside hblock hin hne =>
        obtain ⟨g', hg', hgoes⟩ := hg.step hstep hhalted (hgo k hlt).2 (hdeep (k + 1) hk)
        obtain ⟨hslot', hkeeps⟩ := henc.step hg hblock hin hgoes fun heq => .inl (hne heq)
        exact ⟨g', hg', hslot'.trans hslot, hkeeps⟩
      | outside hframes hip hblock =>
        -- one of the places was met before
        have hstopping := Machine.stopping_of_step hstep hhalted
        have hat : ∀ block : Nat, g.block = block → w.isAt block (m.after w.program k) = true :=
          fun block hb => isAt_iff.mpr ⟨hhalted, hstopping, g, w.callers, hframes, rfl, hb, hip⟩
        obtain ⟨hnext, hleave⟩ := hstays k hlt
        rcases hblock with hb | hb
        · rw [hat _ hb] at hnext
          cases hnext
        · rw [hat _ hb] at hleave
          cases hleave

end Site

/-! ## Stretches of a run -/

theorem Machine.step_of_ok {p : Program} {m m' : Machine} (h : Exec.step p m = .ok () m') :
    (m.step p).stop = none ∧ (m.step p).machine = m' := by
  unfold Machine.step
  rw [h]
  exact ⟨rfl, rfl⟩

theorem Machine.Proceeds.trans {p : Program} {m : Machine} {n k : Nat} (h : m.Proceeds p n)
    (h' : (m.after p n).Proceeds p k) : m.Proceeds p (n + k) := by
  intro j hj
  by_cases hlt : j < n
  · exact h j hlt
  · obtain ⟨i, rfl⟩ := Nat.exists_eq_add_of_le (Nat.le_of_not_lt hlt)
    have hi := h' i (by omega)
    rwa [← Machine.after_add, ← Machine.after_add] at hi

namespace Site

variable {w : Site} {s s' s₁ : Spot} {m m' : Machine} {n k start step leave block : Nat}
  {var : Bound.Expr} {xs xs' ys ys' : List (Option Value)}

/-! ## Variables -/

/-- What a variable holds at a place. -/
def read (w : Site) (s : Spot) : Bound.Expr → Option Value
  | .frameVar _ slot _ _ => s.locals[slot]?
  | .unitVar m slot _ _ =>
    (w.program.globalAt? ⟨m, slot⟩).bind fun place => (s.globals[place.1]?).bind (·[place.2]?)
  | _ => none

/-- The place with another value in a variable. -/
def write (w : Site) (s : Spot) (v : Value) : Bound.Expr → Spot
  | .frameVar _ slot _ _ => { s with locals := s.locals.set! slot v }
  | .unitVar m slot _ _ =>
    (w.program.globalAt? ⟨m, slot⟩).elim s fun place =>
      { s with globals := s.globals.modify place.1 (·.set! place.2 v) }
  | _ => s

/-- What a variable holds in the innermost frame. -/
def valueOf (w : Site) (var : Bound.Expr) (m : Machine) : Option Value :=
  m.frames.head?.bind fun f => w.read ⟨0, f.ip, f.operands, f.locals, m.globals⟩ var

theorem read_congr (hlocals : s'.locals = s.locals) (hglobals : s'.globals = s.globals) :
    w.read s' var = w.read s var := by
  cases var with
  | frameVar symbol slot type sp => rw [read, read, hlocals]
  | unitVar module slot type sp => rw [read, read, hglobals]
  | _ => rfl

theorem Stands.valueOf (h : w.Stands s m) : w.valueOf var m = w.read s var := by
  obtain ⟨f, hframes, hf⟩ := h.frames
  rw [Site.valueOf, hframes]
  exact read_congr hf.locals h.globals

theorem read_write {v x : Value} (h : w.read s var = some x) : w.read (w.write s v var) var = some v := by
  cases var with
  | frameVar symbol slot type sp =>
    have hlt : slot < s.locals.size := (Array.getElem?_eq_some_iff.mp h).1
    simp [read, write, hlt]
  | unitVar module slot type sp =>
    obtain ⟨⟨unit, place⟩, hat, h⟩ := Option.bind_eq_some_iff.mp h
    obtain ⟨row, hrow, hx⟩ := Option.bind_eq_some_iff.mp h
    have hlt : place < row.size := (Array.getElem?_eq_some_iff.mp hx).1
    simp only [read, write, hat, Option.elim_some, Option.bind_some, Array.getElem?_modify, if_true]
    rw [hrow]
    simp [hlt]
  | _ => cases h

theorem size_write {v : Value} : (w.write s v var).locals.size = s.locals.size := by
  cases var with
  | frameVar symbol slot type sp => exact Array.size_setIfInBounds
  | unitVar module slot type sp =>
    rw [write]
    cases w.program.globalAt? ⟨module, slot⟩ <;> rfl
  | _ => rfl

variable {slots slot : Nat} {v : Value}

/-- A store into a hidden slot leaves the variables alone. -/
theorem read_hidden (hvar : var.isVar slots) (hslot : slots ≤ slot) (block : Nat) (ops : List Value) :
    w.read (Site.start { s with locals := s.locals.set! slot v } block ops) var = w.read s var := by
  obtain ⟨name, slot', type, sp, rfl, hlt⟩ | ⟨m, slot', type, sp, rfl⟩ := Bound.Expr.isVar_cases hvar
  · exact Array.getElem?_setIfInBounds_ne (by omega)
  · rfl

theorem locals_write (hvar : var.isVar slots) (hslot : slots ≤ slot) :
    (w.write s v var).locals[slot]? = s.locals[slot]? := by
  obtain ⟨name, slot', type, sp, rfl, hlt⟩ | ⟨m, slot', type, sp, rfl⟩ := Bound.Expr.isVar_cases hvar
  · exact Array.getElem?_setIfInBounds_ne (by omega)
  · rw [write]
    cases w.program.globalAt? ⟨m, slot'⟩ <;> rfl

/-! ## Visits -/

/-- The machines of a run that are about to execute a block of the routine. -/
def visits (w : Site) (block : Nat) (m : Machine) (n : Nat) : List Machine :=
  ((List.range n).map (m.after w.program)).filter (w.isAt block)

theorem visits_add (w : Site) (block : Nat) (m : Machine) (n k : Nat) :
    w.visits block m (n + k) = w.visits block m n ++ w.visits block (m.after w.program n) k := by
  rw [visits, visits, visits, List.range_add, List.map_append, List.filter_append, List.map_map]
  have hafter : m.after w.program ∘ (n + ·) = (m.after w.program n).after w.program :=
    funext fun i => Machine.after_add w.program m n i
  rw [hafter]

/-- A block is met at the beginning of a stretch, or not at all. -/
theorem visits_of_first (hn : 0 < n)
    (h : ∀ k, 0 < k → k < n → w.isAt block (m.after w.program k) = false) :
    w.visits block m n = if w.isAt block m then [m] else [] := by
  obtain ⟨n, rfl⟩ := Nat.exists_eq_add_of_lt hn
  rw [Nat.zero_add, Nat.add_comm, visits_add]
  have hrest : w.visits block (m.after w.program 1) n = [] := by
    refine List.filter_eq_nil_iff.mpr fun m' hm' => ?_
    obtain ⟨k, hk, rfl⟩ := List.mem_map.mp hm'
    rw [← Machine.after_add, h (1 + k) (by omega) (by have := List.mem_range.mp hk; omega)]
    exact Bool.false_ne_true
  rw [hrest, List.append_nil, visits]
  cases hat : w.isAt block m <;> simp [Machine.after, hat]

/-- A stretch of a run: until its end the loop is not left. At the starts of two blocks a variable
holds these values. -/
structure Stretch (w : Site) (start step leave : Nat) (var : Bound.Expr) (m : Machine) (n : Nat)
    (xs ys : List (Option Value)) : Prop where
  goes : m.Proceeds w.program n
  stays : ∀ k < n, w.Deep (m.after w.program k) ∧ w.isAt leave (m.after w.program k) = false
  starts : (w.visits start m n).map (w.valueOf var) = xs
  steps : (w.visits step m n).map (w.valueOf var) = ys

theorem Stretch.refl : w.Stretch start step leave var m 0 [] [] := ⟨nofun, nofun, rfl, rfl⟩

theorem Stretch.trans (h : w.Stretch start step leave var m n xs ys)
    (h' : w.Stretch start step leave var (m.after w.program n) k xs' ys') :
    w.Stretch start step leave var m (n + k) (xs ++ xs') (ys ++ ys') := by
  refine ⟨h.goes.trans h'.goes, fun j hj => ?_, ?_, ?_⟩
  · by_cases hlt : j < n
    · exact h.stays j hlt
    · obtain ⟨i, rfl⟩ := Nat.exists_eq_add_of_le (Nat.le_of_not_lt hlt)
      have hi := h'.stays i (by omega)
      rwa [← Machine.after_add] at hi
  · rw [visits_add, List.map_append, h.starts, h'.starts]
  · rw [visits_add, List.map_append, h.steps, h'.steps]

/-! ## Passes -/

/-- So many hops that do not come to the start of a block. -/
inductive Straight (w : Site) : Nat → Spot → Spot → Prop where
  | here (s : Spot) : Straight w 0 s s
  | hop {n : Nat} {s s₁ s' : Spot} (h : w.Hop s s₁) (hip : s₁.ip ≠ 0) (hs : Straight w n s₁ s') :
      Straight w (n + 1) s s'

/-- Hops from a place to the start of a block, the first that is met. -/
def Passes (w : Site) (s s' : Spot) : Prop := ∃ n s₁, w.Straight n s s₁ ∧ w.Hop s₁ s'

theorem Hop.passes (h : w.Hop s s') : w.Passes s s' := ⟨0, s, .here s, h⟩

theorem Passes.hop (h : w.Hop s s₁) (hip : s₁.ip ≠ 0) (h' : w.Passes s₁ s') : w.Passes s s' := by
  obtain ⟨n, s₂, hstraight, hlast⟩ := h'
  exact ⟨n + 1, s₂, .hop h hip hstraight, hlast⟩

theorem Stands.deep (h : w.Stands s m) : w.Deep m := by
  obtain ⟨f, hframes, -⟩ := h.frames
  simp [Deep, hframes]

theorem Stands.isAt (h : w.Stands s m) (block : Nat) :
    w.isAt block m = (s.block == block && s.ip == 0) := by
  obtain ⟨f, hframes, hf⟩ := h.frames
  have hblock : (f.block == (block : Int)) = (s.block == block) := by
    rw [hf.block, Bool.eq_iff_iff, beq_iff_eq, beq_iff_eq, Int.ofNat_inj]
  simp [Site.isAt, h.halted, h.stopping, hframes, hblock, hf.ip]

theorem Hop.after (h : w.Hop s s') (hm : w.Stands s m) :
    m.Proceeds w.program 1 ∧ w.Stands s' (m.after w.program 1) := by
  obtain ⟨m', hstep, hm'⟩ := h m hm
  obtain ⟨hstop, hmachine⟩ := Machine.step_of_ok hstep
  have hafter : m.after w.program 1 = m' := hmachine
  refine ⟨fun k hk => ?_, hafter ▸ hm'⟩
  obtain rfl : k = 0 := by omega
  exact ⟨hstop, by rw [hafter]; exact hm'.halted⟩

theorem Straight.after (h : w.Straight n s s') (hm : w.Stands s m) :
    m.Proceeds w.program n ∧ w.Stands s' (m.after w.program n) ∧
      ∀ k, 0 < k → k ≤ n → ∃ s₁, w.Stands s₁ (m.after w.program k) ∧ s₁.ip ≠ 0 := by
  induction h generalizing m with
  | here => exact ⟨nofun, hm, fun k hpos hk => absurd hpos (by omega)⟩
  | @hop n s s₁ s' hhop hip _ ih =>
    obtain ⟨hgo, hm₁⟩ := hhop.after hm
    obtain ⟨hgo', hm', hbetween⟩ := ih hm₁
    rw [← Machine.after_add, Nat.add_comm] at hm'
    rw [Nat.add_comm]
    refine ⟨hgo.trans hgo', by rwa [Nat.add_comm], fun k hpos hk => ?_⟩
    obtain rfl | hpos := Nat.eq_or_lt_of_le (Nat.succ_le_of_lt hpos)
    · exact ⟨s₁, hm₁, hip⟩
    · obtain ⟨j, rfl⟩ := Nat.exists_eq_add_of_le (Nat.le_of_lt hpos)
      obtain ⟨s₂, hs₂⟩ := hbetween j (by omega) (by omega)
      rw [← Machine.after_add] at hs₂
      exact ⟨s₂, hs₂⟩

theorem Passes.stretch (h : w.Passes s s') (start step : Nat) (var : Bound.Expr) (hm : w.Stands s m)
    (hleave : w.isAt leave m = false) :
    ∃ n, w.Stands s' (m.after w.program n) ∧ w.Stretch start step leave var m n
      (if w.isAt start m then [w.valueOf var m] else [])
      (if w.isAt step m then [w.valueOf var m] else []) := by
  obtain ⟨n, s₁, hstraight, hlast⟩ := h
  obtain ⟨hgo, hs₁, hbetween⟩ := hstraight.after hm
  obtain ⟨hgo', hs'⟩ := hlast.after hs₁
  rw [← Machine.after_add] at hs'
  have hnowhere : ∀ block k, 0 < k → k < n + 1 → w.isAt block (m.after w.program k) = false := by
    intro block k hpos hk
    obtain ⟨s₂, hs₂, hip⟩ := hbetween k hpos (by omega)
    rw [hs₂.isAt, beq_false_of_ne hip, Bool.and_false]
  have hvisits : ∀ block, (w.visits block m (n + 1)).map (w.valueOf var) =
      if w.isAt block m then [w.valueOf var m] else [] := by
    intro block
    rw [visits_of_first (Nat.succ_pos n) (hnowhere block)]
    split <;> rfl
  refine ⟨n + 1, hs', hgo.trans hgo', fun k hk => ?_, hvisits start, hvisits step⟩
  rcases Nat.eq_zero_or_pos k with rfl | hpos
  · exact ⟨hm.deep, hleave⟩
  · obtain ⟨s₂, hs₂, -⟩ := hbetween k hpos (by omega)
    exact ⟨hs₂.deep, hnowhere leave k hpos hk⟩

theorem Passes.aside (h : w.Passes s s') (start step leave : Nat) (var : Bound.Expr)
    (hm : w.Stands s m)
    (hne : s.ip = 0 → s.block ≠ start ∧ s.block ≠ step ∧ s.block ≠ leave) :
    ∃ n, w.Stands s' (m.after w.program n) ∧ w.Stretch start step leave var m n [] [] := by
  have hnot : ∀ block, (s.ip = 0 → s.block ≠ block) → w.isAt block m = false := by
    intro block hblock
    rw [hm.isAt, Bool.and_eq_false_iff, beq_eq_false_iff_ne, beq_eq_false_iff_ne]
    exact or_iff_not_imp_right.mpr fun hip => hblock (not_not.mp hip)
  have hpass := h.stretch start step var hm (hnot leave fun hip => (hne hip).2.2)
  rw [hnot start fun hip => (hne hip).1, hnot step fun hip => (hne hip).2.1] at hpass
  exact hpass

/-! ## Rounds -/

/-- A round of a loop from the start of its body: so many steps, with what they call, lead on to the
next test, and the variable holds the same again. -/
structure RoundEnds (w : Site) (l : LoopTarget) (var : Bound.Expr) (m : Machine) (n : Nat) : Prop where
  goes : m.Proceeds w.program n
  stays : ∀ k < n, w.Deep (m.after w.program k) ∧ w.isAt l.next (m.after w.program k) = false ∧
    w.isAt l.leave (m.after w.program k) = false
  comes : w.isAt l.next (m.after w.program n) = true
  keeps : w.valueOf var (m.after w.program n) = w.valueOf var m

/-- While the loop goes on, each of its rounds ends. -/
def Rounds (w : Site) (l : LoopTarget) (start : Nat) (var : Bound.Expr) (m : Machine) : Prop :=
  ∀ j, m.Proceeds w.program j →
    (∀ k ≤ j, w.Deep (m.after w.program k) ∧ w.isAt l.leave (m.after w.program k) = false) →
      w.isAt start (m.after w.program j) = true → ∃ n, w.RoundEnds l var (m.after w.program j) n

theorem Rounds.after {l : LoopTarget} (h : w.Rounds l start var m)
    (hs : w.Stretch start step l.leave var m n xs ys) : w.Rounds l start var (m.after w.program n) := by
  intro j hgo hstays hat
  rw [← Machine.after_add] at hat ⊢
  refine h (n + j) (hs.goes.trans hgo) (fun k hk => ?_) hat
  by_cases hlt : k < n
  · exact hs.stays k hlt
  · obtain ⟨i, rfl⟩ := Nat.exists_eq_add_of_le (Nat.le_of_not_lt hlt)
    rw [Machine.after_add]
    exact hstays i (by omega)

theorem deep_of_isAt (hat : w.isAt block m = true) : w.Deep m := by
  obtain ⟨-, -, f, below, hframes, hlength, -⟩ := isAt_iff.mp hat
  rw [Deep, hframes, List.length_cons, hlength]
  exact Nat.lt_succ_self _

variable {f : Frame} {inside : Nat → Prop} {slot : Nat} {l : LoopTarget}

theorem Active.of_isAt (h : w.Active f m) (hat : w.isAt block m = true) :
    m.frames = f :: w.callers ∧ f.block = block ∧ f.ip = 0 := by
  obtain ⟨-, -, g, below, hframes, hlength, hblock, hip⟩ := isAt_iff.mp hat
  have hstands := h.stands (by rw [hframes, List.length_cons, hlength])
  obtain rfl : g = f := by
    rw [hframes] at hstands
    exact (List.cons.inj hstands).1
  exact ⟨hstands, hblock, hip⟩

theorem Active.stands_of_isAt (h : w.Active f m) (hat : w.isAt block m = true) :
    w.Stands ⟨block, 0, f.operands, f.locals, m.globals⟩ m := by
  obtain ⟨hhalted, hstopping, -⟩ := isAt_iff.mp hat
  obtain ⟨hframes, hblock, hip⟩ := h.of_isAt hat
  exact ⟨hhalted, hstopping, rfl, f, hframes, h.unit, h.routine, hblock, hip, rfl, rfl⟩

/-- While the frame is inside of the body, it is not at the start of another block. -/
theorem Keeps.not_isAt (h : w.Keeps inside start l f m) (hf : w.Active f m)
    (hnext : w.isAt l.next m = false) (hleave : w.isAt l.leave m = false)
    (hblock : block = start ∨ ¬inside block) : w.isAt block m = false := by
  refine Bool.eq_false_iff.mpr fun hat => ?_
  obtain ⟨hhalted, hstopping, -⟩ := isAt_iff.mp hat
  obtain ⟨hframes, hat, hip⟩ := hf.of_isAt hat
  cases h with
  | @inside k hk hin hstart =>
    obtain rfl : k = block := Int.ofNat_inj.mp (hk.symm.trans hat)
    exact hblock.elim (fun heq => hstart heq hip) (· hin)
  | outside _ _ hplace =>
    rcases hplace with hplace | hplace
    · rw [isAt_iff.mpr ⟨hhalted, hstopping, f, w.callers, hframes, rfl, hplace, hip⟩] at hnext
      cases hnext
    · rw [isAt_iff.mpr ⟨hhalted, hstopping, f, w.callers, hframes, rfl, hplace, hip⟩] at hleave
      cases hleave

theorem RoundEnds.stretch (h : w.RoundEnds l var m n)
    (henc : Encloses w.routine.blocks inside start slot l) (hm : w.Stands s m)
    (hat : w.isAt start m = true) (hstart : inside start) (hstep : ¬inside step)
    (hnext : l.next ≠ start) :
    w.Stretch start step l.leave var m n [w.valueOf var m] [] ∧
      ∃ s', w.Stands s' (m.after w.program n) ∧ s'.block = l.next ∧ s'.ip = 0 ∧
        s'.locals[slot]? = s.locals[slot]? := by
  obtain ⟨f, hf, hframes, hfits⟩ := hm.active
  obtain ⟨-, hblock, -⟩ := hf.of_isAt hat
  have hpos : 0 < n := by
    refine Nat.pos_of_ne_zero fun hzero => hnext ?_
    have hcomes := h.comes
    rw [hzero] at hcomes
    exact Int.ofNat_inj.mp ((hf.of_isAt hcomes).2.1.symm.trans hblock)
  have hdeep : ∀ k ≤ n, w.Deep (m.after w.program k) := by
    intro k hk
    obtain rfl | hlt := Nat.eq_or_lt_of_le hk
    · exact deep_of_isAt h.comes
    · exact (h.stays k hlt).1
  have hrun := fun k (hpos : 0 < k) (hk : k ≤ n) => henc.run hf hframes hblock hstart hm.halted
    h.goes hdeep (fun j hj => (h.stays j hj).2) hpos hk
  have hnowhere : ∀ block, block = start ∨ ¬inside block → ∀ k, 0 < k → k < n →
      w.isAt block (m.after w.program k) = false := by
    intro block hwhere k hpos hk
    obtain ⟨g, hg, -, hkeeps⟩ := hrun k hpos (Nat.le_of_lt hk)
    exact hkeeps.not_isAt hg (h.stays k hk).2.1 (h.stays k hk).2.2 hwhere
  have hfirst : w.isAt step m = false := by
    refine Bool.eq_false_iff.mpr fun hat => hstep ?_
    have heq : step = start := Int.ofNat_inj.mp ((hf.of_isAt hat).2.1.symm.trans hblock)
    exact heq ▸ hstart
  refine ⟨⟨h.goes, fun k hk => ⟨(h.stays k hk).1, (h.stays k hk).2.2⟩, ?_, ?_⟩, ?_⟩
  · rw [visits_of_first hpos (hnowhere start (.inl rfl)), if_pos hat]
    rfl
  · rw [visits_of_first hpos (hnowhere step (.inr hstep)), hfirst]
    rfl
  · obtain ⟨g, hg, hslot, -⟩ := hrun n hpos (Nat.le_refl n)
    exact ⟨_, hg.stands_of_isAt h.comes, rfl, rfl, hslot.trans (by rw [hfits.locals])⟩

end Site

end Pascaline
