import Pascaline.Proofs.Lowering.Meaning
import Pascaline.Proofs.Machine.Triple

/-!
# Paths through a routine

The places that the innermost frame passes while its routine calls nothing. A hop is one step from
place to place; a path is a chain of hops.
-/

namespace Pascaline

/-- A routine of a linked program that is being executed, with the frames below it. -/
structure Site where
  program : Program
  unit : Nat
  linked : LinkedUnit
  found : program.units[unit]? = some linked
  routine : Routine
  callers : List Frame

/-- A place in a routine, with what the frame and the units hold there. -/
structure Spot where
  block : Nat
  ip : Nat
  operands : List Value
  locals : Array Value
  globals : Array (Array Value)

namespace Site

variable {w : Site} {s s' : Spot} {c : Nat}

def instrAt (w : Site) (s : Spot) : Option Instr :=
  (w.routine.blocks[s.block]?).bind (·[s.ip]?)

structure Fits (w : Site) (s : Spot) (f : Frame) : Prop where
  unit : f.unit = w.unit
  routine : f.routine = w.routine
  block : f.block = s.block
  ip : f.ip = s.ip
  operands : f.operands = s.operands
  locals : f.locals = s.locals

/-- The machine is at this place. -/
structure Stands (w : Site) (s : Spot) (m : Machine) : Prop where
  halted : m.halted = false
  stopping : m.stopping = false
  globals : m.globals = s.globals
  frames : ∃ f, m.frames = f :: w.callers ∧ w.Fits s f

/-- One step leads from place to place. -/
def Hop (w : Site) (s s' : Spot) : Prop :=
  ∀ m, w.Stands s m → ∃ m', Exec.step w.program m = .ok () m' ∧ w.Stands s' m'

/-- So many steps lead from place to place. -/
inductive Path (w : Site) : Nat → Spot → Spot → Prop where
  | here (s : Spot) : Path w 0 s s
  | hop {n : Nat} {s s₁ s' : Spot} (h : w.Hop s s₁) (hs : Path w n s₁ s') : Path w (n + 1) s s'

/-- A step from this place raises a fault with this code. -/
def Faults (w : Site) (s : Spot) (c : Nat) : Prop :=
  ∀ m, w.Stands s m → ∃ f m', Exec.step w.program m = .error (.fault f) m' ∧ f.cause.code = c

/-- From this place a fault with this code is met. -/
def Fails (w : Site) (s : Spot) (c : Nat) : Prop := ∃ n s', w.Path n s s' ∧ w.Faults s' c

/-- A place is met on the way from this one. -/
def Leads (w : Site) (s s' : Spot) : Prop := ∃ n, w.Path n s s'

/-- At least so many steps can be taken from this place. -/
def Lasts (w : Site) (n : Nat) (s : Spot) : Prop := ∃ k s', n ≤ k ∧ w.Path k s s'

theorem Path.trans {n k : Nat} {s s₁ s' : Spot} (h : w.Path n s s₁) (h' : w.Path k s₁ s') :
    w.Path (n + k) s s' := by
  induction h with
  | here => simpa using h'
  | hop hhop _ ih =>
    rw [Nat.succ_add]
    exact .hop hhop (ih h')

theorem Hop.path (h : w.Hop s s') : w.Path 1 s s' := .hop h (.here s')

theorem Hop.leads (h : w.Hop s s') : w.Leads s s' := ⟨1, h.path⟩

theorem Leads.refl (s : Spot) : w.Leads s s := ⟨0, .here s⟩

theorem Leads.trans {s₁ : Spot} (h : w.Leads s s₁) (h' : w.Leads s₁ s') : w.Leads s s' :=
  let ⟨_, hn⟩ := h
  let ⟨_, hk⟩ := h'
  ⟨_, hn.trans hk⟩

theorem Leads.fails {s₁ : Spot} (h : w.Leads s s₁) (h' : w.Fails s₁ c) : w.Fails s c :=
  let ⟨_, hn⟩ := h
  let ⟨_, s', hk, hs'⟩ := h'
  ⟨_, s', hn.trans hk, hs'⟩

theorem Leads.lasts {s₁ : Spot} {n : Nat} (h : w.Leads s s₁) (h' : w.Lasts n s₁) :
    w.Lasts n s := by
  obtain ⟨k, hk⟩ := h
  obtain ⟨k', s', hn, hk'⟩ := h'
  exact ⟨k + k', s', by omega, hk.trans hk'⟩

theorem Hop.lasts {s₁ : Spot} {n : Nat} (h : w.Hop s s₁) (h' : w.Lasts n s₁) :
    w.Lasts (n + 1) s := by
  obtain ⟨k, s', hn, hk⟩ := h'
  exact ⟨k + 1, s', by omega, .hop h hk⟩

theorem Faults.fails (h : w.Faults s c) : w.Fails s c := ⟨0, s, .here s, h⟩

theorem Lasts.mono {n k : Nat} (h : w.Lasts n s) (hk : k ≤ n) : w.Lasts k s := by
  obtain ⟨j, s', hj, hpath⟩ := h
  exact ⟨j, s', Nat.le_trans hk hj, hpath⟩

end Site

/-- So many steps of a program, none of which faults. -/
def Program.Steps (p : Program) : Nat → Machine → Machine → Prop
  | 0, m, m' => m' = m
  | n + 1, m, m' => ∃ m₁, Exec.step p m = .ok () m₁ ∧ p.Steps n m₁ m'

namespace Site

open Exec

variable {w : Site} {s s' : Spot} {c : Nat}

theorem Path.steps {n : Nat} (h : w.Path n s s') {m : Machine} (hm : w.Stands s m) :
    ∃ m', w.program.Steps n m m' ∧ w.Stands s' m' := by
  induction h generalizing m with
  | here => exact ⟨m, rfl, hm⟩
  | hop hhop _ ih =>
    obtain ⟨m₁, hstep, hm₁⟩ := hhop m hm
    obtain ⟨m', hsteps, hm'⟩ := ih hm₁
    exact ⟨m', ⟨m₁, hstep, hsteps⟩, hm'⟩

theorem Path.cut {n k : Nat} (h : w.Path n s s') (hk : k ≤ n) : ∃ s₁, w.Path k s s₁ := by
  induction h generalizing k with
  | here => exact ⟨_, by simpa [Nat.le_zero.mp hk] using Path.here _⟩
  | hop hhop _ ih =>
    match k with
    | 0 => exact ⟨_, .here _⟩
    | k + 1 =>
      obtain ⟨s₁, hs₁⟩ := ih (Nat.le_of_succ_le_succ hk)
      exact ⟨s₁, .hop hhop hs₁⟩

/-! ## One step -/

theorem Stands.retrace {m : Machine} (h : w.Stands s m) (e : Machine → TraceEvent) :
    w.Stands s (if m.events.isSome then m.log (e m) else m) := by
  unfold Machine.log
  split
  · split
    · exact h
    · exact ⟨h.halted, h.stopping, h.globals, h.frames⟩
  · exact h

theorem step_eq {i : Instr} (hi : w.instrAt s = some i) {m : Machine} (hm : w.Stands s m) :
    ∃ m₁, w.Stands { s with ip := s.ip + 1 } m₁ ∧ m₁.heap = m.heap ∧
      Exec.step w.program m = marking (instr w.program w.linked i) m₁ := by
  obtain ⟨hhalted, hstopping, hglobals, f, hframes, hf⟩ := hm
  have hinstr : f.instr? = some i := by
    unfold Frame.instr?
    rw [hf.block, hf.routine, hf.ip]
    exact hi
  have hunit : w.program.units[f.unit]? = some w.linked := by rw [hf.unit, w.found]
  let span : Span := ⟨w.linked.unit.file, i.pos, (i.pos + 1) % 0x100000000⟩
  let m₀ : Machine :=
    { m with
      frames := { f with state := .running, span, ip := f.ip + 1 } :: w.callers
      halted := false
      stopping := false }
  have hm₀ : w.Stands { s with ip := s.ip + 1 } m₀ := by
    refine ⟨rfl, rfl, hglobals, _, rfl, ?_⟩
    exact ⟨hf.unit, hf.routine, hf.block, congrArg (· + 1) hf.ip, hf.operands, hf.locals⟩
  refine ⟨_, hm₀.retrace fun m => .instr m.frames.length f.name f.block f.ip i span, ?_, ?_⟩
  · unfold Machine.log
    split
    · split <;> rfl
    · rfl
  · unfold Exec.step
    rw [get_bind]
    simp only [Bind.bind, hhalted, hstopping, hframes, hinstr, hunit]
    rfl

theorem hop_of {i : Instr} (hi : w.instrAt s = some i)
    (h : Triple (w.Stands { s with ip := s.ip + 1 }) (instr w.program w.linked i)
      (fun _ => w.Stands s') fun _ _ => False) : w.Hop s s' := by
  intro m hm
  obtain ⟨m₁, hm₁, -, hstep⟩ := step_eq hi hm
  have h := h m₁ hm₁
  rw [hstep]
  unfold marking
  cases hx : instr w.program w.linked i m₁ with
  | ok a m' =>
    rw [hx] at h
    exact ⟨m', rfl, h⟩
  | error e m' =>
    rw [hx] at h
    exact h.elim

theorem faults_of {i : Instr} (hi : w.instrAt s = some i)
    (h : Triple (w.Stands { s with ip := s.ip + 1 }) (instr w.program w.linked i)
      (fun _ _ => False) fun e _ => ∃ f, e = .fault f ∧ f.cause.code = c) : w.Faults s c := by
  intro m hm
  obtain ⟨m₁, hm₁, -, hstep⟩ := step_eq hi hm
  have h := h m₁ hm₁
  rw [hstep]
  unfold marking
  cases hx : instr w.program w.linked i m₁ with
  | ok a m' =>
    rw [hx] at h
    exact h.elim
  | error e m' =>
    rw [hx] at h
    obtain ⟨f, rfl, hc⟩ := h
    exact ⟨f, _, rfl, hc⟩

/-! ## Parts of instructions -/

variable {E : Stop → Machine → Prop}

theorem modifyTop_stands {g : Frame → Frame} (hg : ∀ f, w.Fits s f → w.Fits s' (g f))
    (hglobals : s'.globals = s.globals) :
    Triple (w.Stands s) (modifyTop g) (fun _ => w.Stands s') E := by
  refine Triple.modify ?_
  rintro m ⟨hhalted, hstopping, hm, f, hframes, hf⟩
  rw [hframes]
  exact ⟨hhalted, hstopping, hm.trans hglobals.symm, g f, rfl, hg f hf⟩

theorem push_stands (v : Value) :
    Triple (w.Stands s) (push v) (fun _ => w.Stands { s with operands := v :: s.operands }) E := by
  refine modifyTop_stands (fun f hf => ?_) rfl
  exact ⟨hf.unit, hf.routine, hf.block, hf.ip, congrArg (v :: ·) hf.operands, hf.locals⟩

theorem pop_stands {v : Value} {vs : List Value} (hs : s.operands = v :: vs) :
    Triple (w.Stands s) pop (fun x m => w.Stands { s with operands := vs } m ∧ x = v) E := by
  rintro m ⟨hhalted, hstopping, hm, f, hframes, hf⟩
  have hops : f.operands = v :: vs := hf.operands.trans hs
  simp only [pop, hframes, hops]
  refine ⟨⟨hhalted, hstopping, hm, _, rfl, ?_⟩, trivial⟩
  exact ⟨hf.unit, hf.routine, hf.block, hf.ip, rfl, hf.locals⟩

theorem top_stands :
    Triple (w.Stands s) top (fun f m => w.Stands s m ∧ w.Fits s f) E := by
  intro m hm
  obtain ⟨f, hframes, hf⟩ := hm.frames
  rw [top, get_bind, hframes]
  exact ⟨hm, hf⟩

theorem entry_eq {α : Type} {xs : Array α} {n : Nat} {x : α} (hx : xs[n]? = some x) :
    entry xs n = pure x := by
  have hn : ¬(n : Int) < 0 := by omega
  simp [entry, expect, hx, hn]

/-- The place behind an instruction that leaves these operands. -/
def next (s : Spot) (operands : List Value) : Spot := { s with ip := s.ip + 1, operands }

theorem push_next (v : Value) :
    Triple (w.Stands { s with ip := s.ip + 1 }) (push v)
      (fun _ => w.Stands (next s (v :: s.operands))) E :=
  push_stands v

theorem pops_next {v : Value} {vs : List Value} (hs : s.operands = v :: vs) :
    Triple (w.Stands { s with ip := s.ip + 1 }) pop
      (fun x m => w.Stands (next s vs) m ∧ x = v) E :=
  pop_stands hs

theorem pop_next {v : Value} {ops vs : List Value} (hs : ops = v :: vs) :
    Triple (w.Stands (next s ops)) pop (fun x m => w.Stands (next s vs) m ∧ x = v) E :=
  pop_stands (s := next s ops) hs

theorem push_on {ops : List Value} (v : Value) :
    Triple (w.Stands (next s ops)) (push v) (fun _ => w.Stands (next s (v :: ops))) E :=
  push_stands v

/-! ## Instructions -/

variable {n pos : Nat} {x y v : Value} {ops : List Value}

theorem hop_const (hi : w.instrAt s = some ⟨.const, n, 0, pos⟩)
    (hv : w.linked.unit.pool.consts[n]? = some v) : w.Hop s (next s (v :: s.operands)) := by
  refine hop_of hi ?_
  change Triple _ (entry _ _ >>= push) _ _
  rw [entry_eq hv]
  exact push_next v

theorem hop_loadLocal (hi : w.instrAt s = some ⟨.loadLocal, n, 0, pos⟩)
    (hv : s.locals[n]? = some v) : w.Hop s (next s (v :: s.operands)) := by
  refine hop_of hi ?_
  change Triple _ (top >>= fun f => entry f.locals n >>= push) _ _
  refine Triple.bind top_stands fun f => Triple.fact (fun m hm => hm.2) fun hf => ?_
  have hv : f.locals[n]? = some v := hf.locals ▸ hv
  rw [entry_eq hv]
  exact (push_next v).pre fun m hm => hm.1

theorem hop_storeLocal (hi : w.instrAt s = some ⟨.storeLocal, n, 0, pos⟩)
    (hs : s.operands = v :: ops) (hn : n < s.locals.size) :
    w.Hop s { next s ops with locals := s.locals.set! n v } := by
  refine hop_of hi ?_
  change Triple _ (pop >>= fun v => top >>= fun f => discard (entry f.locals n) >>= fun _ =>
    modifyTop fun f => { f with locals := f.locals.set! (n : Int).toNat v }) _ _
  refine Triple.bind (pops_next hs) fun x => Triple.fact (fun m hm => hm.2) ?_
  rintro rfl
  refine Triple.bind (top_stands.pre fun m hm => hm.1) fun f => ?_
  refine Triple.fact (fun m hm => hm.2) fun hf => ?_
  have hsome : f.locals[n]? = some f.locals[n]! := by
    have hlt : n < f.locals.size := by
      rw [hf.locals]
      exact hn
    simp [hlt]
  rw [entry_eq hsome]
  refine Triple.bind (R := fun _ => w.Stands (next s ops)) (Triple.discard (Triple.pure ?_)) fun _ => ?_
  · exact fun m hm => hm.1
  · refine modifyTop_stands (fun f hf => ?_) rfl
    exact ⟨hf.unit, hf.routine, hf.block, hf.ip, hf.operands, by simp [hf.locals, next]⟩

theorem hop_loadGlobal {unit slot : Nat} (hi : w.instrAt s = some ⟨.loadGlobal, n, 0, pos⟩)
    (hn : w.linked.globals[n]? = some (unit, slot))
    (hv : (s.globals[unit]?).bind (·[slot]?) = some v) : w.Hop s (next s (v :: s.operands)) := by
  refine hop_of hi ?_
  change Triple _ (entry w.linked.globals n >>= fun place => get >>= fun m =>
    expect ((m.globals[place.1]?).bind (·[place.2]?)) >>= push) _ _
  rw [entry_eq hn]
  refine Triple.bind (R := fun a m => a = (unit, slot) ∧ w.Stands { s with ip := s.ip + 1 } m)
    (Triple.pure fun m hm => ⟨rfl, hm⟩) ?_
  rintro ⟨unit', slot'⟩
  refine Triple.fact (fun m hm => hm.1) fun heq => ?_
  cases heq
  refine Triple.bind Triple.get fun m₁ => ?_
  refine Triple.fact (p := m₁.globals = s.globals) ?_ fun hm₁ => ?_
  · rintro m ⟨rfl, -, hm⟩
    exact hm.globals
  · rw [hm₁, hv]
    exact (push_next v).pre fun m hm => hm.2.2

theorem hop_storeGlobal {unit slot : Nat} (hi : w.instrAt s = some ⟨.storeGlobal, n, 0, pos⟩)
    (hn : w.linked.globals[n]? = some (unit, slot)) (hs : s.operands = v :: ops) :
    w.Hop s { next s ops with globals := s.globals.modify unit (·.set! slot v) } := by
  refine hop_of hi ?_
  change Triple _ (entry w.linked.globals n >>= fun place => pop >>= fun v =>
    modify fun m => { m with globals := m.globals.modify place.1 (·.set! place.2 v) }) _ _
  rw [entry_eq hn]
  refine Triple.bind (R := fun a m => a = (unit, slot) ∧ w.Stands { s with ip := s.ip + 1 } m)
    (Triple.pure fun m hm => ⟨rfl, hm⟩) ?_
  rintro ⟨unit', slot'⟩
  refine Triple.fact (fun m hm => hm.1) fun heq => ?_
  cases heq
  refine Triple.bind ((pops_next hs).pre fun m hm => hm.2) fun x => ?_
  refine Triple.modify ?_
  rintro m ⟨hm, rfl⟩
  obtain ⟨hhalted, hstopping, hglobals, f, hframes, hf⟩ := hm
  refine ⟨hhalted, hstopping, ?_, f, hframes, ?_⟩
  · exact congrArg (·.modify unit (·.set! slot x)) hglobals
  · exact ⟨hf.unit, hf.routine, hf.block, hf.ip, hf.operands, hf.locals⟩

theorem instr_binary {op : Op} {a b : Int} {f : Value → Value → Value.Outcome}
    (hf : op.binary? = some f) : instr w.program w.linked ⟨op, a, b, pos⟩ =
      (pop >>= fun y => pop >>= fun x => check (f x y) >>= push) := by
  unfold instr
  simp only [hf]

/-- Two operands on the stack are given to an operator. -/
theorem operands_binary {E : Stop → Machine → Prop} {Q : Unit → Machine → Prop}
    {f : Value → Value → Exec Unit} (hs : s.operands = y :: x :: ops)
    (hf : Triple (w.Stands (next s ops)) (f x y) Q E) :
    Triple (w.Stands { s with ip := s.ip + 1 }) (pop >>= fun y => pop >>= fun x => f x y) Q E := by
  refine Triple.bind (pops_next hs) fun y' => Triple.fact (fun m hm => hm.2) ?_
  rintro rfl
  refine Triple.bind ((pop_next rfl).pre fun m hm => hm.1) fun x' => ?_
  refine Triple.fact (fun m hm => hm.2) ?_
  rintro rfl
  exact hf.pre fun m hm => hm.1

theorem hop_binary {op : Op} {f : Value → Value → Value.Outcome} (hf : op.binary? = some f)
    (hi : w.instrAt s = some ⟨op, 0, 0, pos⟩) (hs : s.operands = y :: x :: ops)
    (hv : f x y = .ok v) : w.Hop s (next s (v :: ops)) := by
  refine hop_of hi ?_
  rw [instr_binary hf]
  refine operands_binary hs ?_
  rw [hv]
  exact push_on v

theorem check_error {e : ArithmeticError} {P : Machine → Prop} {Q : Value → Machine → Prop} :
    Triple P (check (.error e)) Q fun e' _ => ∃ f, e' = .fault f ∧ f.cause.code = e.cause.code := by
  cases e <;> exact Triple.raise fun m _ => ⟨_, rfl, rfl⟩

theorem faults_binary {op : Op} {f : Value → Value → Value.Outcome} (hf : op.binary? = some f)
    (hi : w.instrAt s = some ⟨op, 0, 0, pos⟩) (hs : s.operands = y :: x :: ops)
    {e : ArithmeticError} (he : f x y = .error e) : w.Faults s e.cause.code := by
  refine faults_of hi ?_
  rw [instr_binary hf]
  refine operands_binary hs ?_
  rw [he]
  exact Triple.bind (R := fun _ _ => False) check_error fun _ _ h => h.elim

theorem instr_unary {op : Op} {a b : Int} {f : Value → Value.Outcome} (hop : op.binary? = none)
    (hf : op.unary? = some f) : instr w.program w.linked ⟨op, a, b, pos⟩ =
      (pop >>= fun x => check (f x) >>= push) := by
  unfold instr
  simp only [hop, hf]

theorem operand_unary {E : Stop → Machine → Prop} {Q : Unit → Machine → Prop}
    {f : Value → Exec Unit} (hs : s.operands = x :: ops)
    (hf : Triple (w.Stands (next s ops)) (f x) Q E) :
    Triple (w.Stands { s with ip := s.ip + 1 }) (pop >>= f) Q E := by
  refine Triple.bind (pops_next hs) fun x' => Triple.fact (fun m hm => hm.2) ?_
  rintro rfl
  exact hf.pre fun m hm => hm.1

theorem hop_unary {op : Op} {f : Value → Value.Outcome} (hop : op.binary? = none)
    (hf : op.unary? = some f) (hi : w.instrAt s = some ⟨op, 0, 0, pos⟩)
    (hs : s.operands = x :: ops) (hv : f x = .ok v) : w.Hop s (next s (v :: ops)) := by
  refine hop_of hi ?_
  rw [instr_unary hop hf]
  refine operand_unary hs ?_
  rw [hv]
  exact push_on v

theorem faults_unary {op : Op} {f : Value → Value.Outcome} (hop : op.binary? = none)
    (hf : op.unary? = some f) (hi : w.instrAt s = some ⟨op, 0, 0, pos⟩)
    (hs : s.operands = x :: ops) {e : ArithmeticError} (he : f x = .error e) :
    w.Faults s e.cause.code := by
  refine faults_of hi ?_
  rw [instr_unary hop hf]
  refine operand_unary hs ?_
  rw [he]
  exact Triple.bind (R := fun _ _ => False) check_error fun _ _ h => h.elim

theorem hop_relation {op : Op} {f : Value → Value → Bool} (hop : op.binary? = none)
    (hop' : op.unary? = none) (hf : op.relation? = some f)
    (hi : w.instrAt s = some ⟨op, 0, 0, pos⟩) (hs : s.operands = y :: x :: ops) :
    w.Hop s (next s (.ofBool (f x y) :: ops)) := by
  refine hop_of hi ?_
  have hinstr : instr w.program w.linked ⟨op, 0, 0, pos⟩ =
      (pop >>= fun y => pop >>= fun x => push (.ofBool (f x y))) := by
    unfold instr
    simp only [hop, hop', hf]
  rw [hinstr]
  exact operands_binary hs (push_on _)

theorem hop_dup (hi : w.instrAt s = some ⟨.dup, 0, 0, pos⟩) (hs : s.operands = x :: ops) :
    w.Hop s (next s (x :: x :: ops)) := by
  refine hop_of hi ?_
  change Triple _ ((top >>= fun f => expect f.operands.head?) >>= push) _ _
  refine Triple.bind (R := fun v m => w.Stands { s with ip := s.ip + 1 } m ∧ v = x) ?_ fun v => ?_
  · refine Triple.bind top_stands fun f => Triple.fact (fun m hm => hm.2) fun hf => ?_
    have hops : f.operands = x :: ops := hf.operands.trans hs
    rw [hops]
    exact Triple.pure fun m hm => ⟨hm.1, rfl⟩
  · refine Triple.fact (fun m hm => hm.2) ?_
    rintro rfl
    rw [← hs]
    exact (push_next v).pre fun m hm => hm.1

theorem hop_pop (hi : w.instrAt s = some ⟨.pop, 0, 0, pos⟩) (hs : s.operands = x :: ops) :
    w.Hop s (next s ops) := by
  refine hop_of hi ?_
  change Triple _ (discard pop) _ _
  exact Triple.discard ((pops_next hs).post fun _ m hm => hm.1)

theorem hop_convert {f : Value → Value} {op : Op}
    (hinstr : instr w.program w.linked ⟨op, 0, 0, pos⟩ = (pop >>= fun x => push (f x)))
    (hi : w.instrAt s = some ⟨op, 0, 0, pos⟩) (hs : s.operands = x :: ops) :
    w.Hop s (next s (f x :: ops)) := by
  refine hop_of hi ?_
  rw [hinstr]
  exact operand_unary hs (push_on _)

/-- The start of a block. -/
def start (s : Spot) (block : Nat) (operands : List Value) : Spot := { s with block, ip := 0, operands }

theorem jump_stands {E : Stop → Machine → Prop} (block : Nat) :
    Triple (w.Stands (next s ops)) (modifyTop ({ · with block := block, ip := 0 }))
      (fun _ => w.Stands (start s block ops)) E := by
  refine modifyTop_stands (fun f hf => ?_) rfl
  exact ⟨hf.unit, hf.routine, rfl, rfl, hf.operands, hf.locals⟩

theorem hop_jump (hi : w.instrAt s = some ⟨.jump, n, 0, pos⟩) :
    w.Hop s (start s n s.operands) :=
  hop_of hi (jump_stands n)

theorem hop_branch {yes no : Nat} (hi : w.instrAt s = some ⟨.branch, yes, no, pos⟩)
    (hs : s.operands = x :: ops) : w.Hop s (start s (if x.isTrue then yes else no) ops) := by
  refine hop_of hi ?_
  change Triple _ (pop >>= fun v => if v.isTrue then
      modifyTop ({ · with block := (yes : Int), ip := 0 })
    else modifyTop ({ · with block := (no : Int), ip := 0 })) _ _
  refine operand_unary hs ?_
  cases x.isTrue with
  | true => exact jump_stands yes
  | false => exact jump_stands no

end Site

end Pascaline
