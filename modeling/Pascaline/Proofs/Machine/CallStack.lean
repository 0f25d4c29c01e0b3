import Pascaline.Proofs.Machine.Spending

/-!
# How a step changes the stack

A step that goes on changes the top frame and no other, or suspends it and puts one on top of it, or
takes it off and hands its result to the frame below, which it does for a return only. The entry
routines that wait are touched only when the stack is empty, or when the run is halted.
-/

namespace Pascaline

/-! ## Stacks -/

/-- Two stacks of the same routines. -/
def SameRoutines : List Frame → List Frame → Prop :=
  List.Forall₂ fun f g => g.unit = f.unit ∧ g.routine = f.routine

theorem SameRoutines.refl (fs : List Frame) : SameRoutines fs fs := by
  induction fs with
  | nil => exact .nil
  | cons f fs ih => exact .cons ⟨rfl, rfl⟩ ih

/-- Two stacks that differ at most in the top frame, which is of the same routine. -/
inductive SameTop : List Frame → List Frame → Prop where
  | nil : SameTop [] []
  | top {f g : Frame} {rest : List Frame} (hunit : g.unit = f.unit)
      (hroutine : g.routine = f.routine) : SameTop (f :: rest) (g :: rest)

theorem SameTop.refl (fs : List Frame) : SameTop fs fs := by
  cases fs with
  | nil => exact .nil
  | cons f fs => exact .top rfl rfl

theorem SameTop.trans {fs gs hs : List Frame} (h : SameTop fs gs) (h' : SameTop gs hs) :
    SameTop fs hs := by
  cases h with
  | nil => exact h'
  | top hunit hroutine =>
    cases h' with
    | top hunit' hroutine' => exact .top (hunit'.trans hunit) (hroutine'.trans hroutine)

theorem SameTop.sameRoutines {fs gs : List Frame} (h : SameTop fs gs) : SameRoutines fs gs := by
  cases h with
  | nil => exact .nil
  | @top f g rest hunit hroutine => exact .cons ⟨hunit, hroutine⟩ (SameRoutines.refl rest)

theorem SameTop.modifyHead {f : Frame → Frame} (hunit : ∀ g, (f g).unit = g.unit)
    (hroutine : ∀ g, (f g).routine = g.routine) (fs : List Frame) :
    SameTop fs (fs.modifyHead f) := by
  cases fs with
  | nil => exact .nil
  | cons g fs => exact .top (hunit g) (hroutine g)

namespace Frame

/-- The frame when it fetches its next instruction. -/
def fetch (f : Frame) (span : Span) : Frame :=
  { f with state := .running, span, ip := f.ip + 1 }

/-- A caller while its callee runs: the operands that the call takes are gone. -/
def suspend (f : Frame) (taken : Nat) : Frame :=
  { f with state := .suspended, operands := f.operands.drop taken }

/-- A caller when its callee has returned. -/
def resume (f : Frame) (result : Option Value) : Frame :=
  { f with state := .running, operands := result.toList ++ f.operands }

/-- What a frame hands to its caller by this instruction: the value of its result slot if the
instruction says so, and otherwise nothing. -/
inductive Hands (f : Frame) (i : Instr) : Option Value → Prop where
  | nothing (h : i.a ≠ 1) : Hands f i none
  | value {v : Value} (h : i.a = 1) (hslot : 0 ≤ f.routine.result)
      (hv : f.locals[f.routine.result.toNat]? = some v) : Hands f i (some v)

/-- A frame of the same routine, at the same place and with the same in its slots. -/
structure Alike (f g : Frame) : Prop where
  unit : g.unit = f.unit
  routine : g.routine = f.routine
  block : g.block = f.block
  ip : g.ip = f.ip
  locals : g.locals = f.locals

theorem Alike.refl (f : Frame) : f.Alike f := ⟨rfl, rfl, rfl, rfl, rfl⟩

theorem Alike.trans {f g h : Frame} (hfg : f.Alike g) (hgh : g.Alike h) : f.Alike h :=
  ⟨hgh.unit.trans hfg.unit, hgh.routine.trans hfg.routine, hgh.block.trans hfg.block,
    hgh.ip.trans hfg.ip, hgh.locals.trans hfg.locals⟩

/-- What an instruction that neither calls nor returns makes of the frame that has fetched it, but
for the operands. -/
structure Moves (i : Instr) (f g : Frame) : Prop where
  unit : g.unit = f.unit
  routine : g.routine = f.routine
  locals : g.locals = f.locals ∨ i.op = .storeLocal ∧ ∃ v, g.locals = f.locals.set! i.a.toNat v
  place : g.block = f.block ∧ g.ip = f.ip ∨
    g.ip = 0 ∧ (i.op = .jump ∧ g.block = i.a ∨ i.op = .branch ∧ (g.block = i.a ∨ g.block = i.b))

theorem Alike.moves {f g : Frame} (h : f.Alike g) (i : Instr) : Moves i f g :=
  ⟨h.unit, h.routine, .inl h.locals, .inl ⟨h.block, h.ip⟩⟩

/-- The frame is at the beginning of a routine. -/
structure Begins (f : Frame) (c : Callee) : Prop where
  unit : f.unit = c.unit
  routine : f.routine = c.routine
  block : f.block = 0
  ip : f.ip = 0
  operands : f.operands = []

/-- The frame is at the beginning of an entry routine. -/
structure Starts (p : Program) (f : Frame) (e : Program.EntryPoint) : Prop where
  callee : e.callee? p = some ⟨f.unit, e.index, f.routine⟩
  block : f.block = 0
  ip : f.ip = 0
  operands : f.operands = []

end Frame

/-- Two stacks that differ at most in the top frame, and in it as `K` says. -/
inductive OnTop (K : Frame → Frame → Prop) : List Frame → List Frame → Prop where
  | nil : OnTop K [] []
  | top {f g : Frame} {rest : List Frame} (h : K f g) : OnTop K (f :: rest) (g :: rest)

namespace OnTop

variable {K L : Frame → Frame → Prop} {fs gs hs : List Frame}

theorem mono (h : OnTop K fs gs) (hK : ∀ f g, K f g → L f g) : OnTop L fs gs := by
  cases h with
  | nil => exact .nil
  | top h => exact .top (hK _ _ h)

theorem alike_trans (h : OnTop Frame.Alike fs gs) (h' : OnTop K gs hs)
    (hK : ∀ f g h, Frame.Alike f g → K g h → K f h) : OnTop K fs hs := by
  cases h with
  | nil => exact h'
  | top h =>
    cases h' with
    | top h' => exact .top (hK _ _ _ h h')

theorem of_eq (h : fs = gs) (hK : ∀ f, K f f) : OnTop K fs gs := by
  subst h
  cases fs with
  | nil => exact .nil
  | cons f fs => exact .top (hK f)

theorem modifyHead {f : Frame → Frame} (hf : ∀ g, K g (f g)) (fs : List Frame) :
    OnTop K fs (fs.modifyHead f) := by
  cases fs with
  | nil => exact .nil
  | cons g fs => exact .top (hf g)

theorem sameTop (h : OnTop K fs gs)
    (hK : ∀ f g, K f g → g.unit = f.unit ∧ g.routine = f.routine) : SameTop fs gs := by
  cases h with
  | nil => exact .nil
  | top h => exact .top (hK _ _ h).1 (hK _ _ h).2

end OnTop

/-- The operations that put a frame on the stack. -/
def Op.routineCalls : List Op := [.call, .callVirtual, .callIndirect]

/-- How many operands a call takes: the arguments, and the routine value if there is one. -/
def Instr.taken (i : Instr) : Nat := if i.op = .callIndirect then i.b.toNat + 1 else i.b.toNat

namespace Exec

variable {α β : Type}

/-! ## Parts of instructions -/

/-- If `x` goes on, it relates the stack before to the stack after; it neither halts the run nor
touches the entry routines that wait. -/
def Reshapes (x : Exec α) (R : List Frame → List Frame → Prop) : Prop :=
  ∀ m a m', x m = .ok a m' →
    m'.pending = m.pending ∧ m'.halted = m.halted ∧ R m.frames m'.frames

theorem Reshapes.bind {x : Exec α} {f : α → Exec β} {R S T : List Frame → List Frame → Prop}
    (hx : Reshapes x R) (hf : ∀ a, Reshapes (f a) S)
    (hT : ∀ {fs gs hs}, R fs gs → S gs hs → T fs hs) : Reshapes (x >>= f) T := by
  intro m b m'' h
  simp only [Bind.bind, EStateM.bind] at h
  cases hxm : x m with
  | error e m' =>
    rw [hxm] at h
    cases h
  | ok a m' =>
    rw [hxm] at h
    obtain ⟨hp, hh, hR⟩ := hx m a m' hxm
    obtain ⟨hp', hh', hS⟩ := hf a m' b m'' h
    exact ⟨hp'.trans hp, hh'.trans hh, hT hR hS⟩

theorem Reshapes.ite {c : Prop} [Decidable c] {x y : Exec α} {R : List Frame → List Frame → Prop}
    (hx : Reshapes x R) (hy : Reshapes y R) : Reshapes (if c then x else y) R := by
  split
  · exact hx
  · exact hy

theorem reshapes_raise (cause : FaultCause) (R : List Frame → List Frame → Prop) :
    Reshapes (raise cause : Exec α) R := by
  intro m a m' h
  cases h

theorem reshapes_breakdown (R : List Frame → List Frame → Prop) :
    Reshapes (breakdown : Exec α) R := by
  intro m a m' h
  cases h

theorem Reshapes.mono {x : Exec α} {R S : List Frame → List Frame → Prop} (hx : Reshapes x R)
    (hR : ∀ fs gs, R fs gs → S fs gs) : Reshapes x S := by
  intro m a m' h
  obtain ⟨hp, hh, hfs⟩ := hx m a m' h
  exact ⟨hp, hh, hR _ _ hfs⟩

theorem reshapes_stop (cause : FaultCause) (f : α → Exec β) {R : List Frame → List Frame → Prop} :
    Reshapes (raise cause >>= f) R := by
  intro m a m' h
  cases h

/-- The stack stays as it is. -/
def Idle (x : Exec α) : Prop := Reshapes x Eq

theorem Looks.idle {x : Exec α} (hx : Looks x) : Idle x := by
  intro m a m' h
  rcases hx m with ⟨b, hb⟩ | ⟨e, he⟩
  · rw [hb] at h
    cases h
    exact ⟨rfl, rfl, rfl⟩
  · rw [he] at h
    cases h

theorem Idle.bind {x : Exec α} {f : α → Exec β} (hx : Idle x) (hf : ∀ a, Idle (f a)) :
    Idle (x >>= f) :=
  Reshapes.bind hx hf Eq.trans

theorem Idle.before {x : Exec α} {f : α → Exec β} {R : List Frame → List Frame → Prop}
    (hx : Idle x) (hf : ∀ a, Reshapes (f a) R) : Reshapes (x >>= f) R :=
  Reshapes.bind hx hf fun h h' => h ▸ h'

theorem idle_modify {f : Machine → Machine} (hp : ∀ m, (f m).pending = m.pending)
    (hh : ∀ m, (f m).halted = m.halted) (hf : ∀ m, (f m).frames = m.frames) :
    Idle (modify f) := by
  intro m a m' h
  cases h
  exact ⟨hp m, hh m, (hf m).symm⟩

theorem idle_log (e : Machine → TraceEvent) : Idle (log e) := by
  intro m a m' h
  cases h
  dsimp only
  unfold Machine.log
  split
  · split
    · exact ⟨rfl, rfl, rfl⟩
    · exact ⟨rfl, rfl, rfl⟩
  · exact ⟨rfl, rfl, rfl⟩

theorem idle_collect : Idle collect := by
  refine Looks.get.idle.bind fun m => Idle.bind ?_ fun _ => idle_log _
  exact idle_modify (fun _ => rfl) (fun _ => rfl) fun _ => rfl

theorem idle_reserve (words : Int) : Idle (reserve words) := by
  unfold reserve
  refine .ite (Looks.pure _).idle (Looks.get.idle.bind fun m => ?_)
  refine .ite (Looks.pure _).idle (idle_collect.bind fun _ => Looks.get.idle.bind fun m => ?_)
  refine .ite (Looks.get.idle.bind fun m => ?_) (Looks.pure _).idle
  exact reshapes_raise _ _

theorem idle_alloc (kind : CellKind) (n : Int) : Idle (alloc kind n) := by
  -- the allocation stands behind the check and in place of it
  refine .ite (Idle.bind (reshapes_breakdown _) fun _ => ?_) ?_
  all_goals
    refine Idle.bind (fun m h m' hm => ?_) fun h => (idle_log _).bind fun _ => (Looks.pure _).idle
    cases hm
    exact ⟨rfl, rfl, rfl⟩

theorem idle_fill {x : Exec Value} (hx : Idle x) (n : Nat) (vs : Array Value) :
    Idle (fill x n vs) := by
  induction n generalizing vs with
  | zero => exact (Looks.pure vs).idle
  | succ n ih => exact hx.bind fun v => ih (vs.push v)

theorem idle_zero (s : Shape) : Idle (zero s) := by
  induction s with
  | array n e ih =>
    refine (idle_alloc _ _).bind fun h => (idle_fill ih _ _).bind fun elems => ?_
    refine Idle.bind ?_ fun _ => (Looks.pure _).idle
    exact idle_modify (fun _ => rfl) (fun _ => rfl) fun _ => rfl
  | hollow n => exact reshapes_raise _ _
  | _ => exact (Looks.pure _).idle

theorem idle_zeroAll (ss : List Shape) : Idle (zeroAll ss) := by
  induction ss with
  | nil => exact (Looks.pure _).idle
  | cons s ss ih =>
    exact (idle_zero s).bind fun v => ih.bind fun vs => (Looks.pure _).idle

/-! ## Parts that change the top frame -/

theorem reshapes_modifyTop (f : Frame → Frame) :
    Reshapes (modifyTop f) fun fs gs => gs = fs.modifyHead f := by
  intro m a m' h
  cases h
  dsimp only
  split
  case h_1 g rest hframes =>
    rw [hframes]
    exact ⟨rfl, rfl, rfl⟩
  case h_2 hframes =>
    rw [hframes]
    exact ⟨rfl, rfl, rfl⟩

/-- The top frame may change, but not its routine. -/
def Steady (x : Exec α) : Prop := Reshapes x SameTop

theorem Idle.steady {x : Exec α} (hx : Idle x) : Steady x := by
  intro m a m' h
  obtain ⟨hp, hh, heq⟩ := hx m a m' h
  exact ⟨hp, hh, heq ▸ .refl _⟩

theorem Looks.steady {x : Exec α} (hx : Looks x) : Steady x := hx.idle.steady

theorem Steady.bind {x : Exec α} {f : α → Exec β} (hx : Steady x) (hf : ∀ a, Steady (f a)) :
    Steady (x >>= f) :=
  Reshapes.bind hx hf SameTop.trans

theorem steady_aside {f : Machine → Machine} (hp : ∀ m, (f m).pending = m.pending)
    (hh : ∀ m, (f m).halted = m.halted) (hf : ∀ m, (f m).frames = m.frames) :
    Steady (modify f) :=
  (idle_modify hp hh hf).steady

/-- The top frame may get other operands, and nothing else. -/
def Calm (x : Exec α) : Prop := Reshapes x (OnTop Frame.Alike)

theorem Idle.calm {x : Exec α} (hx : Idle x) : Calm x :=
  hx.mono fun _ _ h => .of_eq h Frame.Alike.refl

theorem Looks.calm {x : Exec α} (hx : Looks x) : Calm x := hx.idle.calm

theorem Calm.bind {x : Exec α} {f : α → Exec β} (hx : Calm x) (hf : ∀ a, Calm (f a)) :
    Calm (x >>= f) :=
  Reshapes.bind hx hf fun h h' => h.alike_trans h' fun _ _ _ => Frame.Alike.trans

theorem calm_aside {f : Machine → Machine} (hp : ∀ m, (f m).pending = m.pending)
    (hh : ∀ m, (f m).halted = m.halted) (hf : ∀ m, (f m).frames = m.frames) :
    Calm (modify f) :=
  (idle_modify hp hh hf).calm

theorem calm_modifyTop {f : Frame → Frame} (hf : ∀ g, Frame.Alike g (f g)) : Calm (modifyTop f) := by
  intro m a m' h
  obtain ⟨hp, hh, hfs⟩ := reshapes_modifyTop f m a m' h
  exact ⟨hp, hh, hfs ▸ .modifyHead hf _⟩

theorem calm_push (v : Value) : Calm (push v) := calm_modifyTop fun _ => ⟨rfl, rfl, rfl, rfl, rfl⟩

theorem calm_pop : Calm pop := by
  intro m v m' h
  unfold pop at h
  split at h
  · split at h
    · cases h
      rename_i g rest hframes _ _ _
      exact ⟨rfl, rfl, by rw [hframes]; exact .top ⟨rfl, rfl, rfl, rfl, rfl⟩⟩
    · cases h
  · cases h

theorem reshapes_popMany (n : Int) : Reshapes (popMany n) fun fs gs =>
    gs = fs.modifyHead fun f => { f with operands := f.operands.drop n.toNat } := by
  refine Looks.top.idle.before fun f => .ite (reshapes_breakdown _) ?_
  exact Reshapes.bind (reshapes_modifyTop _) (fun _ => (Looks.pure _).idle) fun h h' => h' ▸ h

theorem calm_popMany (n : Int) : Calm (popMany n) := by
  refine (reshapes_popMany n).mono ?_
  rintro fs _ rfl
  apply OnTop.modifyHead
  exact fun _ => ⟨rfl, rfl, rfl, rfl, rfl⟩

theorem calm_discard {x : Exec α} (hx : Calm x) : Calm (discard x) := by
  intro m a m' h
  simp only [Functor.discard, Functor.mapConst, EStateM.map, Function.comp] at h
  split at h
  case h_1 b m₁ hb =>
    cases h
    exact hx m b m' hb
  case h_2 => cases h

/-! ## Instructions that keep the stack -/

theorem calm_write (h : Handle) (k : Nat) (v : Value) :
    Calm (modify fun m => { m with heap := m.heap.write h k v }) :=
  calm_aside (fun _ => rfl) (fun _ => rfl) fun _ => rfl

theorem calm_access (u : LinkedUnit) {i : Instr} (hop : i.op ≠ .storeLocal) : Calm (access u i) := by
  unfold access
  split
  case h_1 => exact Looks.top.calm.bind fun f => (looks_entry _ _).calm.bind calm_push
  case h_2 hstore => exact absurd hstore hop
  case h_3 =>
    refine (looks_entry _ _).calm.bind fun place => Looks.get.calm.bind fun m => ?_
    exact (Looks.expect _).calm.bind calm_push
  case h_4 =>
    refine (looks_entry _ _).calm.bind fun place => calm_pop.bind fun v => ?_
    exact calm_aside (fun _ => rfl) (fun _ => rfl) fun _ => rfl
  case h_5 =>
    refine calm_pop.bind fun v => (Looks.object _).calm.bind fun c => ?_
    exact (looks_slot _ _).calm.bind fun k => calm_push _
  case h_6 =>
    refine calm_pop.bind fun v => calm_pop.bind fun o => (Looks.object _).calm.bind fun c => ?_
    exact (looks_slot _ _).calm.bind fun k => calm_write _ _ _
  case h_7 =>
    refine calm_pop.bind fun k => calm_pop.bind fun a => (Looks.array _).calm.bind fun c => ?_
    exact (looks_index _ _).calm.bind fun k => calm_push _
  case h_8 =>
    refine calm_pop.bind fun v => calm_pop.bind fun k => calm_pop.bind fun a => ?_
    refine (Looks.array _).calm.bind fun c => (looks_index _ _).calm.bind fun k => ?_
    exact calm_write _ _ _
  case h_9 =>
    refine calm_pop.bind fun k => calm_pop.bind fun v => ?_
    split
    · exact (looks_index _ _).calm.bind fun k => calm_push _
    · exact reshapes_raise _ _
  case h_10 => exact reshapes_raise _ _

theorem calm_allocate (p : Program) (u : LinkedUnit) (i : Instr) : Calm (allocate p u i) := by
  unfold allocate
  split
  case h_1 =>
    refine (looks_entry _ _).calm.bind fun k => (Looks.expect _).calm.bind fun c => ?_
    refine (idle_reserve _).calm.bind fun _ => (idle_alloc _ _).calm.bind fun h => ?_
    refine (idle_zeroAll _).calm.bind fun fields => Calm.bind ?_ fun _ => calm_push _
    exact calm_aside (fun _ => rfl) (fun _ => rfl) fun _ => rfl
  case h_2 =>
    exact Looks.peek.calm.bind fun v => calm_aside (fun _ => rfl) (fun _ => rfl) fun _ => rfl
  case h_3 =>
    have hmake : ∀ (n : Int) (elem : Shape), Calm (do
        reserve (Shape.array n elem).words
        discard pop
        push (← zero (Shape.array n elem))) := by
      intro n elem
      refine (idle_reserve _).calm.bind fun _ => (calm_discard calm_pop).bind fun _ => ?_
      exact (idle_zero _).calm.bind calm_push
    refine (looks_entry _ _).calm.bind fun elem => Looks.peek.calm.bind fun v => ?_
    split
    · dsimp only
      refine .ite (Calm.bind (reshapes_raise _ _) fun _ => ?_) ?_
      all_goals
        refine Looks.get.calm.bind fun m => ?_
        exact .ite (Calm.bind (reshapes_raise _ _) fun _ => hmake _ _) (hmake _ _)
    · exact reshapes_raise _ _
  case h_4 =>
    refine (looks_entry _ _).calm.bind fun elem => (idle_reserve _).calm.bind fun _ => ?_
    exact (idle_zero _).calm.bind calm_push
  case h_5 => exact reshapes_raise _ _

/-- A step of the frame that has fetched an instruction. -/
def Works (i : Instr) (x : Exec α) : Prop := Reshapes x (OnTop (Frame.Moves i))

theorem Calm.works {x : Exec α} (hx : Calm x) (i : Instr) : Works i x :=
  hx.mono fun _ _ h => h.mono fun _ _ h => h.moves i

theorem Calm.then_works {x : Exec α} {f : α → Exec β} {i : Instr} (hx : Calm x)
    (hf : ∀ a, Works i (f a)) : Works i (x >>= f) := by
  refine Reshapes.bind hx hf fun h h' => h.alike_trans h' fun f g h halike hmoves => ?_
  refine ⟨hmoves.unit.trans halike.unit, hmoves.routine.trans halike.routine, ?_, ?_⟩
  · rw [← halike.locals]
    exact hmoves.locals
  · rw [← halike.block, ← halike.ip]
    exact hmoves.place

theorem works_modifyTop {f : Frame → Frame} {i : Instr} (hf : ∀ g, Frame.Moves i g (f g)) :
    Works i (modifyTop f) := by
  intro m a m' h
  obtain ⟨hp, hh, hfs⟩ := reshapes_modifyTop f m a m' h
  exact ⟨hp, hh, hfs ▸ .modifyHead hf _⟩

theorem works_access (u : LinkedUnit) (i : Instr) : Works i (access u i) := by
  by_cases hop : i.op = .storeLocal
  · unfold access
    simp only [hop]
    refine calm_pop.then_works fun v => Looks.top.calm.then_works fun f => ?_
    refine (calm_discard (looks_entry _ _).calm).then_works fun _ => works_modifyTop fun g => ?_
    exact ⟨rfl, rfl, .inr ⟨hop, v, rfl⟩, .inl ⟨rfl, rfl⟩⟩
  · exact (calm_access u hop).works i

/-! ## Calls and returns -/

/-- A new frame of a routine lies on the stack. -/
def Enters (c : Callee) (fs gs : List Frame) : Prop := ∃ g : Frame, g.Begins c ∧ gs = g :: fs

theorem reshapes_enter (p : Program) (c : Callee) (args : List Value) :
    Reshapes (enter p c args) (Enters c) := by
  have hput : ∀ (own : List Value) (name : String) (span : Span), Reshapes (do
      let frame : Frame := { unit := c.unit, name, routine := c.routine,
                             locals := (args ++ own).toArray, span }
      modify fun m => { m with frames := frame :: m.frames }
      log fun m => .enter m.frames.length frame.name) (Enters c) := by
    intro own name span
    refine Reshapes.bind (R := Enters c) ?_ (fun _ => idle_log _) fun h heq => heq ▸ h
    intro m a m' h
    cases h
    exact ⟨rfl, rfl, _, ⟨rfl, rfl, rfl, rfl, rfl⟩, rfl⟩
  have hfill : ∀ m : Machine, Reshapes (do
      let own ← zeroAll (ownShapes c.routine)
      let display := ((p.units[c.unit]?).map (·.unit.display)).getD ""
      let span := (m.frames.head?.map (·.span)).getD ⟨0, 0, 0⟩
      let frame : Frame := { unit := c.unit, name := display ++ "." ++ c.routine.name,
                             routine := c.routine, locals := (args ++ own).toArray, span }
      modify fun m => { m with frames := frame :: m.frames }
      log fun m => .enter m.frames.length frame.name) (Enters c) :=
    fun m => (idle_zeroAll _).before fun own => hput own _ _
  unfold enter
  refine Looks.get.idle.before fun m => ?_
  dsimp only
  refine .ite (reshapes_stop _ _) (.ite (reshapes_stop _ _) (.ite ?_ (hfill m)))
  intro m a m' h
  cases h

/-- A new frame of a routine lies on the one that called it. -/
def Calls (c : Callee) (taken : Nat) (fs gs : List Frame) : Prop :=
  Enters c (fs.modifyHead (·.suspend taken)) gs

theorem reshapes_call (p : Program) (c : Callee) (argc : Int) :
    Reshapes (call p c argc) (Calls c argc.toNat) := by
  have hargs : Reshapes (do
      reserve (← frameWords c.routine)
      let args ← popMany argc
      modifyTop ({ · with state := .suspended })
      enter p c args) (Calls c argc.toNat) := by
    refine (Looks.frameWords _).idle.before fun w => (idle_reserve w).before fun _ => ?_
    refine Reshapes.bind (reshapes_popMany argc) (fun args => Reshapes.bind
      (reshapes_modifyTop _) (fun _ => reshapes_enter p c args) fun h h' => h ▸ h') ?_
    rintro fs _ hs rfl h
    rw [List.modifyHead_modifyHead] at h
    exact h
  unfold call
  refine Looks.get.idle.before fun m => ?_
  dsimp only
  refine .ite (reshapes_stop _ _) (Looks.top.idle.before fun f => ?_)
  exact .ite (reshapes_stop _ _) hargs

/-- What comes after a look at the top frame may go by what it is. -/
theorem reshapes_top {f : Frame → Exec α} {R : List Frame → List Frame → Prop}
    (hf : ∀ t, Reshapes (f t) fun fs gs => fs.head? = some t → R fs gs) :
    Reshapes (top >>= f) R := by
  intro m a m' h
  simp only [Bind.bind, EStateM.bind] at h
  cases hframes : m.frames with
  | nil =>
    have htop : top m = .error .breakdown m := by
      change expect m.frames.head? m = _
      rw [hframes]
      rfl
    rw [htop] at h
    cases h
  | cons t rest =>
    have htop : top m = .ok t m := by
      change expect m.frames.head? m = _
      rw [hframes]
      rfl
    rw [htop] at h
    obtain ⟨hp, hh, hR⟩ := hf t m a m' h
    exact ⟨hp, hh, hframes ▸ hR (by rw [hframes]; rfl)⟩

theorem reshapes_entry {γ : Type} {xs : Array γ} {i : Int} {f : γ → Exec α}
    {R : List Frame → List Frame → Prop}
    (hf : ∀ v, 0 ≤ i → xs[i.toNat]? = some v → Reshapes (f v) R) :
    Reshapes (entry xs i >>= f) R := by
  intro m a m' h
  simp only [Bind.bind, EStateM.bind] at h
  unfold entry at h
  by_cases hi : i < 0
  · rw [if_pos hi] at h
    cases h
  · rw [if_neg hi] at h
    cases hv : xs[i.toNat]? with
    | none =>
      rw [hv] at h
      cases h
    | some v =>
      rw [hv] at h
      exact hf v (by omega) hv m a m' h

/-- The top frame is gone, and what it hands over is with the frame below. -/
def Returns (i : Instr) (fs gs : List Frame) : Prop :=
  ∃ t rest result, fs = t :: rest ∧ t.Hands i result ∧ gs = rest.modifyHead (·.resume result)

theorem reshapes_leave (i : Instr) : Reshapes (leave (i.a = 1)) (Returns i) := by
  have hdrop : ∀ (name : String) (result : Option Value) (k : Exec Unit),
      (Reshapes k fun fs gs => gs = fs.modifyHead fun f =>
        { f with operands := result.toList ++ f.operands }) → Reshapes (do
      log fun m => .leave m.frames.length name result
      modify fun m => { m with frames := m.frames.tail }
      modifyTop ({ · with state := .running })
      k) fun fs gs => gs = fs.tail.modifyHead (·.resume result) := by
    intro name result k hk
    refine (idle_log _).before fun _ => ?_
    refine Reshapes.bind (R := fun fs gs => gs = fs.tail) ?_ (fun _ => Reshapes.bind
      (reshapes_modifyTop _) (fun _ => hk) fun h h' => h ▸ h') ?_
    · intro m a m' h
      cases h
      exact ⟨rfl, rfl, rfl⟩
    · rintro fs _ _ rfl rfl
      rw [List.modifyHead_modifyHead]
      rfl
  unfold leave
  refine reshapes_top fun t => ?_
  refine Reshapes.bind (S := fun fs gs => ∃ result, t.Hands i result ∧
    gs = fs.tail.modifyHead (·.resume result)) (reshapes_modifyTop _) (fun _ => ?_) ?_
  · dsimp only
    split
    case isTrue ha =>
      refine .ite ?_ (reshapes_entry fun v hslot hv m a m' h => ?_)
      · intro m a m' h
        cases h
      · obtain ⟨hp, hh, hgs⟩ := hdrop t.name (some v) (push v) (reshapes_modifyTop _) m a m' h
        exact ⟨hp, hh, some v, .value (of_decide_eq_true ha) hslot hv, hgs⟩
    case isFalse ha =>
      intro m a m' h
      have hnone : Reshapes (pure () : Exec Unit) fun fs gs => gs = fs.modifyHead fun f =>
          { f with operands := (none : Option Value).toList ++ f.operands } := by
        intro m a m' h
        cases h
        refine ⟨rfl, rfl, ?_⟩
        cases m.frames <;> rfl
      obtain ⟨hp, hh, hgs⟩ := hdrop t.name none (pure ()) hnone m a m' h
      exact ⟨hp, hh, none, .nothing (of_decide_eq_false (Bool.eq_false_iff.mpr ha)), hgs⟩
  · rintro fs _ gs rfl ⟨result, hhands, hgs⟩ hhead
    cases fs with
    | nil => cases hhead
    | cons f rest =>
      cases hhead
      exact ⟨t, rest, result, rfl, hhands, hgs⟩

/-! ## Instructions -/

/-- What an instruction may do to the stack. -/
inductive Turn (i : Instr) (fs gs : List Frame) : Prop where
  | stay (hcall : i.op ∉ Op.routineCalls) (hret : i.op ≠ .ret) (h : SameTop fs gs)
  | call (c : Callee) (hop : i.op ∈ Op.routineCalls) (h : Calls c i.taken fs gs)
  | ret (hop : i.op = .ret) (h : Returns i fs gs)

/-- If `x` goes on, it halts the run and leaves no frame, or relates the stack before to the stack
after. -/
def Turns (R : List Frame → List Frame → Prop) (x : Exec α) : Prop :=
  ∀ m a m', x m = .ok a m' → m'.halted = true ∧ m'.frames = [] ∨
    m'.pending = m.pending ∧ m'.halted = m.halted ∧ R m.frames m'.frames

variable {R S T : List Frame → List Frame → Prop} {i : Instr}

theorem Reshapes.turns {x : Exec α} (hx : Reshapes x R) (hR : ∀ fs gs, R fs gs → S fs gs) :
    Turns S x := by
  intro m a m' h
  obtain ⟨hp, hh, hfs⟩ := hx m a m' h
  exact .inr ⟨hp, hh, hR _ _ hfs⟩

theorem Turns.mono {x : Exec α} (hx : Turns R x) (hR : ∀ fs gs, R fs gs → S fs gs) :
    Turns S x := by
  intro m a m' h
  exact (hx m a m' h).imp id fun ⟨hp, hh, hfs⟩ => ⟨hp, hh, hR _ _ hfs⟩

theorem Turns.bind {x : Exec α} {f : α → Exec β} (hx : Reshapes x R) (hf : ∀ a, Turns S (f a))
    (hT : ∀ {fs gs hs}, R fs gs → S gs hs → T fs hs) : Turns T (x >>= f) := by
  intro m b m'' h
  simp only [Bind.bind, EStateM.bind] at h
  cases hxm : x m with
  | error e m' =>
    rw [hxm] at h
    cases h
  | ok a m' =>
    rw [hxm] at h
    obtain ⟨hp, hh, hR⟩ := hx m a m' hxm
    refine (hf a m' b m'' h).imp id fun ⟨hp', hh', hS⟩ => ?_
    exact ⟨hp'.trans hp, hh'.trans hh, hT hR hS⟩

theorem Turns.after {x : Exec α} {f : α → Exec β} (hx : Idle x) (hf : ∀ a, Turns S (f a)) :
    Turns S (x >>= f) :=
  Turns.bind hx hf fun h h' => h ▸ h'

theorem Turns.ite {c : Prop} [Decidable c] {x y : Exec α} (hx : Turns S x) (hy : Turns S y) :
    Turns S (if c then x else y) := by
  split
  · exact hx
  · exact hy

theorem Works.turns {x : Exec α} (hx : Works i x) : Turns (OnTop (Frame.Moves i)) x :=
  Reshapes.turns hx fun _ _ => id

theorem turns_callNative (n : Native) (argc : Int) :
    Turns (OnTop Frame.Alike) (callNative n argc) := by
  unfold callNative
  refine Turns.bind (calm_popMany argc) (fun args => ?_)
    fun h h' => h.alike_trans h' fun _ _ _ => Frame.Alike.trans
  dsimp only
  refine .ite ?_ (Turns.after Looks.get.idle fun m => ?_)
  · intro m a m' h
    cases h
  split
  · intro m a m' h
    cases h
    exact .inl ⟨rfl, rfl⟩
  · exact (reshapes_raise _ _).turns fun _ _ => id
  · exact (reshapes_breakdown _).turns fun _ _ => id
  · refine Turns.after (idle_modify (fun _ => rfl) (fun _ => rfl) fun _ => rfl) fun _ => ?_
    refine Reshapes.turns (Reshapes.ite ?_ (Looks.pure _).calm) fun _ _ => id
    exact calm_push _

/-- All routines that an instruction of the unit may call are such that `P` holds. -/
structure Callable (p : Program) (u : LinkedUnit) (P : Callee → Prop) : Prop where
  calls : ∀ c ∈ u.calls, P c
  methods : ∀ k ∈ p.classes, ∀ c ∈ k.vmt, P c
  values : ∀ name n v i r, p.unit? name = some (n, v) → v.routine? i = some r → P ⟨n, i, r⟩

variable {P : Callee → Prop} {u : LinkedUnit}

theorem Callable.any (p : Program) (u : LinkedUnit) : Callable p u fun _ => True :=
  ⟨fun _ _ => trivial, fun _ _ _ _ => trivial, fun _ _ _ _ _ _ _ => trivial⟩

/-- What comes after a routine was found by its value may go by what it is. -/
theorem Callable.reshapes_routineValue {p : Program} (hu : Callable p u P) {v : Value}
    {f : Callee → Exec α} {R : List Frame → List Frame → Prop} (hf : ∀ c, P c → Reshapes (f c) R) :
    Reshapes (routineValue p v >>= f) R := by
  unfold routineValue
  split
  · exact reshapes_stop _ _
  · rename_i name i _
    cases hn : p.unit? name with
    | none => exact reshapes_stop _ _
    | some nv =>
      obtain ⟨n, v⟩ := nv
      cases hr : v.routine? i.toInt with
      | none =>
        simp only [hr]
        exact reshapes_stop _ _
      | some r =>
        simp only [hr]
        exact hf _ (hu.values _ _ _ _ _ hn hr)
  · exact reshapes_stop _ _

theorem Callable.reshapes_callVirtual {p : Program} (hu : Callable p u P) {i : Instr}
    (hop : i.op = .callVirtual) :
    Reshapes (control p u i) fun fs gs => ∃ c, P c ∧ Calls c i.b.toNat fs gs := by
  unfold control
  simp only [hop]
  refine Looks.top.idle.before fun f => .ite (reshapes_stop _ _) ?_
  refine (Looks.object _).idle.before fun c => ?_
  split
  · exact reshapes_raise _ _
  · rename_i k _
    refine .ite (reshapes_stop _ _) (reshapes_entry fun c _ hc => ?_)
    refine (reshapes_call p c i.b).mono fun _ _ h => ⟨c, ?_, h⟩
    have hmem := Array.mem_of_getElem? hc
    cases hk : p.classes[k]? with
    | none => simp [hk] at hmem
    | some d => exact hu.methods d (Array.mem_of_getElem? hk) c (by simpa [hk] using hmem)

/-- The routine value is taken out from under the arguments before the call takes these. -/
theorem Callable.reshapes_callIndirect {p : Program} (hu : Callable p u P) {i : Instr}
    (hop : i.op = .callIndirect) :
    Reshapes (control p u i) fun fs gs => ∃ c, P c ∧ Calls c (i.b.toNat + 1) fs gs := by
  have hdrop : ∀ vs : List Value, (vs.eraseIdx i.b.toNat).drop i.b.toNat =
      vs.drop (i.b.toNat + 1) := by
    intro vs
    apply List.ext_getElem?
    intro k
    rw [List.getElem?_drop, List.getElem?_drop, List.getElem?_eraseIdx_of_ge (by omega)]
    congr 1
    omega
  have hcall : ∀ v : Value, Reshapes (do
      let target ← routineValue p v
      modifyTop fun f => { f with operands := f.operands.eraseIdx i.b.toNat }
      call p target i.b) fun fs gs => ∃ c, P c ∧ Calls c (i.b.toNat + 1) fs gs := by
    intro v
    refine hu.reshapes_routineValue fun target htarget => ?_
    refine Reshapes.bind (reshapes_modifyTop _) (fun _ => reshapes_call p target _) ?_
    rintro fs _ hs rfl h
    refine ⟨target, htarget, ?_⟩
    unfold Calls Frame.suspend at h ⊢
    rw [List.modifyHead_modifyHead] at h
    simpa only [Function.comp_def, hdrop] using h
  unfold control
  simp only [hop]
  refine Looks.top.idle.before fun f => .ite (reshapes_stop _ _) (.ite ?_ (hcall _))
  intro m a m' h
  cases h

theorem Callable.reshapes_routineCall {p : Program} (hu : Callable p u P) {i : Instr}
    (hop : i.op ∈ Op.routineCalls) :
    Reshapes (control p u i) fun fs gs => ∃ c, P c ∧ Calls c i.taken fs gs := by
  simp only [Op.routineCalls, List.mem_cons, List.not_mem_nil, or_false] at hop
  unfold Instr.taken
  rcases hop with hop | hop | hop
  · rw [if_neg (by simp [hop])]
    unfold control
    simp only [hop]
    refine reshapes_entry fun c _ hc => ?_
    exact (reshapes_call p c i.b).mono fun _ _ h => ⟨c, hu.calls c (Array.mem_of_getElem? hc), h⟩
  · rw [if_neg (by simp [hop])]
    exact hu.reshapes_callVirtual hop
  · rw [if_pos hop]
    exact hu.reshapes_callIndirect hop

theorem reshapes_routineCall (p : Program) (u : LinkedUnit) {i : Instr}
    (hop : i.op ∈ Op.routineCalls) :
    Reshapes (control p u i) fun fs gs => ∃ c, Calls c i.taken fs gs :=
  ((Callable.any p u).reshapes_routineCall hop).mono fun _ _ ⟨c, _, h⟩ => ⟨c, h⟩

theorem turns_control (p : Program) (u : LinkedUnit) {i : Instr} (hcall : i.op ∉ Op.routineCalls)
    (hret : i.op ≠ .ret) : Turns (OnTop (Frame.Moves i)) (control p u i) := by
  have hjump : ∀ block : Int, (i.op = .jump ∧ block = i.a ∨
      i.op = .branch ∧ (block = i.a ∨ block = i.b)) →
      Works i (modifyTop ({ · with block, ip := 0 })) :=
    fun block hblock => works_modifyTop fun _ => ⟨rfl, rfl, .inl rfl, .inr ⟨rfl, hblock⟩⟩
  unfold control
  dsimp only
  split
  case h_1 hop => exact (hjump _ (.inl ⟨hop, rfl⟩)).turns
  case h_2 hop =>
    refine (calm_pop.then_works fun v => ?_).turns
    exact .ite (hjump _ (.inr ⟨hop, .inl rfl⟩)) (hjump _ (.inr ⟨hop, .inr rfl⟩))
  case h_3 hop => exact absurd hop hret
  case h_4 hop | h_5 hop | h_6 hop =>
    rw [hop] at hcall
    exact absurd (by decide) hcall
  case h_7 =>
    refine (Turns.after (looks_entry _ _).idle fun n => turns_callNative n _).mono fun _ _ h => ?_
    exact h.mono fun _ _ h => h.moves i
  case h_8 => exact (reshapes_raise _ _).turns fun _ _ => id

theorem turns_other (p : Program) (u : LinkedUnit) {i : Instr} (hcall : i.op ∉ Op.routineCalls)
    (hret : i.op ≠ .ret) : Turns (OnTop (Frame.Moves i)) (instr p u i) := by
  have hcalm : ∀ x : Exec Unit, Calm x → Turns (OnTop (Frame.Moves i)) x :=
    fun _ hx => (hx.works i).turns
  unfold instr
  split
  case h_1 =>
    refine hcalm _ (calm_pop.bind fun y => calm_pop.bind fun x => ?_)
    exact (looks_check _).calm.bind calm_push
  case h_2 =>
    exact hcalm _ (calm_pop.bind fun x => (looks_check _).calm.bind calm_push)
  case h_3 => exact hcalm _ (calm_pop.bind fun y => calm_pop.bind fun x => calm_push _)
  case h_4 =>
    split
    case h_1 => exact hcalm _ (Looks.pure _).calm
    case h_2 => exact hcalm _ ((looks_entry _ _).calm.bind calm_push)
    case h_3 => exact hcalm _ (calm_discard calm_pop)
    case h_4 => exact hcalm _ (Looks.peek.calm.bind calm_push)
    case h_5 => exact hcalm _ (calm_pop.bind fun v => calm_push _)
    case h_6 =>
      refine hcalm _ (calm_pop.bind fun v => ?_)
      split
      · exact calm_push _
      · exact calm_push _
    case h_7 => exact hcalm _ ((looks_entry _ _).calm.bind fun c => calm_push _)
    case h_21 => exact turns_control p u hcall hret
    case h_17 | h_18 | h_19 | h_20 => exact hcalm _ (calm_allocate p u i)
    all_goals exact (works_access u i).turns

theorem instr_eq_control (p : Program) (u : LinkedUnit) {i : Instr}
    (hop : i.op ∈ .ret :: Op.routineCalls) : instr p u i = control p u i := by
  simp only [Op.routineCalls, List.mem_cons, List.not_mem_nil, or_false] at hop
  unfold instr
  rcases hop with hop | hop | hop | hop
  all_goals
    simp only [hop]
    rfl

theorem turns_instr (p : Program) (u : LinkedUnit) (i : Instr) : Turns (Turn i) (instr p u i) := by
  by_cases hcall : i.op ∈ Op.routineCalls
  · rw [instr_eq_control p u (List.mem_cons_of_mem _ hcall)]
    exact (reshapes_routineCall p u hcall).turns fun _ _ ⟨c, h⟩ => .call c hcall h
  by_cases hret : i.op = .ret
  · have hleave : control p u i = leave (i.a = 1) := by
      unfold control
      simp only [hret]
    rw [instr_eq_control p u (by simp [hret]), hleave]
    exact (reshapes_leave i).turns fun _ _ h => .ret hret h
  · refine (turns_other p u hcall hret).mono fun _ _ h => .stay hcall hret (h.sameTop ?_)
    exact fun _ _ h => ⟨h.unit, h.routine⟩

theorem turns_marking {x : Exec Unit} (hx : Turns S x) : Turns S (marking x) := by
  intro m a m' h
  unfold marking at h
  cases hxm : x m with
  | ok b m₁ =>
    rw [hxm] at h
    cases h
    exact hx m () m' hxm
  | error e m₁ =>
    rw [hxm] at h
    cases h

end Exec

/-! ## Steps -/

namespace Machine

variable {p : Program} {m m' : Machine}

/-- All that a step may do to the stack and to the entry routines that wait, unless it stops or
halts the run. -/
inductive Advance (p : Program) (m m' : Machine) : Prop where
  | ended (hframes : m.frames = []) (hpending : m.pending = []) (h : m' = m)
  | enter {f : Frame} {e : Program.EntryPoint} (hframes : m.frames = [])
      (hpending : m.pending = e :: m'.pending) (h : m'.frames = [f]) (hf : f.Starts p e)
  | instr {f : Frame} {rest : List Frame} {i : Instr} {span : Span}
      (hframes : m.frames = f :: rest) (hinstr : f.instr? = some i)
      (hpending : m'.pending = m.pending) (h : Exec.Turn i (f.fetch span :: rest) m'.frames)

theorem callee?_unit {e : Program.EntryPoint} {c : Callee} (h : e.callee? p = some c) :
    c.unit = e.unit ∧ c.index = e.index := by
  obtain ⟨u, -, h⟩ := Option.bind_eq_some_iff.mp h
  obtain ⟨r, -, h⟩ := Option.bind_eq_some_iff.mp h
  cases h
  exact ⟨rfl, rfl⟩

theorem turns_of_step {f : Frame} {rest : List Frame} (h : Exec.step p m = .ok () m')
    (hm : m.halted = false) (hframes : m.frames = f :: rest) :
    ∃ i span, f.instr? = some i ∧ ∀ R,
      (∀ u, p.units[f.unit]? = some u → Exec.Turns R (Exec.instr p u i)) →
      m'.halted = true ∧ m'.frames = [] ∨
        m'.pending = m.pending ∧ R (f.fetch span :: rest) m'.frames := by
  unfold Exec.step at h
  rw [Exec.get_bind] at h
  cases hstop : m.stopping with
  | true =>
    simp only [hm, hstop, Bool.false_eq_true, if_false, if_true] at h
    cases h
  | false =>
    simp only [hm, hstop, Bool.false_eq_true, if_false, hframes] at h
    cases hi : f.instr? with
    | none =>
      simp only [hi] at h
      cases h
    | some i =>
      cases hu : p.units[f.unit]? with
      | none =>
        simp only [hi, hu] at h
        cases h
      | some u =>
        simp only [hi, hu] at h
        refine ⟨i, ⟨u.unit.file, i.pos, (i.pos + 1) % 4294967296⟩, rfl, fun R hR => ?_⟩
        have hx : Exec.Turns R (do
            Exec.log fun m => .instr m.frames.length f.name f.block f.ip i
              ⟨u.unit.file, i.pos, (i.pos + 1) % 4294967296⟩
            Exec.marking (Exec.instr p u i)) :=
          Exec.Turns.after (Exec.idle_log _) fun _ => Exec.turns_marking (hR u rfl)
        exact (hx _ () m' h).imp id fun ⟨hp, _, hturn⟩ => ⟨hp, hturn⟩

/-- A step that goes on advances the run, or halts it and leaves no frame. -/
theorem advance_or_halted (h : Exec.step p m = .ok () m') (hm : m.halted = false) :
    m'.halted = true ∧ m'.frames = [] ∨ Advance p m m' := by
  cases hframes : m.frames with
  | cons f rest =>
    obtain ⟨i, span, hi, hturn⟩ := turns_of_step h hm hframes
    exact (hturn _ fun u _ => Exec.turns_instr p u i).imp id
      fun ⟨hp, hturn⟩ => .instr hframes hi hp hturn
  | nil =>
    unfold Exec.step at h
    rw [Exec.get_bind] at h
    cases hstop : m.stopping with
    | true =>
      simp only [hm, hstop, Bool.false_eq_true, if_false, if_true] at h
      cases h
    | false =>
      simp only [hm, hstop, Bool.false_eq_true, if_false] at h
      cases hpending : m.pending with
      | nil =>
        simp only [hframes, hpending] at h
        cases h
        exact .inr (.ended hframes hpending rfl)
      | cons e rest =>
        cases hc : e.callee? p with
        | none =>
          simp only [hframes, hpending, hc] at h
          cases h
        | some c =>
          simp only [hframes, hpending, hc] at h
          have hx : Exec.Reshapes (do
              Exec.reserve (← Exec.frameWords c.routine)
              Exec.enter p c []) (Exec.Enters c) :=
            (Exec.Looks.frameWords _).idle.before fun w =>
              (Exec.idle_reserve w).before fun _ => Exec.reshapes_enter p c []
          obtain ⟨hp, -, f, hf, hgs⟩ := hx _ () m' h
          refine .inr (.enter hframes (hpending.trans (congrArg _ hp.symm)) hgs
            ⟨?_, hf.block, hf.ip, hf.operands⟩)
          rw [hc, hf.unit, hf.routine, ← (callee?_unit hc).2]

theorem advance_of_step (h : Exec.step p m = .ok () m') (hm : m.halted = false)
    (hm' : m'.halted = false) : Advance p m m' :=
  (advance_or_halted h hm).resolve_left (by simp [hm'])

end Machine

end Pascaline
