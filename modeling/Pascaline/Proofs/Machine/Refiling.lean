import Mathlib.Data.List.GetD
import Pascaline.Machine.Step
import Pascaline.Proofs.Pairwise

/-!
# Source files do not steer a run

A run notes the source file of each instruction in the places that faults and the trace show, and
does nothing else with it; what a unit exports it does not look at. So units whose files have other
numbers run alike, and their runs show the same places under those numbers.
-/

namespace Pascaline

/-- Other numbers for the source files. The first one, which also stands for none, keeps its own. -/
structure Refiling where
  number : Nat → Nat
  zero : number 0 = 0

namespace Refiling

variable (φ : Refiling)

/-! ## What has a place -/

def span (s : Span) : Span := { s with file := φ.number s.file }

def frame (f : Frame) : Frame := { f with span := φ.span f.span }

def event : TraceEvent → TraceEvent
  | .instr depth routine block ip i s => .instr depth routine block ip i (φ.span s)
  | e => e

def machine (m : Machine) : Machine :=
  { m with frames := m.frames.map φ.frame, events := m.events.map (·.map φ.event) }

def fault (f : Fault) : Fault :=
  { f with span := φ.span f.span, backtrace := f.backtrace.map fun (name, s) => (name, φ.span s) }

def stop : Stop → Stop
  | .fault f => .fault (φ.fault f)
  | .breakdown => .breakdown

def outcome (o : Machine.Outcome) : Machine.Outcome := ⟨φ.machine o.machine, o.stop.map φ.stop⟩

/-- The unit without what others see of it. -/
def unit (u : CompiledUnit) : CompiledUnit :=
  { u with file := φ.number u.file, exports := [], privates := [] }

def linked (u : LinkedUnit) : LinkedUnit := { u with unit := φ.unit u.unit }

def program (p : Program) : Program := { p with units := p.units.map φ.linked }

@[simp] theorem span_zero : φ.span ⟨0, 0, 0⟩ = ⟨0, 0, 0⟩ := by
  simp [span, φ.zero]

theorem head_span (frames : List Frame) :
    ((frames.map φ.frame).head?.map (·.span)).getD ⟨0, 0, 0⟩ =
      φ.span ((frames.head?.map (·.span)).getD ⟨0, 0, 0⟩) := by
  cases frames with
  | nil => simp
  | cons f rest => rfl

theorem faultOf_machine (m : Machine) (cause : FaultCause) :
    (φ.machine m).faultOf cause = φ.fault (m.faultOf cause) := by
  unfold Machine.faultOf fault
  congr 1
  · exact φ.head_span m.frames
  · simp [machine, frame]

theorem roots_machine (m : Machine) : (φ.machine m).roots = m.roots := by
  simp [Machine.roots, machine, frame, List.flatMap_map]

theorem isDone_machine (m : Machine) : (φ.machine m).isDone = m.isDone := by
  simp [Machine.isDone, machine]

theorem depth_machine (m : Machine) : m.maxFrames ≤ m.frames.length ↔
    (φ.machine m).maxFrames ≤ (φ.machine m).frames.length := by
  simp [machine]

theorem length_frames (m : Machine) : (φ.machine m).frames.length = m.frames.length :=
  List.length_map _

/-! ## Programs -/

theorem getElem?_units (p : Program) (i : Nat) :
    (φ.program p).units[i]? = (p.units[i]?).map φ.linked :=
  Array.getElem?_map

theorem name_program (p : Program) (i : Nat) :
    (((φ.program p).units[i]?).map (·.unit.name)).getD "" =
      ((p.units[i]?).map (·.unit.name)).getD "" := by
  rw [getElem?_units, Option.map_map]
  rfl

theorem display_program (p : Program) (i : Nat) :
    (((φ.program p).units[i]?).map (·.unit.display)).getD "" =
      ((p.units[i]?).map (·.unit.display)).getD "" := by
  rw [getElem?_units, Option.map_map]
  rfl

theorem unit?_program (p : Program) (name : String) :
    (φ.program p).unit? name = (p.unit? name).map fun (i, u) => (i, φ.unit u) := by
  unfold Program.unit?
  have hindex : (φ.program p).units.findIdx? (·.unit.name == name) =
      p.units.findIdx? (·.unit.name == name) := Array.findIdx?_map
  rw [hindex, Option.map_bind]
  congr 1
  funext i
  simp only [getElem?_units, Option.map_map, Function.comp_def]
  rfl

theorem callee?_program (p : Program) (e : Program.EntryPoint) :
    e.callee? (φ.program p) = e.callee? p := by
  unfold Program.EntryPoint.callee?
  rw [getElem?_units]
  cases p.units[e.unit]? <;> rfl

/-! ## Executions side by side -/

variable {α β γ δ : Type} {g : α → β} {h : γ → δ}

def result (g : α → β) : EStateM.Result Stop Machine α → EStateM.Result Stop Machine β
  | .ok a m => .ok (g a) (φ.machine m)
  | .error e m => .error (φ.stop e) (φ.machine m)

/-- From a state under other numbers, `y` ends as `x` does from the state itself, under the same
numbers; `g` says what becomes of the value. -/
def Commutes (g : α → β) (x : Exec α) (y : Exec β) : Prop :=
  ∀ m, y (φ.machine m) = φ.result g (x m)

variable {φ}

namespace Commutes

theorem pure (a : α) : φ.Commutes g (pure a) (Pure.pure (g a)) := fun _ => rfl

theorem bind {x : Exec α} {y : Exec β} {f : α → Exec γ} {k : β → Exec δ}
    (hx : φ.Commutes g x y) (hf : ∀ a, φ.Commutes h (f a) (k (g a))) :
    φ.Commutes h (x >>= f) (y >>= k) := by
  intro m
  simp only [Bind.bind, EStateM.bind]
  rw [hx m]
  cases x m with
  | ok a m' => exact hf a m'
  | error e m' => rfl

theorem get : φ.Commutes φ.machine get get := fun _ => rfl

theorem set (m : Machine) : φ.Commutes id (set m) (set (φ.machine m)) := fun _ => rfl

protected theorem modify {f k : Machine → Machine} (hf : ∀ m, k (φ.machine m) = φ.machine (f m)) :
    φ.Commutes id (modify f) (modify k) := by
  intro m
  exact congrArg (EStateM.Result.ok PUnit.unit) (hf m)

theorem modifyGet {f k : Machine → α × Machine}
    (hf : ∀ m, k (φ.machine m) = ((f m).1, φ.machine (f m).2)) :
    φ.Commutes id (modifyGet f) (modifyGet k) := by
  intro m
  change EStateM.Result.ok (k (φ.machine m)).1 (k (φ.machine m)).2 = _
  rw [hf m]
  rfl

theorem ite {c : Prop} [Decidable c] {x x' : Exec α} {y y' : Exec β} (hx : φ.Commutes g x y)
    (hx' : φ.Commutes g x' y') : φ.Commutes g (if c then x else x') (if c then y else y') := by
  split
  · exact hx
  · exact hx'

theorem raise (cause : FaultCause) :
    φ.Commutes g (Exec.raise cause) (Exec.raise cause) := by
  intro m
  unfold Exec.raise
  rw [faultOf_machine]
  rfl

theorem breakdown : φ.Commutes g Exec.breakdown Exec.breakdown := fun _ => rfl

theorem guard {c c' : Prop} [Decidable c] [Decidable c'] {cause : FaultCause} {f : α → Exec γ}
    {k : β → Exec δ} {x : Exec γ} {y : Exec δ} (hc : c ↔ c') (hx : φ.Commutes h x y) :
    φ.Commutes h (if c then Exec.raise cause >>= f else x)
      (if c' then Exec.raise cause >>= k else y) := by
  simp only [← hc]
  refine ite ?_ hx
  intro m
  exact raise (g := h) cause m

theorem guardBroken {c : Prop} [Decidable c] {f : α → Exec γ} {k : β → Exec δ} {x : Exec γ}
    {y : Exec δ} (hx : φ.Commutes h x y) :
    φ.Commutes h (if c then Exec.breakdown >>= f else x)
      (if c then Exec.breakdown >>= k else y) :=
  ite (fun _ => rfl) hx

theorem expect (o : Option α) : φ.Commutes g (Exec.expect o) (Exec.expect (o.map g)) := by
  cases o with
  | none => exact breakdown
  | some a => exact pure a

theorem expect_id (o : Option α) : φ.Commutes id (Exec.expect o) (Exec.expect o) := by
  have h := expect (φ := φ) (g := id) o
  rwa [Option.map_id] at h

theorem entry (xs : Array α) (i : Int) : φ.Commutes id (Exec.entry xs i) (Exec.entry xs i) :=
  expect_id _

theorem log {e e' : Machine → TraceEvent} (he : ∀ m, e' (φ.machine m) = φ.event (e m)) :
    φ.Commutes id (Exec.log e) (Exec.log e') := by
  apply Commutes.modify
  intro m
  cases hm : m.events with
  | none => simp [machine, hm]
  | some es => simp [machine, Machine.log, hm, ← he]

theorem discard {x : Exec α} {y : Exec β} (hx : φ.Commutes g x y) :
    φ.Commutes id (Functor.discard x) (Functor.discard y) := by
  intro m
  simp only [Functor.discard, Functor.mapConst, EStateM.map, Function.comp]
  rw [hx m]
  cases x m <;> rfl

/-! ## The operand stack -/

theorem top : φ.Commutes φ.frame Exec.top Exec.top := by
  refine get.bind ?_
  intro m
  have h := expect (φ := φ) (g := φ.frame) m.frames.head?
  rwa [← List.head?_map] at h

theorem modifyTop {f k : Frame → Frame} (hf : ∀ fr, k (φ.frame fr) = φ.frame (f fr)) :
    φ.Commutes id (Exec.modifyTop f) (Exec.modifyTop k) := by
  apply Commutes.modify
  intro m
  cases hm : m.frames with
  | nil => simp [machine, hm]
  | cons fr rest => simp [machine, hm, hf]

theorem push (v : Value) : φ.Commutes id (Exec.push v) (Exec.push v) := modifyTop fun _ => rfl

theorem pop : φ.Commutes id Exec.pop Exec.pop := by
  rintro ⟨_, _, frames, _, _, _, _, _, _, _, _⟩
  cases frames with
  | nil => rfl
  | cons f rest =>
    obtain ⟨_, _, _, _, operands, _, _, _, _⟩ := f
    cases operands <;> rfl

theorem peek : φ.Commutes id Exec.peek Exec.peek := by
  refine top.bind ?_
  intro f
  exact expect_id f.operands.head?

theorem popMany (n : Int) : φ.Commutes id (Exec.popMany n) (Exec.popMany n) := by
  refine top.bind ?_
  intro f
  refine ite breakdown ?_
  refine bind (modifyTop ?_) fun _ => pure _
  intro _
  rfl

/-! ## Room on the heap -/

theorem collect : φ.Commutes id Exec.collect Exec.collect := by
  refine get.bind ?_
  intro m₀
  refine bind (Commutes.modify ?_) ?_
  · intro m
    rw [roots_machine]
    rfl
  · intro _
    exact log fun _ => rfl

theorem reserve (words : Int) : φ.Commutes id (Exec.reserve words) (Exec.reserve words) := by
  refine ite (pure _) ?_
  refine get.bind ?_
  intro m
  refine ite (pure _) ?_
  refine collect.bind ?_
  intro _
  refine get.bind ?_
  intro m'
  refine ite ?_ (pure _)
  refine get.bind ?_
  intro m''
  exact raise _

theorem alloc (kind : CellKind) (n : Int) :
    φ.Commutes id (Exec.alloc kind n) (Exec.alloc kind n) := by
  refine guardBroken ?_
  refine bind (modifyGet fun _ => rfl) ?_
  intro h
  refine bind (log fun _ => rfl) ?_
  intro _
  exact pure _

theorem fill {x : Exec Value} (hx : φ.Commutes id x x) (n : Nat) (vs : Array Value) :
    φ.Commutes id (Exec.fill x n vs) (Exec.fill x n vs) := by
  induction n generalizing vs with
  | zero => exact pure _
  | succ n ih => exact hx.bind fun v => ih (vs.push v)

theorem zero (s : Shape) : φ.Commutes id (Exec.zero s) (Exec.zero s) := by
  induction s with
  | array n e ih =>
    refine (alloc .array n).bind ?_
    intro hd
    refine (fill ih n.toNat #[]).bind ?_
    intro elems
    refine bind (Commutes.modify fun _ => rfl) ?_
    intro _
    exact pure _
  | hollow n => exact raise _
  | _ => exact pure _

theorem zeroAll (ss : List Shape) : φ.Commutes id (Exec.zeroAll ss) (Exec.zeroAll ss) := by
  induction ss with
  | nil => exact pure _
  | cons s ss ih =>
    refine (zero s).bind ?_
    intro v
    refine ih.bind ?_
    intro vs
    exact pure _

/-! ## Operands -/

theorem check (o : Value.Outcome) : φ.Commutes id (Exec.check o) (Exec.check o) := by
  unfold Exec.check
  split
  · exact pure _
  · exact raise _
  · exact raise _

theorem object (v : Value) : φ.Commutes id (Exec.object v) (Exec.object v) := by
  unfold Exec.object
  split
  · exact raise _
  · refine get.bind ?_
    intro m
    have hheap : (φ.machine m).heap = m.heap := rfl
    rw [hheap]
    cases m.heap.get? _ with
    | none => exact raise _
    | some c =>
      dsimp only
      split
      · exact pure _
      · exact raise _
  · exact raise _

theorem array (v : Value) : φ.Commutes id (Exec.array v) (Exec.array v) := by
  unfold Exec.array
  split
  · exact raise _
  · refine get.bind ?_
    intro m
    have hheap : (φ.machine m).heap = m.heap := rfl
    rw [hheap]
    cases m.heap.get? _ with
    | none => exact raise _
    | some c =>
      dsimp only
      split
      · exact pure _
      · exact raise _
  · exact raise _

theorem slot (offset : Int) (size : Nat) :
    φ.Commutes id (Exec.slot offset size) (Exec.slot offset size) :=
  ite (raise _) (pure _)

theorem index (i : Value) (length : Nat) :
    φ.Commutes id (Exec.index i length) (Exec.index i length) := by
  unfold Exec.index
  split
  · exact ite (raise _) (pure _)
  · exact ite (raise _) (pure _)
  · exact raise _

theorem routineValue (p : Program) (v : Value) :
    φ.Commutes id (Exec.routineValue p v) (Exec.routineValue (φ.program p) v) := by
  unfold Exec.routineValue
  split
  · exact raise _
  · rw [unit?_program]
    cases p.unit? _ with
    | none => exact raise _
    | some iu =>
      have hroutine (i : Int) : (φ.unit iu.2).routine? i = iu.2.routine? i := rfl
      dsimp only [Option.map_some]
      rw [hroutine]
      cases iu.2.routine? _ with
      | none => exact raise _
      | some r => exact pure _
  · exact raise _

/-! ## Calls -/

theorem frameWords (r : Routine) : φ.Commutes id (Exec.frameWords r) (Exec.frameWords r) :=
  ite breakdown (ite (pure _) (pure _))

theorem enter (p : Program) (c : Callee) (args : List Value) :
    φ.Commutes id (Exec.enter p c args) (Exec.enter (φ.program p) c args) := by
  refine get.bind ?_
  intro m
  refine guard (depth_machine φ m) ?_
  refine guard Iff.rfl ?_
  refine guardBroken ?_
  refine (zeroAll _).bind ?_
  intro own
  refine bind (Commutes.modify ?_) ?_
  · intro m'
    have hspan := φ.head_span m.frames
    simp only [display_program, machine, List.map_cons, frame]
    rw [← hspan]
    rfl
  · intro _
    refine log ?_
    intro m'
    rw [length_frames, display_program]
    rfl

theorem call (p : Program) (c : Callee) (argc : Int) :
    φ.Commutes id (Exec.call p c argc) (Exec.call (φ.program p) c argc) := by
  refine get.bind ?_
  intro m
  refine guard (depth_machine φ m) ?_
  refine top.bind ?_
  intro f
  refine guard Iff.rfl ?_
  refine (frameWords c.routine).bind ?_
  intro words
  refine (reserve words).bind ?_
  intro _
  refine (popMany argc).bind ?_
  intro args
  refine bind (modifyTop fun _ => rfl) ?_
  intro _
  exact enter p c args

theorem leave (withResult : Bool) :
    φ.Commutes id (Exec.leave withResult) (Exec.leave withResult) := by
  refine top.bind ?_
  intro f
  have hdrop : ∀ result : Option Value,
      φ.Commutes id
        (do
          Exec.log fun m => .leave m.frames.length f.name result
          modify fun m => { m with frames := m.frames.tail }
          Exec.modifyTop ({ · with state := .running })
          result.elim (Pure.pure ()) Exec.push)
        (do
          Exec.log fun m => .leave m.frames.length f.name result
          modify fun m => { m with frames := m.frames.tail }
          Exec.modifyTop ({ · with state := .running })
          result.elim (Pure.pure ()) Exec.push) := by
    intro result
    refine bind (log fun m => ?_) ?_
    · rw [length_frames]
      rfl
    intro _
    refine bind (Commutes.modify fun m => ?_) ?_
    · simp [machine]
    intro _
    refine bind (modifyTop fun _ => rfl) ?_
    intro _
    cases result with
    | none => exact pure _
    | some v => exact push v
  refine bind (modifyTop fun _ => rfl) ?_
  intro _
  refine ite ?_ (hdrop none)
  refine guard Iff.rfl ?_
  refine (entry f.locals f.routine.result).bind ?_
  intro v
  exact hdrop (some v)

theorem halt (code : Int) : φ.Commutes id (Exec.halt code) (Exec.halt code) :=
  Commutes.modify fun _ => rfl

theorem callNative (n : Native) (argc : Int) :
    φ.Commutes id (Exec.callNative n argc) (Exec.callNative n argc) := by
  refine (popMany argc).bind ?_
  intro args
  refine guardBroken ?_
  refine get.bind ?_
  intro m
  have hcall :
      n.call { input := (φ.machine m).input, lengthOf := some (Exec.lengthIn (φ.machine m).heap) }
        (id args) =
      n.call { input := m.input, lengthOf := some (Exec.lengthIn m.heap) } args := rfl
  rw [hcall]
  generalize n.call _ args = r
  rcases r with (code | e | _) | r
  · exact halt _
  · exact raise _
  · exact breakdown
  · refine bind (Commutes.modify fun _ => rfl) ?_
    intro _
    exact ite (push _) (pure _)

/-! ## Instructions -/

theorem access (u : LinkedUnit) (i : Instr) :
    φ.Commutes id (Exec.access u i) (Exec.access (φ.linked u) i) := by
  unfold Exec.access
  split
  case h_1 => exact top.bind fun f => (entry f.locals i.a).bind push
  case h_2 =>
    refine pop.bind ?_
    intro v
    refine top.bind ?_
    intro f
    refine bind (entry f.locals i.a).discard ?_
    intro _
    exact modifyTop fun _ => rfl
  case h_3 =>
    refine (entry u.globals i.a).bind ?_
    intro place
    refine get.bind ?_
    intro m
    refine bind (g := id) ?_ push
    exact expect_id _
  case h_4 =>
    refine (entry u.globals i.a).bind ?_
    intro place
    refine pop.bind ?_
    intro v
    exact Commutes.modify fun _ => rfl
  case h_5 =>
    refine pop.bind ?_
    intro v
    refine (object v).bind ?_
    intro hc
    refine (slot i.a hc.2.elems.size).bind ?_
    intro k
    exact push _
  case h_6 =>
    refine pop.bind ?_
    intro v
    refine pop.bind ?_
    intro w
    refine (object w).bind ?_
    intro hc
    refine (slot i.a hc.2.elems.size).bind ?_
    intro k
    exact Commutes.modify fun _ => rfl
  case h_7 =>
    refine pop.bind ?_
    intro k
    refine pop.bind ?_
    intro v
    refine (array v).bind ?_
    intro hc
    refine (index k hc.2.elems.size).bind ?_
    intro k
    exact push _
  case h_8 =>
    refine pop.bind ?_
    intro v
    refine pop.bind ?_
    intro k
    refine pop.bind ?_
    intro w
    refine (array w).bind ?_
    intro hc
    refine (index k hc.2.elems.size).bind ?_
    intro k
    exact Commutes.modify fun _ => rfl
  case h_9 =>
    refine pop.bind ?_
    intro k
    refine pop.bind ?_
    intro v
    cases v with
    | string s => exact (index k (Utf8.chars s).length).bind fun k => push _
    | _ => exact raise _
  case h_10 => exact raise _

theorem allocate (p : Program) (u : LinkedUnit) (i : Instr) :
    φ.Commutes id (Exec.allocate p u i) (Exec.allocate (φ.program p) (φ.linked u) i) := by
  unfold Exec.allocate
  split
  case h_1 =>
    refine (entry u.classes i.a).bind ?_
    intro k
    refine (expect_id p.classes[k]?).bind ?_
    intro c
    refine (reserve _).bind ?_
    intro _
    refine (alloc (.object k) c.desc.slots).bind ?_
    intro h
    refine (zeroAll c.desc.shapes).bind ?_
    intro fields
    refine bind (Commutes.modify fun _ => rfl) ?_
    intro _
    exact push _
  case h_2 =>
    refine peek.bind ?_
    intro v
    exact Commutes.modify fun _ => rfl
  case h_3 =>
    refine (entry u.unit.pool.shapes i.a).bind ?_
    intro elem
    refine peek.bind ?_
    intro v
    cases v with
    | int n =>
      refine guard Iff.rfl ?_
      refine get.bind ?_
      intro m
      refine guard Iff.rfl ?_
      refine (reserve _).bind ?_
      intro _
      refine bind pop.discard ?_
      intro _
      exact (zero _).bind push
    | _ => exact raise _
  case h_4 =>
    refine (entry u.unit.pool.shapes i.a).bind ?_
    intro elem
    refine (reserve _).bind ?_
    intro _
    exact (zero _).bind push
  case h_5 => exact raise _

theorem control (p : Program) (u : LinkedUnit) (i : Instr) :
    φ.Commutes id (Exec.control p u i) (Exec.control (φ.program p) (φ.linked u) i) := by
  have hjump : ∀ block : Int, φ.Commutes id
      (Exec.modifyTop fun f => { f with block, ip := 0 })
      (Exec.modifyTop fun f => { f with block, ip := 0 }) := fun block => modifyTop fun _ => rfl
  unfold Exec.control
  dsimp only
  split
  case h_1 => exact hjump i.a
  case h_2 => exact pop.bind fun v => ite (hjump i.a) (hjump i.b)
  case h_3 => exact leave _
  case h_4 => exact (entry u.calls i.a).bind fun c => call p c i.b
  case h_5 =>
    refine top.bind ?_
    intro f
    refine guard Iff.rfl ?_
    refine (object _).bind ?_
    intro hc
    obtain ⟨_, kind, _⟩ := hc
    cases kind with
    | array => exact raise _
    | object k =>
      refine guard Iff.rfl ?_
      exact (entry _ i.a).bind fun c => call p c i.b
  case h_6 =>
    refine top.bind ?_
    intro f
    refine guard Iff.rfl ?_
    refine guardBroken ?_
    refine (routineValue p _).bind ?_
    intro target
    refine bind (modifyTop fun _ => rfl) ?_
    intro _
    exact call p target i.b
  case h_7 => exact (entry u.natives i.a).bind fun n => callNative n i.b
  case h_8 => exact raise _

theorem instr (p : Program) (u : LinkedUnit) (i : Instr) :
    φ.Commutes id (Exec.instr p u i) (Exec.instr (φ.program p) (φ.linked u) i) := by
  unfold Exec.instr
  split
  · exact pop.bind fun y => pop.bind fun x => (check _).bind push
  · exact pop.bind fun x => (check _).bind push
  · exact pop.bind fun y => pop.bind fun x => push _
  · split
    case h_1 => exact pure _
    case h_2 => exact (entry u.unit.pool.consts i.a).bind push
    case h_3 => exact pop.discard
    case h_4 => exact peek.bind push
    case h_5 => exact pop.bind fun v => push _
    case h_6 =>
      refine pop.bind ?_
      intro v
      cases v <;> exact push _
    case h_7 =>
      refine (entry u.calls i.a).bind ?_
      intro c
      rw [name_program]
      exact push _
    all_goals first
      | exact access u i
      | exact allocate p u i
      | exact control p u i

theorem marking {x y : Exec Unit} (hx : φ.Commutes id x y) :
    φ.Commutes id (Exec.marking x) (Exec.marking y) := by
  intro m
  unfold Exec.marking
  rw [hx m]
  cases x m with
  | ok a m' => rfl
  | error e m' =>
    obtain ⟨_, _, frames, _, _, _, _, _, _, _, _⟩ := m'
    cases frames <;> rfl

theorem step (p : Program) : φ.Commutes id (Exec.step p) (Exec.step (φ.program p)) := by
  refine get.bind ?_
  intro m
  refine ite (pure _) ?_
  refine guard Iff.rfl ?_
  have hframes : (φ.machine m).frames = m.frames.map φ.frame := rfl
  have hpending : (φ.machine m).pending = m.pending := rfl
  rw [hframes, hpending]
  cases hm : m.frames with
  | nil =>
    cases m.pending with
    | nil => exact pure _
    | cons e rest =>
      refine bind (set { m with frames := [], pending := rest }) ?_
      intro _
      rw [callee?_program]
      cases e.callee? p with
      | none => exact raise _
      | some c =>
        refine (frameWords c.routine).bind ?_
        intro words
        refine (reserve words).bind ?_
        intro _
        exact enter p c []
  | cons f rest =>
    have hinstr : (φ.frame f).instr? = f.instr? := rfl
    have hunit : (φ.program p).units[(φ.frame f).unit]? = (p.units[f.unit]?).map φ.linked :=
      φ.getElem?_units p f.unit
    rw [List.map_cons]
    dsimp only
    rw [hinstr, hunit]
    match f.instr?, p.units[f.unit]? with
    | none, _ => exact raise _
    | some i, none => exact raise _
    | some i, some u =>
      refine bind (set { m with frames := _ :: rest }) ?_
      intro _
      refine bind (log fun m => ?_) ?_
      · rw [length_frames]
        rfl
      intro _
      exact (instr p u i).marking

theorem makeGlobals (us : List LinkedUnit) :
    φ.Commutes id (Machine.makeGlobals us) (Machine.makeGlobals (us.map φ.linked)) := by
  induction us with
  | nil => exact pure _
  | cons u us ih =>
    refine (reserve _).bind ?_
    intro _
    refine (zeroAll _).bind ?_
    intro values
    refine bind (Commutes.modify fun _ => rfl) ?_
    intro _
    exact ih

end Commutes

/-! ## Runs -/

variable (φ)

theorem run_program (p : Program) (fuel : Nat) (m : Machine) :
    (φ.machine m).run (φ.program p) fuel = φ.outcome (m.run p fuel) := by
  induction fuel generalizing m with
  | zero => rfl
  | succ fuel ih =>
    unfold Machine.run
    rw [isDone_machine]
    split
    · rfl
    · rw [Commutes.step p m]
      cases Exec.step p m with
      | ok _ m' => exact ih m'
      | error e m' => rfl

theorem runUntil_program (p : Program) (steps fuel : Nat) (m : Machine) :
    (φ.machine m).runUntil (φ.program p) steps fuel = φ.outcome (m.runUntil p steps fuel) := by
  unfold Machine.runUntil
  rw [run_program]
  cases hstop : (m.run p steps).stop with
  | some e => simp [outcome, hstop]
  | none =>
    have hrest := φ.run_program p fuel (m.run p steps).machine.requestStop
    simp only [outcome, hstop, Option.map_none]
    exact hrest

theorem entries_program (p : Program) : (φ.program p).entries = p.entries := by
  unfold Program.entries program
  simp only [Array.toList_map, List.zipIdx_map, ← List.map_reverse, List.filterMap_map,
    List.find?_map, Option.bind_map]
  rfl

theorem start_program (p : Program) (o : RunOptions) :
    Machine.start (φ.program p) o = ((Machine.start p o).map φ.machine).mapError φ.stop := by
  have hblank : φ.machine (Machine.blank o) = Machine.blank o := by
    cases h : o.traced <;> simp [Machine.blank, machine, h]
  have hglobals := Commutes.makeGlobals (φ := φ) p.units.toList (Machine.blank o)
  rw [hblank] at hglobals
  unfold Machine.start
  have hunits : (φ.program p).units.toList = p.units.toList.map φ.linked := Array.toList_map
  rw [hunits, hglobals, entries_program]
  cases Machine.makeGlobals p.units.toList (Machine.blank o) <;> rfl

/-! ## Linking -/

theorem unit_empty : φ.unit {} = {} := by
  unfold unit
  rw [φ.zero]

theorem unitIndex?_units (units : List CompiledUnit) (name : String) :
    Program.unitIndex? (units.map φ.unit) name = Program.unitIndex? units name :=
  List.findIdx?_map

theorem getD_units (units : List CompiledUnit) (i : Nat) :
    (units.map φ.unit).getD i {} = φ.unit (units.getD i {}) := by
  have h := List.getD_map units {} (n := i) φ.unit
  rwa [unit_empty] at h

theorem checkUnits_units (before units : List CompiledUnit) :
    Program.checkUnits (before.map φ.unit) (units.map φ.unit) =
      Program.checkUnits before units := by
  induction units generalizing before with
  | nil => rfl
  | cons u us ih =>
    have hunit : Program.checkUnit (before.map φ.unit) (φ.unit u) = Program.checkUnit before u := by
      unfold Program.checkUnit
      simp only [unitIndex?_units]
      rfl
    have hrest := ih (before ++ [u])
    rw [List.map_append] at hrest
    simp only [List.map_cons, Program.checkUnits, hunit]
    exact congrArg _ (funext fun _ => hrest)

theorem resolve_units (units : List CompiledUnit) (ref : RoutineRef) :
    Program.resolve (units.map φ.unit) ref = Program.resolve units ref := by
  unfold Program.resolve
  simp only [unitIndex?_units, getD_units]
  rfl

theorem classDescs_units (units : List CompiledUnit) :
    Program.classDescs (units.map φ.unit) = Program.classDescs units := by
  unfold Program.classDescs
  rw [List.flatMap_map]
  rfl

theorem linkClass_units (units : List CompiledUnit) (descs : List (ClassKey × ClassDesc))
    (key : ClassKey) (d : ClassDesc) :
    Program.linkClass (units.map φ.unit) descs key d = Program.linkClass units descs key d := by
  unfold Program.linkClass
  simp only [resolve_units]

theorem map_bind_except {ε : Type} (x : Except ε α) (f : α → Except ε β) (j : β → γ) :
    (x >>= f).map j = x >>= fun a => (f a).map j := by
  cases x <;> rfl

theorem linkUnit_units (units : List CompiledUnit) (descs : List (ClassKey × ClassDesc))
    (u : CompiledUnit) :
    Program.linkUnit (units.map φ.unit) descs (φ.unit u) =
      (Program.linkUnit units descs u).map φ.linked := by
  unfold Program.linkUnit
  simp only [resolve_units, unitIndex?_units, getD_units, map_bind_except]
  rfl

theorem mapM_map_except {ε : Type} {f : α → Except ε β} {k : γ → Except ε δ} {i : α → γ}
    {j : β → δ} (h : ∀ a, k (i a) = (f a).map j) (xs : List α) :
    (xs.map i).mapM k = (xs.mapM f).map (List.map j) := by
  induction xs with
  | nil => rfl
  | cons x xs ih =>
    simp only [List.map_cons, List.mapM_cons, h, ih]
    cases f x with
    | error e => rfl
    | ok y => cases xs.mapM f <;> rfl

/-- Units under other numbers link to the same program under those numbers. -/
theorem link_units (units : List CompiledUnit) :
    Program.link (units.map φ.unit) = (Program.link units).map φ.program := by
  unfold Program.link
  have hcheck := φ.checkUnits_units [] units
  rw [List.map_nil] at hcheck
  simp only [hcheck, classDescs_units, linkClass_units, map_bind_except]
  rw [mapM_map_except (φ.linkUnit_units units _) units]
  refine congrArg _ (funext fun _ => congrArg _ (funext fun classes => ?_))
  cases units.mapM (Program.linkUnit units (Program.classDescs units)) with
  | error e => rfl
  | ok linked => simp [bind, Except.bind, Except.map, pure, Except.pure, program]

end Refiling

end Pascaline
