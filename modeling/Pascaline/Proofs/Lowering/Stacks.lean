import Pascaline.Code

/-!
# Operand stacks of code

What each instruction takes from the operand stack and puts there, and what it is for the code of a
routine to keep its stack in balance: wherever a block is entered from, the stack is as deep. Code
whose places can be labelled consistently, with objects that are still pinned marked as such, is in
balance and unpins each object that it makes once.
-/

namespace Pascaline

/-! ## Effects -/

/-- Operations that call a routine. -/
def Op.isCall : Op → Bool
  | call | callVirtual | callNative | callIndirect => true
  | _ => false

/-- Operations that take any values, leave values, and lead to the next instruction. -/
def Op.isPlain : Op → Bool
  | jump | branch | ret | newObject | dup | unpin => false
  | _ => true

theorem Op.isTerminator_of_isPlain {o : Op} (h : o.isPlain = true) : o.isTerminator = false := by
  cases o <;> first | rfl | cases h

namespace Instr

/-- How many operands an instruction needs, and takes. -/
def pops (i : Instr) : Nat :=
  match i.op with
  | .pop | .dup | .storeLocal | .storeGlobal | .loadField | .neg | .not | .succ | .pred
  | .intToReal | .charToString | .branch | .unpin | .newArray => 1
  | .storeField | .loadElem | .loadChar | .add | .sub | .mul | .quot | .div | .mod | .and | .or
  | .xor | .shl | .shr | .concat | .eq | .ne | .lt | .le | .gt | .ge => 2
  | .storeElem => 3
  | .call | .callVirtual | .callNative => i.b.toNat
  -- The routine value lies below the arguments.
  | .callIndirect => i.b.toNat + 1
  | _ => 0

/-- How many operands an instruction puts back; `result` is whether a call leaves a result. -/
def pushes (i : Instr) (result : Bool) : Nat :=
  match i.op with
  | .dup => 2
  | .const | .loadLocal | .loadGlobal | .loadField | .loadElem | .loadChar | .add | .sub | .mul
  | .quot | .div | .mod | .neg | .not | .and | .or | .xor | .shl | .shr | .concat | .intToReal
  | .charToString | .eq | .ne | .lt | .le | .gt | .ge | .newObject | .unpin | .newArray | .newCell
  | .routine | .succ | .pred => 1
  | .call | .callVirtual | .callNative | .callIndirect => if result then 1 else 0
  | _ => 0

/-- What an instruction makes of the stack at step `t` of a path. An operand is `some u` if it is the
object that step `u` has made, and `none` if it is anything else. -/
def act (i : Instr) (result : Bool) (t : Nat) (stack : List (Option Nat)) : List (Option Nat) :=
  match i.op with
  | .newObject => some t :: stack
  | .dup => stack.head?.join :: stack
  | .unpin => stack
  | _ => List.replicate (i.pushes result) none ++ stack.drop i.pops

theorem act_of_isPlain (i : Instr) (h : i.op.isPlain = true) (result : Bool) (t : Nat)
    (stack : List (Option Nat)) :
    i.act result t stack = List.replicate (i.pushes result) none ++ stack.drop i.pops := by
  unfold act
  split
  case h_1 hop => rw [hop] at h; cases h
  case h_2 hop => rw [hop] at h; cases h
  case h_3 hop => rw [hop] at h; cases h
  case h_4 => rfl

end Instr

namespace Blocks

/-! ## Balance -/

def instr? (code : Blocks) (k ip : Nat) : Option Instr := (code[k]?).bind (·[ip]?)

/-- A target is a block with an instruction, and is entered at this depth. -/
def EnteredAt (code : Blocks) (depth : Nat → Nat → Nat) (target : Int) (d : Nat) : Prop :=
  ∃ k : Nat, target = k ∧ (code.instr? k 0).isSome = true ∧ depth k 0 = d

/-- The depths of the stack at all places of the code agree with the instructions. -/
structure Balanced (code : Blocks) (result : Nat → Nat → Bool) (depth : Nat → Nat → Nat) : Prop where
  start : code.EnteredAt depth 0 0
  enough : ∀ {k ip : Nat} {i : Instr}, code.instr? k ip = some i → i.pops ≤ depth k ip
  next : ∀ {k ip : Nat} {i : Instr}, code.instr? k ip = some i → i.op.isTerminator = false →
    (code.instr? k (ip + 1)).isSome = true ∧
      depth k (ip + 1) = depth k ip - i.pops + i.pushes (result k ip)
  jump : ∀ {k ip : Nat} {i : Instr}, code.instr? k ip = some i → i.op = .jump →
    code.EnteredAt depth i.a (depth k ip)
  branch : ∀ {k ip : Nat} {i : Instr}, code.instr? k ip = some i → i.op = .branch →
    code.EnteredAt depth i.a (depth k ip - i.pops) ∧ code.EnteredAt depth i.b (depth k ip - i.pops)
  ret : ∀ {k ip : Nat} {i : Instr}, code.instr? k ip = some i → i.op = .ret → depth k ip = 0

/-! ## Paths -/

/-- A place of the code, with the stack there. -/
structure Point where
  block : Nat
  ip : Nat
  stack : List (Option Nat)

/-- Where an instruction leads. -/
def Leads (i : Instr) (p q : Point) : Prop :=
  match i.op with
  | .jump => i.a = q.block ∧ q.ip = 0
  | .branch => (i.a = q.block ∨ i.b = q.block) ∧ q.ip = 0
  | .ret => False
  | _ => q.block = p.block ∧ q.ip = p.ip + 1

/-- A path from the start of the code: it ends in a return, or goes on for ever. -/
structure IsPath (code : Blocks) (result : Nat → Nat → Bool) (path : Nat → Option Point) : Prop where
  start : path 0 = some ⟨0, 0, []⟩
  next : ∀ {t : Nat} {p : Point}, path t = some p →
    ∃ i, code.instr? p.block p.ip = some i ∧
      ((i.op = .ret ∧ path (t + 1) = none) ∨
        ∃ q, path (t + 1) = some q ∧ Leads i p q ∧
          q.stack = i.act (result p.block p.ip) t p.stack)
  ended : ∀ {t : Nat}, path t = none → path (t + 1) = none

/-- The instruction that a path executes at a step. -/
def instrOf (code : Blocks) (path : Nat → Option Point) (t : Nat) : Option Instr :=
  (path t).bind fun p => code.instr? p.block p.ip

/-- Whether a step of a path makes an object. -/
def made (code : Blocks) (path : Nat → Option Point) (t : Nat) : Bool :=
  (code.instrOf path t).any (·.op = .newObject)

/-- The object that a step of a path unpins, by the step that has made it. -/
def unpinned (code : Blocks) (path : Nat → Option Point) (t : Nat) : Option Nat :=
  if (code.instrOf path t).any (·.op = .unpin) then ((path t).bind (·.stack.head?)).join else none

/-- Each object that a path makes is unpinned once, afterwards, and nothing else is. -/
structure PinsOnce (code : Blocks) (path : Nat → Option Point) : Prop where
  once : ∀ {t : Nat}, code.made path t = true →
    ∃ u, t < u ∧ code.unpinned path u = some t ∧ ∀ v, code.unpinned path v = some t → v = u
  known : ∀ {u : Nat} {i : Instr}, code.instrOf path u = some i → i.op = .unpin →
    ∃ t, t < u ∧ code.made path t = true ∧ code.unpinned path u = some t

end Blocks

/-! ## Labels -/

/-- What an operand is: an object that its maker has not unpinned yet, or any value. -/
inductive Mark where
  | value | pinned
deriving DecidableEq

/-- How a block is entered: with what on the stack, and at what distance. As long as there is
something on the stack, distances grow along the code. -/
structure Label where
  stack : List Mark
  rank : Nat

/-- What an instruction inside a block does to the marks on the stack. -/
inductive Shifts (i : Instr) (result : Bool) : List Mark → List Mark → Prop
  | newObject (h : i.op = .newObject) (ms : List Mark) : Shifts i result ms (.pinned :: ms)
  | dup (h : i.op = .dup) (m : Mark) (ms : List Mark) : Shifts i result (m :: ms) (.value :: m :: ms)
  | unpin (h : i.op = .unpin) (ms : List Mark) : Shifts i result (.pinned :: ms) (.value :: ms)
  | plain (h : i.op.isPlain = true) (ms : List Mark) :
      Shifts i result (List.replicate i.pops .value ++ ms)
        (List.replicate (i.pushes result) .value ++ ms)

/-- A target may be entered with these marks from a block of this rank. -/
def Enters (labels : List Label) (rank : Nat) (ms : List Mark) (target : Int) : Prop :=
  ∃ (k : Nat) (e : Label), target = k ∧ labels[k]? = some e ∧ e.stack = ms ∧ (ms ≠ [] → rank < e.rank)

/-- How a block of this rank may end with these marks. -/
inductive Leaves (labels : List Label) (rank : Nat) (i : Instr) : List Mark → Prop
  | jump {ms : List Mark} (h : i.op = .jump) (hto : Enters labels rank ms i.a) :
      Leaves labels rank i ms
  | branch {ms : List Mark} (h : i.op = .branch) (hyes : Enters labels rank ms i.a)
      (hno : Enters labels rank ms i.b) : Leaves labels rank i (.value :: ms)
  | ret (h : i.op = .ret) : Leaves labels rank i []

namespace Shifts

variable {i : Instr} {result : Bool} {ms ms' : List Mark}

theorem notTerminator (h : Shifts i result ms ms') : i.op.isTerminator = false := by
  cases h with
  | newObject h => rw [h]; rfl
  | dup h => rw [h]; rfl
  | unpin h => rw [h]; rfl
  | plain h => exact Op.isTerminator_of_isPlain h

theorem enough (h : Shifts i result ms ms') : i.pops ≤ ms.length := by
  cases h with
  | newObject h => simp [Instr.pops, h]
  | dup h => simp [Instr.pops, h]
  | unpin h => simp [Instr.pops, h]
  | plain => simp

theorem length (h : Shifts i result ms ms') :
    ms'.length = ms.length - i.pops + i.pushes result := by
  cases h with
  | newObject h => simp [Instr.pops, Instr.pushes, h]
  | dup h => simp [Instr.pops, Instr.pushes, h]
  | unpin h => simp [Instr.pops, Instr.pushes, h]
  | plain => simp; omega

end Shifts

theorem Leaves.isTerminator {labels : List Label} {rank : Nat} {i : Instr} {ms : List Mark}
    (h : Leaves labels rank i ms) : i.op.isTerminator = true := by
  cases h with
  | jump h => rw [h]; rfl
  | branch h => rw [h]; rfl
  | ret h => rw [h]; rfl

namespace Blocks

/-- Every place of the code has marks that agree with the instructions. -/
structure Labelled (code : Blocks) (result : Nat → Nat → Bool) (labels : List Label)
    (marks : Nat → Nat → List Mark) : Prop where
  start : ∃ e, labels[0]? = some e ∧ e.stack = []
  entry : ∀ {k : Nat} {e : Label}, labels[k]? = some e →
    marks k 0 = e.stack ∧ (code.instr? k 0).isSome = true
  place : ∀ {k ip : Nat} {i : Instr}, code.instr? k ip = some i →
    (Shifts i (result k ip) (marks k ip) (marks k (ip + 1)) ∧
        (code.instr? k (ip + 1)).isSome = true) ∨
      ∃ e, labels[k]? = some e ∧ Leaves labels e.rank i (marks k ip)

namespace Labelled

variable {code : Blocks} {result : Nat → Nat → Bool} {labels : List Label}
  {marks : Nat → Nat → List Mark} {path : Nat → Option Point} {k ip t u high : Nat} {i : Instr}
  {p q : Point}

theorem shifts (h : code.Labelled result labels marks) (hi : code.instr? k ip = some i)
    (hterm : i.op.isTerminator = false) :
    Shifts i (result k ip) (marks k ip) (marks k (ip + 1)) ∧
      (code.instr? k (ip + 1)).isSome = true := by
  rcases h.place hi with hshift | ⟨e, -, hleaves⟩
  · exact hshift
  · rw [hleaves.isTerminator] at hterm
    cases hterm

theorem leaves (h : code.Labelled result labels marks) (hi : code.instr? k ip = some i)
    (hterm : i.op.isTerminator = true) :
    ∃ e, labels[k]? = some e ∧ Leaves labels e.rank i (marks k ip) := by
  rcases h.place hi with ⟨hshift, -⟩ | hleaves
  · rw [hshift.notTerminator] at hterm
    cases hterm
  · exact hleaves

theorem jump (h : code.Labelled result labels marks) (hi : code.instr? k ip = some i)
    (hop : i.op = .jump) :
    ∃ e, labels[k]? = some e ∧ Enters labels e.rank (marks k ip) i.a := by
  obtain ⟨e, he, hleaves⟩ := h.leaves hi (by rw [hop]; rfl)
  generalize marks k ip = ms at hleaves ⊢
  cases hleaves with
  | jump _ hto => exact ⟨e, he, hto⟩
  | branch hbranch => rw [hop] at hbranch; cases hbranch
  | ret hret => rw [hop] at hret; cases hret

theorem branch (h : code.Labelled result labels marks) (hi : code.instr? k ip = some i)
    (hop : i.op = .branch) :
    ∃ e ms, labels[k]? = some e ∧ marks k ip = .value :: ms ∧ Enters labels e.rank ms i.a ∧
      Enters labels e.rank ms i.b := by
  obtain ⟨e, he, hleaves⟩ := h.leaves hi (by rw [hop]; rfl)
  generalize marks k ip = ms at hleaves ⊢
  cases hleaves with
  | jump hjump => rw [hop] at hjump; cases hjump
  | branch _ hyes hno => exact ⟨e, _, he, rfl, hyes, hno⟩
  | ret hret => rw [hop] at hret; cases hret

theorem ret (h : code.Labelled result labels marks) (hi : code.instr? k ip = some i)
    (hop : i.op = .ret) : marks k ip = [] := by
  obtain ⟨e, he, hleaves⟩ := h.leaves hi (by rw [hop]; rfl)
  generalize marks k ip = ms at hleaves ⊢
  cases hleaves with
  | jump hjump => rw [hop] at hjump; cases hjump
  | branch hbranch => rw [hop] at hbranch; cases hbranch
  | ret => rfl

theorem enteredAt (h : code.Labelled result labels marks) {rank : Nat} {ms : List Mark}
    {target : Int} (hto : Enters labels rank ms target) :
    code.EnteredAt (fun k ip => (marks k ip).length) target ms.length := by
  obtain ⟨k, e, rfl, he, rfl, -⟩ := hto
  obtain ⟨hmarks, hsome⟩ := h.entry he
  exact ⟨k, rfl, hsome, congrArg List.length hmarks⟩

theorem balanced (h : code.Labelled result labels marks) :
    code.Balanced result fun k ip => (marks k ip).length := by
  refine ⟨?_, ?_, ?_, ?_, ?_, ?_⟩
  · obtain ⟨e, he, hempty⟩ := h.start
    have hto : Enters labels 0 [] 0 := ⟨0, e, rfl, he, hempty, fun hne => absurd rfl hne⟩
    exact h.enteredAt hto
  · intro k ip i hi
    rcases h.place hi with ⟨hshift, -⟩ | ⟨e, -, hleaves⟩
    · exact hshift.enough
    · generalize marks k ip = ms at hleaves ⊢
      cases hleaves with
      | jump hop => simp [Instr.pops, hop]
      | branch hop => simp [Instr.pops, hop]
      | ret hop => simp [Instr.pops, hop]
  · intro k ip i hi hterm
    obtain ⟨hshift, hsome⟩ := h.shifts hi hterm
    exact ⟨hsome, hshift.length⟩
  · intro k ip i hi hop
    obtain ⟨e, -, hto⟩ := h.jump hi hop
    exact h.enteredAt hto
  · intro k ip i hi hop
    obtain ⟨e, ms, -, hmarks, hyes, hno⟩ := h.branch hi hop
    have hlength : (marks k ip).length - i.pops = ms.length := by
      simp [hmarks, Instr.pops, hop]
    rw [hlength]
    exact ⟨h.enteredAt hyes, h.enteredAt hno⟩
  · intro k ip i hi hop
    rw [h.ret hi hop]
    rfl

/-! ## Objects along a path -/

/-- Those operands that are marked as pinned. -/
def pins : List Mark → List (Option Nat) → List (Option Nat)
  | .pinned :: ms, o :: os => o :: pins ms os
  | .value :: ms, _ :: os => pins ms os
  | _, _ => []

@[simp] theorem pins_nil (os : List (Option Nat)) : pins [] os = [] := by
  cases os <;> rfl

@[simp] theorem pins_empty (ms : List Mark) : pins ms [] = [] := by
  cases ms with
  | nil => rfl
  | cons m ms => cases m <;> rfl

theorem pins_value (ms : List Mark) (os : List (Option Nat)) :
    pins (.value :: ms) os = pins ms os.tail := by
  cases os with
  | nil => simp
  | cons o os => rfl

theorem pins_replicate (n : Nat) (ms : List Mark) (os : List (Option Nat)) :
    pins (List.replicate n .value ++ ms) os = pins ms (os.drop n) := by
  induction n generalizing os with
  | zero => rfl
  | succ n ih => rw [List.replicate_succ, List.cons_append, pins_value, ih, List.drop_tail]

theorem leads_cases (h : Leads i p q) :
    (i.op.isTerminator = false ∧ q.block = p.block ∧ q.ip = p.ip + 1) ∨
      (i.op = .jump ∧ i.a = q.block ∧ q.ip = 0) ∨
      (i.op = .branch ∧ (i.a = q.block ∨ i.b = q.block) ∧ q.ip = 0) := by
  revert h
  unfold Leads
  cases i.op <;> simp [Op.isTerminator]

/-- What is true of the objects at step `t` of a path. Each one that was made is pinned on the stack
or has been unpinned, once. -/
structure Tracks (code : Blocks) (path : Nat → Option Point) (ms : List Mark) (t : Nat) (p : Point) :
    Prop where
  length : p.stack.length = ms.length
  object : none ∉ pins ms p.stack
  count : ∀ u, (List.range t).countP (code.unpinned path · = some u) + (pins ms p.stack).count (some u) =
    if u < t ∧ code.made path u = true then 1 else 0

theorem tracks_start (code : Blocks) (path : Nat → Option Point) :
    Tracks code path [] 0 ⟨0, 0, []⟩ :=
  ⟨rfl, by simp, by simp⟩

/-- One step: what is made is pinned, what is unpinned was pinned, and all else stays. -/
theorem Tracks.step {ms ms' : List Mark} (h : Tracks code path ms t p)
    (hlength : q.stack.length = ms'.length) (hobject : none ∉ pins ms' q.stack)
    (hcount : ∀ u, (pins ms' q.stack).count (some u) + (if code.unpinned path t = some u then 1 else 0) =
      (pins ms p.stack).count (some u) + if u = t ∧ code.made path t = true then 1 else 0) :
    Tracks code path ms' (t + 1) q := by
  refine ⟨hlength, hobject, fun u => ?_⟩
  have hbefore := h.count u
  have hstep := hcount u
  simp only [List.range_succ, List.countP_append, List.countP_singleton, decide_eq_true_eq]
  by_cases hu : u = t
  · subst hu
    simp only [Nat.lt_irrefl, false_and, if_false, Nat.lt_succ_self, true_and] at hbefore hstep ⊢
    omega
  · simp only [hu, false_and, if_false, Nat.lt_succ_iff_lt_or_eq, or_false] at hbefore hstep ⊢
    omega

theorem made_eq (hp : path t = some p) (hi : code.instr? p.block p.ip = some i) :
    code.made path t = decide (i.op = .newObject) := by
  simp [made, instrOf, hp, hi]

theorem unpinned_eq (hp : path t = some p) (hi : code.instr? p.block p.ip = some i) :
    code.unpinned path t = if i.op = .unpin then p.stack.head?.join else none := by
  simp [unpinned, instrOf, hp, hi]

theorem Tracks.same {ms ms' : List Mark} (h : Tracks code path ms t p) (hp : path t = some p)
    (hi : code.instr? p.block p.ip = some i) (hnew : i.op ≠ .newObject) (hunpin : i.op ≠ .unpin)
    (hlength : q.stack.length = ms'.length) (hpins : pins ms' q.stack = pins ms p.stack) :
    Tracks code path ms' (t + 1) q := by
  refine h.step hlength (hpins ▸ h.object) fun u => ?_
  simp [made_eq hp hi, unpinned_eq hp hi, hnew, hunpin, hpins]

theorem Tracks.top {ms : List Mark} (h : Tracks code path (.pinned :: ms) t p) :
    ∃ u os, p.stack = some u :: os := by
  have hlength := h.length
  have hobject := h.object
  cases hos : p.stack with
  | nil => simp [hos] at hlength
  | cons o os =>
    cases o with
    | none => simp [hos, pins] at hobject
    | some u => exact ⟨u, os, rfl⟩

theorem Tracks.shift {ms ms' : List Mark} {result : Bool} (h : Tracks code path ms t p)
    (hp : path t = some p) (hi : code.instr? p.block p.ip = some i)
    (hshift : Shifts i result ms ms') (hstack : q.stack = i.act result t p.stack) :
    Tracks code path ms' (t + 1) q := by
  have hlength := h.length
  have hobject := h.object
  cases hshift with
  | newObject hop ms =>
    have hpins : pins (.pinned :: ms) q.stack = some t :: pins ms p.stack := by
      simp [hstack, Instr.act, hop, pins]
    refine h.step ?_ ?_ fun u => ?_
    · simp [hstack, Instr.act, hop, hlength]
    · simpa [hpins] using hobject
    · simp [made_eq hp hi, unpinned_eq hp hi, hop, hpins, List.count_cons, eq_comm (a := t) (b := u)]
  | dup hop m ms =>
    refine h.same hp hi (by simp [hop]) (by simp [hop]) ?_ ?_
    · simp [hstack, Instr.act, hop, hlength]
    · simp [hstack, Instr.act, hop, pins_value]
  | unpin hop ms =>
    obtain ⟨v, os, hos⟩ := h.top
    have hq : q.stack = some v :: os := by simp [hstack, Instr.act, hop, hos]
    refine h.step ?_ ?_ fun u => ?_
    · simpa [hq, hos] using hlength
    · simpa [hq, hos, pins] using hobject
    · simp [made_eq hp hi, unpinned_eq hp hi, hop, hq, hos, pins, List.count_cons]
  | plain hplain ms =>
    have hact : q.stack =
        List.replicate (i.pushes result) none ++ p.stack.drop i.pops := by
      rw [hstack, i.act_of_isPlain hplain]
    refine h.same hp hi (fun hop => by simp [hop, Op.isPlain] at hplain)
      (fun hop => by simp [hop, Op.isPlain] at hplain) ?_ ?_
    · simp only [List.length_append, List.length_replicate] at hlength
      simp only [hact, List.length_append, List.length_replicate, List.length_drop]
      omega
    · rw [pins_replicate, pins_replicate, hact, List.drop_left' (by simp)]

theorem marks_of_enters (h : code.Labelled result labels marks) {rank : Nat} {ms : List Mark}
    (hto : Enters labels rank ms k) : marks k 0 = ms := by
  obtain ⟨k', e, hk, he, rfl, -⟩ := hto
  obtain rfl : k = k' := Int.ofNat_inj.mp hk
  exact (h.entry he).1

theorem Tracks.next (h : code.Labelled result labels marks)
    (htracks : Tracks code path (marks p.block p.ip) t p) (hp : path t = some p)
    (hi : code.instr? p.block p.ip = some i) (hleads : Leads i p q)
    (hstack : q.stack = i.act (result p.block p.ip) t p.stack) :
    Tracks code path (marks q.block q.ip) (t + 1) q := by
  rcases leads_cases hleads with ⟨hterm, hblock, hip⟩ | ⟨hop, ha, hip⟩ | ⟨hop, hto, hip⟩
  · rw [hblock, hip]
    exact htracks.shift hp hi (h.shifts hi hterm).1 hstack
  · obtain ⟨e, -, henters⟩ := h.jump hi hop
    rw [ha] at henters
    rw [hip, h.marks_of_enters henters]
    have hq : q.stack = p.stack := by simp [hstack, Instr.act, Instr.pushes, Instr.pops, hop]
    exact htracks.same hp hi (by simp [hop]) (by simp [hop]) (by rw [hq, htracks.length]) (by rw [hq])
  · obtain ⟨e, ms, -, hmarks, hyes, hno⟩ := h.branch hi hop
    have hms : marks q.block 0 = ms := by
      rcases hto with ha | hb
      · exact h.marks_of_enters (ha ▸ hyes)
      · exact h.marks_of_enters (hb ▸ hno)
    rw [hip, hms]
    rw [hmarks] at htracks
    have hq : q.stack = p.stack.tail := by
      simp [hstack, Instr.act, Instr.pushes, Instr.pops, hop]
    refine htracks.same hp hi (by simp [hop]) (by simp [hop]) ?_ (by rw [pins_value, hq])
    simp [hq, htracks.length]

theorem tracks (h : code.Labelled result labels marks) (hpath : code.IsPath result path) :
    ∀ {t : Nat} {p : Point}, path t = some p → Tracks code path (marks p.block p.ip) t p := by
  intro t
  induction t with
  | zero =>
    intro p hp
    rw [hpath.start] at hp
    cases hp
    obtain ⟨e, he, hempty⟩ := h.start
    rw [(h.entry he).1, hempty]
    exact tracks_start code path
  | succ t ih =>
    intro q hq
    obtain ⟨p, hp⟩ : ∃ p, path t = some p := by
      refine Option.ne_none_iff_exists'.mp fun hnone => ?_
      rw [hpath.ended hnone] at hq
      cases hq
    obtain ⟨i, hi, ⟨-, hend⟩ | ⟨q', hq', hleads, hstack⟩⟩ := hpath.next hp
    · rw [hend] at hq
      cases hq
    · obtain rfl : q' = q := Option.some.inj (hq'.symm.trans hq)
      exact Tracks.next h (ih hp) hp hi hleads hstack

/-! ## Every stack is emptied -/

def rankOf (labels : List Label) (k : Nat) : Nat := ((labels[k]?).map Label.rank).getD 0

theorem rankOf_eq {e : Label} (he : labels[k]? = some e) : rankOf labels k = e.rank := by
  simp [rankOf, he]

/-- How far a place is from the last blocks, and from the end of its own. -/
def distance (code : Blocks) (labels : List Label) (high : Nat) (p : Point) : Nat × Nat :=
  (high - rankOf labels p.block, (code.getD p.block #[]).size - p.ip)

theorem lt_size_of_instr? (hi : code.instr? k ip = some i) : ip < (code.getD k #[]).size := by
  obtain ⟨is, his, hi⟩ := Option.bind_eq_some_iff.mp hi
  simpa [Array.getD_eq_getD_getElem?, his] using (Array.getElem?_eq_some_iff.mp hi).1

theorem rank_lt_of_enters (hrank : ∀ e ∈ labels, e.rank ≤ high) {e : Label} {ms : List Mark}
    (he : labels[k]? = some e) {k' : Nat} (hto : Enters labels e.rank ms k') (hne : ms ≠ []) :
    high - rankOf labels k' < high - rankOf labels k := by
  obtain ⟨_, e', hk', he', -, hlt⟩ := hto
  obtain rfl := Int.ofNat_inj.mp hk'
  have hlt := hlt hne
  have hhigh := hrank e' (List.mem_of_getElem? he')
  rw [rankOf_eq he, rankOf_eq he']
  omega

/-- As long as there is something on the stack each step goes on within a block, or enters one of a
higher rank. -/
theorem distance_lt (h : code.Labelled result labels marks) (hrank : ∀ e ∈ labels, e.rank ≤ high)
    (hi : code.instr? p.block p.ip = some i) (hleads : Leads i p q)
    (hne : marks q.block q.ip ≠ []) :
    Prod.Lex (· < ·) (· < ·) (distance code labels high q) (distance code labels high p) := by
  rcases leads_cases hleads with ⟨hterm, hblock, hip⟩ | ⟨hop, ha, hip⟩ | ⟨hop, hto, hip⟩
  · obtain ⟨j, hj⟩ := Option.isSome_iff_exists.mp (h.shifts hi hterm).2
    have hlt := lt_size_of_instr? hj
    rw [distance, distance, hblock, hip]
    exact .right _ (by omega)
  · obtain ⟨e, he, henters⟩ := h.jump hi hop
    rw [ha] at henters
    rw [hip, h.marks_of_enters henters] at hne
    exact .left _ _ (rank_lt_of_enters hrank he henters hne)
  · obtain ⟨e, ms, he, -, hyes, hno⟩ := h.branch hi hop
    have henters : Enters labels e.rank ms q.block := by
      rcases hto with ha | hb
      · exact ha ▸ hyes
      · exact hb ▸ hno
    rw [hip, h.marks_of_enters henters] at hne
    exact .left _ _ (rank_lt_of_enters hrank he henters hne)

theorem emptied (h : code.Labelled result labels marks) (hpath : code.IsPath result path)
    (hrank : ∀ e ∈ labels, e.rank ≤ high) {t : Nat} {p : Point} (hp : path t = some p) :
    ∃ u q, t ≤ u ∧ path u = some q ∧ marks q.block q.ip = [] := by
  by_cases hempty : marks p.block p.ip = []
  · exact ⟨t, p, Nat.le_refl t, hp, hempty⟩
  obtain ⟨i, hi, ⟨hret, -⟩ | ⟨q, hq, hleads, -⟩⟩ := hpath.next hp
  · exact absurd (h.ret hi hret) hempty
  by_cases hempty' : marks q.block q.ip = []
  · exact ⟨t + 1, q, Nat.le_succ t, hq, hempty'⟩
  have hlt := h.distance_lt hrank hi hleads hempty'
  obtain ⟨u, r, hu, hr⟩ := emptied h hpath hrank hq
  exact ⟨u, r, Nat.le_of_succ_le hu, hr⟩
termination_by distance code labels high p
decreasing_by exact hlt

theorem exists_rank_le (labels : List Label) : ∃ high, ∀ e ∈ labels, e.rank ≤ high := by
  induction labels with
  | nil => exact ⟨0, by simp⟩
  | cons e es ih =>
    obtain ⟨high, hrank⟩ := ih
    refine ⟨max e.rank high, fun e' he' => ?_⟩
    rcases List.mem_cons.mp he' with rfl | he'
    · exact Nat.le_max_left _ _
    · exact Nat.le_trans (hrank e' he') (Nat.le_max_right _ _)

/-- Where something is unpinned an object is pinned on top of the stack, and it is the one that is
unpinned. -/
theorem exists_unpinned (h : code.Labelled result labels marks) (hpath : code.IsPath result path)
    (hi : code.instrOf path t = some i) (hop : i.op = .unpin) :
    ∃ u p, code.unpinned path t = some u ∧ Tracks code path (marks p.block p.ip) t p ∧
      some u ∈ pins (marks p.block p.ip) p.stack := by
  obtain ⟨p, hp, hi⟩ := Option.bind_eq_some_iff.mp hi
  have htracks := h.tracks hpath hp
  have hshift := (h.shifts hi (by rw [hop]; rfl)).1
  obtain ⟨ms, hms⟩ : ∃ ms, marks p.block p.ip = .pinned :: ms := by
    generalize marks p.block p.ip = ms at hshift
    generalize marks p.block (p.ip + 1) = ms' at hshift
    cases hshift with
    | newObject hnew => rw [hop] at hnew; cases hnew
    | dup hdup => rw [hop] at hdup; cases hdup
    | unpin _ ms => exact ⟨ms, rfl⟩
    | plain hplain => rw [hop] at hplain; cases hplain
  rw [hms] at htracks
  obtain ⟨u, os, hos⟩ := htracks.top
  refine ⟨u, p, ?_, hms ▸ htracks, ?_⟩
  · simp [unpinned_eq hp hi, hop, hos]
  · simp [hms, hos, pins]

theorem exists_of_any {o : Op} (h : (code.instrOf path t).any (·.op = o) = true) :
    ∃ i, code.instrOf path t = some i ∧ i.op = o := by
  cases hi : code.instrOf path t with
  | none => simp [hi] at h
  | some i => exact ⟨i, rfl, by simpa [hi] using h⟩

theorem pinned_of_unpinned (h : code.Labelled result labels marks) (hpath : code.IsPath result path)
    (hu : code.unpinned path t = some u) :
    ∃ p, Tracks code path (marks p.block p.ip) t p ∧
      0 < (pins (marks p.block p.ip) p.stack).count (some u) := by
  have hany : (code.instrOf path t).any (·.op = .unpin) = true := by
    unfold unpinned at hu
    split at hu
    · assumption
    · cases hu
  obtain ⟨i, hi, hop⟩ := exists_of_any hany
  obtain ⟨u', p, hu', htracks, hmem⟩ := h.exists_unpinned hpath hi hop
  obtain rfl : u' = u := Option.some.inj (hu'.symm.trans hu)
  exact ⟨p, htracks, List.count_pos_iff.mpr hmem⟩

theorem made_of_unpinned (h : code.Labelled result labels marks) (hpath : code.IsPath result path)
    (hu : code.unpinned path t = some u) : u < t ∧ code.made path u = true := by
  obtain ⟨p, htracks, hpinned⟩ := h.pinned_of_unpinned hpath hu
  have hcount := htracks.count u
  split at hcount
  · assumption
  · omega

theorem not_unpinned_before (h : code.Labelled result labels marks)
    (hpath : code.IsPath result path) {v w : Nat} (hv : code.unpinned path v = some u)
    (hw : code.unpinned path w = some u) : ¬v < w := by
  intro hlt
  obtain ⟨p, htracks, hpinned⟩ := h.pinned_of_unpinned hpath hw
  have hcount := htracks.count u
  have hearlier : 0 < (List.range w).countP (code.unpinned path · = some u) :=
    List.countP_pos_iff.mpr ⟨v, List.mem_range.mpr hlt, by simpa using hv⟩
  split at hcount <;> omega

/-- What is made is unpinned: the stack is empty some time later, and then nothing is pinned on it. -/
theorem exists_unpinned_of_made (h : code.Labelled result labels marks)
    (hpath : code.IsPath result path) (ht : code.made path t = true) :
    ∃ u, code.unpinned path u = some t := by
  obtain ⟨i, hinstr, hop⟩ := exists_of_any ht
  obtain ⟨p, hp, hi⟩ := Option.bind_eq_some_iff.mp hinstr
  obtain ⟨j, hj, hnext⟩ := hpath.next hp
  obtain rfl : j = i := Option.some.inj (hj.symm.trans hi)
  obtain ⟨q, hq⟩ : ∃ q, path (t + 1) = some q := by
    rcases hnext with ⟨hret, -⟩ | ⟨q, hq, -⟩
    · rw [hop] at hret
      cases hret
    · exact ⟨q, hq⟩
  obtain ⟨high, hrank⟩ := exists_rank_le labels
  obtain ⟨w, r, hw, hr, hempty⟩ := h.emptied hpath hrank hq
  have hcount := (h.tracks hpath hr).count t
  rw [hempty, pins_nil, List.count_nil, if_pos ⟨hw, ht⟩] at hcount
  have hpos : 0 < (List.range w).countP (code.unpinned path · = some t) := by omega
  obtain ⟨u, -, hu⟩ := List.countP_pos_iff.mp hpos
  exact ⟨u, of_decide_eq_true hu⟩

theorem pinsOnce (h : code.Labelled result labels marks) (hpath : code.IsPath result path) :
    code.PinsOnce path := by
  refine ⟨?_, ?_⟩
  · intro t ht
    obtain ⟨u, hu⟩ := h.exists_unpinned_of_made hpath ht
    refine ⟨u, (h.made_of_unpinned hpath hu).1, hu, fun v hv => ?_⟩
    exact Nat.le_antisymm (Nat.le_of_not_lt (h.not_unpinned_before hpath hu hv))
      (Nat.le_of_not_lt (h.not_unpinned_before hpath hv hu))
  · intro u i hi hop
    obtain ⟨t, -, hu, -⟩ := h.exists_unpinned hpath hi hop
    obtain ⟨hlt, hmade⟩ := h.made_of_unpinned hpath hu
    exact ⟨t, hlt, hmade, hu⟩

end Labelled

end Blocks

end Pascaline
