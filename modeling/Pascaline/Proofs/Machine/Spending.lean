import Pascaline.Proofs.Heap.Accounts
import Pascaline.Proofs.Machine.Triple
import Pascaline.Proofs.Program.Link

/-!
# Spending reserved words

Room is made in one place and used up in another, by parts of instructions that never look whether
there is any. What they use up is what was reserved, so no step takes the heap beyond its budget.
-/

namespace Pascaline

namespace Exec

variable {α β : Type} {m₀ : Machine} {b : Int}

/-! ## Parts that leave the heap alone -/

/-- The heap stays as it is, whether `x` stops or not. -/
def Quiet (x : Exec α) : Prop :=
  ∀ h, Triple (·.heap = h) x (fun _ m => m.heap = h) (fun _ m => m.heap = h)

theorem Looks.quiet {x : Exec α} (hx : Looks x) : Quiet x := by
  rintro h m rfl
  rcases hx m with ⟨a, ha⟩ | ⟨e, he⟩
  · rw [ha]
  · rw [he]

theorem Quiet.pure (a : α) : Quiet (Pure.pure a) := (Looks.pure a).quiet

theorem Quiet.raise (cause : FaultCause) : Quiet (Exec.raise cause : Exec α) :=
  (Looks.raise cause).quiet

theorem Quiet.breakdown : Quiet (Exec.breakdown : Exec α) := Looks.breakdown.quiet

theorem Quiet.bind {x : Exec α} {f : α → Exec β} (hx : Quiet x) (hf : ∀ a, Quiet (f a)) :
    Quiet (x >>= f) :=
  fun h => Triple.bind (hx h) fun a => hf a h

theorem Quiet.ite {c : Prop} [Decidable c] {x y : Exec α} (hx : Quiet x) (hy : Quiet y) :
    Quiet (if c then x else y) :=
  fun h => Triple.ite (fun _ => hx h) fun _ => hy h

theorem quiet_modify {f : Machine → Machine} (hf : ∀ m, (f m).heap = m.heap) :
    Quiet (modify f) :=
  fun _ => Triple.modify fun m hm => (hf m).trans hm

theorem quiet_log (e : Machine → TraceEvent) : Quiet (log e) := by
  refine quiet_modify fun m => ?_
  unfold Machine.log
  split
  · split <;> rfl
  · rfl

theorem quiet_modifyTop (f : Frame → Frame) : Quiet (modifyTop f) := by
  refine quiet_modify fun m => ?_
  split <;> rfl

theorem quiet_push (v : Value) : Quiet (push v) := quiet_modifyTop _

theorem quiet_pop : Quiet pop := by
  rintro h m rfl
  unfold pop
  cases m.frames with
  | nil => rfl
  | cons f rest => cases hops : f.operands <;> simp [hops]

theorem quiet_popMany (n : Int) : Quiet (popMany n) :=
  Looks.top.quiet.bind fun _ =>
    Quiet.ite .breakdown ((quiet_modifyTop _).bind fun _ => .pure _)

theorem looks_check (o : Value.Outcome) : Looks (check o) := by
  unfold check
  split
  · exact .pure _
  · exact .raise _
  · exact .raise _

theorem looks_slot (offset : Int) (size : Nat) : Looks (slot offset size) :=
  .ite (.raise _) (.pure _)

theorem looks_index (i : Value) (length : Nat) : Looks (index i length) := by
  unfold index
  split
  · exact .ite (.raise _) (.pure _)
  · exact .ite (.raise _) (.pure _)
  · exact .raise _

theorem looks_entry {γ : Type} (xs : Array γ) (i : Int) : Looks (entry xs i) := Looks.expect _

theorem quiet_leave (withResult : Bool) : Quiet (leave withResult) := by
  unfold leave
  refine Looks.top.quiet.bind fun f => ?_
  refine (quiet_modifyTop _).bind fun _ => ?_
  have hdrop : ∀ (result : Option Value) (k : Exec Unit), Quiet k → Quiet (do
      log fun m => .leave m.frames.length f.name result
      modify fun m => { m with frames := m.frames.tail }
      modifyTop ({ · with state := .running })
      k) := by
    intro result k hk
    refine (quiet_log _).bind fun _ => ?_
    refine Quiet.bind (quiet_modify fun _ => rfl) fun _ => ?_
    exact (quiet_modifyTop _).bind fun _ => hk
  dsimp only
  refine .ite (.ite ((Quiet.raise _).bind fun _ => ?_) ?_) ?_
  · exact (looks_entry _ _).quiet.bind fun v => hdrop (some v) _ (quiet_push v)
  · exact (looks_entry _ _).quiet.bind fun v => hdrop (some v) _ (quiet_push v)
  · exact hdrop none _ (.pure _)

theorem quiet_callNative (n : Native) (argc : Int) : Quiet (callNative n argc) := by
  unfold callNative
  refine (quiet_popMany argc).bind fun args => ?_
  dsimp only
  refine .ite (Quiet.breakdown.bind fun _ => ?_) ?_
  all_goals
    refine Looks.get.quiet.bind fun m => ?_
    split
    · exact quiet_modify fun _ => rfl
    · exact .raise _
    · exact .breakdown
    · refine Quiet.bind (quiet_modify fun _ => rfl) fun _ => ?_
      exact .ite (quiet_push _) (.pure _)

theorem Quiet.keeps {x : Exec α} (hx : Quiet x) (P : Heap → Prop) :
    Triple (fun m => P m.heap) x (fun _ m => P m.heap) (fun _ m => P m.heap) := by
  intro m hm
  have hx := hx m.heap m rfl
  cases hxm : x m with
  | ok a m' =>
    rw [hxm] at hx
    show P m'.heap
    rw [show m'.heap = m.heap from hx]
    exact hm
  | error e m' =>
    rw [hxm] at hx
    show P m'.heap
    rw [show m'.heap = m.heap from hx]
    exact hm

/-! ## Within the budget -/

/-- `x` keeps the heap within its budget, whether it stops or not. -/
def Stays (b : Int) (x : Exec α) : Prop :=
  Triple (·.heap.Within b) x (fun _ m => m.heap.Within b) (fun _ m => m.heap.Within b)

theorem Quiet.stays {x : Exec α} (hx : Quiet x) : Stays b x := hx.keeps (·.Within b)

theorem Quiet.then_stays {x : Exec α} {f : α → Exec β} (hx : Quiet x) (hf : ∀ a, Stays b (f a)) :
    Stays b (x >>= f) :=
  Triple.bind hx.stays hf

theorem stays_write (h : Handle) (k : Nat) (v : Value) :
    Stays b (modify fun m => { m with heap := m.heap.write h k v }) := by
  refine Triple.modify fun m hm => ?_
  exact hm.update h fun c _ => by simp

theorem stays_access (u : LinkedUnit) (i : Instr) : Stays b (access u i) := by
  unfold access
  split
  case h_1 =>
    -- loadLocal
    refine Quiet.stays (Looks.top.quiet.bind fun f => ?_)
    exact (looks_entry _ _).quiet.bind fun v => quiet_push v
  case h_2 =>
    -- storeLocal
    refine Quiet.stays (quiet_pop.bind fun v => Looks.top.quiet.bind fun f => ?_)
    refine Quiet.bind (fun h => Triple.discard ((looks_entry _ _).quiet h)) fun _ => ?_
    exact quiet_modifyTop _
  case h_3 =>
    -- loadGlobal
    refine Quiet.stays ((looks_entry _ _).quiet.bind fun place => Looks.get.quiet.bind fun m => ?_)
    exact (Looks.expect _).quiet.bind fun v => quiet_push v
  case h_4 =>
    -- storeGlobal
    refine Quiet.stays ((looks_entry _ _).quiet.bind fun place => quiet_pop.bind fun v => ?_)
    exact quiet_modify fun _ => rfl
  case h_5 =>
    -- loadField
    refine Quiet.stays (quiet_pop.bind fun v => (Looks.object v).quiet.bind fun c => ?_)
    exact (looks_slot _ _).quiet.bind fun k => quiet_push _
  case h_6 =>
    -- storeField
    refine quiet_pop.then_stays fun v => quiet_pop.then_stays fun w => ?_
    refine (Looks.object w).quiet.then_stays fun c => ?_
    exact (looks_slot _ _).quiet.then_stays fun k => stays_write _ k v
  case h_7 =>
    -- loadElem
    refine Quiet.stays (quiet_pop.bind fun k => quiet_pop.bind fun v => ?_)
    refine (Looks.array v).quiet.bind fun c => ?_
    exact (looks_index _ _).quiet.bind fun k => quiet_push _
  case h_8 =>
    -- storeElem
    refine quiet_pop.then_stays fun v => quiet_pop.then_stays fun k => ?_
    refine quiet_pop.then_stays fun w => (Looks.array w).quiet.then_stays fun c => ?_
    exact (looks_index _ _).quiet.then_stays fun k => stays_write _ k v
  case h_9 =>
    -- loadChar
    refine Quiet.stays (quiet_pop.bind fun k => quiet_pop.bind fun v => ?_)
    split
    · exact (looks_index _ _).quiet.bind fun k => quiet_push _
    · exact .raise _
  case h_10 => exact (Quiet.raise _).stays

/-! ## Reserving and spending -/

theorem Triple.halting {P : Machine → Prop} {x : Exec α} {Q : α → Machine → Prop}
    {E E' : Stop → Machine → Prop} (hx : Triple P x Q E) (hE : ∀ e m, E e m → E' e m) :
    Triple P x Q E' := by
  intro m hm
  have hx := hx m hm
  cases hxm : x m with
  | ok a m' =>
    rw [hxm] at hx
    exact hx
  | error e m' =>
    rw [hxm] at hx
    exact hE e m' hx

theorem Triple.outcome {x : Exec α} {Q : α → Machine → Prop} {E : Stop → Machine → Prop}
    (hx : Triple (· = m₀) x Q E) :
    Triple (· = m₀) x (fun a m => x m₀ = .ok a m ∧ Q a m) E := by
  rintro m rfl
  have hx := hx m rfl
  cases hxm : x m with
  | ok a m' =>
    rw [hxm] at hx
    exact ⟨rfl, hx⟩
  | error e m' =>
    rw [hxm] at hx
    exact hx

theorem reserve_room {w : Nat} (hm₀ : m₀.heap.Within b) (hw : m₀.heap.liveWords + w < 2 ^ 63) :
    Triple (· = m₀) (reserve w)
      (fun _ m => m.heap.Room b (m.heap.liveWords + w) [] w ∧
        m.heap.liveWords ≤ m₀.heap.liveWords)
      (fun _ m => m.heap.Within b) := by
  unfold reserve
  refine Triple.ite (fun hzero => Triple.pure ?_) fun _ => ?_
  · rintro m rfl
    obtain rfl : w = 0 := by omega
    exact ⟨hm₀.room (by simpa using hm₀.liveWords), Nat.le_refl _⟩
  refine Triple.bind Triple.get fun m₁ => ?_
  refine Triple.ite (fun hfits => Triple.pure ?_) fun _ => ?_
  · rintro m ⟨rfl, rfl⟩
    exact ⟨hm₀.room ((hm₀.fits_iff hw).mp hfits), Nat.le_refl _⟩
  -- It does not fit at once: what is left after a collection is less.
  refine Triple.bind (R := fun _ m => m.heap.Within b ∧ m.heap.liveWords ≤ m₀.heap.liveWords) ?_ ?_
  · refine Triple.bind Triple.get fun m₂ => ?_
    refine Triple.bind (R := fun _ m => m.heap.Within b ∧ m.heap.liveWords ≤ m₀.heap.liveWords) ?_
      fun _ => ((quiet_log _).keeps fun h => h.Within b ∧ h.liveWords ≤ m₀.heap.liveWords).halting
        fun _ m hm => hm.1
    refine Triple.modify ?_
    rintro m ⟨-, -, rfl⟩
    exact ⟨hm₀.collect _, Heap.liveWords_collect_le _ _⟩
  intro _
  refine Triple.bind Triple.get fun m₂ => ?_
  refine Triple.ite (fun _ => ?_) fun hfits => Triple.pure ?_
  · exact Triple.bind Triple.get fun m₃ => Triple.raise fun m hm => hm.2.2.1
  · rintro m ⟨rfl, hm, hle⟩
    rw [Bool.not_eq_true', Bool.not_eq_false] at hfits
    exact ⟨hm.room ((hm.fits_iff (by omega)).mp hfits), hle⟩

theorem alloc_room {total rest : Nat} {kept : List (Handle × Nat)} (kind : CellKind) (n : Int) :
    Triple (·.heap.Room b total kept (1 + n.toNat + rest)) (alloc kind n)
      (fun h m => m.heap.Room b total ((h, n.toNat) :: kept) rest) (fun _ m => m.heap.Within b) := by
  unfold alloc
  refine Triple.unlessBroken (fun _ m hm => hm.within) fun _ => ?_
  refine Triple.bind (R := fun h m => m.heap.Room b total ((h, n.toNat) :: kept) rest) ?_ ?_
  · exact Triple.modifyGet fun m hm => hm.alloc kind (by simp)
  · intro h
    refine Triple.bind ?_ fun _ => Triple.pure fun m hm => hm
    exact ((quiet_log _).keeps (Heap.Room b total ((h, n.toNat) :: kept) rest)).halting
      fun _ m hm => hm.within

theorem fill_room {total cost rest : Nat} {kept : List (Handle × Nat)} {x : Exec Value}
    (hx : ∀ rest, Triple (·.heap.Room b total kept (cost + rest)) x
      (fun _ m => m.heap.Room b total kept rest) (fun _ m => m.heap.Within b))
    (n : Nat) (vs : Array Value) :
    Triple (·.heap.Room b total kept (n * cost + rest)) (fill x n vs)
      (fun elems m => m.heap.Room b total kept rest ∧ elems.size = vs.size + n)
      (fun _ m => m.heap.Within b) := by
  induction n generalizing vs with
  | zero => exact Triple.pure fun m hm => ⟨by simpa using hm, rfl⟩
  | succ n ih =>
    have hsplit : (n + 1) * cost + rest = cost + (n * cost + rest) := by
      rw [Nat.succ_mul]
      omega
    rw [hsplit]
    refine Triple.bind (hx _) fun v => ?_
    refine (ih (vs.push v)).post ?_
    rintro elems m ⟨hm, hsize⟩
    rw [Array.size_push] at hsize
    exact ⟨hm, by omega⟩

theorem zero_room {total : Nat} (s : Shape) (kept : List (Handle × Nat)) (rest : Nat) :
    Triple (·.heap.Room b total kept (s.room + rest)) (zero s)
      (fun _ m => m.heap.Room b total kept rest) (fun _ m => m.heap.Within b) := by
  induction s generalizing kept rest with
  | array n e ih =>
    have hsplit : (Shape.array n e).room + rest = 1 + n.toNat + (n.toNat * e.room + rest) := by
      rw [Shape.room, Nat.add_assoc]
    rw [hsplit]
    refine Triple.bind (alloc_room .array n) fun h => ?_
    refine Triple.bind (fill_room (fun rest => ih _ rest) n.toNat #[]) fun elems => ?_
    refine Triple.bind (R := fun _ m => m.heap.Room b total kept rest) ?_
      fun _ => Triple.pure fun m hm => hm
    refine Triple.modify ?_
    rintro m ⟨hm, hsize⟩
    rw [Array.size_empty, Nat.zero_add] at hsize
    exact (hm.setElems List.mem_cons_self hsize).mono (List.subset_cons_self _ _)
  | hollow n => exact Triple.raise fun m hm => hm.within
  | _ => exact Triple.pure fun m hm => by simpa [Shape.room] using hm

theorem zeroAll_room {total : Nat} {kept : List (Handle × Nat)} (ss : List Shape) (rest : Nat) :
    Triple (·.heap.Room b total kept (Shape.roomOf ss + rest)) (zeroAll ss)
      (fun vs m => m.heap.Room b total kept rest ∧ vs.length = ss.length)
      (fun _ m => m.heap.Within b) := by
  induction ss with
  | nil => exact Triple.pure fun m hm => ⟨by simpa [Shape.roomOf] using hm, rfl⟩
  | cons s ss ih =>
    have hsplit : Shape.roomOf (s :: ss) + rest = s.room + (Shape.roomOf ss + rest) := by
      simp [Shape.roomOf, Nat.add_assoc]
    rw [hsplit]
    refine Triple.bind (zero_room s kept _) fun v => ?_
    refine Triple.bind ih fun vs => Triple.pure ?_
    rintro m ⟨hm, hlen⟩
    exact ⟨hm, by simp [hlen]⟩

/-! ## What is reserved is what is spent -/

/-- Room for `w` words was made in `m₀`, and just so many have come into use since then. -/
structure Spent (b : Int) (m₀ : Machine) (w : Nat) (m : Machine) : Prop where
  within : m.heap.Within b
  words : ∃ m₁, reserve w m₀ = .ok () m₁ ∧ m₁.heap.liveWords ≤ m₀.heap.liveWords ∧
    m.heap.liveWords = m₁.heap.liveWords + w

theorem reserve_spent {w : Nat} (hm₀ : m₀.heap.Within b) (hw : m₀.heap.liveWords + w < 2 ^ 63)
    {f : Unit → Exec α}
    (hf : ∀ total, Triple (·.heap.Room b total [] w) (f ())
      (fun _ m => m.heap.Room b total [] 0) (fun _ m => m.heap.Within b)) :
    Triple (· = m₀) (reserve w >>= f) (fun _ => Spent b m₀ w) (fun _ m => m.heap.Within b) := by
  refine Triple.bind (reserve_room hm₀ hw).outcome fun _ => ?_
  rintro m₁ ⟨hreserve, hroom, hle⟩
  have hspent := hf _ m₁ hroom
  cases hfm : f () m₁ with
  | ok a m =>
    rw [hfm] at hspent
    exact ⟨hspent.within, m₁, hreserve, hle, hspent.words⟩
  | error e m =>
    rw [hfm] at hspent
    exact hspent

theorem keeps_room {total rest : Nat} {kept : List (Handle × Nat)} {x : Exec α} (hx : Quiet x) :
    Triple (·.heap.Room b total kept rest) x (fun _ m => m.heap.Room b total kept rest)
      (fun _ m => m.heap.Within b) :=
  (hx.keeps (Heap.Room b total kept rest)).halting fun _ _ hm => hm.within

/-! ## Calls -/

/-- A frame with more parameters than slots has no slots of its own. -/
theorem frameWords_eq {r : Routine} {m m' : Machine} {words : Int}
    (h : frameWords r m = .ok words m') : words = slotWords (ownShapes r) := by
  unfold frameWords at h
  split at h
  · cases h
  · split at h
    case isTrue hlt =>
      have hnone : ownShapes r = [] := List.drop_eq_nil_of_le (by rw [Array.length_toList]; omega)
      injection h with h
      rw [hnone, ← h]
      rfl
    case isFalse =>
      injection h with h
      exact h.symm

theorem enter_room (p : Program) (c : Callee) (args : List Value) (total : Nat) :
    Triple (·.heap.Room b total [] (Shape.roomOf (ownShapes c.routine))) (enter p c args)
      (fun _ m => m.heap.Room b total [] 0) (fun _ m => m.heap.Within b) := by
  unfold enter
  refine Triple.bind Triple.get fun m₁ => ?_
  dsimp only
  refine Triple.unless (fun _ m hm => hm.2.within) fun _ => ?_
  refine Triple.unless (fun _ m hm => hm.2.within) fun _ => ?_
  refine Triple.unlessBroken (fun _ m hm => hm.2.within) fun _ => ?_
  refine Triple.bind (Triple.pre (zeroAll_room (ownShapes c.routine) 0) fun m hm => hm.2) fun own => ?_
  refine Triple.bind (R := fun _ m => m.heap.Room b total [] 0) ?_ fun _ => keeps_room (quiet_log _)
  exact Triple.modify fun m hm => hm.1

variable {p : Program} {c : Callee}

theorem call_spent (hm₀ : m₀.heap.Within b) (hsized : ∀ s ∈ ownShapes c.routine, s.Sized)
    (hw : m₀.heap.liveWords + Shape.roomOf (ownShapes c.routine) < 2 ^ 63) (argc : Int) :
    Triple (· = m₀) (call p c argc) (fun _ => Spent b m₀ (Shape.roomOf (ownShapes c.routine)))
      (fun _ m => m.heap.Within b) := by
  unfold call
  refine Triple.bind Triple.get fun m₁ => ?_
  dsimp only
  refine Triple.unless (fun _ m hm => hm.2 ▸ hm₀) fun _ => ?_
  refine Triple.bind (Triple.top fun m hm => hm.2 ▸ hm₀) fun f => ?_
  refine Triple.unless (fun _ m hm => hm.1.2 ▸ hm₀) fun _ => ?_
  refine Triple.bind (Triple.look (Looks.frameWords _) fun m e hm => hm.1.2 ▸ hm₀) fun words => ?_
  refine Triple.fact (fun m hm => frameWords_eq hm.2) ?_
  rintro rfl
  rw [Shape.slotWords_eq_roomOf hsized (by omega)]
  refine Triple.pre (reserve_spent hm₀ hw fun total => ?_) fun m hm => hm.1.1.2
  refine Triple.bind (keeps_room (quiet_popMany argc)) fun args => ?_
  refine Triple.bind (keeps_room (quiet_modifyTop _)) fun _ => ?_
  exact enter_room p c args total

theorem enterFirst_spent (hm₀ : m₀.heap.Within b) (hsized : ∀ s ∈ ownShapes c.routine, s.Sized)
    (hw : m₀.heap.liveWords + Shape.roomOf (ownShapes c.routine) < 2 ^ 63) :
    Triple (· = m₀)
      (do
        reserve (← frameWords c.routine)
        enter p c [])
      (fun _ => Spent b m₀ (Shape.roomOf (ownShapes c.routine))) (fun _ m => m.heap.Within b) := by
  refine Triple.bind (Triple.look (Looks.frameWords _) fun m e hm => hm ▸ hm₀) fun words => ?_
  refine Triple.fact (fun m hm => frameWords_eq hm.2) ?_
  rintro rfl
  rw [Shape.slotWords_eq_roomOf hsized (by omega)]
  exact Triple.pre (reserve_spent hm₀ hw fun total => enter_room p c [] total) fun m hm => hm.1

/-! ## Objects, arrays and cells -/

variable {u : LinkedUnit} {i : Instr}

theorem newObject_words {d : ClassDesc} (hslots : (d.shapes.length : Int) = d.slots)
    (hsized : ∀ s ∈ d.shapes, s.Sized) (hlt : d.room < 2 ^ 63) :
    (1 + d.slots + slotWords d.shapes).bmod 0x10000000000000000 = d.room := by
  rw [← Shape.bmod_of_lt hlt]
  unfold ClassDesc.room at hlt ⊢
  rw [Shape.slotWords_eq_roomOf hsized (by omega), ← hslots]
  push_cast
  rfl

theorem newObject_spent (hm₀ : m₀.heap.Within b) (hop : i.op = .newObject)
    (hclass : ∀ k d, u.classes[i.a.toNat]? = some k → p.classes[k]? = some d →
      (d.desc.shapes.length : Int) = d.desc.slots ∧ (∀ s ∈ d.desc.shapes, s.Sized) ∧
        m₀.heap.liveWords + d.desc.room < 2 ^ 63) :
    Triple (· = m₀) (allocate p u i)
      (fun _ m => ∃ k d, u.classes[i.a.toNat]? = some k ∧ p.classes[k]? = some d ∧
        Spent b m₀ d.desc.room m)
      (fun _ m => m.heap.Within b) := by
  unfold allocate
  simp only [hop]
  refine Triple.bind (Triple.entry fun m hm => hm ▸ hm₀) fun k => ?_
  refine Triple.fact (fun m hm => hm.2.2) fun hk => ?_
  refine Triple.bind (Triple.expect fun m hm => hm.1 ▸ hm₀) fun d => ?_
  refine Triple.fact (fun m hm => hm.2) fun hd => ?_
  obtain ⟨hslots, hsized, hw⟩ := hclass k d hk hd
  rw [newObject_words hslots hsized (by omega)]
  refine Triple.weaken (reserve_spent hm₀ hw fun total => ?_) (fun m hm => hm.1.1)
    fun _ m hm => ⟨k, d, hk, hd, hm⟩
  have hlen : d.desc.slots.toNat = d.desc.shapes.length := by omega
  rw [ClassDesc.room, ← hlen]
  refine Triple.bind (alloc_room _ d.desc.slots) fun h => ?_
  refine Triple.bind (zeroAll_room d.desc.shapes 0) fun fields => ?_
  refine Triple.bind (R := fun _ m => m.heap.Room b total [] 0) ?_ fun _ => keeps_room (quiet_push _)
  refine Triple.modify ?_
  rintro m ⟨hm, hfields⟩
  have hset := hm.setElems List.mem_cons_self
    (show fields.toArray.size = d.desc.slots.toNat by simp [hfields, hlen])
  exact (hset.mono (List.nil_subset _)).update h (f := fun c => { c with pins := c.pins + 1 })
    fun _ _ => rfl

theorem peek_eq {m : Machine} {f : Frame} {v : Value} (hf : m.frames.head? = some f)
    (h : peek m = .ok v m) : f.operands.head? = some v := by
  have hlook : (expect m.frames.head? >>= fun f => expect f.operands.head?) m = .ok v m := h
  rw [hf] at hlook
  have hlook : expect f.operands.head? m = .ok v m := hlook
  cases hops : f.operands.head? with
  | none =>
    rw [hops] at hlook
    cases hlook
  | some w =>
    rw [hops] at hlook
    cases hlook
    rfl

theorem newArray_spent (hm₀ : m₀.heap.Within b) (hop : i.op = .newArray) {f : Frame}
    (hf : m₀.frames.head? = some f)
    (harray : ∀ s n, u.unit.pool.shapes[i.a.toNat]? = some s → f.operands.head? = some (.int n) →
      0 ≤ n.toInt → n.toInt ≤ b →
        s.Sized ∧ m₀.heap.liveWords + (Shape.array n.toInt s).room < 2 ^ 63) :
    Triple (· = m₀) (allocate p u i)
      (fun _ m => ∃ s n, u.unit.pool.shapes[i.a.toNat]? = some s ∧
        f.operands.head? = some (.int n) ∧ Spent b m₀ (Shape.array n.toInt s).room m)
      (fun _ m => m.heap.Within b) := by
  unfold allocate
  simp only [hop]
  refine Triple.bind (Triple.entry fun m hm => hm ▸ hm₀) fun s => ?_
  refine Triple.fact (fun m hm => hm.2.2) fun hs => ?_
  refine Triple.bind (Triple.look Looks.peek fun m e hm => hm.1 ▸ hm₀) fun v => ?_
  refine Triple.fact (p := f.operands.head? = some v) ?_ fun hv => ?_
  · rintro m ⟨⟨rfl, -⟩, hpeek⟩
    exact peek_eq hf hpeek
  split
  case h_2 => exact Triple.raise fun m hm => hm.1.1 ▸ hm₀
  case h_1 n =>
    refine Triple.unless (fun _ m hm => hm.1.1 ▸ hm₀) fun hneg => ?_
    refine Triple.bind Triple.get fun m₁ => ?_
    refine Triple.fact (p := m₁ = m₀) (fun m hm => hm.1.trans hm.2.1.1) ?_
    rintro rfl
    refine Triple.unless (fun _ m hm => hm.2.1.1 ▸ hm₀) fun hle => ?_
    have hnonneg : 0 ≤ n.toInt := by
      rw [Int64.lt_iff_toInt_lt] at hneg
      simpa using hneg
    have hbudget : n.toInt ≤ b := by
      rw [hm₀.budget] at hle
      omega
    obtain ⟨hsized, hw⟩ := harray s n hs hv hnonneg hbudget
    rw [Shape.words_eq_room (s := .array n.toInt s) ⟨hnonneg, hsized⟩ (by omega)]
    refine Triple.weaken (reserve_spent hm₀ hw fun total => ?_) (fun m hm => hm.2.1.1)
      fun _ m hm => ⟨s, n, hs, hv, hm⟩
    refine Triple.bind (R := fun _ m => m.heap.Room b total [] (Shape.array n.toInt s).room)
      (Triple.discard (keeps_room quiet_pop)) fun _ => ?_
    exact Triple.bind (zero_room (.array n.toInt s) [] 0) fun v => keeps_room (quiet_push v)

theorem newCell_spent (hm₀ : m₀.heap.Within b) (hop : i.op = .newCell)
    (hcell : ∀ s, u.unit.pool.shapes[i.a.toNat]? = some s →
      s.Sized ∧ m₀.heap.liveWords + (Shape.array 1 s).room < 2 ^ 63) :
    Triple (· = m₀) (allocate p u i)
      (fun _ m => ∃ s, u.unit.pool.shapes[i.a.toNat]? = some s ∧
        Spent b m₀ (Shape.array 1 s).room m)
      (fun _ m => m.heap.Within b) := by
  unfold allocate
  simp only [hop]
  refine Triple.bind (Triple.entry fun m hm => hm ▸ hm₀) fun s => ?_
  refine Triple.fact (fun m hm => hm.2.2) fun hs => ?_
  obtain ⟨hsized, hw⟩ := hcell s hs
  rw [Shape.words_eq_room (s := .array 1 s) ⟨by omega, hsized⟩ (by omega)]
  refine Triple.weaken (reserve_spent hm₀ hw fun total => ?_) (fun m hm => hm.1)
    fun _ m hm => ⟨s, hs, hm⟩
  exact Triple.bind (zero_room (.array 1 s) [] 0) fun v => keeps_room (quiet_push v)

end Exec

end Pascaline
