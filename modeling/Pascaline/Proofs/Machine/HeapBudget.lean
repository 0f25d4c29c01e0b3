import Pascaline.Proofs.Machine.Spending

/-!
# Runs within the heap budget

No step of a run takes the heap beyond its budget, as long as the words that are asked for are
counted right. The count is one of 64-bit words, so that is a condition on the shapes of the units.
-/

namespace Pascaline

/-! ## The routines and classes of a program -/

namespace Program

variable {units : List CompiledUnit} {p : Program}

/-- Some unit has the routine. -/
def HasRoutine (units : List CompiledUnit) (r : Routine) : Prop := ∃ u ∈ units, r ∈ u.routines

theorem hasRoutine_of_resolve {ref : RoutineRef} {c : Callee} (h : resolve units ref = .ok c) :
    HasRoutine units c.routine := by
  obtain ⟨u, hu, hr⟩ := resolve_ok h
  exact ⟨u, List.mem_of_getElem? hu, mem_routines hr⟩

theorem Links.hasRoutine_of_calls (h : Links units p) {lu : LinkedUnit} (hlu : lu ∈ p.units)
    {c : Callee} (hc : c ∈ lu.calls) : HasRoutine units c.routine := by
  obtain ⟨u, hu⟩ := forall₂_mem_right h.units (Array.mem_toList_iff.mpr hlu)
  obtain ⟨ref, href⟩ := linkUnit_calls hu hc
  exact hasRoutine_of_resolve href

theorem Links.class_ok (h : Links units p) {c : LinkedClass} (hc : c ∈ p.classes) :
    (∃ u ∈ units, c.desc ∈ u.classes) ∧ (c.desc.shapes.length : Int) = c.desc.slots ∧
      ∀ callee ∈ c.vmt, HasRoutine units callee.routine := by
  have hclasses := forall₂_mono_mem h.classes
    (S := fun kd c => kd ∈ classDescs units ∧ linkClass units (classDescs units) kd.1 kd.2 = .ok c)
    fun kd hkd c hc => ⟨hkd, hc⟩
  obtain ⟨⟨key, d⟩, hkd, hlink⟩ := forall₂_mem_right hclasses (Array.mem_toList_iff.mpr hc)
  obtain ⟨rfl, hslots, hvmt⟩ := linkClass_ok hlink
  refine ⟨?_, hslots, fun callee hcallee => ?_⟩
  · obtain ⟨u, hu, hmem⟩ := List.mem_flatMap.mp hkd
    obtain ⟨d, hd, heq⟩ := List.mem_map.mp hmem
    cases heq
    exact ⟨u, hu, hd⟩
  · obtain ⟨ref, href⟩ := hvmt callee hcallee
    exact hasRoutine_of_resolve href

end Program

/-! ## What may be asked for -/

/-- All shapes that a unit mentions. -/
def CompiledUnit.shapes (u : CompiledUnit) : List Shape :=
  u.globals.map (·.shape) ++ u.classes.flatMap (·.shapes) ++
    u.routines.toList.flatMap (·.locals.toList) ++ u.pool.shapes.toList

/-- No shape of the units has a negative length. -/
def AllSized (units : List CompiledUnit) : Prop := ∀ u ∈ units, ∀ s ∈ u.shapes, s.Sized

section

variable {units : List CompiledUnit} (h : AllSized units)

include h

theorem AllSized.globals {u : CompiledUnit} (hu : u ∈ units) :
    ∀ s ∈ u.globals.map (·.shape), s.Sized :=
  fun s hs => h u hu s (by simp only [CompiledUnit.shapes, List.mem_append]; exact .inl (.inl (.inl hs)))

theorem AllSized.object {u : CompiledUnit} (hu : u ∈ units) {d : ClassDesc} (hd : d ∈ u.classes) :
    ∀ s ∈ d.shapes, s.Sized := by
  intro s hs
  refine h u hu s ?_
  simp only [CompiledUnit.shapes, List.mem_append, List.mem_flatMap]
  exact .inl (.inl (.inr ⟨d, hd, hs⟩))

theorem AllSized.routine {r : Routine} (hr : Program.HasRoutine units r) :
    ∀ s ∈ Exec.ownShapes r, s.Sized := by
  intro s hs
  obtain ⟨u, hu, hr⟩ := hr
  refine h u hu s ?_
  have hlocal : s ∈ r.locals.toList := List.mem_of_mem_drop hs
  simp only [CompiledUnit.shapes, List.mem_append, List.mem_flatMap]
  exact .inl (.inr ⟨r, Array.mem_toList_iff.mpr hr, hlocal⟩)

theorem AllSized.pool {u : CompiledUnit} (hu : u ∈ units) {k : Nat} {s : Shape}
    (hs : u.pool.shapes[k]? = some s) : s.Sized :=
  h u hu s (by simp [CompiledUnit.shapes, Array.mem_of_getElem? hs])

end

/-- The words of a frame, an object or a cell of these units. -/
inductive Needs (units : List CompiledUnit) : Nat → Prop
  | frame {u : CompiledUnit} {r : Routine} (hu : u ∈ units) (hr : r ∈ u.routines) :
      Needs units (Shape.roomOf (Exec.ownShapes r))
  | object {u : CompiledUnit} {d : ClassDesc} (hu : u ∈ units) (hd : d ∈ u.classes) :
      Needs units d.room
  | cell {u : CompiledUnit} {s : Shape} (hu : u ∈ units) (hs : s ∈ u.pool.shapes) :
      Needs units (Shape.array 1 s).room

/-- The words of an array that an instruction makes, given the operands and the budget. -/
def AsksArray (u : CompiledUnit) (i : Instr) (operands : List Value) (budget : Int) (w : Nat) :
    Prop :=
  ∃ s n, i.op = .newArray ∧ u.pool.shapes[i.a.toNat]? = some s ∧
    operands.head? = some (.int n) ∧ 0 ≤ n.toInt ∧ n.toInt ≤ budget ∧
    w = (Shape.array n.toInt s).room

/-- The words of the array that the next instruction of a machine makes. -/
def Machine.NextArray (p : Program) (m : Machine) (w : Nat) : Prop :=
  ∃ f i u, m.frames.head? = some f ∧ f.instr? = some i ∧ p.units[f.unit]? = some u ∧
    AsksArray u.unit i f.operands m.heap.budget w

namespace Exec

variable {units : List CompiledUnit} {p : Program} {u : LinkedUnit} {i : Instr} {h : Heap} {b : Int}

/-- What a heap must be like for the instructions of the units: within its budget, and no words that
may be asked for are too many to be counted. -/
structure Ready (units : List CompiledUnit) (b : Int) (h : Heap) : Prop where
  within : h.Within b
  sized : AllSized units
  counted : ∀ w, Needs units w → h.liveWords + w < 2 ^ 63

theorem Ready.counted_routine (hh : Ready units b h) {r : Routine}
    (hr : Program.HasRoutine units r) :
    h.liveWords + Shape.roomOf (ownShapes r) < 2 ^ 63 := by
  obtain ⟨u, hu, hr⟩ := hr
  exact hh.counted _ (.frame hu hr)

theorem Quiet.within {α : Type} {x : Exec α} (hx : Quiet x) (hh : h.Within b) :
    Triple (·.heap = h) x (fun _ m => m.heap.Within b) (fun _ m => m.heap.Within b) :=
  hx.stays.pre fun _ hm => hm ▸ hh

theorem call_within (hh : Ready units b h) {c : Callee} (hc : Program.HasRoutine units c.routine)
    (argc : Int) :
    Triple (·.heap = h) (call p c argc) (fun _ m => m.heap.Within b)
      (fun _ m => m.heap.Within b) := by
  rintro m rfl
  exact ((call_spent hh.within (hh.sized.routine hc) (hh.counted_routine hc) argc).post
    fun _ _ hs => hs.within) m rfl

theorem hasRoutine_of_value (hlink : Program.Links units p) {v : Value} {c : Callee} {m m' : Machine}
    (h : routineValue p v m = .ok c m') : Program.HasRoutine units c.routine := by
  unfold routineValue at h
  split at h
  case h_1 => cases h
  case h_3 => cases h
  case h_2 name i _ =>
    cases hu : p.unit? name with
    | none =>
      rw [hu] at h
      cases h
    | some u =>
      simp only [hu] at h
      cases hr : u.2.routine? i.toInt with
      | none =>
        simp only [hr] at h
        cases h
      | some r =>
        simp only [hr] at h
        cases h
        obtain ⟨i, -, hunit⟩ := Option.bind_eq_some_iff.mp hu
        obtain ⟨lu, hlu, rfl⟩ := Option.map_eq_some_iff.mp hunit
        exact ⟨lu.unit, hlink.mem_units (Array.mem_of_getElem? hlu), Program.mem_routines hr⟩

theorem control_within (hh : Ready units b h) (hlink : Program.Links units p) (hu : u ∈ p.units) :
    Triple (·.heap = h) (control p u i) (fun _ m => m.heap.Within b)
      (fun _ m => m.heap.Within b) := by
  have hstop : ∀ m : Machine, m.heap = h → m.heap.Within b := fun m hm => hm ▸ hh.within
  unfold control
  dsimp only
  split
  case h_1 => exact (quiet_modifyTop _).within hh.within
  case h_2 =>
    -- branch
    refine Quiet.within (quiet_pop.bind fun v => ?_) hh.within
    exact .ite (quiet_modifyTop _) (quiet_modifyTop _)
  case h_3 => exact (quiet_leave _).within hh.within
  case h_4 =>
    -- call
    refine Triple.bind (Triple.entry hstop) fun c => ?_
    refine Triple.fact (fun m hm => Array.mem_of_getElem? hm.2.2) fun hc => ?_
    exact (call_within hh (hlink.hasRoutine_of_calls hu hc) _).pre fun m hm => hm.1
  case h_5 =>
    -- callVirtual
    refine Triple.bind (Triple.top hstop) fun f => ?_
    refine Triple.unless (fun _ m hm => hstop m hm.1) fun _ => ?_
    refine Triple.bind (Triple.look (Looks.object _) fun m e hm => hstop m hm.1) ?_
    rintro ⟨k, c⟩
    dsimp only
    split
    · exact Triple.raise fun m hm => hstop m hm.1.1
    case h_2 k hk =>
      refine Triple.unless (fun _ m hm => hstop m hm.1.1) fun _ => ?_
      refine Triple.bind (Triple.entry fun m hm => hstop m hm.1.1) fun callee => ?_
      refine Triple.fact (fun m hm => Array.mem_of_getElem? hm.2.2) fun hcallee => ?_
      cases hclass : p.classes[k]? with
      | none => simp [hclass] at hcallee
      | some d =>
        have hvmt := (hlink.class_ok (Array.mem_of_getElem? hclass)).2.2 callee
          (by simpa [hclass] using hcallee)
        exact (call_within hh hvmt _).pre fun m hm => hm.1.1.1
  case h_6 =>
    -- callIndirect
    refine Triple.bind (Triple.top hstop) fun f => ?_
    refine Triple.unless (fun _ m hm => hstop m hm.1) fun _ => ?_
    refine Triple.unlessBroken (fun _ m hm => hstop m hm.1) fun _ => ?_
    refine Triple.bind (Triple.look (Looks.routineValue _ _) fun m e hm => hstop m hm.1) fun c => ?_
    refine Triple.fact (fun m hm => hasRoutine_of_value hlink hm.2) fun hc => ?_
    refine Triple.bind (R := fun _ m => m.heap = h) ?_ fun _ => call_within hh hc _
    refine Triple.weaken (((quiet_modifyTop _) h).halting fun _ m hm => hstop m hm) ?_ fun _ _ hm => hm
    exact fun m hm => hm.1.1
  case h_7 =>
    -- callNative
    refine Quiet.within ((looks_entry _ _).quiet.bind fun n => ?_) hh.within
    exact quiet_callNative n _
  case h_8 => exact (Quiet.raise _).within hh.within

theorem allocate_within (hh : Ready units b h) (hlink : Program.Links units p) (hu : u ∈ p.units)
    {ops : List Value} (harray : ∀ w, AsksArray u.unit i ops b w → h.liveWords + w < 2 ^ 63) :
    Triple (fun m => m.heap = h ∧ ∃ f, m.frames.head? = some f ∧ f.operands = ops) (allocate p u i)
      (fun _ m => m.heap.Within b) (fun _ m => m.heap.Within b) := by
  rintro m ⟨rfl, f, hf, rfl⟩
  suffices hx : Triple (· = m) (allocate p u i) (fun _ m => m.heap.Within b)
      (fun _ m => m.heap.Within b) from hx m rfl
  by_cases hobject : i.op = .newObject
  · refine (newObject_spent hh.within hobject fun k d _ hd => ?_).post
      fun _ _ ⟨_, _, _, _, hs⟩ => hs.within
    obtain ⟨⟨c, hc, hdesc⟩, hslots, -⟩ := hlink.class_ok (Array.mem_of_getElem? hd)
    exact ⟨hslots, hh.sized.object hc hdesc, hh.counted _ (.object hc hdesc)⟩
  by_cases hnew : i.op = .newArray
  · refine (newArray_spent hh.within hnew hf fun s n hs hn hpos hle => ?_).post
      fun _ _ ⟨_, _, _, _, hs⟩ => hs.within
    exact ⟨hh.sized.pool (hlink.mem_units hu) hs, harray _ ⟨s, n, hnew, hs, hn, hpos, hle, rfl⟩⟩
  by_cases hcell : i.op = .newCell
  · refine (newCell_spent hh.within hcell fun s hs => ?_).post fun _ _ ⟨_, _, hs⟩ => hs.within
    exact ⟨hh.sized.pool (hlink.mem_units hu) hs,
      hh.counted _ (.cell (hlink.mem_units hu) (Array.mem_of_getElem? hs))⟩
  unfold allocate
  split
  case h_2 =>
    -- unpin
    refine Triple.bind (Triple.look Looks.peek fun m e hm => hm ▸ hh.within) fun v => ?_
    refine Triple.modify ?_
    rintro m ⟨rfl, -⟩
    exact hh.within.update v.handle (f := fun c => { c with pins := c.pins - 1 }) fun _ _ => rfl
  case h_5 => exact Triple.raise fun m hm => hm ▸ hh.within
  all_goals contradiction

theorem instr_within (hh : Ready units b h) (hlink : Program.Links units p) (hu : u ∈ p.units)
    {ops : List Value} (harray : ∀ w, AsksArray u.unit i ops b w → h.liveWords + w < 2 ^ 63) :
    Triple (fun m => m.heap = h ∧ ∃ f, m.frames.head? = some f ∧ f.operands = ops) (instr p u i)
      (fun _ m => m.heap.Within b) (fun _ m => m.heap.Within b) := by
  have hquiet : ∀ x : Exec Unit, Quiet x →
      Triple (fun m => m.heap = h ∧ ∃ f, m.frames.head? = some f ∧ f.operands = ops) x
        (fun _ m => m.heap.Within b) (fun _ m => m.heap.Within b) :=
    fun x hx => (hx.within hh.within).pre fun m hm => hm.1
  unfold instr
  split
  case h_1 f _ =>
    refine hquiet _ (quiet_pop.bind fun y => quiet_pop.bind fun x => ?_)
    exact (looks_check _).quiet.bind fun v => quiet_push v
  case h_2 =>
    refine hquiet _ (quiet_pop.bind fun x => ?_)
    exact (looks_check _).quiet.bind fun v => quiet_push v
  case h_3 => exact hquiet _ (quiet_pop.bind fun y => quiet_pop.bind fun x => quiet_push _)
  case h_4 =>
    split
    case h_1 => exact hquiet _ (.pure _)
    case h_2 => exact hquiet _ ((looks_entry _ _).quiet.bind fun v => quiet_push v)
    case h_3 => exact hquiet _ fun h => Triple.discard (quiet_pop h)
    case h_4 => exact hquiet _ (Looks.peek.quiet.bind fun v => quiet_push v)
    case h_5 => exact hquiet _ (quiet_pop.bind fun v => quiet_push _)
    case h_6 =>
      refine hquiet _ (quiet_pop.bind fun v => ?_)
      split
      · exact quiet_push _
      · exact quiet_push _
    case h_7 => exact hquiet _ ((looks_entry _ _).quiet.bind fun c => quiet_push _)
    case h_21 => exact (control_within hh hlink hu).pre fun m hm => hm.1
    case h_17 | h_18 | h_19 | h_20 => exact allocate_within hh hlink hu harray
    all_goals exact (stays_access u i).pre fun m hm => hm.1 ▸ hh.within

theorem marking_within {x : Exec Unit} {P : Machine → Prop}
    (hx : Triple P x (fun _ m => m.heap.Within b) (fun _ m => m.heap.Within b)) :
    Triple P (marking x) (fun _ m => m.heap.Within b) (fun _ m => m.heap.Within b) := by
  intro m hm
  have hx := hx m hm
  unfold marking
  cases hxm : x m with
  | ok a m' =>
    rw [hxm] at hx
    exact hx
  | error e m' =>
    rw [hxm] at hx
    exact (quiet_modifyTop ({ · with state := .faulted })).stays m' hx

theorem step_within {m₀ : Machine} (hlink : Program.Links units p) (hh : Ready units b m₀.heap)
    (harray : ∀ w, m₀.NextArray p w → m₀.heap.liveWords + w < 2 ^ 63) :
    Triple (· = m₀) (step p) (fun _ m => m.heap.Within b) (fun _ m => m.heap.Within b) := by
  unfold step
  refine Triple.bind Triple.get fun m₁ => ?_
  refine Triple.fact (p := m₁ = m₀) (fun m hm => hm.1.trans hm.2) ?_
  rintro rfl
  refine Triple.ite (fun _ => Triple.pure fun m hm => hm.1 ▸ hh.within) fun _ => ?_
  dsimp only
  refine Triple.unless (fun _ m hm => hm.2 ▸ hh.within) fun _ => ?_
  split
  case h_1 => exact Triple.pure fun m hm => hm.2 ▸ hh.within
  case h_2 e rest hframes hpending =>
    -- The next entry routine.
    refine Triple.bind (R := fun _ m => m.heap = m₁.heap) (Triple.set fun m hm => rfl) fun _ => ?_
    split
    · exact Triple.raise fun m hm => hm ▸ hh.within
    case h_2 c hc =>
      rintro m hm
      have hroutine : Program.HasRoutine units c.routine := by
        obtain ⟨u, hu, hc⟩ := Option.bind_eq_some_iff.mp hc
        obtain ⟨r, hr, heq⟩ := Option.bind_eq_some_iff.mp hc
        cases heq
        exact ⟨u.unit, hlink.mem_units (Array.mem_of_getElem? hu), Program.mem_routines hr⟩
      have hw := hh.counted_routine hroutine
      rw [← hm] at hw
      exact ((enterFirst_spent (hm ▸ hh.within) (hh.sized.routine hroutine) hw).post
        fun _ _ hs => hs.within) m rfl
  case h_3 f rest hframes =>
    split
    case h_2 => exact Triple.raise fun m hm => hm.2 ▸ hh.within
    case h_1 i u hi hu =>
      have harray' : ∀ w, AsksArray u.unit i f.operands b w → m₁.heap.liveWords + w < 2 ^ 63 :=
        fun w hw => harray w ⟨f, i, u, by rw [hframes]; rfl, hi, hu, hh.within.budget ▸ hw⟩
      refine Triple.bind (R := fun _ m => m.heap = m₁.heap ∧
        ∃ g, m.frames.head? = some g ∧ g.operands = f.operands) ?_ fun _ => ?_
      · exact Triple.set fun m hm => ⟨rfl, _, rfl, rfl⟩
      refine Triple.bind (R := fun _ m => m.heap = m₁.heap ∧
        ∃ g, m.frames.head? = some g ∧ g.operands = f.operands) ?_ fun _ => ?_
      · refine Triple.modify fun m hm => ?_
        unfold Machine.log
        split
        · split
          · exact hm
          · exact hm
        · exact hm
      · exact marking_within (instr_within hh hlink (Array.mem_of_getElem? hu) harray')

/-! ## What is reserved is what is spent -/

/-- From `m`, `x` makes room for `w` words and takes just so many, or stops. -/
def Spends {α : Type} (m : Machine) (x : Exec α) (w : Nat) : Prop :=
  ∀ b, m.heap.Within b → m.heap.liveWords + w < 2 ^ 63 →
    Triple (· = m) x (fun _ => Spent b m w) (fun _ m => m.heap.Within b)

theorem globals_spend {u : CompiledUnit} (hsized : ∀ s ∈ u.globals.map (·.shape), s.Sized)
    (m : Machine) :
    Spends m
      (do reserve (slotWords (u.globals.map (·.shape))); zeroAll (u.globals.map (·.shape)))
      u.globalRoom := by
  intro b hm hw
  have hcount : slotWords (u.globals.map (·.shape)) = u.globalRoom :=
    Shape.slotWords_eq_roomOf hsized (Nat.lt_of_le_of_lt (Nat.le_add_left _ _) hw)
  rw [hcount]
  exact reserve_spent hm hw fun total => (zeroAll_room _ 0).post fun _ _ hs => hs.1

end Exec

/-- Wherever a program takes words of the heap, they are the words that it made room for. -/
structure Program.SpendsReserved (units : List CompiledUnit) (p : Program) : Prop where
  globals : ∀ u ∈ units, ∀ m, Exec.Spends m
    (do Exec.reserve (slotWords (u.globals.map (·.shape))); Exec.zeroAll (u.globals.map (·.shape)))
    u.globalRoom
  calls : ∀ c : Callee, HasRoutine units c.routine → ∀ argc m,
    Exec.Spends m (Exec.call p c argc) (Shape.roomOf (Exec.ownShapes c.routine))
  entries : ∀ c : Callee, HasRoutine units c.routine → ∀ m,
    Exec.Spends m (do Exec.reserve (← Exec.frameWords c.routine); Exec.enter p c [])
      (Shape.roomOf (Exec.ownShapes c.routine))
  objects : ∀ u ∈ p.units, ∀ i k d, i.op = .newObject → u.classes[i.a.toNat]? = some k →
    p.classes[k]? = some d → ∀ m, Exec.Spends m (Exec.allocate p u i) d.desc.room
  arrays : ∀ u ∈ p.units, ∀ i s n f, i.op = .newArray → u.unit.pool.shapes[i.a.toNat]? = some s →
    f.operands.head? = some (.int n) → ∀ m, m.frames.head? = some f →
      Exec.Spends m (Exec.allocate p u i) (Shape.array n.toInt s).room
  cells : ∀ u ∈ p.units, ∀ i s, i.op = .newCell → u.unit.pool.shapes[i.a.toNat]? = some s →
    ∀ m, Exec.Spends m (Exec.allocate p u i) (Shape.array 1 s).room

open Exec in
theorem Program.Links.spendsReserved {units : List CompiledUnit} {p : Program}
    (hlink : Links units p) (hsized : AllSized units) : SpendsReserved units p := by
  refine ⟨?_, ?_, ?_, ?_, ?_, ?_⟩
  · exact fun u hu m => globals_spend (hsized.globals hu) m
  · exact fun c hc argc m b hm hw => call_spent hm (hsized.routine hc) hw argc
  · exact fun c hc m b hm hw => enterFirst_spent hm (hsized.routine hc) hw
  · intro u hu i k d hop hk hd m b hm hw
    obtain ⟨⟨c, hc, hdesc⟩, hslots, -⟩ := hlink.class_ok (Array.mem_of_getElem? hd)
    refine (newObject_spent hm hop ?_).post ?_
    · intro k' d' hk' hd'
      rw [hk, Option.some.injEq] at hk'
      subst hk'
      rw [hd, Option.some.injEq] at hd'
      subst hd'
      exact ⟨hslots, hsized.object hc hdesc, hw⟩
    · rintro _ m' ⟨k', d', hk', hd', hspent⟩
      rw [hk, Option.some.injEq] at hk'
      subst hk'
      rw [hd, Option.some.injEq] at hd'
      subst hd'
      exact hspent
  · intro u hu i s n f hop hs hn m hf b hm hw
    refine (newArray_spent hm hop hf ?_).post ?_
    · intro s' n' hs' hn' _ _
      rw [hs, Option.some.injEq] at hs'
      subst hs'
      obtain rfl : n = n' := by simpa [hn] using hn'
      exact ⟨hsized.pool (hlink.mem_units hu) hs, hw⟩
    · rintro _ m' ⟨s', n', hs', hn', hspent⟩
      rw [hs, Option.some.injEq] at hs'
      subst hs'
      obtain rfl : n = n' := by simpa [hn] using hn'
      exact hspent
  · intro u hu i s hop hs m b hm hw
    refine (newCell_spent hm hop ?_).post ?_
    · intro s' hs'
      rw [hs, Option.some.injEq] at hs'
      subst hs'
      exact ⟨hsized.pool (hlink.mem_units hu) hs, hw⟩
    · rintro _ m' ⟨s', hs', hspent⟩
      rw [hs, Option.some.injEq] at hs'
      subst hs'
      exact hspent

/-! ## Runs -/

namespace Machine

variable {units : List CompiledUnit} {p : Program} {m₀ m : Machine} {b : Int}

/-- The states that a machine comes to by steps, whether they fault or not, and by requests to
stop. -/
inductive Reaches (p : Program) (m₀ : Machine) : Machine → Prop
  | start : Reaches p m₀ m₀
  | step {m : Machine} (h : Reaches p m₀ m) : Reaches p m₀ (m.step p).machine
  | stop {m : Machine} (h : Reaches p m₀ m) : Reaches p m₀ m.requestStop

theorem within_step (hlink : Program.Links units p) (hm : Exec.Ready units b m.heap)
    (harray : ∀ w, m.NextArray p w → m.heap.liveWords + w < 2 ^ 63) :
    (m.step p).machine.heap.Within b := by
  have hstep := Exec.step_within hlink hm harray m rfl
  unfold step
  cases hsm : Exec.step p m with
  | ok a m' =>
    rw [hsm] at hstep
    exact hstep
  | error e m' =>
    rw [hsm] at hstep
    exact hstep

/-- A run stays within its budget if it asks for words that are counted right while it does. -/
theorem Reaches.within (hlink : Program.Links units p) (hsized : AllSized units)
    (hm₀ : m₀.heap.Within b)
    (hcounted : ∀ m, Reaches p m₀ m → m.heap.Within b →
      ∀ w, Needs units w ∨ m.NextArray p w → m.heap.liveWords + w < 2 ^ 63)
    (hm : Reaches p m₀ m) : m.heap.Within b := by
  induction hm with
  | start => exact hm₀
  | step h ih =>
    have hw := hcounted _ h ih
    exact within_step hlink ⟨ih, hsized, fun w hneed => hw w (.inl hneed)⟩
      fun w harray => hw w (.inr harray)
  | stop _ ih => exact ih

theorem makeGlobals_within (us : List LinkedUnit)
    (hsized : ∀ u ∈ us, ∀ s ∈ u.unit.globals.map (·.shape), s.Sized) :
    Exec.Triple
      (fun m => m.heap.Within b ∧ m.heap.liveWords + (us.map (·.unit.globalRoom)).sum < 2 ^ 63)
      (makeGlobals us) (fun _ m => m.heap.Within b) (fun _ m => m.heap.Within b) := by
  induction us with
  | nil => exact Exec.Triple.pure fun m hm => hm.1
  | cons u us ih =>
    rintro m ⟨hm, hw⟩
    rw [List.map_cons, List.sum_cons] at hw
    have hspend := Exec.globals_spend (hsized u List.mem_cons_self) m b hm (by omega)
    suffices hx : Exec.Triple (· = m) (makeGlobals (u :: us)) (fun _ m => m.heap.Within b)
        (fun _ m => m.heap.Within b) from hx m rfl
    rw [makeGlobals, ← bind_assoc]
    refine Exec.Triple.bind hspend fun values => ?_
    refine Exec.Triple.bind (R := fun _ m => m.heap.Within b ∧
      m.heap.liveWords + (us.map (·.unit.globalRoom)).sum < 2 ^ 63) ?_
      fun _ => ih fun u hu => hsized u (List.mem_cons_of_mem _ hu)
    refine Exec.Triple.modify ?_
    rintro m' ⟨hwithin, m₁, -, hle, hwords⟩
    refine ⟨hwithin, ?_⟩
    dsimp only
    omega

theorem start_within {o : RunOptions} (hlink : Program.Links units p) (hsized : AllSized units)
    (hglobals : (units.map (·.globalRoom)).sum < 2 ^ 63) (hstart : start p o = .ok m₀) :
    m₀.heap.Within m₀.heap.budget := by
  have hblank := Heap.Within.ofBudget o.heapBudget
  have hunits : (p.units.toList.map (·.unit.globalRoom)) = units.map (·.globalRoom) := by
    rw [← hlink.units_eq, List.map_map]
    rfl
  have hmade := makeGlobals_within (b := (Heap.ofBudget o.heapBudget).budget) p.units.toList
    (fun u hu => hsized.globals (hlink.mem_units (Array.mem_toList_iff.mp hu))) (blank o)
    ⟨hblank, by simpa [hunits, blank, Heap.ofBudget] using hglobals⟩
  unfold start at hstart
  cases hx : makeGlobals p.units.toList (blank o) with
  | ok a m =>
    rw [hx] at hstart hmade
    cases hstart
    have hwithin : m.heap.Within (Heap.ofBudget o.heapBudget).budget := hmade
    rw [hwithin.budget]
    exact hwithin
  | error e m =>
    rw [hx] at hstart
    cases hstart

end Machine

/-- In every state of a run, neither the words in use nor the handles ever used are more than the
budget, and what was reserved for a frame, variables, an object, an array or a cell is what they
take, as long as no count of words is too large for its 64-bit word. -/
theorem heap_stays_in_budget {units : List CompiledUnit} {p : Program} {o : RunOptions}
    {m₀ : Machine} (hlink : Program.link units = .ok p)
    (hsized : ∀ u ∈ units, ∀ s ∈ u.shapes, s.Sized)
    (hglobals : (units.map (·.globalRoom)).sum < 2 ^ 63) (hstart : Machine.start p o = .ok m₀)
    (hcounted : ∀ m, m₀.Reaches p m → ∀ w, Needs units w ∨ m.NextArray p w →
      m.heap.liveWords + w < 2 ^ 63) :
    (∀ m, m₀.Reaches p m → (m.heap.liveWords : Int) ≤ m.heap.budget ∧
      (m.heap.capacity : Int) ≤ m.heap.budget) ∧
    p.SpendsReserved units := by
  have hlinks := Program.links_of_link hlink
  have hm₀ := Machine.start_within hlinks hsized hglobals hstart
  refine ⟨?_, hlinks.spendsReserved hsized⟩
  intro m hm
  have hwithin := hm.within hlinks hsized hm₀ fun m hm _ => hcounted m hm
  rw [hwithin.budget]
  exact ⟨hwithin.liveWords, hwithin.capacity⟩

/-- A variable, a frame, a class and elements that all have arrays in them. -/
def nests : CompiledUnit :=
  { name := "nests", display := "nests", globals := [⟨"grid", .array 2 (.array 3 .int)⟩], main := 0,
    classes := [{ name := "box", slots := 1, shapes := [.array 2 .int] }],
    pool := { consts := #[.int 2], classes := #[⟨"nests", "box"⟩],
              shapes := #[.array 1 .int, .int] },
    table := some #[{ name := "main", locals := #[.array 1 .int], blocks := #[#[
      { op := .newObject }, { op := .unpin }, { op := .pop }, { op := .const }, { op := .newArray },
      { op := .pop }, { op := .newCell, a := 1 }, { op := .ret }]] }] }

def nestsProgram : Program := (Program.link [nests]).toOption.getD {}

/-- There is no room for the array as long as the object is there. -/
def nestsStart : Machine :=
  ((Machine.start nestsProgram { heapBudget := 20 }).toOption).getD
    { heap := .ofBudget 20, maxFrames := 0 }

theorem nests_sized : AllSized [nests] := by
  intro u hu
  obtain rfl := List.mem_singleton.mp hu
  simp [CompiledUnit.shapes, CompiledUnit.routines, nests, Shape.Sized]

theorem needs_nests {w : Nat} (h : Needs [nests] w) : w ≤ 5 := by
  cases h with
  | @frame u r hu hr =>
    obtain rfl := List.mem_singleton.mp hu
    obtain rfl : r = nests.routines[0] := by simpa [CompiledUnit.routines, nests] using hr
    decide
  | @object u d hu hd =>
    obtain rfl := List.mem_singleton.mp hu
    obtain rfl := List.mem_singleton.mp hd
    decide
  | @cell u s hu hs =>
    obtain rfl := List.mem_singleton.mp hu
    obtain rfl | rfl : s = .array 1 .int ∨ s = .int := by simpa [nests] using hs
    · decide
    · decide

theorem nests_links : Program.link [nests] = .ok nestsProgram := eq_ok_of_isSome (by decide +kernel)

theorem nextArray_nests {m : Machine} {w : Nat} (hm : m.heap.Within 20)
    (h : m.NextArray nestsProgram w) : w ≤ 61 := by
  obtain ⟨f, i, u, -, -, hu, s, n, -, hs, -, hpos, hle, rfl⟩ := h
  have hunit := (Program.links_of_link nests_links).mem_units (Array.mem_of_getElem? hu)
  rw [List.mem_singleton.mp hunit] at hs
  have hroom : s.room ≤ 2 := by
    obtain rfl | rfl : s = .array 1 .int ∨ s = .int := by
      simpa [nests] using Array.mem_of_getElem? hs
    · decide
    · decide
  rw [hm.budget] at hle
  have hn : n.toInt.toNat ≤ 20 := by omega
  have hmul : n.toInt.toNat * s.room ≤ 20 * 2 := Nat.mul_le_mul hn hroom
  rw [Shape.room]
  omega

theorem heap_stays_in_budget_nests :
    (Machine.run nestsProgram 6 nestsStart).machine.heap.liveWords = 20 ∧
    (Machine.run nestsProgram 6 nestsStart).machine.heap.collections = 1 ∧
    ∀ m, nestsStart.Reaches nestsProgram m → (m.heap.liveWords : Int) ≤ m.heap.budget ∧
      (m.heap.capacity : Int) ≤ m.heap.budget := by
  have hstart : Machine.start nestsProgram { heapBudget := 20 } = .ok nestsStart :=
    eq_ok_of_isSome (by decide +kernel)
  have hglobals : ([nests].map (·.globalRoom)).sum < 2 ^ 63 := by decide
  have hbudget : nestsStart.heap.budget = 20 := by decide +kernel
  have hwithin : nestsStart.heap.Within 20 := hbudget ▸
    Machine.start_within (Program.links_of_link nests_links) nests_sized hglobals hstart
  have hcounted : ∀ m : Machine, m.heap.Within 20 →
      ∀ w, Needs [nests] w ∨ m.NextArray nestsProgram w → m.heap.liveWords + w < 2 ^ 63 := by
    intro m hm w hw
    have hlive := hm.liveWords
    have hle : w ≤ 61 :=
      hw.elim (fun hw => Nat.le_trans (needs_nests hw) (by omega)) (nextArray_nests hm)
    omega
  refine ⟨by decide +kernel, by decide +kernel, ?_⟩
  refine (heap_stays_in_budget nests_links nests_sized hglobals hstart fun m hm => ?_).1
  exact hcounted m (hm.within (Program.links_of_link nests_links) nests_sized hwithin
    fun m _ hm => hcounted m hm)

end Pascaline
