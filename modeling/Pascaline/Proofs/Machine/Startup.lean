import Pascaline.Proofs.Machine.CallStack
import Pascaline.Proofs.Machine.Safety

/-!
# The order in which units start up

A run enters the initializations of the units one after the other and then the main block, each on
an empty stack and after the one before has returned. Units are linked only behind those they use,
so a unit starts when all it uses is initialized.
-/

namespace Pascaline

namespace Program

variable {units : List CompiledUnit} {p : Program}

/-! ## The order -/

/-- The initializations of units, in their order. -/
def initializations (units : List CompiledUnit) : List EntryPoint :=
  units.zipIdx.filterMap fun (u, i) => if 0 ≤ u.init then some ⟨i, u.init⟩ else none

/-- The main block of the program among units, the last if there are several. -/
def mainBlock? (units : List CompiledUnit) : Option EntryPoint :=
  (units.zipIdx.filter (·.1.kind == .program)).getLast?.bind fun (u, i) =>
    if 0 ≤ u.main then some ⟨i, u.main⟩ else none

def startOrder (units : List CompiledUnit) : List EntryPoint :=
  initializations units ++ (mainBlock? units).toList

theorem Links.entries_eq (h : Links units p) : p.entries = startOrder units := by
  have hzip : units.zipIdx = p.units.toList.zipIdx.map fun x => (x.1.unit, x.2) := by
    rw [← h.units_eq, List.zipIdx_map]
    rfl
  unfold entries startOrder initializations mainBlock?
  rw [hzip, List.filterMap_map, List.filter_map, List.getLast?_map, List.getLast?_eq_head?_reverse,
    ← List.filter_reverse, List.head?_filter, Option.bind_map]
  rfl

theorem mem_initializations {i : Nat} {u : CompiledUnit} (hu : units[i]? = some u)
    (hinit : 0 ≤ u.init) : ⟨i, u.init⟩ ∈ initializations units := by
  refine List.mem_filterMap.mpr ⟨(u, i), List.mem_zipIdx_iff_getElem?.mpr hu, ?_⟩
  simp [hinit]

theorem initializations_sorted (units : List CompiledUnit) :
    (initializations units).Pairwise fun a b => a.unit < b.unit := by
  have hzip : units.zipIdx.Pairwise fun a b => a.2 < b.2 := by
    rw [List.pairwise_iff_getElem]
    intro i j hi hj hij
    simpa using hij
  refine List.Pairwise.filterMap _ ?_ hzip
  rintro ⟨u, i⟩ ⟨v, j⟩ hij a ha b hb
  simp only [Option.ite_none_right_eq_some, Option.some.injEq] at ha hb
  obtain ⟨-, rfl⟩ := ha
  obtain ⟨-, rfl⟩ := hb
  exact hij

/-- What comes before an entry routine of a unit has the initializations of the units before. -/
theorem mem_before {before rest : List EntryPoint} {e : EntryPoint} {i : Nat} {u : CompiledUnit}
    (h : startOrder units = before ++ e :: rest) (hu : units[i]? = some u) (hinit : 0 ≤ u.init)
    (hlt : i < e.unit) : ⟨i, u.init⟩ ∈ before := by
  have hmem := mem_initializations hu hinit
  have hsorted := initializations_sorted units
  rcases List.append_eq_append_iff.mp h with ⟨mid, hbefore, -⟩ | ⟨mid, hinits, hmain⟩
  · rw [hbefore]
    exact List.mem_append_left _ hmem
  · cases mid with
    | nil =>
      rw [hinits, List.append_nil] at hmem
      exact hmem
    | cons e' mid =>
      obtain rfl : e = e' := by simpa using congrArg List.head? hmain
      rw [hinits] at hmem hsorted
      rcases List.mem_append.mp hmem with hmem | hmem
      · exact hmem
      · have hle : ∀ e' ∈ e :: mid, e.unit ≤ e'.unit := by
          intro e' he'
          rcases List.mem_cons.mp he' with rfl | he'
          · exact Nat.le_refl _
          · exact Nat.le_of_lt (List.rel_of_pairwise_cons (List.pairwise_append.mp hsorted).2.1 he')
        exact absurd (hle _ hmem) (Nat.not_le.mpr hlt)

/-! ## What the linker checks -/

theorem exists_of_unitIndex? {name : String} (h : (unitIndex? units name).isSome) :
    ∃ u ∈ units, u.name = name := by
  rw [unitIndex?, List.findIdx?_isSome, List.any_eq_true] at h
  obtain ⟨u, hu, hname⟩ := h
  exact ⟨u, hu, beq_iff_eq.mp hname⟩

theorem checkUnit_ok {u : CompiledUnit} (h : checkUnit units u = .ok ()) :
    (∀ v ∈ units, v.name ≠ u.name) ∧ ∀ used ∈ u.imports, ∃ v ∈ units, v.name = used := by
  unfold checkUnit at h
  split at h
  · cases h
  case isFalse hnew =>
    refine ⟨fun v hv hname => hnew ?_, fun used hused => ?_⟩
    · rw [unitIndex?, List.findIdx?_isSome, List.any_eq_true]
      exact ⟨v, hv, beq_iff_eq.mpr hname⟩
    · have hfound := forM_eq_ok_iff.mp h used hused
      split at hfound
      · cases hfound
      case isFalse hsome =>
        exact exists_of_unitIndex? (Option.isSome_iff_ne_none.mpr (Option.isNone_iff_eq_none.not.mp hsome))

theorem checkUnits_cons {before us : List CompiledUnit} {u : CompiledUnit}
    (h : checkUnits before (u :: us) = .ok ()) :
    checkUnit before u = .ok () ∧ checkUnits (before ++ [u]) us = .ok () := by
  obtain ⟨_, hu, h⟩ := except_bind_ok h
  exact ⟨hu, h⟩

theorem checkUnit_of_checkUnits {before us : List CompiledUnit}
    (h : checkUnits before us = .ok ()) {k : Nat} {u : CompiledUnit} (hu : us[k]? = some u) :
    checkUnit (before ++ us.take k) u = .ok () := by
  induction us generalizing before k with
  | nil => simp at hu
  | cons v us ih =>
    obtain ⟨hv, h⟩ := checkUnits_cons h
    cases k with
    | zero =>
      obtain rfl : v = u := by simpa using hu
      simpa using hv
    | succ k => simpa using ih h (by simpa using hu)

theorem Links.checkUnit (h : Links units p) {k : Nat} {u : CompiledUnit} (hu : units[k]? = some u) :
    checkUnit (units.take k) u = .ok () := by
  simpa using checkUnit_of_checkUnits h.checked hu

theorem Links.index_unique (h : Links units p) {i k : Nat} {u v : CompiledUnit}
    (hv : units[i]? = some v) (hu : units[k]? = some u) (hname : v.name = u.name) : i = k := by
  have hne : ∀ {i k : Nat} {u v : CompiledUnit}, units[i]? = some v → units[k]? = some u →
      v.name = u.name → ¬i < k := by
    intro i k u v hv hu hname hlt
    refine (checkUnit_ok (h.checkUnit hu)).1 v ?_ hname
    exact List.mem_of_getElem? ((List.getElem?_take_of_lt hlt).trans hv)
  have h₁ := hne hv hu hname
  have h₂ := hne hu hv hname.symm
  omega

theorem Links.used_before (h : Links units p) {k : Nat} {u : CompiledUnit}
    (hu : units[k]? = some u) {used : String} (hused : used ∈ u.imports) :
    ∃ i < k, ∃ v, units[i]? = some v ∧ v.name = used := by
  obtain ⟨v, hv, hname⟩ := (checkUnit_ok (h.checkUnit hu)).2 used hused
  obtain ⟨i, hi⟩ := List.mem_iff_getElem?.mp hv
  have hlt : i < k := by
    have := (List.getElem?_eq_some_iff.mp hi).1
    rw [List.length_take] at this
    omega
  rw [List.getElem?_take_of_lt hlt] at hi
  exact ⟨i, hlt, v, hi, hname⟩

end Program

/-! ## Runs -/

theorem SameRoutines.getLast? {fs gs : List Frame} (h : SameRoutines fs gs) {f : Frame}
    (hf : fs.getLast? = some f) :
    ∃ g, gs.getLast? = some g ∧ g.unit = f.unit ∧ g.routine = f.routine := by
  have hlast := forall₂_head? (List.forall₂_reverse_iff.mpr h)
  rw [List.head?_reverse, List.head?_reverse, hf] at hlast
  generalize gs.getLast? = last at hlast
  cases hlast with
  | some hg => exact ⟨_, rfl, hg⟩

namespace Machine

variable {p : Program} {m₀ : Machine} {e : Program.EntryPoint} {i j n : Nat}

/-- The first so many steps of a run neither stop it nor halt it. -/
def Proceeds (p : Program) (m₀ : Machine) (n : Nat) : Prop :=
  ∀ k < n, ((m₀.after p k).step p).stop = none ∧ (m₀.after p (k + 1)).halted = false

/-- The frames that the first so many steps of a run put on an empty stack. -/
def bottoms (p : Program) (m₀ : Machine) : Nat → List Frame
  | 0 => []
  | n + 1 => m₀.bottoms p n ++
    if (m₀.after p n).frames.isEmpty then (m₀.after p (n + 1)).frames else []

/-- Step `i` enters an entry routine on an empty stack, and until step `n` it does not return. -/
structure Occupies (p : Program) (m₀ : Machine) (e : Program.EntryPoint) (i n : Nat) : Prop where
  lt : i < n
  empty : (m₀.after p i).frames = []
  entered : ∃ f, (m₀.after p (i + 1)).frames = [f] ∧ f.Starts p e
  running : ∀ k, i < k → k ≤ n → (m₀.after p k).frames ≠ []
  bottom : ∃ f, (m₀.after p n).frames.getLast? = some f ∧
    e.callee? p = some ⟨f.unit, e.index, f.routine⟩

/-- Step `j` returns from an entry routine that step `i` entered. -/
structure Completes (p : Program) (m₀ : Machine) (e : Program.EntryPoint) (i j : Nat) : Prop where
  occupies : Occupies p m₀ e i j
  returns : ∃ f instr, (m₀.after p j).frames = [f] ∧ f.instr? = some instr ∧ instr.op = .ret
  empty : (m₀.after p (j + 1)).frames = []

theorem step_eq_after (h : m₀.Proceeds p n) {k : Nat} (hk : k < n) :
    Exec.step p (m₀.after p k) = .ok () (m₀.after p (k + 1)) := by
  have hstop := (h k hk).1
  rw [after]
  unfold step at hstop ⊢
  cases hx : Exec.step p (m₀.after p k) with
  | ok a m => rfl
  | error err m =>
    rw [hx] at hstop
    cases hstop

theorem advance_after (h : m₀.Proceeds p n) (hm₀ : m₀.halted = false) {k : Nat} (hk : k < n) :
    Advance p (m₀.after p k) (m₀.after p (k + 1)) := by
  refine advance_of_step (step_eq_after h hk) ?_ (h k hk).2
  cases k with
  | zero => exact hm₀
  | succ k => exact (h k (Nat.lt_of_succ_lt hk)).2

/-- The routine at the bottom stays there, unless the last frame returns. -/
theorem turn_getLast? {i : Instr} {f g : Frame} {rest gs : List Frame} {span : Span}
    (hlast : (f :: rest).getLast? = some g) (h : Exec.Turn i (f.fetch span :: rest) gs) :
    (∃ g', gs.getLast? = some g' ∧ g'.unit = g.unit ∧ g'.routine = g.routine) ∨
      rest = [] ∧ i.op = .ret ∧ gs = [] := by
  have hfetch : SameTop (f :: rest) (f.fetch span :: rest) := .top rfl rfl
  cases h with
  | stay _ _ h => exact .inl ((hfetch.trans h).sameRoutines.getLast? hlast)
  | call c _ h =>
    obtain ⟨new, -, rfl⟩ := h
    have hcaller : SameTop (f :: rest) ((f.fetch span :: rest).modifyHead (·.suspend i.taken)) :=
      hfetch.trans (.top rfl rfl)
    obtain ⟨g', hg', hsame⟩ := hcaller.sameRoutines.getLast? hlast
    refine .inl ⟨g', ?_, hsame⟩
    rw [List.getLast?_cons, hg', Option.getD_some]
  | ret hop h =>
    obtain ⟨t, rest', result, heq, -, rfl⟩ := h
    obtain ⟨-, rfl⟩ := List.cons.inj heq
    cases rest with
    | nil => exact .inr ⟨rfl, hop, rfl⟩
    | cons f' rest =>
      left
      have hcaller : SameTop (f' :: rest) ((f' :: rest).modifyHead (·.resume result)) :=
        .top rfl rfl
      exact hcaller.sameRoutines.getLast? (by simpa using hlast)

theorem Occupies.step (h : m₀.Occupies p e i n) (hadv : Advance p (m₀.after p n) (m₀.after p (n + 1))) :
    m₀.Occupies p e i (n + 1) ∨ m₀.Completes p e i n := by
  obtain ⟨g, hlast, hcallee⟩ := h.bottom
  have hne := h.running n h.lt (Nat.le_refl n)
  cases hadv with
  | ended hframes => exact absurd hframes hne
  | enter hframes => exact absurd hframes hne
  | @instr f rest instr span hframes hinstr _ hturn =>
    rw [hframes] at hlast
    rcases turn_getLast? hlast hturn with ⟨g', hg', hunit, hroutine⟩ | ⟨rfl, hop, hempty⟩
    · left
      refine ⟨Nat.lt_succ_of_lt h.lt, h.empty, h.entered, fun k hik hk => ?_, g', hg', ?_⟩
      · rcases Nat.le_succ_iff.mp hk with hk | rfl
        · exact h.running k hik hk
        · rintro hnil
          rw [hnil] at hg'
          cases hg'
      · rw [hunit, hroutine]
        exact hcallee
    · exact .inr ⟨h, ⟨f, instr, hframes, hinstr, hop⟩, hempty⟩

/-- After so many steps, the entry routines `done` have been entered, and all of them have returned
but for the last one if the stack is not empty. -/
structure Underway (p : Program) (m₀ : Machine) (order : List Program.EntryPoint) (n : Nat)
    (done : List Program.EntryPoint) : Prop where
  order : order = done ++ (m₀.after p n).pending
  entered : List.Forall₂ (Frame.Starts p) (m₀.bottoms p n) done
  completed : (m₀.after p n).frames = [] → ∀ e ∈ done, ∃ i j, j < n ∧ m₀.Completes p e i j
  executing : (m₀.after p n).frames ≠ [] → ∃ before e, done = before ++ [e] ∧
    (∀ e ∈ before, ∃ i j, j < n ∧ m₀.Completes p e i j) ∧ ∃ i, m₀.Occupies p e i n

theorem bottoms_of_frames {f : Frame} {rest : List Frame} (h : (m₀.after p n).frames = f :: rest) :
    m₀.bottoms p (n + 1) = m₀.bottoms p n := by
  rw [bottoms, h]
  exact List.append_nil _

theorem bottoms_of_empty (h : (m₀.after p n).frames = []) :
    m₀.bottoms p (n + 1) = m₀.bottoms p n ++ (m₀.after p (n + 1)).frames := by
  rw [bottoms, h]
  rfl

theorem Underway.step {order done : List Program.EntryPoint} (h : m₀.Underway p order n done)
    (hadv : Advance p (m₀.after p n) (m₀.after p (n + 1))) :
    ∃ done, m₀.Underway p order (n + 1) done := by
  have hlater : ∀ es : List Program.EntryPoint, (∀ e ∈ es, ∃ i j, j < n ∧ m₀.Completes p e i j) →
      ∀ e ∈ es, ∃ i j, j < n + 1 ∧ m₀.Completes p e i j := by
    intro es hes e he
    obtain ⟨i, j, hj, hc⟩ := hes e he
    exact ⟨i, j, Nat.lt_succ_of_lt hj, hc⟩
  cases hadv with
  | ended hframes hpending hsame =>
    refine ⟨done, ?_, ?_, fun _ => hlater _ (h.completed hframes), fun hne => ?_⟩
    · rw [hsame]
      exact h.order
    · rw [bottoms_of_empty hframes, hsame, hframes, List.append_nil]
      exact h.entered
    · rw [hsame] at hne
      exact absurd hframes hne
  | @enter f e hframes hpending hf hstarts =>
    refine ⟨done ++ [e], ?_, ?_, fun hempty => ?_, fun _ => ?_⟩
    · rw [h.order, hpending, List.append_assoc]
      rfl
    · rw [bottoms_of_empty hframes, hf]
      exact List.rel_append h.entered (.cons hstarts .nil)
    · rw [hf] at hempty
      cases hempty
    · refine ⟨done, e, rfl, hlater _ (h.completed hframes), n, Nat.lt_succ_self n, hframes,
        ⟨f, hf, hstarts⟩, fun k hnk hk => ?_, f, by rw [hf]; rfl, hstarts.callee⟩
      obtain rfl : k = n + 1 := by omega
      rw [hf]
      exact List.cons_ne_nil f []
  | @instr f rest instr span hframes hinstr hpending hturn =>
    have hne : (m₀.after p n).frames ≠ [] := by
      rw [hframes]
      exact List.cons_ne_nil f rest
    obtain ⟨before, e, hdone, hbefore, i, hexec⟩ := h.executing hne
    refine ⟨done, ?_, ?_, fun hempty => ?_, fun hne' => ?_⟩
    · rw [hpending]
      exact h.order
    · rw [bottoms_of_frames hframes]
      exact h.entered
    · rw [hdone]
      refine List.forall_mem_append.mpr ⟨hlater _ hbefore, List.forall_mem_singleton.mpr ?_⟩
      rcases hexec.step (.instr hframes hinstr hpending hturn) with hexec' | hc
      · exact absurd hempty (hexec'.running (n + 1) hexec'.lt (Nat.le_refl _))
      · exact ⟨i, n, Nat.lt_succ_self n, hc⟩
    · refine ⟨before, e, hdone, hlater _ hbefore, i, ?_⟩
      rcases hexec.step (.instr hframes hinstr hpending hturn) with hexec' | hc
      · exact hexec'
      · exact absurd hc.empty hne'

theorem underway (hframes : m₀.frames = []) (hm₀ : m₀.halted = false) (h : m₀.Proceeds p n) :
    ∃ done, m₀.Underway p m₀.pending n done := by
  induction n with
  | zero =>
    exact ⟨[], rfl, .nil, fun _ e he => absurd he List.not_mem_nil, fun hne => absurd hframes hne⟩
  | succ n ih =>
    obtain ⟨done, hdone⟩ := ih fun k hk => h k (Nat.lt_succ_of_lt hk)
    exact hdone.step (advance_after h hm₀ (Nat.lt_succ_self n))

theorem pending_of_isDone (hm₀ : m₀.halted = false) (h : m₀.Proceeds p n)
    (hdone : (m₀.after p n).isDone) : (m₀.after p n).pending = [] := by
  have hhalted : (m₀.after p n).halted = false := by
    cases n with
    | zero => exact hm₀
    | succ n => exact (h n (Nat.lt_succ_self n)).2
  simp only [isDone, hhalted, Bool.false_or, Bool.and_eq_true, List.isEmpty_iff] at hdone
  exact hdone.2

theorem start_ready {o : RunOptions} (h : start p o = .ok m₀) :
    m₀.frames = [] ∧ m₀.halted = false ∧ m₀.pending = p.entries := by
  have hquiet : Exec.Steady (makeGlobals p.units.toList) := by
    generalize p.units.toList = us
    induction us with
    | nil => exact (Exec.Looks.pure _).steady
    | cons u us ih =>
      refine (Exec.idle_reserve _).steady.bind fun _ => (Exec.idle_zeroAll _).steady.bind fun values => ?_
      exact Exec.Steady.bind (Exec.steady_aside (fun _ => rfl) (fun _ => rfl) fun _ => rfl) fun _ => ih
  unfold start at h
  cases hx : makeGlobals p.units.toList (blank o) with
  | error e m =>
    rw [hx] at h
    cases h
  | ok a m =>
    rw [hx] at h
    cases h
    obtain ⟨-, hhalted, hframes⟩ := hquiet _ a m hx
    refine ⟨?_, hhalted, rfl⟩
    generalize m.frames = fs at hframes ⊢
    cases hframes
    rfl

end Machine

/-- In a run that neither faults nor halts, the routines entered on an empty stack are the
initializations of the units in their order and then the main block of the program, each once; when
one of a unit is entered, the initializations of all units that it uses were entered and have
returned. -/
theorem units_start_in_order {units : List CompiledUnit} {p : Program} {o : RunOptions}
    {m₀ : Machine} (hlink : Program.link units = .ok p) (hstart : Machine.start p o = .ok m₀)
    {n : Nat} (hrun : m₀.Proceeds p n) :
    (∃ entered, entered <+: Program.startOrder units ∧
      List.Forall₂ (Frame.Starts p) (m₀.bottoms p n) entered) ∧
    ((m₀.after p n).isDone →
      List.Forall₂ (Frame.Starts p) (m₀.bottoms p n) (Program.startOrder units)) ∧
    ∀ k < n, ∀ f, (m₀.after p k).frames = [] → (m₀.after p (k + 1)).frames = [f] →
      ∃ u, units[f.unit]? = some u ∧ ∀ used ∈ u.imports,
        (∃ v ∈ units, v.name = used) ∧
        ∀ i v, units[i]? = some v → v.name = used → 0 ≤ v.init →
          ∃ a b, b < k ∧ m₀.Completes p ⟨i, v.init⟩ a b := by
  have hlinks := Program.links_of_link hlink
  obtain ⟨hframes, hhalted, hpending⟩ := Machine.start_ready hstart
  rw [hlinks.entries_eq] at hpending
  refine ⟨?_, fun hdone => ?_, fun k hk f hempty hf => ?_⟩
  · obtain ⟨done, hdone⟩ := Machine.underway hframes hhalted hrun
    exact ⟨done, ⟨_, by rw [← hpending, ← hdone.order]⟩, hdone.entered⟩
  · obtain ⟨done, hunder⟩ := Machine.underway hframes hhalted hrun
    have hnone : (m₀.after p n).pending = [] := Machine.pending_of_isDone hhalted hrun hdone
    rw [← hpending, hunder.order, hnone, List.append_nil]
    exact hunder.entered
  · have hrun' : m₀.Proceeds p k := fun j hj => hrun j (Nat.lt_trans hj hk)
    obtain ⟨done, hunder⟩ := Machine.underway hframes hhalted hrun'
    cases Machine.advance_after hrun hhalted hk with
    | ended _ _ hsame =>
      rw [hsame, hempty] at hf
      cases hf
    | instr hframes =>
      rw [hempty] at hframes
      cases hframes
    | @enter f' e _ hnext hf' hstarts =>
      obtain rfl : f' = f := by simpa [hf'] using hf
      have hunit : f'.unit = e.unit := (Machine.callee?_unit hstarts.callee).1
      obtain ⟨lu, hlu, -⟩ := Option.bind_eq_some_iff.mp hstarts.callee
      have hu : units[f'.unit]? = some lu.unit := by
        rw [hunit, ← hlinks.units_eq, List.getElem?_map, Array.getElem?_toList, hlu]
        rfl
      have horder : Program.startOrder units = done ++ e :: (m₀.after p (k + 1)).pending := by
        rw [← hpending, hunder.order, hnext]
      refine ⟨lu.unit, hu, fun used hused => ?_⟩
      obtain ⟨j, hj, w, hw, hname⟩ := hlinks.used_before hu hused
      refine ⟨⟨w, List.mem_of_getElem? hw, hname⟩, fun i v hv hvname hinit => ?_⟩
      obtain rfl : i = j := hlinks.index_unique hv hw (hvname.trans hname.symm)
      exact hunder.completed hempty _ (Program.mem_before horder hv hinit (hunit ▸ hj))

/-- A unit, a unit that uses it and calls a routine while it starts up, and a program. -/
def startUnits : List CompiledUnit :=
  [{ name := "clock", display := "clock", kind := .unit, init := 0, globals := [⟨"now", .int⟩],
     pool := { consts := #[.int 7], globals := #[⟨"clock", 0⟩] },
     table := some #[{ name := "initialization", blocks := #[#[
       { op := .const }, { op := .storeGlobal }, { op := .ret }]] }] },
   { name := "journal", display := "journal", kind := .unit, imports := ["clock"], init := 1,
     pool := { calls := #[⟨"journal", 0⟩] },
     table := some #[{ name := "note", blocks := #[#[{ op := .ret }]] },
       { name := "initialization", blocks := #[#[{ op := .call }, { op := .ret }]] }] },
   { name := "desk", display := "desk", imports := ["journal"], main := 0,
     table := some #[{ name := "main", blocks := #[#[{ op := .ret }]] }] }]

def startProgram : Program := (Program.link startUnits).toOption.getD {}

def startMachine : Machine :=
  ((Machine.start startProgram {}).toOption).getD { heap := .ofBudget 0, maxFrames := 0 }

theorem units_start_in_order_desk :
    startMachine.Proceeds startProgram 10 ∧
    List.Forall₂ (Frame.Starts startProgram) (startMachine.bottoms startProgram 10)
      [⟨0, 0⟩, ⟨1, 1⟩, ⟨2, 0⟩] ∧
    ∃ a b, b < 8 ∧ startMachine.Completes startProgram ⟨1, 1⟩ a b := by
  have hlink : Program.link startUnits = .ok startProgram := eq_ok_of_isSome (by decide +kernel)
  have hstart : Machine.start startProgram {} = .ok startMachine :=
    eq_ok_of_isSome (by decide +kernel)
  have hrun : startMachine.Proceeds startProgram 10 := by
    unfold Machine.Proceeds
    decide +kernel
  have hdone : (startMachine.after startProgram 10).isDone := by decide +kernel
  obtain ⟨-, hall, hused⟩ := units_start_in_order hlink hstart hrun
  refine ⟨hrun, hall hdone, ?_⟩
  -- The program is entered by step 8 and uses the unit at place 1.
  have hframes : (startMachine.after startProgram 8).frames.isEmpty ∧
      (startMachine.after startProgram 9).frames.map (·.unit) = [2] := by decide +kernel
  obtain ⟨f, hf, hunit⟩ := List.map_eq_singleton_iff.mp hframes.2
  obtain ⟨u, hu, himports⟩ := hused 8 (by decide) f (List.isEmpty_iff.mp hframes.1) hf
  rw [hunit] at hu
  obtain rfl : startUnits[2] = u := by simpa [startUnits] using hu
  exact (himports "journal" (by decide +kernel)).2 1 startUnits[1] rfl rfl (by decide)

end Pascaline
