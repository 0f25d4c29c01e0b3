import Pascaline.Program
import Pascaline.Proofs.Pairwise

/-!
# What linking yields

A linked program has the units it was linked from, in their order, each with its pool resolved
against all of them.
-/

namespace Pascaline

theorem Native.ofName?_name (n : Native) : ofName? n.name = some n := by
  cases n <;> decide

namespace Program

/-- The units of a program stand for the units it was linked from. -/
structure Links (units : List CompiledUnit) (p : Program) : Prop where
  checked : checkUnits [] units = .ok ()
  classes : List.Forall₂ (fun kd c => linkClass units (classDescs units) kd.1 kd.2 = .ok c)
    (classDescs units) p.classes.toList
  units : List.Forall₂ (fun u lu => linkUnit units (classDescs units) u = .ok lu)
    units p.units.toList

theorem links_of_link {units : List CompiledUnit} {p : Program} (h : link units = .ok p) :
    Links units p := by
  unfold link at h
  simp only [bind, Except.bind] at h
  split at h
  · cases h
  case h_2 hchecked =>
    split at h
    · cases h
    case h_2 classes hclasses =>
      split at h
      · cases h
      case h_2 linked hlinked =>
        simp only [pure, Except.pure, Except.ok.injEq] at h
        subst h
        exact ⟨hchecked, by simpa using mapM_eq_ok hclasses, by simpa using mapM_eq_ok hlinked⟩

theorem linkUnit_unit {units : List CompiledUnit} {descs : List (ClassKey × ClassDesc)}
    {u : CompiledUnit} {lu : LinkedUnit} (h : linkUnit units descs u = .ok lu) : lu.unit = u := by
  unfold linkUnit at h
  simp only [bind, Except.bind] at h
  repeat' split at h
  all_goals cases h
  all_goals rfl

/-- The place of a unit variable, looked up the way units are linked. -/
def globalPlace? (units : List CompiledUnit) (ref : GlobalRef) : Option (Nat × Nat) :=
  (unitIndex? units ref.module).bind fun i =>
    if ref.slot < 0 || ((units.getD i {}).globals.length : Int) ≤ ref.slot then none
    else some (i, ref.slot.toNat)

/-- The place of a unit variable in a linked program. -/
def globalAt? (p : Program) (ref : GlobalRef) : Option (Nat × Nat) :=
  globalPlace? (p.units.toList.map (·.unit)) ref

theorem linkUnit_globals {units : List CompiledUnit} {descs : List (ClassKey × ClassDesc)}
    {u : CompiledUnit} {lu : LinkedUnit} (h : linkUnit units descs u = .ok lu) :
    List.Forall₂ (fun ref place => globalPlace? units ref = some place) u.pool.globals.toList
      lu.globals.toList := by
  unfold linkUnit at h
  obtain ⟨calls, hcalls, h⟩ := except_bind_ok h
  obtain ⟨globals, hglobals, h⟩ := except_bind_ok h
  obtain ⟨classes, hclasses, h⟩ := except_bind_ok h
  obtain ⟨natives, hnatives, h⟩ := except_bind_ok h
  cases h
  refine (arrayMapM_eq_ok hglobals).imp ?_
  intro ref place hplace
  unfold globalPlace?
  split at hplace
  · cases hplace
  case h_2 i hi =>
    rw [hi, Option.bind_some]
    split at hplace
    · cases hplace
    case isFalse hslot =>
      cases hplace
      rw [if_neg hslot]

theorem map_unit_of_linkUnit {all us : List CompiledUnit} {descs : List (ClassKey × ClassDesc)}
    {lus : List LinkedUnit} (h : List.Forall₂ (fun u lu => linkUnit all descs u = .ok lu) us lus) :
    lus.map (·.unit) = us := by
  induction h with
  | nil => rfl
  | cons hu _ ih => rw [List.map_cons, ih, linkUnit_unit hu]

theorem Links.units_eq {units : List CompiledUnit} {p : Program} (h : Links units p) :
    p.units.toList.map (·.unit) = units :=
  map_unit_of_linkUnit h.units

theorem Links.mem_units {units : List CompiledUnit} {p : Program} (h : Links units p)
    {lu : LinkedUnit} (hlu : lu ∈ p.units) : lu.unit ∈ units := by
  rw [← h.units_eq]
  exact List.mem_map_of_mem (Array.mem_toList_iff.mpr hlu)

theorem Links.globals {units : List CompiledUnit} {p : Program} (h : Links units p)
    {lu : LinkedUnit} (hlu : lu ∈ p.units) {i : Nat} {ref : GlobalRef}
    (hi : lu.unit.pool.globals[i]? = some ref) :
    ∃ place, lu.globals[i]? = some place ∧ p.globalAt? ref = some place := by
  obtain ⟨u, hu⟩ := forall₂_mem_right h.units (Array.mem_toList_iff.mpr hlu)
  rw [linkUnit_unit hu] at hi
  have hplaces := forall₂_getElem? (linkUnit_globals hu) i
  rw [Array.getElem?_toList, Array.getElem?_toList, hi] at hplaces
  generalize lu.globals[i]? = place at hplaces
  cases hplaces with
  | some hplace =>
    rw [globalAt?, h.units_eq]
    exact ⟨_, rfl, hplace⟩

theorem globalAt?_eq {p : Program} {ref : GlobalRef} {place : Nat × Nat}
    (h : p.globalAt? ref = some place) :
    (p.units[place.1]?).map (·.unit.name) = some ref.module ∧ ref.slot = place.2 := by
  obtain ⟨i, hi, h⟩ := Option.bind_eq_some_iff.mp h
  split at h
  · cases h
  case isFalse hslot =>
    cases h
    refine ⟨?_, ?_⟩
    · obtain ⟨hlt, hname, -⟩ := List.findIdx?_eq_some_iff_getElem.mp hi
      have hlt' : i < p.units.size := by simpa using hlt
      simpa [hlt'] using hname
    · simp only [Bool.or_eq_true, decide_eq_true_eq, not_or] at hslot
      omega

theorem globalAt?_inj {p : Program} {ref ref' : GlobalRef} {place : Nat × Nat}
    (h : p.globalAt? ref = some place) (h' : p.globalAt? ref' = some place) : ref = ref' := by
  obtain ⟨hname, hslot⟩ := globalAt?_eq h
  obtain ⟨hname', hslot'⟩ := globalAt?_eq h'
  obtain ⟨m, slot⟩ := ref
  obtain ⟨m', slot'⟩ := ref'
  obtain rfl : slot = slot' := hslot.trans hslot'.symm
  obtain rfl : m = m' := by simpa [hname] using hname'
  rfl

/-! ## Routines -/

/-- The routine is one of the program's. -/
def Has (p : Program) (c : Callee) : Prop := EntryPoint.callee? ⟨c.unit, c.index⟩ p = some c

theorem has_iff {p : Program} {c : Callee} : p.Has c ↔
    ∃ u, p.units[c.unit]? = some u ∧ u.unit.routine? c.index = some c.routine := by
  obtain ⟨n, i, r⟩ := c
  unfold Has EntryPoint.callee?
  simp only [bind, Option.bind_eq_some_iff, pure, Option.some.injEq, Callee.mk.injEq, true_and]
  simp

variable {units : List CompiledUnit} {p : Program}

theorem mem_routines {u : CompiledUnit} {i : Int} {r : Routine} (h : u.routine? i = some r) :
    r ∈ u.routines := by
  unfold CompiledUnit.routine? at h
  split at h
  · cases h
  · exact Array.mem_of_getElem? h

theorem Links.has (h : Links units p) {c : Callee} : p.Has c ↔
    ∃ u, units[c.unit]? = some u ∧ u.routine? c.index = some c.routine := by
  rw [has_iff, ← h.units_eq]
  simp only [List.getElem?_map, Array.getElem?_toList, Option.map_eq_some_iff]
  constructor
  · rintro ⟨u, hu, hr⟩
    exact ⟨_, ⟨u, hu, rfl⟩, hr⟩
  · rintro ⟨_, ⟨u, hu, rfl⟩, hr⟩
    exact ⟨u, hu, hr⟩

theorem resolve_ok {ref : RoutineRef} {c : Callee} (h : resolve units ref = .ok c) :
    ∃ u, units[c.unit]? = some u ∧ u.routine? c.index = some c.routine := by
  unfold resolve at h
  split at h
  · cases h
  case h_2 i hi =>
    obtain ⟨hlt, -⟩ := List.findIdx?_eq_some_iff_getElem.mp hi
    dsimp only at h
    split at h
    · cases h
    case h_2 r hr =>
      cases h
      rw [List.getD_eq_getElem?_getD, List.getElem?_eq_getElem hlt, Option.getD_some] at hr
      exact ⟨_, List.getElem?_eq_getElem hlt, hr⟩

theorem resolve_place {ref : RoutineRef} {c : Callee} (h : resolve units ref = .ok c) :
    unitIndex? units ref.module = some c.unit ∧ c.index = ref.index := by
  unfold resolve at h
  split at h
  · cases h
  case h_2 i hi =>
    dsimp only at h
    split at h
    · cases h
    · cases h
      exact ⟨hi, rfl⟩

theorem linkUnit_pool {descs : List (ClassKey × ClassDesc)} {u : CompiledUnit} {lu : LinkedUnit}
    (h : linkUnit units descs u = .ok lu) :
    List.Forall₂ (fun ref c => resolve units ref = .ok c) u.pool.calls.toList lu.calls.toList ∧
      List.Forall₂ (fun name n => Native.ofName? name = some n) u.pool.natives.toList
        lu.natives.toList := by
  unfold linkUnit at h
  obtain ⟨calls, hcalls, h⟩ := except_bind_ok h
  obtain ⟨globals, hglobals, h⟩ := except_bind_ok h
  obtain ⟨classes, hclasses, h⟩ := except_bind_ok h
  obtain ⟨natives, hnatives, h⟩ := except_bind_ok h
  cases h
  refine ⟨(arrayMapM_eq_ok hcalls).imp fun ref c hc => ?_,
    (arrayMapM_eq_ok hnatives).imp fun name n hn => ?_⟩
  · split at hc
    · rename_i hc'
      cases hc
      exact hc'
    · cases hc
  · split at hn
    · cases hn
    · rename_i hn'
      cases hn
      exact hn'

theorem linkUnit_calls {descs : List (ClassKey × ClassDesc)} {u : CompiledUnit} {lu : LinkedUnit}
    (h : linkUnit units descs u = .ok lu) {c : Callee} (hc : c ∈ lu.calls) :
    ∃ ref, resolve units ref = .ok c :=
  forall₂_mem_right (linkUnit_pool h).1 (Array.mem_toList_iff.mpr hc)

theorem linkClass_ok {descs : List (ClassKey × ClassDesc)} {key : ClassKey} {d : ClassDesc}
    {c : LinkedClass} (h : linkClass units descs key d = .ok c) :
    c.desc = d ∧ (d.shapes.length : Int) = d.slots ∧
      ∀ callee ∈ c.vmt, ∃ ref, resolve units ref = .ok callee := by
  unfold linkClass at h
  dsimp only at h
  split at h
  on_goal 1 => split at h
  on_goal 1 =>
    obtain ⟨_, hthrow, -⟩ := except_bind_ok h
    cases hthrow
  -- Whether there is a base or not, the rest is the same.
  all_goals
    split at h
    case isTrue =>
      obtain ⟨_, hthrow, -⟩ := except_bind_ok h
      cases hthrow
    case isFalse hlen =>
      obtain ⟨vmt, hvmt, h⟩ := except_bind_ok h
      cases h
      refine ⟨rfl, Decidable.not_not.mp hlen, ?_⟩
      intro callee hcallee
      obtain ⟨e, he⟩ := forall₂_mem_right (mapM_eq_ok hvmt) (List.mem_toArray.mp hcallee)
      split at he
      case h_1 hc =>
        cases he
        exact ⟨_, hc⟩
      case h_2 => cases he

/-! ## Units that link -/

section

variable {us : List CompiledUnit} {u : CompiledUnit}

theorem classIndex?_isSome {key : ClassKey} {d : ClassDesc} (hu : u ∈ us) (hd : d ∈ u.classes)
    (hkey : key = ⟨u.name, d.name⟩) : (classIndex? (classDescs us) key).isSome := by
  have hmem : (key, d) ∈ classDescs us := List.mem_flatMap.mpr ⟨u, hu, List.mem_map.mpr ⟨d, hd, by
    rw [hkey]⟩⟩
  obtain ⟨i, hi, hget⟩ := List.mem_iff_getElem.mp hmem
  rw [classIndex?, Option.isSome_map, List.find?_isSome]
  refine ⟨((key, d), i), List.mem_reverse.mpr (List.mem_zipIdx_iff_getElem?.mpr ?_), beq_self_eq_true key⟩
  simp [List.getElem?_eq_getElem hi, hget]

theorem checkUnit_eq_ok (hnew : ∀ v ∈ us, v.name ≠ u.name)
    (hused : ∀ n ∈ u.imports, ∃ v ∈ us, v.name = n) : checkUnit us u = .ok () := by
  have hmissing : (unitIndex? us u.name).isSome = false := by
    rw [unitIndex?, List.findIdx?_isSome, List.any_eq_false]
    exact fun v hv => beq_eq_false_iff_ne.mpr (hnew v hv) ▸ Bool.false_ne_true
  have hall : ∀ ns : List String, (∀ n ∈ ns, ∃ v ∈ us, v.name = n) →
      (ns.forM fun used => do
        if (unitIndex? us used).isNone then throw (LinkError.notBefore u.display used)) =
        (Except.ok () : Except LinkError Unit) := by
    intro ns hns
    induction ns with
    | nil => rfl
    | cons n ns ih =>
      obtain ⟨⟨v, hv, hname⟩, hns⟩ := List.forall_mem_cons.mp hns
      have hfound : (unitIndex? us n).isSome := by
        rw [unitIndex?, List.findIdx?_isSome, List.any_eq_true]
        exact ⟨v, hv, beq_iff_eq.mpr hname⟩
      rw [List.forM, ih hns, Option.isNone_eq_false_iff.mpr hfound]
      rfl
  unfold checkUnit
  rw [hmissing, if_neg Bool.false_ne_true]
  exact hall _ hused

theorem checkUnits_append (before us : List CompiledUnit) (u : CompiledUnit) :
    checkUnits before (us ++ [u]) = (do checkUnits before us; checkUnit (before ++ us) u) := by
  induction us generalizing before with
  | nil =>
    rw [List.append_nil, List.nil_append, checkUnits, checkUnits, checkUnits]
    cases checkUnit before u <;> rfl
  | cons v us ih => simp [checkUnits, ih, bind_assoc]

theorem exists_linkClass {descs : List (ClassKey × ClassDesc)} {key : ClassKey} {d : ClassDesc}
    (hbase : ∀ b, d.base = some b → (classIndex? descs b).isSome)
    (hshapes : (d.shapes.length : Int) = d.slots)
    (hvmt : ∀ e ∈ d.vmt, ∃ c, resolve us e.routine = .ok c) :
    ∃ c, linkClass us descs key d = .ok c := by
  have hentry : ∀ x ∈ d.vmt.zipIdx, ∃ c, resolve us x.1.routine = .ok c := fun x hx =>
    hvmt x.1 (List.mem_of_getElem? (List.mem_zipIdx_iff_getElem?.mp hx))
  unfold linkClass
  dsimp only
  rw [if_neg (not_not.mpr hshapes)]
  cases hb : d.base with
  | none =>
    refine exists_bind_ok (exists_mapM_ok fun x hx => ?_) fun vmt _ => ⟨_, rfl⟩
    obtain ⟨c, hc⟩ := hentry x hx
    exact ⟨c, by simp only [hc]⟩
  | some b =>
    dsimp only
    rw [Option.isNone_eq_false_iff.mpr (hbase b hb), if_neg Bool.false_ne_true]
    refine exists_bind_ok (exists_mapM_ok fun x hx => ?_) fun vmt _ => ⟨_, rfl⟩
    obtain ⟨c, hc⟩ := hentry x hx
    exact ⟨c, by simp only [hc]⟩

theorem exists_linkUnit {descs : List (ClassKey × ClassDesc)}
    (hcalls : ∀ ref ∈ u.pool.calls, ∃ c, resolve us ref = .ok c)
    (hglobals : ∀ ref ∈ u.pool.globals, ∃ i, unitIndex? us ref.module = some i ∧
      0 ≤ ref.slot ∧ ref.slot < (us.getD i {}).globals.length)
    (hclasses : ∀ key ∈ u.pool.classes, (classIndex? descs key).isSome)
    (hnatives : ∀ name ∈ u.pool.natives, ∃ n : Native, n.name = name) :
    ∃ lu, linkUnit us descs u = .ok lu := by
  unfold linkUnit
  refine exists_bind_ok (exists_arrayMapM_ok fun ref href => ?_) fun calls _ =>
    exists_bind_ok (exists_arrayMapM_ok fun ref href => ?_) fun globals _ =>
      exists_bind_ok (exists_arrayMapM_ok fun key hkey => ?_) fun classes _ =>
        exists_bind_ok (exists_arrayMapM_ok fun name hname => ?_) fun natives _ => ⟨_, rfl⟩
  · obtain ⟨c, hc⟩ := hcalls ref href
    exact ⟨c, by simp only [hc]⟩
  · obtain ⟨i, hi, hpos, hlt⟩ := hglobals ref href
    refine ⟨(i, ref.slot.toNat), ?_⟩
    simp only [hi]
    rw [if_neg (by simp only [Bool.or_eq_true, decide_eq_true_eq]; omega)]
  · obtain ⟨i, hi⟩ := Option.isSome_iff_exists.mp (hclasses key hkey)
    exact ⟨i, by simp only [hi]⟩
  · obtain ⟨n, rfl⟩ := hnatives name hname
    exact ⟨n, by simp only [Native.ofName?_name]⟩

theorem exists_link (hunits : checkUnits [] us = .ok ())
    (hclasses : ∀ x ∈ classDescs us, ∃ c, linkClass us (classDescs us) x.1 x.2 = .ok c)
    (hpools : ∀ u ∈ us, ∃ lu, linkUnit us (classDescs us) u = .ok lu) : ∃ p, link us = .ok p :=
  exists_bind_ok ⟨(), hunits⟩ fun _ _ => exists_bind_ok (exists_mapM_ok hclasses) fun _ _ =>
    exists_bind_ok (exists_mapM_ok hpools) fun _ _ => ⟨_, rfl⟩

end

end Program

end Pascaline
