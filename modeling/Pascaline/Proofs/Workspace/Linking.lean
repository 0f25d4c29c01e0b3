import Pascaline.Proofs.Lowering.Pools
import Pascaline.Proofs.Workspace.Sources

/-!
# Units of one session link

What a module refers to is in the module itself or in one that it depends on. So the entries of the
pools and of the dispatch tables of the units lead to something that is there, and the units of a
session link in the order in which they were compiled.
-/

namespace Pascaline

open TypeTable Pascaline.Bound

namespace Workspace

variable {w : Workspace} {o : Origin} {us : List CompiledUnit} {u : CompiledUnit}

/-- What is there for the modules of a workspace to refer to. -/
def references (w : Workspace) : References where
  calls ref := ∃ o ∈ w.origins, ∃ n, o.module.Takes ref n
  globals ref := ∃ o ∈ w.origins, ∃ type, o.module.Holds ref.module ref.slot type
  classes key := ∃ o ∈ w.origins, ∃ c ∈ o.types.classes, c.key.module = o.name ∧ c.key = key
  slots _ := True

/-! ## References of modules -/

theorem references_calls (ho : o ∈ w.origins) {ref : RoutineRef} {n : Nat} {slots : List Slot}
    (h : (o.module.env (Origin.realm (Origin.Reaches w.origins o.module.uses) o.types)
      slots).takes ref n) : w.references.calls ref := by
  rcases h with ⟨p, hp, hr⟩ | hr
  · exact ⟨p, hp.mem, n, hr⟩
  · exact ⟨o, ho, n, hr⟩

namespace Kept

theorem classes (hw : w.Kept) (ho : o ∈ w.origins) {key : ClassKey} {id : TypeId}
    {slots : List Slot} (hkey : o.types.keyOf? id = some key)
    (h : (o.module.env (Origin.realm (Origin.Reaches w.origins o.module.uses) o.types)
      slots).known id key.module) : w.references.classes key := by
  obtain ⟨c, hc, rfl⟩ := keyOf?_eq_some.mp hkey
  have hmem := (hw.proper o ho).sound.mem_classes hc
  rcases h with hown | ⟨p, hp, hname⟩
  · exact ⟨o, ho, c, hmem, hown, rfl⟩
  · obtain ⟨d, hd, hsame⟩ := ((hw.proper o ho).stays p hp).own c hmem hname.symm
    exact ⟨p, hp.mem, d, hd, hsame ▸ hname.symm, hsame⟩

theorem expr_refers (hw : w.Kept) (ho : o ∈ w.origins) {slots : List Slot} {e : Expr}
    (h : e.Fits (o.module.env (Origin.realm (Origin.Reaches w.origins o.module.uses) o.types)
      slots) o.types) : e.Refers w.references := by
  cases h with
  | unitVar hplace =>
    rcases hplace with ⟨p, hp, declared, hv, -⟩ | hv
    · exact ⟨p, hp.mem, declared, hv⟩
    · exact ⟨o, ho, _, hv⟩
  | call _ hroutine => exact references_calls ho hroutine
  | newObject hkey hroutine =>
    obtain ⟨id, hid, hknown⟩ := hkey
    exact ⟨hw.classes ho hid hknown, fun ref href => references_calls ho (hroutine ref href)⟩
  | routine href => exact references_calls ho href
  | _ => trivial

theorem within (hw : w.Kept) (ho : o ∈ w.origins) (hu : o.Makes u) :
    u.pool.Within w.references ∧ u.routines.size = o.module.routines.length := by
  obtain ⟨v, hv, source, file, deps, rfl⟩ := hu
  refine CompiledUnit.ofModule_within (u := v) hv fun r hr e he => ?_
  obtain ⟨s, hs, he⟩ := List.mem_flatMap.mp he
  obtain ⟨x, hx, he⟩ := List.mem_flatMap.mp he
  exact hw.expr_refers ho (((hw.proper o ho).fits.bodies r hr s hs x hx).flatten e he)

theorem laid (hw : w.Kept) (ho : o ∈ w.origins) (hu : o.Makes u) :
    ∃ cs, List.Forall₂ (CompiledUnit.Lays o.types) cs u.classes ∧
      ∀ c, c ∈ cs ↔ c ∈ o.types.classes ∧ c.key.module = o.name := by
  obtain ⟨cs, hds, -, hall⟩ := hu.describes.laid (hw.proper o ho).sound (hw.proper o ho).fits
  exact ⟨cs, hds, hall⟩

end Kept

/-! ## Units -/

/-- These are the units of the modules of the workspace, in the order in which they were compiled. -/
def Offers (w : Workspace) (us : List CompiledUnit) : Prop :=
  List.Forall₂ Origin.Makes w.origins.reverse us

namespace Offers

theorem exists_unit (h : w.Offers us) (ho : o ∈ w.origins) : ∃ u ∈ us, o.Makes u :=
  forall₂_exists_mem h (List.mem_reverse.mpr ho)

theorem exists_origin (h : w.Offers us) (hu : u ∈ us) : ∃ o ∈ w.origins, o.Makes u := by
  obtain ⟨o, ho, hmakes⟩ := forall₂_exists_mem h.flip hu
  exact ⟨o, List.mem_reverse.mp ho, hmakes⟩

theorem unitIndex? (h : w.Offers us) (hw : w.Kept) (ho : o ∈ w.origins) :
    ∃ i u, Program.unitIndex? us o.name = some i ∧ us.getD i {} = u ∧ o.Makes u := by
  obtain ⟨u, hu, hmakes⟩ := h.exists_unit ho
  have hfound : (Program.unitIndex? us o.name).isSome := by
    rw [Program.unitIndex?, List.findIdx?_isSome, List.any_eq_true]
    exact ⟨u, hu, beq_iff_eq.mpr hmakes.describes.name⟩
  obtain ⟨i, hi⟩ := Option.isSome_iff_exists.mp hfound
  obtain ⟨hlt, hname, -⟩ := List.findIdx?_eq_some_iff_getElem.mp hi
  obtain ⟨p, hp, hmakes'⟩ := h.exists_origin (List.getElem_mem hlt)
  have hsame : p.name = o.name := hmakes'.describes.name.symm.trans (beq_iff_eq.mp hname)
  obtain rfl := hw.distinct p hp o ho hsame
  exact ⟨i, us[i], hi, by simp [hlt], hmakes'⟩

theorem resolve (h : w.Offers us) (hw : w.Kept) {ref : RoutineRef}
    (href : w.references.calls ref) : ∃ c, Program.resolve us ref = .ok c := by
  obtain ⟨o, ho, n, k, code, rfl, hcode, -⟩ := href
  obtain ⟨i, u, hi, hget, hmakes⟩ := h.unitIndex? hw ho
  have hlt : k < u.routines.size := by
    rw [(hw.within ho hmakes).2]
    exact (List.getElem?_eq_some_iff.mp hcode).1
  have hroutine : u.routine? k = some u.routines[k] := by
    simp [CompiledUnit.routine?, hlt]
  refine ⟨⟨i, k, u.routines[k]⟩, ?_⟩
  rw [Program.resolve, hi]
  simp only [hget, hroutine]

theorem classIndex? (h : w.Offers us) (hw : w.Kept) {key : ClassKey}
    (hkey : w.references.classes key) :
    (Program.classIndex? (Program.classDescs us) key).isSome := by
  obtain ⟨o, ho, c, hc, hmodule, rfl⟩ := hkey
  obtain ⟨u, hu, hmakes⟩ := h.exists_unit ho
  obtain ⟨cs, hds, hall⟩ := hw.laid ho hmakes
  obtain ⟨d, hd, hlays⟩ := forall₂_exists_mem hds ((hall c).mpr ⟨hc, hmodule⟩)
  obtain ⟨shapes, -, rfl⟩ := hlays.tells
  refine Program.classIndex?_isSome hu hd ?_
  rw [hmakes.describes.name, ← hmodule]
  rfl

theorem linkClass (h : w.Offers us) (hw : w.Kept) {x : ClassKey × ClassDesc}
    (hx : x ∈ Program.classDescs us) :
    ∃ c, Program.linkClass us (Program.classDescs us) x.1 x.2 = .ok c := by
  obtain ⟨u, hu, hx⟩ := List.mem_flatMap.mp hx
  obtain ⟨d, hd, rfl⟩ := List.mem_map.mp hx
  obtain ⟨o, ho, hmakes⟩ := h.exists_origin hu
  obtain ⟨cs, hds, hall⟩ := hw.laid ho hmakes
  obtain ⟨c, hc, hlays⟩ := forall₂_exists_mem hds.flip hd
  obtain ⟨hmem, hmodule⟩ := (hall c).mp hc
  have hfits := (hw.proper o ho).fits.table c hmem (.inl hmodule)
  obtain ⟨shapes, hlength, rfl⟩ := hlays.tells
  refine Program.exists_linkClass (fun b hb => ?_) (congrArg Int.ofNat hlength) fun e he => ?_
  · have hne : c.base ≠ 0 := by
      intro hzero
      simp [describeClass, hzero] at hb
    obtain ⟨key, hkey, hknown⟩ := hfits.within.base hne
    simp only [describeClass, if_neg hne, hkey, Option.getD_some, Option.some.injEq] at hb
    exact hb ▸ h.classIndex? hw (hw.classes ho hkey hknown)
  · obtain ⟨y, hy, rfl⟩ := List.mem_map.mp he
    obtain ⟨n, hn⟩ := hfits.dispatch y hy
    exact h.resolve hw (references_calls ho hn)

theorem linkUnit (h : w.Offers us) (hw : w.Kept) (hu : u ∈ us) :
    ∃ lu, Program.linkUnit us (Program.classDescs us) u = .ok lu := by
  obtain ⟨o, ho, hmakes⟩ := h.exists_origin hu
  obtain ⟨hpool, -⟩ := hw.within ho hmakes
  refine Program.exists_linkUnit (fun ref href => h.resolve hw (hpool.calls ref href))
    (fun ref href => ?_) (fun key hkey => h.classIndex? hw (hpool.classes key hkey)) hpool.natives
  obtain ⟨p, hp, type, hmodule, k, sl, hslot, hget, -⟩ := hpool.globals ref href
  obtain ⟨i, v, hi, hv, hmakes'⟩ := h.unitIndex? hw hp
  have hlt := (List.getElem?_eq_some_iff.mp hget).1
  refine ⟨i, hmodule ▸ hi, by omega, ?_⟩
  rw [hv, hmakes'.describes.globals, hslot]
  exact Int.ofNat_lt.mpr hlt

theorem checkUnits (h : w.Offers us) (hordered : Origin.Ordered w.origins) :
    Program.checkUnits [] us = .ok () := by
  have hall : ∀ {os : List Origin} {vs : List CompiledUnit}, Origin.Ordered os →
      List.Forall₂ Origin.Makes os vs → Program.checkUnits [] vs.reverse = .ok () := by
    intro os vs hos hvs
    induction hos generalizing vs with
    | nil =>
      cases hvs
      rfl
    | @cons o os hname huses _ ih =>
      cases hvs with
      | @cons _ v _ vs hv hvs =>
        have hfound : ∀ {x}, x ∈ vs.reverse → ∃ p ∈ os, p.name = x.name := by
          intro x hx
          obtain ⟨p, hp, hmakes⟩ := forall₂_exists_mem hvs.flip (List.mem_reverse.mp hx)
          exact ⟨p, hp, (Origin.Makes.describes hmakes).name.symm⟩
        rw [List.reverse_cons, Program.checkUnits_append, ih hvs]
        refine Program.checkUnit_eq_ok (fun x hx hsame => ?_) fun n hn => ?_
        · obtain ⟨p, hp, hpx⟩ := hfound hx
          exact hname p hp (hpx.trans (hsame.trans hv.describes.name))
        · rw [hv.describes.imports] at hn
          obtain ⟨p, hp, rfl⟩ := huses n hn
          obtain ⟨x, hx, hmakes⟩ := forall₂_exists_mem hvs hp
          exact ⟨x, List.mem_reverse.mpr hx, hmakes.describes.name⟩
  rw [← List.reverse_reverse us] at h ⊢
  exact hall hordered (List.forall₂_reverse_iff.mp h)

theorem links (h : w.Offers us) (hw : w.Kept) (hordered : Origin.Ordered w.origins) :
    ∃ p, Program.link us = .ok p :=
  Program.exists_link (h.checkUnits hordered) (fun _ hx => h.linkClass hw hx)
    fun _ hu => h.linkUnit hw hu

end Offers

end Workspace

namespace Compilation

variable {c : Compilation} {w : Workspace}

theorem Hosts.offers (h : Hosts w c) : w.Offers c.units := by
  rw [Workspace.Offers, h.units, List.forall₂_map_right_iff]
  refine h.compiled.imp fun o p hp => hp.2

/-- The units of a session link in the order in which they were compiled. -/
theorem compiled_units_link {sources : List (String × Bytes)} (hrun : ofSources sources = .ok c)
    (hnames : c.Distinct) : ∃ p, Program.link c.units = .ok p := by
  obtain ⟨w, hw⟩ := ofSources_hosts hrun hnames
  exact hw.offers.links hw.reachable.kept hw.ordered

theorem compiled_units_link_litter : ∃ c, ofSources litter = .ok c ∧ c.Distinct ∧
    c.units.length = 2 ∧ ∃ p, Program.link c.units = .ok p := by
  obtain ⟨c, hrun, hnames, hunits⟩ := litter_compiled
  exact ⟨c, hrun, hnames, hunits, compiled_units_link hrun hnames⟩

end Compilation

end Pascaline
