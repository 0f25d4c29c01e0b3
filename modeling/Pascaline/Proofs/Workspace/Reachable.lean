import Pascaline.Proofs.Workspace.Units

/-!
# Workspaces

A workspace gains modules when a source is compiled in it and when a unit is imported that was
compiled in another one. In every workspace that comes about so, each module refers to nothing but
itself and the modules that it depends on, and the classes of each are like they were when it was
compiled.
-/

namespace Pascaline

open TypeTable Pascaline.Bound

/-- The types of a session, the imports that its sources may use, the modules that these are the
interfaces of, and the names of all modules that were tried. -/
structure Workspace where
  types : TypeTable := .empty
  imports : List Import := []
  origins : List Origin := []
  taken : List String := []

namespace Workspace

/-- How workspaces come about. No two modules have the same name. -/
inductive Reachable : Workspace → Prop
  | start : Reachable {}
  /-- A source was bound. What became of it does not matter. -/
  | bind {w : Workspace} {imports : List Import} {path : String} {f : Tree.File} {r : BindResult}
      (hw : Reachable w) (himports : imports ⊆ w.imports) (hname : f.name.name ∉ w.taken)
      (hr : Module.ofFile w.types imports path f = .ok r) :
      Reachable { w with types := r.types, taken := f.name.name :: w.taken }
  /-- A source was compiled without errors, and its unit imported. -/
  | compile {w : Workspace} {imports : List Import} {path : String} {f : Tree.File} {r : BindResult}
      {u : CompiledUnit} {imp : Import} {types : TypeTable} (hw : Reachable w)
      (himports : imports ⊆ w.imports) (hname : f.name.name ∉ w.taken)
      (hr : Module.ofFile w.types imports path f = .ok r) (herrors : r.errors = [])
      (hu : Origin.Makes ⟨r.types, r.module⟩ u) (himp : u.interface.run r.types = .ok imp types) :
      Reachable { types, imports := imp :: w.imports, origins := ⟨r.types, r.module⟩ :: w.origins,
                  taken := f.name.name :: w.taken }
  /-- A unit was imported that was compiled in another workspace, after all that it depends on. -/
  | load {v w : Workspace} {o : Origin} {u : CompiledUnit} {imp : Import} {types : TypeTable}
      (hv : Reachable v) (hw : Reachable w) (ho : o ∈ v.origins) (hname : o.name ∉ w.taken)
      (hdeps : ∀ p, Origin.Reaches v.origins o.module.uses p → p ∈ w.origins) (hu : o.Makes u)
      (himp : u.interface.run w.types = .ok imp types) :
      Reachable { types, imports := imp :: w.imports, origins := o :: w.origins,
                  taken := o.name :: w.taken }

/-- Every module of the workspace has what it refers to, and its classes and symbols are there. -/
structure Kept (w : Workspace) : Prop where
  sound : w.types.Sound
  titled : w.types.Titled
  taken : ∀ c ∈ w.types.classes, c.key.module ∈ w.taken
  names : ∀ o ∈ w.origins, o.name ∈ w.taken
  distinct : ∀ o ∈ w.origins, ∀ p ∈ w.origins, o.name = p.name → o = p
  proper : ∀ o ∈ w.origins, o.Proper w.origins
  stays : ∀ o ∈ w.origins, o.Stays w.types
  imports : ∀ imp ∈ w.imports, ∃ o ∈ w.origins, o.Restored w.types imp

end Workspace

/-! ## One more module -/

namespace Origin

variable {os os' : List Origin} {o : Origin} {t t' : TypeTable} {u : CompiledUnit}

theorem Proper.of_reaches (h : o.Proper os)
    (hsame : ∀ p, Reaches os' o.module.uses p ↔ Reaches os o.module.uses p)
    (huses : ∀ n ∈ o.module.uses, ∃ p ∈ os', p.name = n) : o.Proper os' := by
  have hreaches : Reaches os' o.module.uses = Reaches os o.module.uses :=
    funext fun p => propext (hsame p)
  refine ⟨h.sound, h.titled, hreaches ▸ h.fits, h.done, huses, ?_, ?_⟩
  · exact fun p hp => h.foreign p ((hsame p).mp hp)
  · exact fun p hp => h.stays p ((hsame p).mp hp)

theorem Proper.among (h : o.Proper os) (hos : ∀ p ∈ os, p.Proper os)
    (hnames : ∀ p ∈ os', ∀ q ∈ os', p.name = q.name → p = q)
    (hdeps : ∀ p, Reaches os o.module.uses p → p ∈ os') : o.Proper os' := by
  refine h.of_reaches (fun p => ⟨fun hp => ?_, fun hp => hp.of_mem hdeps⟩) fun n hn => ?_
  · exact hp.to_mem hnames hdeps h.uses fun q hq => (hos q hq).uses
  · obtain ⟨p, hp, hname⟩ := h.uses n hn
    exact ⟨p, hdeps p (.used hp (hname ▸ hn)), hname⟩

theorem Proper.within (h : o.Proper os) :
    ∀ c ∈ o.types.classes, c.key.module = o.name → c.Within o.types fun _ n => n = o.name ∨
      (realm (Reaches os o.module.uses) o.types).known n :=
  fun c hc hmodule => (h.fits.table c hc (.inl hmodule)).within

theorem Proper.loaded (h : o.Proper os)
    (hstays : ∀ p, Reaches os o.module.uses p → p.Stays t) :
    Loaded o.types (fun _ => (realm (Reaches os o.module.uses) o.types).known) t := by
  rintro id key hkey ⟨p, hp, hname⟩
  obtain ⟨c, hc, rfl⟩ := keyOf?_eq_some.mp hkey
  obtain ⟨d, hd, hsame⟩ := (h.stays p hp).own c (h.sound.mem_classes hc) hname.symm
  obtain ⟨id', c', hc', halike⟩ := (hstays p hp).classes d hd (hsame ▸ hname.symm)
  exact ⟨id', keyOf?_eq_some.mpr ⟨c', hc', halike.key.trans hsame⟩⟩

theorem Proper.import (h : o.Proper os) (hu : o.Describes u) (ht : t.Sound)
    (hstays : ∀ p, Reaches os o.module.uses p → p.Stays t)
    (hfresh : ∀ c ∈ t.classes, c.key.module ≠ o.name) :
    ∃ syms t', u.interface.run t = .ok ⟨u.name, u.kind, syms⟩ t' ∧
      CompiledUnit.Gains o.types o.name t t' ∧ o.Stays t' ∧
      List.Forall₂ (Symbol.Alike o.types t' u.file) o.exported syms := by
  obtain ⟨syms, t', hrun, hgains, hsyms⟩ := CompiledUnit.interface_gains h.sound
    (hu.presents h.sound h.fits)
    (fun c hc hmodule => by
      rw [hu.name] at hmodule ⊢
      exact ⟨h.within c hc hmodule, h.done c hc hmodule⟩)
    (fun sym hsym => by
      rw [hu.name]
      exact (h.exports hsym).fits.within)
    ht (h.loaded hstays) (fun c hc => hu.name ▸ hfresh c hc)
  rw [hu.name] at hgains
  refine ⟨syms, t', hrun, hgains, ⟨hgains.classes, fun c' hc' hmodule => ?_⟩, hsyms⟩
  rcases hgains.own _ c' (hgains.sound.classInfo?_type hc') with hold | ⟨d, hd, -, hkey⟩
  · exact absurd hmodule (hfresh c' (ht.mem_classes hold))
  · exact ⟨d, hd, hkey⟩

theorem Proper.import_again (h : o.Proper os) (hu : o.Describes u) (ht : t.Sound)
    (hstays : ∀ p, Reaches os o.module.uses p → p.Stays t) (hself : o.Stays t)
    {syms : List Symbol} (hsyms : List.Forall₂ (Symbol.Alike o.types t u.file) o.exported syms) :
    u.interface.run t = .ok ⟨u.name, u.kind, syms⟩ t := by
  refine CompiledUnit.interface_again
    (P := fun _ n => n = o.name ∨ (realm (Reaches os o.module.uses) o.types).known n) h.sound
    (hu.presents h.sound h.fits) ht ?_ (fun _ => .inl hu.name)
    (fun sym hsym => (h.exports hsym).fits.within) hsyms
  rintro id key hkey (hown | hknown)
  · obtain ⟨c, hc, rfl⟩ := keyOf?_eq_some.mp hkey
    obtain ⟨id', c', hc', halike⟩ := hself.classes c (h.sound.mem_classes hc) hown
    exact ⟨id', keyOf?_eq_some.mpr ⟨c', hc', halike.key⟩⟩
  · exact h.loaded hstays id key hkey hknown

theorem Proper.stays_self (h : o.Proper os) : o.Stays o.types :=
  ⟨fun c hc hmodule => ⟨c.type, c, h.sound.classInfo?_type hc,
    (h.within c hc hmodule).alike_self h.sound hc⟩, fun c hc _ => ⟨c, hc, rfl⟩⟩

theorem Proper.import_self (h : o.Proper os) (hu : o.Describes u) :
    ∃ imp, u.interface.run o.types = .ok imp o.types ∧ o.Restored o.types imp := by
  have hsyms : List.Forall₂ (Symbol.Alike o.types o.types u.file) o.exported
      (o.exported.map fun sym =>
        { sym with scope := 0, span := { sym.span with file := u.file } }) :=
    List.forall₂_map_right_iff.mpr (List.forall₂_same.mpr fun sym hsym =>
      (h.exports hsym).fits.within.alike_self u.file)
  exact ⟨_, h.import_again hu h.sound h.stays h.stays_self hsyms, hu.name, hu.kind, u.file, hsyms⟩

end Origin

namespace Workspace

variable {w : Workspace} {o : Origin} {imp : Import}

theorem Kept.start : Kept {} := by
  refine ⟨sound_empty, ?_, ?_, ?_, ?_, ?_, ?_, ?_⟩ <;> simp [TypeTable.empty, Titled]

theorem Kept.push (h : w.Kept) (hname : o.name ∈ w.taken)
    (hfresh : ∀ p ∈ w.origins, p.name ≠ o.name) (hproper : o.Proper w.origins)
    (hstays : o.Stays w.types) (himp : o.Restored w.types imp) :
    Kept { w with imports := imp :: w.imports, origins := o :: w.origins } := by
  have hdistinct : ∀ p ∈ o :: w.origins, ∀ q ∈ o :: w.origins, p.name = q.name → p = q := by
    intro p hp q hq hsame
    rcases List.mem_cons.mp hp with hp | hp <;> rcases List.mem_cons.mp hq with hq | hq
    · rw [hp, hq]
    · exact absurd (hp ▸ hsame.symm) (hfresh q hq)
    · exact absurd (hq ▸ hsame) (hfresh p hp)
    · exact h.distinct p hp q hq hsame
  have hall : ∀ p : Origin, p.Proper w.origins → p.Proper (o :: w.origins) := fun p hp =>
    hp.among h.proper hdistinct fun q hq => List.mem_cons_of_mem _ hq.mem
  refine ⟨h.sound, h.titled, h.taken, ?_, hdistinct, ?_, ?_, ?_⟩
  · intro p hp
    rcases List.mem_cons.mp hp with rfl | hp
    · exact hname
    · exact h.names p hp
  · intro p hp
    rcases List.mem_cons.mp hp with rfl | hp
    · exact hall p hproper
    · exact hall p (h.proper p hp)
  · intro p hp
    rcases List.mem_cons.mp hp with rfl | hp
    · exact hstays
    · exact h.stays p hp
  · intro i hi
    rcases List.mem_cons.mp hi with rfl | hi
    · exact ⟨o, List.mem_cons_self, himp⟩
    · obtain ⟨p, hp, hrestored⟩ := h.imports i hi
      exact ⟨p, List.mem_cons_of_mem _ hp, hrestored⟩

theorem Kept.grow {t : TypeTable} {name : String} (h : w.Kept) (hname : name ∉ w.taken)
    (hadds : Adds w.types t name) : Kept { w with types := t, taken := name :: w.taken } := by
  have hne : ∀ o ∈ w.origins, o.name ≠ name := fun o ho hsame => hname (hsame ▸ h.names o ho)
  refine ⟨hadds.sound, hadds.titled, fun c hc => ?_, fun o ho => ?_, h.distinct, h.proper,
    fun o ho => ?_, fun imp himp => ?_⟩
  · rcases hadds.own _ c (hadds.sound.classInfo?_type hc) with hown | hold
    · exact List.mem_cons.mpr (.inl hown)
    · obtain ⟨d, hd, hkey⟩ := keyOf?_eq_some.mp hold
      exact List.mem_cons_of_mem _ (hkey ▸ h.taken d (h.sound.mem_classes hd))
  · exact List.mem_cons_of_mem _ (h.names o ho)
  · refine (h.stays o ho).grows hadds.grows (fun id c hc _ => hadds.done id c hc)
      (h.proper o ho).done fun c hc hmodule => ?_
    rcases hadds.own _ c (hadds.sound.classInfo?_type hc) with hown | hold
    · exact absurd (hmodule.symm.trans hown) (hne o ho)
    · obtain ⟨d, hd, hkey⟩ := keyOf?_eq_some.mp hold
      exact ⟨d, h.sound.mem_classes hd, hkey⟩
  · obtain ⟨o, ho, hnamed, hkind, file, hsyms⟩ := h.imports imp himp
    exact ⟨o, ho, hnamed, hkind, file, hsyms.imp fun _ _ hs => hs.mono (.refl _) hadds.grows⟩

/-- What the used modules offer to a file in the types of the workspace. -/
abbrev realm (w : Workspace) (f : Tree.File) : Realm :=
  Origin.realm (Origin.Reaches w.origins (f.allUses.map (·.name))) w.types

theorem Kept.tableFits (h : w.Kept) (f : Tree.File) : TableFits (w.realm f).env w.types :=
  Origin.tableFits_realm h.sound fun o ho => ⟨h.proper o ho.mem, h.stays o ho.mem⟩

theorem Kept.importFits {f : Tree.File} (h : w.Kept) :
    ∀ v ∈ f.allUses, ∀ imp ∈ w.imports, imp.name = v.name → ImportFits (w.realm f) w.types imp := by
  intro v hv imp himp hsame
  obtain ⟨o, ho, hrestored⟩ := h.imports imp himp
  have hused : o.name ∈ f.allUses.map (·.name) :=
    List.mem_map.mpr ⟨v, hv, hsame.symm.trans hrestored.name⟩
  exact hrestored.fits (h.proper o ho) (.used ho hused)

theorem Kept.ends {imports : List Import} {path : String} {f : Tree.File} {r : BindResult}
    (h : w.Kept) (himports : imports ⊆ w.imports)
    (hr : Module.ofFile w.types imports path f = .ok r) :
    ∃ s, Ends (w.realm f) w.types imports f r s :=
  ends_of_ofFile h.sound.toFormed (h.tableFits f) h.titled rfl
    (fun v hv imp himp => h.importFits v hv imp (himports himp)) hr

theorem realm_le {imports : List Import} {f : Tree.File} {r : BindResult} {s : Session}
    (h : Ends (w.realm f) w.types imports f r s) :
    (w.realm f).Le (Origin.realm (Origin.Reaches w.origins r.module.uses) r.types) := by
  have hreaches : Origin.Reaches w.origins (f.allUses.map (·.name)) =
      Origin.Reaches w.origins r.module.uses :=
    funext fun o => propext ⟨fun ho => ho.subset fun n hn => (h.uses n).mpr hn,
      fun ho => ho.subset fun n hn => (h.uses n).mp hn⟩
  unfold realm
  rw [hreaches]
  refine ⟨fun _ => .rfl, fun _ _ hr => hr, ?_⟩
  rintro n slot type ⟨o, ho, declared, hv, halike⟩
  exact ⟨o, ho, declared, hv, halike.mono (.refl _) h.grows⟩

theorem Kept.refers {imports : List Import} {path : String} {f : Tree.File} {r : BindResult}
    (h : w.Kept) (himports : imports ⊆ w.imports)
    (hr : Module.ofFile w.types imports path f = .ok r) (hnil : r.errors = []) :
    r.module.Refers (Origin.realm (Origin.Reaches w.origins r.module.uses) r.types) r.types := by
  obtain ⟨s, hends⟩ := h.ends himports hr
  exact (hends.refers hnil).among (realm_le hends)

theorem Kept.bound {imports : List Import} {path : String} {f : Tree.File} {r : BindResult}
    (h : w.Kept) (himports : imports ⊆ w.imports) (hname : f.name.name ∉ w.taken)
    (hr : Module.ofFile w.types imports path f = .ok r) :
    Adds w.types r.types f.name.name ∧ r.module.name = f.name.name ∧
      (Layout.Grounded w.types → Layout.Grounded r.types) ∧
      (r.errors = [] →
        (∀ n ∈ r.module.uses, ∃ o ∈ w.origins, o.name = n) ∧
        r.module.Fits (Origin.realm (Origin.Reaches w.origins r.module.uses) r.types) r.types) := by
  obtain ⟨s, hends⟩ := h.ends himports hr
  have hfresh : ∀ c ∈ w.types.classes, c.key.module ≠ f.name.name := fun c hc hsame =>
    hname (hsame ▸ h.taken c hc)
  refine ⟨hends.adds h.sound hfresh, hends.name, hends.grounded, fun hnil => ⟨fun n hn => ?_, ?_⟩⟩
  · obtain ⟨imp, himp, hsame, -⟩ := hends.imported hnil n hn
    obtain ⟨o, ho, hrestored⟩ := h.imports imp (himports himp)
    exact ⟨o, ho, hrestored.name.symm.trans hsame⟩
  · exact (hends.fits h.sound hfresh hnil).among (realm_le hends)

theorem Kept.compiled {imports : List Import} {path : String} {f : Tree.File} {r : BindResult}
    {u : CompiledUnit} (h : w.Kept) (himports : imports ⊆ w.imports) (hname : f.name.name ∉ w.taken)
    (hr : Module.ofFile w.types imports path f = .ok r) (herrors : r.errors = [])
    (hu : Origin.Makes ⟨r.types, r.module⟩ u) :
    Origin.Proper w.origins ⟨r.types, r.module⟩ ∧ ∀ p ∈ w.origins, p.name ≠ r.module.name := by
  obtain ⟨hadds, hmodule, -, hgood⟩ := h.bound himports hname hr
  obtain ⟨huses, hfits⟩ := hgood herrors
  have hgrown := h.grow hname hadds
  have hforeign : ∀ p ∈ w.origins, p.name ≠ r.module.name := fun p hp hsame =>
    hname (hmodule ▸ hsame ▸ h.names p hp)
  exact ⟨⟨hadds.sound, hadds.titled, hfits, hu.describes.done hadds.sound hfits, huses,
    fun p hp => hforeign p hp.mem, fun p hp => hgrown.stays p hp.mem⟩, hforeign⟩

/-- A unit that was compiled in another workspace is imported after all that it depends on. -/
theorem Kept.load {v : Workspace} {u : CompiledUnit} (h : w.Kept) (hv : v.Kept) (ho : o ∈ v.origins)
    (hname : o.name ∉ w.taken)
    (hdeps : ∀ p, Origin.Reaches v.origins o.module.uses p → p ∈ w.origins) (hu : o.Makes u) :
    ∃ syms types, u.interface.run w.types = .ok ⟨u.name, u.kind, syms⟩ types ∧
      Kept { types, imports := ⟨u.name, u.kind, syms⟩ :: w.imports, origins := o :: w.origins,
             taken := o.name :: w.taken } ∧
      w.types.Grows types ∧ List.Forall₂ (Symbol.Alike o.types types u.file) o.exported syms := by
  have hproper := (hv.proper o ho).among hv.proper h.distinct hdeps
  obtain ⟨syms, types, hrun, hgains, hstays, hsyms⟩ := hproper.import hu.describes h.sound
    (fun p hp => h.stays p hp.mem) fun c hc hsame => hname (hsame ▸ h.taken c hc)
  have hadds : Adds w.types types o.name := by
    refine ⟨hgains.sound, fun c hc => ?_, hgains.grows, fun id c hc _ => hgains.old id c hc,
      fun id c hc => ?_⟩
    · rcases hgains.own _ c (hgains.sound.classInfo?_type hc) with hold | ⟨d, hd, -, hkey⟩
      · exact h.titled c (h.sound.mem_classes hold)
      · exact hkey ▸ hproper.titled d hd
    · rcases hgains.own id c hc with hold | ⟨d, -, hmodule, hkey⟩
      · exact .inr (keyOf?_eq_some.mpr ⟨c, hold, rfl⟩)
      · exact .inl (hkey ▸ hmodule)
  have hforeign : ∀ p ∈ w.origins, p.name ≠ o.name := fun p hp hsame =>
    hname (hsame ▸ h.names p hp)
  exact ⟨syms, types, hrun, (h.grow hname hadds).push List.mem_cons_self hforeign hproper hstays
    ⟨hu.describes.name, hu.describes.kind, u.file, hsyms⟩, hgains.grows, hsyms⟩

theorem Reachable.kept (hw : w.Reachable) : w.Kept := by
  induction hw with
  | start => exact .start
  | bind _ himports hname hr ih => exact ih.grow hname (ih.bound himports hname hr).1
  | @compile w imports path f r u imp types hw himports hname hr herrors hu himp ih =>
    obtain ⟨hproper, hforeign⟩ := ih.compiled himports hname hr herrors hu
    obtain ⟨hadds, hmodule, -⟩ := ih.bound himports hname hr
    obtain ⟨imp', hrun, hrestored⟩ := hproper.import_self hu.describes
    rw [himp] at hrun
    cases hrun
    exact (ih.grow hname hadds).push (by rw [← hmodule]; exact List.mem_cons_self) hforeign hproper
      hproper.stays_self hrestored
  | @load v w o u imp types hv hw ho hname hdeps hu himp ihv ihw =>
    obtain ⟨syms, t', hrun, hkept, -⟩ := ihw.load ihv ho hname hdeps hu
    rw [himp] at hrun
    cases hrun
    exact hkept

end Workspace

end Pascaline
