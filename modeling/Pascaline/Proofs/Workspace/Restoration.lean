import Pascaline.Proofs.Interface.Compat
import Pascaline.Proofs.Machine.Startup
import Pascaline.Proofs.Workspace.Linking

/-!
# Interfaces restored from units

Units of one session are imported into an empty table, in any order in which each comes after those
that it imports. The table then has the classes of these units and no others, each like it was in
the session, and so types agree there if and only if they did in the session.
-/

namespace Pascaline

open TypeTable Pascaline.Bound

namespace Origin

variable {os os' : List Origin} {us : List String} {p : Origin}

theorem Reaches.mem_of_closed (h : Reaches os us p) (hsub : os' ⊆ os)
    (hnames : ∀ p ∈ os, ∀ q ∈ os, p.name = q.name → p = q)
    (hclosed : ∀ p ∈ os', ∀ n ∈ p.module.uses, ∃ q ∈ os', q.name = n)
    (hus : ∀ n ∈ us, ∃ q ∈ os', q.name = n) : p ∈ os' := by
  have hin : ∀ {us : List String} {o}, (∀ n ∈ us, ∃ q ∈ os', q.name = n) → o ∈ os → o.name ∈ us → o ∈ os' := by
    intro us o hus ho hu
    obtain ⟨q, hq, hname⟩ := hus _ hu
    rwa [hnames o ho q (hsub hq) hname.symm]
  induction h with
  | used ho hu => exact hin hus ho hu
  | through ho hu _ ih => exact ih (hclosed _ (hin hus ho hu))

end Origin

namespace Workspace

variable {v w : Workspace} {us : List CompiledUnit} {u : CompiledUnit}

/-- The import of a unit of `w`: all symbols that its module exports, restored. -/
def Imported (w : Workspace) (t : TypeTable) (u : CompiledUnit) (imp : Import) : Prop :=
  ∃ o ∈ w.origins, o.Makes u ∧ ∃ syms, imp = ⟨u.name, u.kind, syms⟩ ∧
    List.Forall₂ (Symbol.Alike o.types t u.file) o.exported syms

theorem Imported.mono {t t' : TypeTable} {imp : Import} (h : w.Imported t u imp)
    (hle : t.Grows t') : w.Imported t' u imp := by
  obtain ⟨o, ho, hu, syms, himp, hsyms⟩ := h
  exact ⟨o, ho, hu, syms, himp, hsyms.imp fun _ _ hs => hs.mono (.refl _) hle⟩

/-- The workspace `v` has modules of `w`: those of which it has taken the names. -/
structure Part (w v : Workspace) : Prop where
  kept : v.Kept
  origins : ∀ o, o ∈ v.origins ↔ o ∈ w.origins ∧ o.name ∈ v.taken

theorem Part.start (w : Workspace) : w.Part {} := ⟨.start, by simp⟩

theorem Part.import (h : w.Part v) (hw : w.Kept) {o : Origin} (ho : o ∈ w.origins) (hu : o.Makes u)
    (hnew : u.name ∉ v.taken) (huses : ∀ n ∈ u.imports, n ∈ v.taken) :
    ∃ imp v', u.interface.run v.types = .ok imp v'.types ∧ w.Part v' ∧
      v'.taken = u.name :: v.taken ∧ v.types.Grows v'.types ∧ w.Imported v'.types u imp := by
  have hname := hu.describes.name
  have hclosed : ∀ p ∈ v.origins, ∀ n ∈ p.module.uses, ∃ q ∈ v.origins, q.name = n :=
    fun p hp => (h.kept.proper p hp).uses
  have hfound : ∀ n ∈ o.module.uses, ∃ q ∈ v.origins, q.name = n := by
    intro n hn
    obtain ⟨q, hq, rfl⟩ := (hw.proper o ho).uses n hn
    exact ⟨q, (h.origins q).mpr ⟨hq, huses _ (hu.describes.imports ▸ hn)⟩, rfl⟩
  obtain ⟨syms, types, hrun, hkept, hle, hsyms⟩ := h.kept.load hw ho (hname ▸ hnew)
    (fun p hp => hp.mem_of_closed (fun q hq => ((h.origins q).mp hq).1) hw.distinct hclosed hfound)
    hu
  refine ⟨_, _, hrun, ⟨hkept, fun p => ?_⟩, by rw [hname], hle, o, ho, hu, syms, rfl, hsyms⟩
  rw [List.mem_cons, List.mem_cons, h.origins]
  constructor
  · rintro (rfl | ⟨hp, htaken⟩)
    · exact ⟨ho, .inl rfl⟩
    · exact ⟨hp, .inr htaken⟩
  · rintro ⟨hp, hsame | htaken⟩
    · exact .inl (hw.distinct p hp o ho hsame)
    · exact .inr ⟨hp, htaken⟩

theorem Part.imports (h : w.Part v) (hw : w.Kept) (hus : ∀ u ∈ us, ∃ o ∈ w.origins, o.Makes u)
    (hnames : (us.map (·.name)).Nodup) (hnew : ∀ u ∈ us, u.name ∉ v.taken)
    (horder : ∀ as u bs, us = as ++ u :: bs → ∀ n ∈ u.imports,
      n ∈ v.taken ∨ ∃ x ∈ as, x.name = n) :
    ∃ imps v', (us.mapM CompiledUnit.interface).run v.types = .ok imps v'.types ∧ w.Part v' ∧
      (∀ n, n ∈ v'.taken ↔ n ∈ v.taken ∨ n ∈ us.map (·.name)) ∧ v.types.Grows v'.types ∧
      List.Forall₂ (w.Imported v'.types) us imps := by
  induction us generalizing v with
  | nil => exact ⟨[], v, rfl, h, by simp, .refl _, .nil⟩
  | cons u us ih =>
    obtain ⟨o, ho, hu⟩ := hus u List.mem_cons_self
    rw [List.map_cons, List.nodup_cons] at hnames
    obtain ⟨imp, v₁, hrun₁, h₁, htaken₁, hle₁, himp⟩ := h.import hw ho hu
      (hnew u List.mem_cons_self) fun n hn => by simpa using horder [] u us rfl n hn
    obtain ⟨imps, v', hrun, h', htaken, hle, himps⟩ := ih h₁
      (fun x hx => hus x (List.mem_cons_of_mem _ hx)) hnames.2
      (fun x hx => by
        rw [htaken₁, List.mem_cons, not_or]
        refine ⟨fun hsame => hnames.1 ?_, hnew x (List.mem_cons_of_mem _ hx)⟩
        exact List.mem_map.mpr ⟨x, hx, hsame⟩)
      (fun as x bs hsplit n hn => by
        rw [htaken₁, List.mem_cons]
        rcases horder (u :: as) x bs (by rw [hsplit, List.cons_append]) n hn with hn | ⟨y, hy, rfl⟩
        · exact .inl (.inr hn)
        · rcases List.mem_cons.mp hy with rfl | hy
          · exact .inl (.inl rfl)
          · exact .inr ⟨y, hy, rfl⟩)
    refine ⟨imp :: imps, v', ?_, h', fun n => ?_, hle₁.trans hle, .cons (himp.mono hle) himps⟩
    · rw [List.mapM_cons, run_bind_ok hrun₁, run_bind_ok hrun]
      rfl
    · rw [htaken, htaken₁, List.map_cons, List.mem_cons, List.mem_cons]
      tauto

theorem Part.import_again (h : w.Part v) {imp : Import} (himp : w.Imported v.types u imp)
    (htaken : u.name ∈ v.taken) : u.interface.run v.types = .ok imp v.types := by
  obtain ⟨o, ho, hu, syms, rfl, hsyms⟩ := himp
  have hmem : o ∈ v.origins := (h.origins o).mpr ⟨ho, hu.describes.name ▸ htaken⟩
  exact (h.kept.proper o hmem).import_again hu.describes h.kept.sound
    (fun p hp => h.kept.stays p hp.mem) (h.kept.stays o hmem) hsyms

end Workspace

namespace Compilation

variable {c : Compilation} {w v : Workspace} {us : List CompiledUnit}

/-- Each unit comes after those that it imports. -/
def InOrder (us : List CompiledUnit) : Prop :=
  ∀ as u bs, us = as ++ u :: bs → ∀ n ∈ u.imports, ∃ x ∈ as, x.name = n

/-- What there is after the units were imported: their classes and nothing else, each like it was
in the session, and their exported symbols likewise. -/
structure Restores (c : Compilation) (us : List CompiledUnit) (imps : List Import)
    (t : TypeTable) : Prop where
  classes : ∀ d ∈ c.types.classes, (∃ u ∈ us, u.name = d.key.module) →
    ∃ id d', t.classInfo? id = some d' ∧ d.Alike c.types t d'
  only : ∀ d' ∈ t.classes, (∃ u ∈ us, u.name = d'.key.module) ∧
    ∃ d ∈ c.types.classes, d.key = d'.key
  symbols : List.Forall₂ (fun u imp => imp.name = u.name ∧ imp.kind = u.kind ∧
    ∃ m, (m, u) ∈ c.compiled ∧ List.Forall₂ (Symbol.Alike c.types t u.file)
      (m.exports.filterMap m.scopes.symbol?) imp.symbols) us imps
  assignable : ∀ a a' b b', c.types.Alike t a a' → c.types.Alike t b b' →
    t.assignable a' b' = c.types.assignable a b
  again : List.Forall₂ (fun u imp => u.interface.run t = .ok imp t) us imps

theorem inOrder_of_checkUnits (h : Program.checkUnits [] us = .ok ()) : InOrder us := by
  rintro as u bs rfl n hn
  have hu : (as ++ u :: bs)[as.length]? = some u := by simp
  obtain ⟨-, hused⟩ := Program.checkUnit_ok (Program.checkUnit_of_checkUnits h hu)
  simpa using hused n hn

theorem Hosts.inOrder (h : Hosts w c) : InOrder c.units :=
  inOrder_of_checkUnits (h.offers.checkUnits h.ordered)

theorem Hosts.class_iff (h : Hosts w c) {o : Origin} (ho : o ∈ w.origins) {d : ClassInfo}
    (hmodule : d.key.module = o.name) : d ∈ c.types.classes ↔ d ∈ o.types.classes := by
  rw [← h.types]
  have hkept := h.reachable.kept
  have hproper := hkept.proper o ho
  have hkeep : ∀ d ∈ o.types.classes, d.key.module = o.name → w.types.classInfo? d.type = some d :=
    fun d hd hmodule => h.done o ho _ _ (hproper.sound.classInfo?_type hd)
      (hproper.done d hd hmodule)
  constructor
  · intro hd
    obtain ⟨d₀, hd₀, hkey⟩ := (hkept.stays o ho).own d hd hmodule
    have hinfo := hkeep d₀ hd₀ (hkey ▸ hmodule)
    have hinfo' := hkept.sound.classInfo?_type hd
    rw [hkept.sound.eq_of_key hinfo hinfo' hkey, hinfo', Option.some.injEq] at hinfo
    exact hinfo ▸ hd₀
  · exact fun hd => hkept.sound.mem_classes (hkeep d hd hmodule)

theorem Hosts.reproduces (h : Hosts w c) (hv : w.Part v)
    (htaken : ∀ n, n ∈ v.taken → ∃ o ∈ w.origins, o.name = n) :
    CompiledUnit.Reproduces c.types (· ∈ v.taken) v.types := by
  refine ⟨hv.kept.sound, fun id d hd => hv.kept.taken d (hv.kept.sound.mem_classes hd),
    fun d hd hmem => ?_⟩
  obtain ⟨o, ho, hname⟩ := htaken _ hmem
  have hown := (h.class_iff ho hname.symm).mp hd
  obtain ⟨id, d', hd', halike⟩ :=
    (hv.kept.stays o ((hv.origins o).mpr ⟨ho, hname ▸ hmem⟩)).classes d hown hname.symm
  exact ⟨id, d', hd', halike.mono (h.types ▸ h.grows o ho) (.refl _)⟩

/-- Units of one session may be imported into an empty table in any order in which each comes after
those that it imports. What they declare is then there like in the session. -/
theorem imports_restore_interfaces {sources : List (String × Bytes)}
    (hrun : ofSources sources = .ok c) (hnames : c.Distinct) (hus : us.Subperm c.units)
    (horder : InOrder us) :
    ∃ imps t, (us.mapM CompiledUnit.interface).run .empty = .ok imps t ∧ c.Restores us imps t := by
  obtain ⟨w, hw⟩ := ofSources_hosts hrun hnames
  have hkept := hw.reachable.kept
  have hmakes : ∀ u ∈ us, ∃ o ∈ w.origins, o.Makes u ∧ (o.module, u) ∈ c.compiled :=
    fun u hu => hw.origin (hus.subset hu)
  have hnodup : (us.map (·.name)).Nodup := by
    obtain ⟨vs, hperm, hsub⟩ := hus
    exact (hperm.map _).nodup_iff.mp ((hsub.map _).nodup hw.names)
  obtain ⟨imps, v, himports, hv, htaken, -, hall⟩ := (Workspace.Part.start w).imports hkept
    (fun u hu => (hmakes u hu).imp fun o ho => ⟨ho.1, ho.2.1⟩) hnodup (by simp)
    fun as u bs hsplit n hn => .inr (horder as u bs hsplit n hn)
  have htaken' : ∀ n, n ∈ v.taken ↔ ∃ u ∈ us, u.name = n := fun n => by
    simpa using htaken n
  have hreproduces := hw.reproduces hv fun n hn => by
    obtain ⟨u, hu, rfl⟩ := (htaken' n).mp hn
    obtain ⟨o, ho, hmake, -⟩ := hmakes u hu
    exact ⟨o, ho, hmake.describes.name.symm⟩
  refine ⟨imps, v.types, himports, ?_, ?_, ?_, ?_, ?_⟩
  · exact fun d hd hunit => hreproduces.classes d hd ((htaken' _).mpr hunit)
  · intro d' hd'
    obtain ⟨u, hu, hname⟩ := (htaken' _).mp (hv.kept.taken d' hd')
    obtain ⟨o, ho, hmake, -⟩ := hmakes u hu
    have hsame : o.name = d'.key.module := hmake.describes.name.symm.trans hname
    have hmem := (hv.origins o).mpr ⟨ho, hsame ▸ hv.kept.taken d' hd'⟩
    obtain ⟨d, hd, hkey⟩ := (hv.kept.stays o hmem).own d' hd' hsame.symm
    exact ⟨⟨u, hu, hname⟩, d, (hw.class_iff ho (hkey ▸ hsame.symm)).mpr hd, hkey⟩
  · refine forall₂_mono_mem hall fun u hu imp himp => ?_
    obtain ⟨o, ho, hmake, syms, rfl, hsyms⟩ := himp
    obtain ⟨p, hp, hmake', hcompiled⟩ := hmakes u hu
    obtain rfl := hkept.distinct o ho p hp (hmake.describes.name.symm.trans hmake'.describes.name)
    exact ⟨rfl, rfl, o.module, hcompiled,
      hsyms.imp fun _ _ hs => hs.mono (hw.types ▸ hw.grows o ho) (.refl _)⟩
  · intro a a' b b' ha hb
    exact (hreproduces.assignable (hw.types ▸ hkept.sound) (hw.types ▸ hw.grounded.rooted) ha
      hb).symm
  · exact forall₂_mono_mem hall fun u hu imp himp =>
      hv.import_again himp ((htaken' _).mpr ⟨u, hu, rfl⟩)

theorem imports_restore_interfaces_litter : ∃ c, ofSources litter = .ok c ∧ c.Distinct ∧
    c.units.length = 2 ∧ c.units.Subperm c.units ∧ InOrder c.units ∧
    ∃ imps t, (c.units.mapM CompiledUnit.interface).run .empty = .ok imps t ∧
      c.Restores c.units imps t := by
  obtain ⟨c, hrun, hnames, hunits⟩ := litter_compiled
  obtain ⟨w, hw⟩ := ofSources_hosts hrun hnames
  exact ⟨c, hrun, hnames, hunits, .refl _, hw.inOrder,
    imports_restore_interfaces hrun hnames (.refl _) hw.inOrder⟩

end Compilation

end Pascaline
