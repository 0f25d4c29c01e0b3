import Pascaline.Proofs.Build.Reports

/-!
# Builds without errors

As long as no source has errors, every unit that is dealt with is there afterwards: it is fresh in
the store, or it is compiled.
-/

namespace Pascaline.BuildM

open Build

variable {b b₀ : Build} {disk₀ : Disk} {s s' : Build × Disk} {done : List String} {src : FoundSource}

-- Unifiers would run the binding of a file.
attribute [local irreducible] Bound.Module.ofFile

/-! ## Errors stay -/

theorem bindSource_spec {tree : Tree.File} {r : Bound.BindResult} {b' : Build}
    (h : b.bindSource src tree = .ok (r, b')) :
    (b.Erring → b'.Erring) ∧ (r.errors = [] → Quiet b b') ∧
      (r.errors ≠ [] → b.source? src.summary.name = some src → b'.Erring) := by
  unfold bindSource at h
  dsimp only at h
  split at h
  case h_2 => cases h
  case h_1 r' hr =>
  cases h
  refine ⟨fun herring => Erring.addErrors herring _ _, fun hnone => ?_, fun hsome hsrc => ?_⟩
  · rw [hnone]
    refine ⟨rfl, ?_, rfl, rfl, rfl, rfl, rfl, rfl⟩
    simp [Build.addErrors]
  · obtain ⟨d, hd⟩ := List.exists_mem_of_ne_nil _ hsome
    exact erring_addErrors hsrc hd (Bound.Module.ofFile_errors hr d hd)

theorem sources_reuse {span : Journal.OpenSpan} {r : Bool × Journal.OpenSpan}
    (h : Yields (reuse src span) s r s') : s'.1.sources = s.1.sources := by
  obtain ⟨-, ⟨-, hquiet⟩ | ⟨b, -, u, hquiet, -, -, hquiet'⟩⟩ := reuse_spec h
  · exact hquiet.sources
  · exact hquiet'.sources.trans hquiet.sources

theorem erring_compileSource {tree : Tree.File} {u : PUnit} (hs : s.1.Erring)
    (h : Yields (compileSource src tree) s u s') : s'.1.Erring := by
  obtain ⟨b, b₁, r, hbefore, hbind, hafter⟩ := compileSource_spec h
  have hbound := (bindSource_spec hbind).1 (hs.congr hbefore.sources)
  obtain ⟨-, -, b₂, first, hquiet, hmarked⟩ | ⟨-, b₂, v, b₃, hquiet, -, hquiet', hpersist⟩ := hafter
  · refine hbound.congr ?_
    rw [hmarked]
    exact hquiet.sources
  · exact hbound.congr
      ((quiet_persist hpersist).sources.trans (hquiet'.sources.trans hquiet.sources))

theorem erring_compileUnit {root : Nat} {slot : GraphSlot} {u : PUnit} (hs : s.1.Erring)
    (h : Yields (compileUnit root slot src) s u s') : s'.1.Erring := by
  obtain ⟨b, first, hquiet, hsilent, -⟩ | ⟨tree, span, t, reused, t₁, -, -, hopen, hreuse, hrest⟩ :=
    compileUnit_spec h
  · exact hs.congr (hsilent.quiet.sources.trans hquiet.sources)
  · have ht₁ := hs.congr ((sources_reuse hreuse).trans hopen.quiet.sources)
    obtain ⟨-, hclose⟩ | ⟨t₂, hcompile, hclose⟩ := hrest
    · exact ht₁.congr hclose.quiet.sources
    · exact (erring_compileSource ht₁ hcompile).congr hclose.quiet.sources

/-! ## The store -/

theorem persist_files {path : String} {v : CompiledUnit} {u : PUnit}
    (h : Yields (persist path v) s u s') :
    Disk.Enters s.2 s'.2 fun p _ => p = UnitCache.unitPlace s.2 s.1.request.cache v.name := by
  simp only [persist, yields_bind, yields_get] at h
  obtain ⟨b, t, ⟨rfl, rfl⟩, h⟩ := h
  split at h
  · rw [(yields_pure.mp h).2]
    exact ⟨rfl, fun _ _ => .inl⟩
  · simp only [yields_bind, yields_modify, yields_lift] at h
    obtain ⟨_, t₁, rfl, _, t₂, h₂, outcome, t₃, ⟨-, hsave⟩, _, t₄, h₄, h⟩ := h
    have hdisk : s'.2 = t₃.2 := by
      split at h
      · rw [yields_modify] at h
        rw [h]
        exact (silent_now h₄).disk
      · simp only [yields_bind, yields_throw, and_false, exists_false] at h
    rw [(silent_now h₂).disk] at hsave
    obtain ⟨hdir, hfiles⟩ := UnitCache.save_files hsave
    rw [hdisk]
    exact ⟨hdir, fun p content hp => (hfiles p content hp).imp_right And.left⟩

theorem unitPlace_congr {disk disk' : Disk} (h : disk'.workingDir = disk.workingDir)
    (dir name : String) : UnitCache.unitPlace disk' dir name = UnitCache.unitPlace disk dir name := by
  rw [UnitCache.unitPlace, UnitCache.unitPlace, Disk.place, Disk.place, h]

theorem found_of_fresh {stored : StoredUnit} {name path : String} {source : Digest}
    {deps : List (String × Digest)} {u : CompiledUnit}
    (h : stored.fresh name path source deps = .ok (some u)) : stored = .found u := by
  cases stored with
  | missing => cases h
  | corrupt file e => cases h
  | found v =>
    rw [StoredUnit.fresh] at h
    split at h
    · cases h
    split at h
    · cases h
      rfl
    · cases h

/-! ## Units without errors -/

/-- How far a build is whose sources have no errors so far: each unit that was dealt with is there,
from its source, and nothing was stored under the names of the others. -/
structure Clean (b₀ : Build) (disk₀ : Disk) (done : List String) (s : Build × Disk) : Prop where
  request : s.1.request = b₀.request
  sources : s.1.sources = b₀.sources
  graph : s.1.graph = b₀.graph
  layering : s.1.layering = b₀.layering
  broken : s.1.broken = []
  made : ∀ u ∈ s.1.compiled, ∃ src, b₀.source? u.name = some src ∧ u.source = src.summary.content
  dealt : ∀ name ∈ done, ∃ u ∈ s.1.compiled, u.name = name
  workingDir : s.2.workingDir = disk₀.workingDir
  files : ∀ name, IsName name → name ∉ done → ∀ content,
    s.2.fileAt? (UnitCache.unitPlace disk₀ b₀.request.cache name) = some content →
      disk₀.fileAt? (UnitCache.unitPlace disk₀ b₀.request.cache name) = some content

theorem Clean.silent (h : Clean b₀ disk₀ done s) (hs : Silent s s') : Clean b₀ disk₀ done s' where
  request := hs.quiet.request.trans h.request
  sources := hs.quiet.sources.trans h.sources
  graph := hs.quiet.graph.trans h.graph
  layering := hs.quiet.layering.trans h.layering
  broken := hs.quiet.broken.trans h.broken
  made := hs.quiet.compiled ▸ h.made
  dealt := hs.quiet.compiled ▸ h.dealt
  workingDir := hs.disk ▸ h.workingDir
  files := hs.disk ▸ h.files

/-- The order in which units were dealt with does not matter, nor whether twice. -/
theorem Clean.reorder {done' : List String} (h : Clean b₀ disk₀ done s)
    (hdone : ∀ name, name ∈ done ↔ name ∈ done') : Clean b₀ disk₀ done' s :=
  { h with
    dealt := fun name hname => h.dealt name ((hdone name).mpr hname)
    files := fun name hn hname => h.files name hn ((hdone name).not.mpr hname) }

theorem Clean.take (h : Clean b₀ disk₀ done s) (hsrc : b₀.source? src.summary.name = some src)
    (hname : IsName src.summary.name) {u : CompiledUnit} (hu : u.name = src.summary.name)
    (hcontent : u.source = src.summary.content) (hquiet : Quiet (s.1.record u) s'.1)
    (hdisk : Disk.Enters s.2 s'.2 fun p _ =>
      p = UnitCache.unitPlace s.2 b₀.request.cache src.summary.name) :
    Clean b₀ disk₀ (src.summary.name :: done) s' where
  request := hquiet.request.trans h.request
  sources := hquiet.sources.trans h.sources
  graph := hquiet.graph.trans h.graph
  layering := hquiet.layering.trans h.layering
  broken := hquiet.broken.trans h.broken
  made v hv := by
    rw [hquiet.compiled] at hv
    obtain rfl | hv := List.mem_cons.mp hv
    · exact ⟨src, hu ▸ hsrc, hcontent⟩
    · exact h.made v hv
  dealt name hmem := by
    rw [hquiet.compiled]
    obtain rfl | hmem := List.mem_cons.mp hmem
    · exact ⟨u, List.mem_cons_self, hu⟩
    · obtain ⟨v, hv, hvname⟩ := h.dealt name hmem
      exact ⟨v, List.mem_cons_of_mem u hv, hvname⟩
  workingDir := hdisk.workingDir.trans h.workingDir
  files name hn hnew content hfile := by
    rw [List.mem_cons, not_or] at hnew
    obtain hold | hplace := hdisk.files _ content hfile
    · exact h.files name hn hnew.2 content hold
    · rw [unitPlace_congr h.workingDir] at hplace
      exact absurd (UnitCache.unitPlace_injective disk₀ _ hn hname hplace) hnew.1

/-- What is stored under the name of a unit has this name, if anything is stored at all. -/
def Named (b₀ : Build) (disk₀ : Disk) : Prop :=
  b₀.request.cache = "" ∨ UnitCache.HoldsNamed b₀.request.cache disk₀

theorem clean_reuse {span : Journal.OpenSpan} {r : Bool × Journal.OpenSpan}
    (hnamed : Named b₀ disk₀) (h : Clean b₀ disk₀ done s)
    (hsrc : b₀.source? src.summary.name = some src) (hname : IsName src.summary.name)
    (hnew : src.summary.name ∉ done) (hrun : Yields (reuse src span) s r s') :
    r.1 = false ∧ Clean b₀ disk₀ done s' ∨ Clean b₀ disk₀ (src.summary.name :: done) s' := by
  obtain ⟨hdisk, ⟨hfalse, hquiet⟩ | ⟨b, stored, u, hquiet, hload, hfresh, hquiet'⟩⟩ := reuse_spec hrun
  · exact .inl ⟨hfalse, h.silent ⟨hquiet, hdisk⟩⟩
  · have hb : Clean b₀ disk₀ done (b, s.2) := h.silent (silent_of_quiet hquiet)
    have hrequest : b.request = b₀.request := hb.request
    rw [found_of_fresh hfresh, hrequest] at hload
    obtain ⟨content, hfile, hdecode⟩ := (UnitCache.load_run hload).2 u rfl
    have hu : u.name = src.summary.name := by
      obtain hnowhere | hholds := hnamed
      · rw [hnowhere] at hload
        cases load_nowhere hload
      · rw [unitPlace_congr h.workingDir] at hfile
        exact hholds _ hname content u (h.files _ hname hnew content hfile) hdecode
    refine .inr (hb.take hsrc hname (u := { u with file := src.file }) hu ?_ hquiet' ?_)
    · exact (records_of_fresh hfresh).source
    · rw [hdisk]
      exact ⟨rfl, fun _ _ => .inl⟩

theorem clean_compileSource {tree : Tree.File} {u : PUnit} (h : Clean b₀ disk₀ done s)
    (hsrc : b₀.source? src.summary.name = some src) (hname : IsName src.summary.name)
    (hsound : src.Sound) (hreport : ¬ src.report.hasErrors) (htree : src.tree = some tree)
    (hrun : Yields (compileSource src tree) s u s') :
    s'.1.Erring ∨ Clean b₀ disk₀ (src.summary.name :: done) s' := by
  obtain ⟨b, b₁, r, hbefore, hbind, hafter⟩ := compileSource_spec hrun
  have hb : Clean b₀ disk₀ done (b, s.2) := h.silent (silent_of_quiet hbefore)
  have hb_sources : b.sources = b₀.sources := hb.sources
  obtain ⟨-, hquiet, herring⟩ := bindSource_spec hbind
  obtain ⟨herrors, -, b₂, first, hquiet₂, hmarked⟩ |
    ⟨hnone, b₂, v, b₃, hquiet₂, hlower, hquiet₃, hpersist⟩ := hafter
  · refine .inl (Erring.congr (herring herrors ?_) (hmarked ▸ hquiet₂.sources))
    rw [source?, hb_sources]
    exact hsrc
  · have hb₃ : Clean b₀ disk₀ done (b₃, s.2) :=
      hb.silent (silent_of_quiet (((hquiet hnone).trans hquiet₂).trans hquiet₃))
    obtain ⟨hmodule, huses⟩ : r.module.name = tree.name.name ∧
        r.module.uses = (tree.allUses.map (·.name)).eraseDups := by
      unfold bindSource at hbind
      dsimp only at hbind
      split at hbind
      · cases hbind
        exact Bound.Module.ofFile_gives ‹_›
      · cases hbind
    rw [← hsound.faithful.uses tree htree] at huses
    obtain ⟨hv, hrecords, -⟩ := lowerSource_spec hlower huses
    have hvname : v.name = src.summary.name := by
      rw [hv, hmodule]
      exact ((hsound.faithful.name tree htree).resolve_right hreport).symm
    refine .inr (hb₃.take hsrc hname hvname hrecords.source (quiet_persist hpersist) ?_)
    have hfiles := persist_files hpersist
    have hrequest : (b₃.record v).request = b₀.request := hb₃.request
    rwa [hrequest, hvname] at hfiles

theorem clean_compileUnit {root : Nat} {slot : GraphSlot} {u : PUnit} (hnamed : Named b₀ disk₀)
    (hsound : ∀ src ∈ b₀.sources, src.Sound) (hreports : ¬ b₀.Erring) (h : Clean b₀ disk₀ done s)
    (hsrc : b₀.source? src.summary.name = some src) (hslot : slot.broken = false)
    (hnew : src.summary.name ∉ done) (hrun : Yields (compileUnit root slot src) s u s') :
    s'.1.Erring ∨ Clean b₀ disk₀ (src.summary.name :: done) s' := by
  have hmem := List.mem_of_find?_eq_some hsrc
  have hsrc_sound := hsound src hmem
  have hreport : ¬ src.report.hasErrors := fun herror => hreports ⟨src, hmem, herror⟩
  have hname : IsName src.summary.name := hsrc_sound.named.resolve_right hreport
  obtain ⟨b, first, hquiet, hsilent, hwhy⟩ |
    ⟨tree, span, t, reused, t₁, htree, -, hopen, hreuse, hrest⟩ := compileUnit_spec hrun
  · -- nothing is broken, so no unit is passed over
    have hbroken : b.broken = [] := hquiet.broken.trans h.broken
    obtain hslot' | hfailed | ⟨use, -, huse⟩ := hwhy
    · rw [hslot] at hslot'
      cases hslot'
    · exact absurd (hsrc_sound.hasErrors_of_failed hfailed) hreport
    · rw [isBroken, hbroken] at huse
      cases huse
  · obtain ⟨hfalse, ht₁⟩ | ht₁ := clean_reuse hnamed (h.silent hopen) hsrc hname hnew hreuse
    · obtain ⟨htrue, -⟩ | ⟨t₂, hcompile, hclose⟩ := hrest
      · rw [hfalse] at htrue
        cases htrue
      · exact (clean_compileSource ht₁ hsrc hname hsrc_sound hreport htree hcompile).imp
          (·.congr hclose.quiet.sources) (·.silent hclose)
    · obtain ⟨-, hclose⟩ | ⟨t₂, hcompile, hclose⟩ := hrest
      · exact .inr (ht₁.silent hclose)
      · refine (clean_compileSource ht₁ hsrc hname hsrc_sound hreport htree hcompile).imp
          (·.congr hclose.quiet.sources) fun ht₂ => (ht₂.silent hclose).reorder fun name => ?_
        simp

/-! ## All units -/

/-- What one number of the layers leads to: its source is dealt with, if it has one. -/
def Visits (root i : Nat) (s s' : Build × Disk) : Prop :=
  (∃ slot src, s.1.graph.slots[i]? = some slot ∧ slot.present ∧
    s.1.source? slot.summary.name = some src ∧ Yields (compileUnit root slot src) s () s') ∨
  (∀ slot, s.1.graph.slots[i]? = some slot → slot.present → s.1.source? slot.summary.name = none) ∧
    s' = s

/-- Unless there is a cycle, all units are dealt with one after the other. -/
theorem compileAll_spec {root : Nat} {note : String} {I : List Nat → Build × Disk → Prop}
    (hI : ∀ done i rest, s.1.layering.waves.flatten = done ++ i :: rest → ∀ s s', I done s →
      Visits root i s s' → I (done ++ [i]) s')
    (hs : I [] s) (h : Yields (compileAll root) s note s') :
    s.1.layering.isCyclic = true ∧ s' = (s.1.reportBroken, s.2) ∨
      ∃ t, I s.1.layering.waves.flatten t ∧ s' = (t.1.reportBroken, t.2) := by
  simp only [compileAll, yields_bind, yields_get] at h
  obtain ⟨_, _, ⟨rfl, rfl⟩, h⟩ := h
  split at h
  case isFalse hcyclic =>
    simp only [yields_bind, yields_modify, yields_pure] at h
    obtain ⟨_, _, rfl, -, rfl⟩ := h
    exact .inl ⟨by simpa using hcyclic, rfl⟩
  case isTrue =>
    simp only [yields_bind, yields_modify, yields_pure] at h
    obtain ⟨_, t, hall, _, _, rfl, -, rfl⟩ := h
    refine .inr ⟨t, yields_forM_done ?_ hs hall, rfl⟩
    intro done i rest hsplit s _ s' hs hone
    refine hI done i rest hsplit s s' hs ?_
    simp only [yields_bind, yields_get] at hone
    obtain ⟨_, s, ⟨rfl, rfl⟩, hone⟩ := hone
    split at hone
    case h_1 hnone =>
      refine .inr ⟨fun slot hslot => ?_, (yields_pure.mp hone).2⟩
      rw [hnone] at hslot
      cases hslot
    case h_2 slot hslot =>
    split at hone
    case h_1 hnone =>
      refine .inr ⟨fun slot' hslot' hpresent => ?_, (yields_pure.mp hone).2⟩
      rw [hslot] at hslot'
      cases hslot'
      rwa [if_pos hpresent] at hnone
    case h_2 src hsrc =>
    split at hsrc
    case isFalse => cases hsrc
    case isTrue hpresent =>
    split at hone
    · simp only [yields_bind, yields_throw, false_and, exists_false] at hone
    · exact .inl ⟨slot, src, hslot, hpresent, hsrc, hone⟩

theorem Visits.erring {root i : Nat} (h : Visits root i s s') (hs : s.1.Erring) : s'.1.Erring := by
  obtain ⟨slot, src, -, -, -, hrun⟩ | ⟨-, rfl⟩ := h
  · exact erring_compileUnit hs hrun
  · exact hs

theorem erring_compileAll {root : Nat} {note : String} (hs : s.1.Erring)
    (h : Yields (compileAll root) s note s') : s'.1.Erring := by
  obtain ⟨-, rfl⟩ | ⟨t, ht, rfl⟩ :=
    compileAll_spec (I := fun _ s => s.1.Erring) (fun _ _ _ _ _ _ hs hone => hone.erring hs) hs h
  · exact Erring.addReports hs _
  · exact Erring.addReports ht _

/-- The numbers of the graph with a source. -/
def Present (b : Build) (i : Nat) : Prop := (UnitGraph.ofNodes b.nodes).1.isPresent i

theorem nameOf_layOut (b : Build) (i : Nat) :
    b.layOut.graph.nameOf i = (UnitGraph.ofNodes b.nodes).1.nameOf i := rfl

theorem nameOf_inj {i k : Nat} (hi : Present b i) (hk : Present b k)
    (h : b.layOut.graph.nameOf i = b.layOut.graph.nameOf k) : i = k := by
  have hg := UnitGraph.numbered_ofNodes b.nodes
  have hindex (i : Nat) (hi : Present b i) := hg.indexOf?_nameOf (UnitGraph.lt_of_isPresent hi)
  rw [nameOf_layOut, nameOf_layOut] at h
  exact Option.some.inj ((hindex i hi).symm.trans ((congrArg _ h).trans (hindex k hk)))

theorem exists_present_iff (name : String) :
    (∃ i, Present b i ∧ b.layOut.graph.nameOf i = name) ↔
      name ≠ "" ∧ ∃ src, b.source? name = some src := by
  have hg := UnitGraph.numbered_ofNodes b.nodes
  have hsource : (UnitGraph.sourceOf? b.nodes name).isSome ↔
      name ≠ "" ∧ ∃ src, b.source? name = some src := by
    rw [sourceOf?_nodes]
    split
    case isTrue hname => simp [hname]
    case isFalse hname => simp [hname, Option.isSome_iff_exists]
  rw [← hsource]
  constructor
  · rintro ⟨i, hi, rfl⟩
    have hindex := hg.indexOf?_nameOf (UnitGraph.lt_of_isPresent hi)
    exact (UnitGraph.isPresent_ofNodes hindex).symm.trans hi
  · intro hsome
    obtain ⟨n, hn⟩ := Option.isSome_iff_exists.mp hsome
    obtain ⟨i, hi⟩ := UnitGraph.indexOf?_of_sourceOf? hn
    exact ⟨i, (UnitGraph.isPresent_ofNodes hi).trans hsome, (hg.eq_nameOf hi).2⟩

theorem mem_initOrder (hacyclic : b.layOut.layering.isCyclic = false) {i : Nat} :
    i ∈ b.layOut.layering.initOrder ↔ Present b i := by
  have hg := UnitGraph.bounded_ofNodes b.nodes
  rw [Layering.initOrder, List.mem_reverse]
  exact (UnitGraph.mem_order hg hacyclic).trans hg.mem_present

theorem initOrder_nodup (b : Build) : b.layOut.layering.initOrder.Nodup :=
  List.nodup_reverse.mpr (UnitGraph.usersFirst_order (UnitGraph.bounded_ofNodes b.nodes)).nodup

theorem waves_perm (l : Layering) : l.waves.flatten.Perm l.initOrder := by
  have hflatten : l.waves.flatten.Perm l.order := by
    rw [Layering.waves, Layering.order, ← List.flatMap_id, ← List.flatMap_id]
    exact (List.reverse_perm l.batches).flatMap_right id
  exact hflatten.trans (List.reverse_perm l.order).symm

theorem slot_of_present {i : Nat} (hi : Present b i) :
    b.layOut.graph.slots[i]? = some (b.layOut.graph.slot i) ∧ (b.layOut.graph.slot i).present ∧
      (b.layOut.graph.slot i).summary.name = b.layOut.graph.nameOf i := by
  have hg := UnitGraph.numbered_ofNodes b.nodes
  have hlt : i < b.layOut.graph.slots.size := by
    rw [size_slots_layOut, hg.slots]
    exact UnitGraph.lt_of_isPresent hi
  have hpresent : (b.layOut.graph.slot i).present := by
    rw [(slot_layOut hlt).1]
    exact hi
  refine ⟨by simp [UnitGraph.slot, hlt], hpresent, ?_⟩
  exact (hg.eq_nameOf (indexOf?_slot_layOut hlt hpresent)).2.symm

theorem Visits.clean {root i : Nat} (hnamed : Named b.layOut disk₀)
    (hsound : ∀ src ∈ b.sources, src.Sound) (hreports : ¬ b.layOut.Erring)
    (hacyclic : b.layOut.layering.isCyclic = false) (hi : Present b i)
    (hnew : b.layOut.graph.nameOf i ∉ done) (hs : Clean b.layOut disk₀ done s)
    (h : Visits root i s s') :
    s'.1.Erring ∨ Clean b.layOut disk₀ (b.layOut.graph.nameOf i :: done) s' := by
  obtain ⟨hslot, hpresent, hname⟩ := slot_of_present hi
  obtain ⟨src, hsrc⟩ := ((exists_present_iff _).mp ⟨i, hi, rfl⟩).2
  have hlaid : b.layOut.sources.map (·.summary) = b.sources.map (·.summary) :=
    (sources_addReports _ _).1
  obtain ⟨src', hsrc', hsummary⟩ := source?_of_summaries hlaid hsrc
  rw [hsummary, name_of_source? hsrc] at hsrc'
  obtain ⟨slot, src'', hslot', -, hsrc'', hrun⟩ | ⟨hnone, -⟩ := h
  · rw [hs.graph, hslot] at hslot'
    cases hslot'
    rw [source?, hs.sources, hname] at hsrc''
    have hsrc₀ : b.layOut.source? src''.summary.name = some src'' := by
      rw [name_of_source? hsrc'']
      exact hsrc''
    have hbroken : (b.layOut.graph.slot i).broken = false := by
      refine Bool.eq_false_iff.mpr fun hbroken => hreports (Erring.layOut ?_)
      exact erring_of_broken hsound hacyclic (Array.getElem?_eq_some_iff.mp hslot).1 hbroken
    have hvisited := clean_compileUnit hnamed (sound_layOut hsound) hreports hs hsrc₀ hbroken
      (name_of_source? hsrc'' ▸ hnew) hrun
    rwa [name_of_source? hsrc''] at hvisited
  · rw [hs.graph] at hnone
    have hmissing := hnone _ hslot hpresent
    rw [source?, hs.sources, hname] at hmissing
    rw [source?, hmissing] at hsrc'
    cases hsrc'

theorem clean_compileAll {root : Nat} {note : String} (hnamed : Named b.layOut disk₀)
    (hsound : ∀ src ∈ b.sources, src.Sound) (hreports : ¬ b.layOut.Erring)
    (hacyclic : b.layOut.layering.isCyclic = false) (hs : Clean b.layOut disk₀ [] s)
    (h : Yields (compileAll root) s note s') :
    s'.1.Erring ∨ ∃ t, Clean b.layOut disk₀
      (b.layOut.layering.initOrder.map b.layOut.graph.nameOf) t ∧ s'.1 = t.1.reportBroken := by
  have hwaves := waves_perm b.layOut.layering
  have hnodup : b.layOut.layering.waves.flatten.Nodup :=
    hwaves.nodup_iff.mpr (initOrder_nodup b)
  have hpresent (k : Nat) (hk : k ∈ b.layOut.layering.waves.flatten) : Present b k :=
    (mem_initOrder hacyclic).mp (hwaves.mem_iff.mp hk)
  have hvisits : ∀ done i rest, s.1.layering.waves.flatten = done ++ i :: rest → ∀ s s',
      s.1.Erring ∨ Clean b.layOut disk₀ (done.map b.layOut.graph.nameOf) s → Visits root i s s' →
      s'.1.Erring ∨ Clean b.layOut disk₀ ((done ++ [i]).map b.layOut.graph.nameOf) s' := by
    intro done i rest hsplit s s' hdone hone
    rw [hs.layering] at hsplit
    obtain herring | hclean := hdone
    · exact .inl (hone.erring herring)
    have hi : Present b i := hpresent i (by simp [hsplit])
    have hnew : b.layOut.graph.nameOf i ∉ done.map b.layOut.graph.nameOf := by
      intro hmem
      obtain ⟨k, hk, hname⟩ := List.mem_map.mp hmem
      rw [hsplit] at hnodup
      refine (List.nodup_append.mp hnodup).2.2 k hk i List.mem_cons_self ?_
      exact nameOf_inj (hpresent k (by simp [hsplit, hk])) hi hname
    refine (hone.clean hnamed hsound hreports hacyclic hi hnew hclean).imp_right fun hclean => ?_
    exact hclean.reorder fun name => by simp [or_comm]
  obtain ⟨hcyclic, -⟩ | ⟨t, ht, rfl⟩ := compileAll_spec hvisits (.inr hs) h
  · rw [hs.layering, hacyclic] at hcyclic
    cases hcyclic
  · refine ht.imp (·.addReports _) fun ht => ⟨t, ht.reorder fun name => ?_, rfl⟩
    rw [hs.layering]
    exact (hwaves.map _).mem_iff

end Pascaline.BuildM
