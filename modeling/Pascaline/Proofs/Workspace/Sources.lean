import Pascaline.Compilation
import Pascaline.Proofs.Build.Sources
import Pascaline.Proofs.Workspace.Reachable

/-!
# Sources that are compiled in order

Compiling sources one after the other makes a workspace, if no two of them have the same name. Each
unit comes after those that it uses.
-/

namespace Pascaline

open TypeTable Pascaline.Bound

/-- Every module comes after all that it uses, and has a name of its own; the latest is the first. -/
inductive Origin.Ordered : List Origin → Prop
  | nil : Ordered []
  | cons {o : Origin} {os : List Origin} (hname : ∀ p ∈ os, p.name ≠ o.name)
      (huses : ∀ n ∈ o.module.uses, ∃ p ∈ os, p.name = n) (hos : Ordered os) : Ordered (o :: os)

theorem Origin.Ordered.nodup {os : List Origin} (h : Ordered os) : (os.map Origin.name).Nodup := by
  induction h with
  | nil => exact List.nodup_nil
  | cons hname _ _ ih =>
    refine List.nodup_cons.mpr ⟨fun hmem => ?_, ih⟩
    obtain ⟨p, hp, hsame⟩ := List.mem_map.mp hmem
    exact hname p hp hsame

namespace Compilation

variable {c c' : Compilation} {w : Workspace} {out : SourceOutcome}

/-- The modules of the sources that parsed. -/
def modules (c : Compilation) : List Module := c.outcomes.filterMap (·.bound)

/-- No two sources have the same name. -/
def Distinct (c : Compilation) : Prop := (c.modules.map (·.name)).Nodup

/-- The sources that compiled: each module with its unit. -/
def compiled (c : Compilation) : List (Module × CompiledUnit) :=
  c.outcomes.filterMap fun out => out.unit.bind fun u => out.bound.map fun m => (m, u)

/-- The workspace is that of the sources so far. -/
structure Hosts (w : Workspace) (c : Compilation) : Prop where
  reachable : w.Reachable
  types : w.types = c.types
  imports : w.imports = c.imports
  taken : ∀ n, n ∈ w.taken ↔ n ∈ c.modules.map (·.name)
  compiled : List.Forall₂ (fun (o : Origin) p => o.module = p.1 ∧ o.Makes p.2) w.origins.reverse
    c.compiled
  units : c.units = c.compiled.map (·.2)
  ordered : Origin.Ordered w.origins
  grounded : Layout.Grounded w.types
  grows : ∀ o ∈ w.origins, o.types.Grows w.types
  done : ∀ o ∈ w.origins, ∀ id d, o.types.classInfo? id = some d → d.state = .done →
    w.types.classInfo? id = some d

theorem Hosts.start : Hosts {} {} :=
  ⟨.start, rfl, rfl, by simp [modules], .nil, rfl, .nil, .empty, by simp, by simp⟩

theorem Hosts.shelve (h : Hosts w c) (library : SourceLibrary) : Hosts w { c with library } :=
  ⟨h.reachable, h.types, h.imports, h.taken, h.compiled, h.units, h.ordered, h.grounded, h.grows,
    h.done⟩

theorem Hosts.unparsed (h : Hosts w c) (hbound : out.bound = none) (hunit : out.unit = none) :
    Hosts w { c with outcomes := c.outcomes ++ [out] } := by
  refine ⟨h.reachable, h.types, h.imports, ?_, ?_, ?_, h.ordered, h.grounded, h.grows,
    h.done⟩
  · simpa [modules, hbound] using h.taken
  · simpa [Compilation.compiled, hbound, hunit] using h.compiled
  · simpa [Compilation.compiled, Compilation.units, hbound, hunit] using h.units

variable {path : String} {f : Tree.File} {r : BindResult}

theorem Hosts.failed (h : Hosts w c) (hname : r.module.name ∉ c.modules.map (·.name))
    (hr : Module.ofFile c.types c.imports path f = .ok r) (hbound : out.bound = some r.module)
    (hunit : out.unit = none) :
    ∃ w', Hosts w' { c with types := r.types, outcomes := c.outcomes ++ [out] } := by
  rw [← h.types, ← h.imports] at hr
  have hsame : r.module.name = f.name.name := (Module.ofFile_gives hr).1
  rw [← h.taken, hsame] at hname
  obtain ⟨hadds, -, hgrounded, -⟩ := h.reachable.kept.bound (List.Subset.refl _) hname hr
  refine ⟨_, .bind h.reachable (List.Subset.refl _) hname hr, rfl, h.imports, ?_, ?_, ?_, h.ordered,
    hgrounded h.grounded, fun o ho => (h.grows o ho).trans hadds.grows, fun o ho id d hd hdone =>
      hadds.done id d (h.done o ho id d hd hdone) hdone⟩
  · intro n
    rw [List.mem_cons, h.taken]
    simp [modules, hbound, hsame, or_comm]
  · simpa [Compilation.compiled, hbound, hunit] using h.compiled
  · simpa [Compilation.compiled, Compilation.units, hbound, hunit] using h.units

theorem Hosts.succeeded {u : CompiledUnit} (h : Hosts w c)
    (hname : r.module.name ∉ c.modules.map (·.name))
    (hr : Module.ofFile c.types c.imports path f = .ok r) (herrors : r.errors = [])
    (hu : Origin.Makes ⟨r.types, r.module⟩ u) (hbound : out.bound = some r.module)
    (hunit : out.unit = some u) :
    (publish { c with types := r.types } u).types = r.types ∧
      ∃ w', Hosts w' { publish { c with types := r.types } u with
        outcomes := c.outcomes ++ [out] } := by
  rw [← h.types, ← h.imports] at hr
  have hsame : r.module.name = f.name.name := (Module.ofFile_gives hr).1
  rw [← h.taken, hsame] at hname
  obtain ⟨hproper, hforeign⟩ :=
    h.reachable.kept.compiled (List.Subset.refl _) hname hr herrors hu
  obtain ⟨imp, hrun, -⟩ := hproper.import_self hu.describes
  obtain ⟨hadds, -, hgrounded, -⟩ := h.reachable.kept.bound (List.Subset.refl _) hname hr
  refine ⟨by simp [publish, hrun], _,
    .compile h.reachable (List.Subset.refl _) hname hr herrors hu hrun, ?_, ?_, ?_, ?_, ?_,
    .cons hforeign hproper.uses h.ordered, hgrounded h.grounded, fun o ho => ?_,
    fun o ho id d hd hdone => ?_⟩
  · simp [publish, hrun]
  · simp [publish, hrun, h.imports]
  · intro n
    rw [List.mem_cons, h.taken]
    simp [modules, hbound, hsame, or_comm]
  · rw [List.reverse_cons]
    simpa [Compilation.compiled, hbound, hunit] using
      List.rel_append h.compiled (.cons ⟨rfl, hu⟩ .nil)
  · simpa [Compilation.compiled, Compilation.units, hbound, hunit] using h.units
  · rcases List.mem_cons.mp ho with rfl | ho
    · exact .refl _
    · exact (h.grows o ho).trans hadds.grows
  · rcases List.mem_cons.mp ho with rfl | ho
    · exact hd
    · exact hadds.done id d (h.done o ho id d hd hdone) hdone

@[simp] theorem outcomes_publish (c : Compilation) (u : CompiledUnit) :
    (c.publish u).outcomes = c.outcomes := by
  unfold publish
  split <;> rfl

/-- What may become of a source. -/
inductive Becomes (c : Compilation) (out : SourceOutcome) : Compilation → Prop
  | unparsed (hbound : out.bound = none) (hunit : out.unit = none) :
      Becomes c out { c with outcomes := c.outcomes ++ [out] }
  | failed {path : String} {f : Tree.File} {r : BindResult}
      (hr : Module.ofFile c.types c.imports path f = .ok r) (hbound : out.bound = some r.module)
      (hunit : out.unit = none) :
      Becomes c out { c with types := r.types, outcomes := c.outcomes ++ [out] }
  | succeeded {path : String} {f : Tree.File} {r : BindResult} {u : CompiledUnit}
      (hr : Module.ofFile c.types c.imports path f = .ok r) (herrors : r.errors = [])
      (hu : Origin.Makes ⟨r.types, r.module⟩ u) (hbound : out.bound = some r.module)
      (hunit : out.unit = some u) :
      Becomes c out { publish { c with types := r.types } u with outcomes := c.outcomes ++ [out] }

theorem compile_becomes {name : String} {source : SourceFile}
    (hrun : c.compile name source = .ok c') : ∃ out, Becomes c out c' := by
  unfold compile at hrun
  dsimp only at hrun
  split at hrun
  · cases hrun
    exact ⟨_, .unparsed rfl rfl⟩
  · obtain ⟨r, hr, hrun⟩ := except_bind_ok hrun
    split at hrun
    · cases hrun
      exact ⟨_, .failed hr rfl rfl⟩
    · rename_i herrors
      split at hrun
      · cases hrun
        exact ⟨_, .failed hr rfl rfl⟩
      · rename_i u hu
        have hmakes : Origin.Makes ⟨r.types, r.module⟩
            { u with file := source.id, source := source.digest } :=
          ⟨u, hu, source.digest, source.id, u.deps, rfl⟩
        cases hrun
        rw [outcomes_publish]
        exact ⟨_, .succeeded hr (by simpa using herrors) hmakes rfl rfl⟩

theorem Distinct.of_append (h : c'.Distinct) (hout : c'.outcomes = c.outcomes ++ [out]) :
    c.Distinct ∧ ∀ m, out.bound = some m → m.name ∉ c.modules.map (·.name) := by
  unfold Distinct modules at h
  rw [hout, List.filterMap_append, List.map_append] at h
  obtain ⟨hc, -, hdisjoint⟩ := List.nodup_append.mp h
  refine ⟨hc, fun m hm hmem => ?_⟩
  refine hdisjoint _ hmem m.name ?_ rfl
  simp [hm]

theorem Becomes.outcomes (h : Becomes c out c') : c'.outcomes = c.outcomes ++ [out] := by
  cases h <;> rfl

theorem Hosts.becomes (h : Hosts w c) (hnext : Becomes c out c') (hnames : c'.Distinct) :
    ∃ w', Hosts w' c' := by
  obtain ⟨-, hfresh⟩ := hnames.of_append hnext.outcomes
  cases hnext with
  | unparsed hbound hunit => exact ⟨w, h.unparsed hbound hunit⟩
  | failed hr hbound hunit => exact h.failed (hfresh _ hbound) hr hbound hunit
  | succeeded hr herrors hu hbound hunit =>
    exact (h.succeeded (hfresh _ hbound) hr herrors hu hbound hunit).2

theorem ofSources_induction {P : Compilation → Prop} (hstart : P {})
    (hlibrary : ∀ (c : Compilation) library, P c → P { c with library })
    (hnext : ∀ {c c' : Compilation} {out : SourceOutcome}, P c → Becomes c out c' → P c')
    {sources : List (String × Bytes)} (hrun : ofSources sources = .ok c) : P c := by
  unfold ofSources at hrun
  induction sources using List.reverseRecOn generalizing c with
  | nil =>
    cases hrun
    exact hstart
  | append_singleton sources source ih =>
    rw [List.foldlM_append] at hrun
    obtain ⟨c₁, hrun₁, hrun⟩ := except_bind_ok hrun
    rw [List.foldlM_cons] at hrun
    obtain ⟨c₂, hadd, hrun⟩ := except_bind_ok hrun
    cases hrun
    unfold add at hadd
    dsimp only at hadd
    split at hadd
    · obtain ⟨out, hbecomes⟩ := compile_becomes hadd
      exact hnext (hlibrary _ _ (ih hrun₁)) hbecomes
    · cases hadd
      exact hlibrary _ _ (ih hrun₁)

theorem ofSources_hosts {sources : List (String × Bytes)} (hrun : ofSources sources = .ok c)
    (hnames : c.Distinct) : ∃ w, Hosts w c := by
  refine ofSources_induction (P := fun c => c.Distinct → ∃ w, Hosts w c) (fun _ => ⟨_, .start⟩)
    (fun c library h hnames => ?_) (fun h hnext hnames => ?_) hrun hnames
  · obtain ⟨w, h⟩ := h hnames
    exact ⟨w, h.shelve library⟩
  · obtain ⟨w, h⟩ := h (hnames.of_append hnext.outcomes).1
    exact h.becomes hnext hnames

theorem Hosts.origin (h : Hosts w c) {u : CompiledUnit} (hu : u ∈ c.units) :
    ∃ o ∈ w.origins, o.Makes u ∧ (o.module, u) ∈ c.compiled := by
  rw [h.units] at hu
  obtain ⟨p, hp, rfl⟩ := List.mem_map.mp hu
  obtain ⟨o, ho, hmodule, hmakes⟩ := forall₂_exists_mem h.compiled.flip hp
  exact ⟨o, List.mem_reverse.mp ho, hmakes, by rwa [hmodule]⟩

theorem Hosts.names (h : Hosts w c) : (c.units.map (·.name)).Nodup := by
  have hsame : List.Forall₂ (fun o u => Origin.name o = u.name) w.origins.reverse c.units := by
    rw [h.units, List.forall₂_map_right_iff]
    exact h.compiled.imp fun o p hp => hp.2.describes.name.symm
  have hnames := List.forall₂_eq_eq_eq ▸ (List.forall₂_map_left_iff.mpr
    (List.forall₂_map_right_iff.mpr hsame))
  rw [← hnames, List.map_reverse]
  exact List.nodup_reverse.mpr h.ordered.nodup

/-- A class, and one that derives from it in another module. -/
def litter : List (String × Bytes) :=
  [("a", utf8 "unit a; interface type c = class end; implementation end."),
   ("b", utf8 "program b; uses a; type d = class(c) end; var g: c; begin g := new d end.")]

theorem litter_compiled : ∃ c, ofSources litter = .ok c ∧ c.Distinct ∧ c.units.length = 2 := by
  have hrun : ((ofSources litter).toOption.map fun c =>
      (c.modules.map (·.name), c.units.length)) = some (["a", "b"], 2) := by decide +kernel
  obtain ⟨c, hc, hgood⟩ := Option.map_eq_some_iff.mp hrun
  obtain ⟨hnames, hunits⟩ := Prod.mk.inj hgood
  refine ⟨c, ?_, by rw [Distinct, hnames]; decide, hunits⟩
  cases hok : ofSources litter with
  | error => rw [hok] at hc; cases hc
  | ok c' => rw [hok] at hc; rw [Option.some.inj hc]

end Compilation

end Pascaline
