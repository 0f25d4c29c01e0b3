import Pascaline.Proofs.Build.Digests
import Pascaline.Proofs.Build.Discovery

/-!
# Errors of a build

Errors of sources stay to the end of a build. A cycle and a source that must not be bound show as
errors, and the report of the whole build has an error exactly when a source has one.
-/

namespace Pascaline

theorem mapM_eq_error {α β ε : Type} {f : α → Except ε β} {xs : List α} {e : ε}
    (h : xs.mapM f = .error e) : ∃ x ∈ xs, f x = .error e := by
  induction xs with
  | nil => cases h
  | cons x xs ih =>
    rw [List.mapM_cons] at h
    cases hx : f x with
    | error e' =>
      rw [hx] at h
      cases h
      exact ⟨x, List.mem_cons_self, hx⟩
    | ok y =>
      cases hxs : xs.mapM f with
      | error e' =>
        rw [hx, hxs] at h
        cases h
        obtain ⟨x', hx', herror⟩ := ih hxs
        exact ⟨x', List.mem_cons_of_mem x hx', herror⟩
      | ok ys =>
        rw [hx, hxs] at h
        cases h

theorem except_bind_error {α β ε : Type} {x : Except ε α} {f : α → Except ε β} {e : ε}
    (h : x >>= f = .error e) : x = .error e ∨ ∃ a, x = .ok a ∧ f a = .error e := by
  cases x with
  | error e' => exact .inl (congrArg Except.error (Except.error.inj h))
  | ok a => exact .inr ⟨a, rfl, h⟩

theorem Bound.Module.ofFile_errors {types : TypeTable} {imports : List Bound.Import} {path : String}
    {f : Tree.File} {r : Bound.BindResult} (h : Bound.Module.ofFile types imports path f = .ok r) :
    ∀ d ∈ r.errors, d.isError := by
  rw [ofFile] at h
  obtain ⟨⟨module, s⟩, -, h⟩ := except_bind_ok h
  cases h
  intro d hd
  obtain ⟨report, -, rfl⟩ := List.mem_map.mp hd
  rfl

/-! ## Sources with errors -/

namespace FoundSource

variable {α : Type} {f : α → Diagnostic} {xs : List α} {src : FoundSource}

theorem hasErrors_foldl_add (h : src.report.hasErrors) :
    (xs.foldl (fun src x => src.add (f x)) src).report.hasErrors := by
  induction xs generalizing src with
  | nil => exact h
  | cons x xs ih => exact ih (hasErrors_of_add h)

theorem hasErrors_foldl_of_mem {x : α} (hx : x ∈ xs) (herror : (f x).isError) :
    (xs.foldl (fun src x => src.add (f x)) src).report.hasErrors := by
  induction xs generalizing src with
  | nil => cases hx
  | cons y xs ih =>
    obtain rfl | hx := List.mem_cons.mp hx
    · rw [List.foldl_cons]
      exact hasErrors_foldl_add (hasErrors_add_error herror)
    · exact ih hx

theorem Sound.hasErrors_of_failed (h : src.Sound) (hfailed : src.failed) : src.report.hasErrors := by
  rw [failed, Bool.or_eq_true, Option.isNone_iff_eq_none] at hfailed
  exact hfailed.elim h.parsed id

end FoundSource

theorem UnitGraph.place_errors {g : UnitGraph} (l : List (GraphNode × Nat)) :
    ∀ x ∈ (g.place l).2, x.2.isError := by
  induction l generalizing g with
  | nil => simp [place]
  | cons x l ih =>
    rw [place]
    split
    · exact ih
    split
    · exact List.forall_mem_cons.mpr ⟨rfl, ih⟩
    · exact ih

namespace Build

open FoundSource

variable {b b' : Build} {name : String}

/-- Some source has errors. -/
def Erring (b : Build) : Prop := ∃ src ∈ b.sources, src.report.hasErrors

theorem Erring.congr (h : b.Erring) (hsources : b'.sources = b.sources) : b'.Erring := by
  rwa [Erring, hsources]

theorem Erring.addErrors (h : b.Erring) (name : String) (errors : List Diagnostic) :
    (b.addErrors name errors).Erring := by
  obtain ⟨src, hsrc, herror⟩ := h
  refine ⟨_, List.mem_map_of_mem hsrc, ?_⟩
  split
  · exact hasErrors_foldl_add (f := id) herror
  · exact herror

theorem erring_addErrors {src : FoundSource} {errors : List Diagnostic} {d : Diagnostic}
    (hsrc : b.source? name = some src) (hd : d ∈ errors) (herror : d.isError) :
    (b.addErrors name errors).Erring := by
  refine ⟨_, List.mem_map_of_mem (List.mem_of_find?_eq_some hsrc), ?_⟩
  rw [if_pos (BuildM.name_of_source? hsrc)]
  exact hasErrors_foldl_of_mem (f := id) hd herror

theorem Erring.addReports (h : b.Erring) (reports : List (Nat × Diagnostic)) :
    (b.addReports reports).Erring := by
  obtain ⟨src, hsrc, herror⟩ := h
  obtain ⟨i, hi, rfl⟩ := List.mem_iff_getElem.mp hsrc
  exact ⟨_, List.mem_mapIdx.mpr ⟨i, hi, rfl⟩, hasErrors_foldl_add herror⟩

theorem erring_addReports {reports : List (Nat × Diagnostic)} {k : Nat} {d : Diagnostic}
    (hd : (k, d) ∈ reports) (herror : d.isError) (hk : k < b.sources.length) :
    (b.addReports reports).Erring := by
  refine ⟨_, List.mem_mapIdx.mpr ⟨k, hk, rfl⟩, ?_⟩
  refine hasErrors_foldl_of_mem (f := Prod.snd) (x := (k, d)) ?_ herror
  exact List.mem_filter.mpr ⟨hd, beq_self_eq_true k⟩

theorem sound_addReports {reports : List (Nat × Diagnostic)} (h : ∀ src ∈ b.sources, src.Sound)
    (hreports : ∀ x ∈ reports, x.2.isError) : ∀ src ∈ (b.addReports reports).sources, src.Sound := by
  intro src hsrc
  obtain ⟨i, hi, rfl⟩ := List.mem_mapIdx.mp hsrc
  have hfold (xs : List (Nat × Diagnostic)) (src : FoundSource) (hsrc : src.Sound)
      (hxs : ∀ x ∈ xs, x.2.isError) : (xs.foldl (fun src x => src.add x.2) src).Sound := by
    induction xs generalizing src with
    | nil => exact hsrc
    | cons x xs ih =>
      rw [List.forall_mem_cons] at hxs
      exact ih _ (hsrc.add hxs.1) hxs.2
  exact hfold _ _ (h _ (List.getElem_mem hi)) fun x hx => hreports x (List.mem_filter.mp hx).1

/-! ## Laying out -/

/-- Laying out reports names that sources share, and cycles unless discovery did. -/
theorem layOut_reports (b : Build) : ∃ (b₁ : Build) (duplicates : List (Nat × Diagnostic)),
    b₁.sources = b.sources ∧ (∀ x ∈ duplicates, x.2.isError) ∧
    b.layOut = b₁.addReports (duplicates ++
      if (UnitGraph.ofNodes b.nodes).1.layering.isCyclic &&
          !b.sources.any (·.report.hasCode ⟨4001⟩) then
        (UnitGraph.ofNodes b.nodes).1.cycleReports (UnitGraph.ofNodes b.nodes).1.layering
      else []) :=
  ⟨{ b with graph := b.layOut.graph, layering := b.layOut.layering },
    (UnitGraph.ofNodes b.nodes).2, rfl, UnitGraph.place_errors _, rfl⟩

theorem Erring.layOut (h : b.Erring) : b.layOut.Erring := by
  obtain ⟨b₁, duplicates, hsources, -, heq⟩ := b.layOut_reports
  exact heq ▸ (h.congr hsources).addReports _

theorem sound_layOut (h : ∀ src ∈ b.sources, src.Sound) : ∀ src ∈ b.layOut.sources, src.Sound := by
  obtain ⟨b₁, duplicates, hsources, hduplicates, heq⟩ := b.layOut_reports
  rw [heq]
  refine sound_addReports (hsources ▸ h) fun x hx => ?_
  obtain hx | hx := List.mem_append.mp hx
  · exact hduplicates x hx
  split at hx
  · obtain ⟨i, -, hi⟩ := List.mem_filterMap.mp hx
    obtain ⟨k, -, rfl⟩ := Option.map_eq_some_iff.mp hi
    rfl
  · cases hx

theorem erring_of_cyclic (hsound : ∀ src ∈ b.sources, src.Sound)
    (hcyclic : b.layOut.layering.isCyclic) : b.layOut.Erring := by
  let g := (UnitGraph.ofNodes b.nodes).1
  have hcyclic : g.layering.isCyclic = true := hcyclic
  by_cases hknown : b.sources.any (·.report.hasCode ⟨4001⟩)
  · obtain ⟨src, hsrc, hcode⟩ := List.any_eq_true.mp hknown
    obtain ⟨d, hd, -⟩ := List.any_eq_true.mp hcode
    exact Erring.layOut ⟨src, hsrc, hasErrors_of_mem hd ((hsound src hsrc).errors d hd)⟩
  · have hstuck : g.layering.stuck ≠ [] := by simpa [Layering.isCyclic] using hcyclic
    obtain ⟨i, hi⟩ := List.exists_mem_of_ne_nil _ hstuck
    have hg := UnitGraph.bounded_ofNodes b.nodes
    have hpresent : g.isPresent i := by
      rw [(UnitGraph.layering_spec hg).2.2.2] at hi
      exact hg.mem_present.mp (List.mem_filter.mp hi).1
    obtain ⟨k, hk⟩ := Option.isSome_iff_exists.mp hpresent
    have hindex := (UnitGraph.numbered_ofNodes b.nodes).indexOf?_nameOf (hg i hpresent)
    have hlt : k < b.sources.length := by
      have := UnitGraph.node_lt hindex hk
      rwa [nodes, List.length_map] at this
    have hreported : (g.layering.isCyclic && !b.sources.any (·.report.hasCode ⟨4001⟩)) = true := by
      simp [hcyclic, hknown]
    -- each unit of the cycle is reported, and this is one of them
    have hcycle : ∃ d : Diagnostic, (k, d) ∈ g.cycleReports g.layering ∧ d.isError :=
      ⟨_, List.mem_filterMap.mpr ⟨i, hi, Option.map_eq_some_iff.mpr ⟨k, hk, rfl⟩⟩, rfl⟩
    obtain ⟨d, hd, herror⟩ := hcycle
    obtain ⟨b₁, duplicates, hsources, -, heq⟩ := b.layOut_reports
    rw [if_pos hreported] at heq
    rw [heq]
    exact erring_addReports (List.mem_append_right _ hd) herror (hsources ▸ hlt)

theorem erring_of_broken (hsound : ∀ src ∈ b.sources, src.Sound)
    (hcyclic : b.layOut.layering.isCyclic = false) {i : Nat} (hi : i < b.layOut.graph.slots.size)
    (hbroken : (b.layOut.graph.slot i).broken) : b.Erring := by
  let g := (UnitGraph.ofNodes b.nodes).1
  have hg := UnitGraph.numbered_ofNodes b.nodes
  have hsize : i < g.slots.size := size_slots_layOut b ▸ hi
  have hstuck : g.layering.stuck = [] := UnitGraph.not_isCyclic_iff.mp hcyclic
  have hslot : (g.slot i).broken := by
    rw [graph_layOut, slot_withHashes _ _ (by simpa [marked] using hsize)] at hbroken
    have hmarked : ((marked g).slot i).broken = (g.slot i).broken := by
      simp only [UnitGraph.slot, marked, Array.getD_eq_getD_getElem?, Array.getElem?_mapIdx, hstuck]
      cases g.slots[i]? <;> simp
    exact hmarked ▸ hbroken
  have hindex := hg.indexOf?_nameOf (i := i) (hg.slots ▸ hsize)
  obtain ⟨n, k, hn, heq⟩ | ⟨-, heq⟩ := UnitGraph.slot_ofNodes hindex
  · rw [show g.slot i = UnitGraph.slotFor n k from heq] at hslot
    rw [sourceOf?_nodes] at hn
    split at hn
    · cases hn
    obtain ⟨src, hsrc, rfl⟩ := Option.map_eq_some_iff.mp hn
    have hmem := List.mem_of_find?_eq_some hsrc
    exact ⟨src, hmem, (hsound src hmem).hasErrors_of_failed hslot⟩
  · rw [show g.slot i = _ from heq] at hslot
    cases hslot

/-! ## The end -/

theorem hasErrors_foldl_merge (sources : List FoundSource) (r : Report) :
    (sources.foldl (fun r s => r.merge s.report) r).hasErrors ↔
      r.hasErrors ∨ ∃ src ∈ sources, src.report.hasErrors := by
  induction sources generalizing r with
  | nil => simp
  | cons src sources ih =>
    rw [List.foldl_cons, ih, Report.merge, Report.hasErrors, List.any_append, Bool.or_eq_true,
      List.exists_mem_cons_iff, or_assoc]
    rfl

theorem hasErrors_finish (b : Build) :
    (b.sources.foldl (fun r s => r.merge s.report)
      (Report.withLimit (b.limit * max b.sources.length 1))).hasErrors ↔ b.Erring := by
  rw [hasErrors_foldl_merge]
  exact or_iff_right (by simp [Report.withLimit, Report.hasErrors])

/-- The unit that goes by the name of a number. -/
def unitAt? (b : Build) (i : Nat) : Option CompiledUnit :=
  b.compiled.find? (·.name == b.graph.nameOf i)

/-- The end of a build: with errors or a cycle there are no units, else there is one for each number
in the order of initialization. -/
theorem finish_ok (h : b.finish = .ok b') :
    b'.sources = b.sources ∧ (b'.report.hasErrors ↔ b.Erring) ∧
      ((b.Erring ∨ b.layering.isCyclic) ∧ b'.units = b.units ∨
        ¬ b.Erring ∧ List.Forall₂ (fun i u => b.unitAt? i = some u) b.layering.initOrder b'.units) := by
  have herring := b.hasErrors_finish
  rw [finish] at h
  dsimp only at h
  split at h
  case isTrue hor =>
    cases h
    rw [Bool.or_eq_true, herring] at hor
    exact ⟨rfl, herring, .inl ⟨hor, rfl⟩⟩
  case isFalse hor =>
    rw [Bool.or_eq_true, herring, not_or] at hor
    obtain ⟨units, hunits, h⟩ := except_bind_ok h
    cases h
    refine ⟨rfl, herring, .inr ⟨hor.1, (mapM_eq_ok hunits).imp fun i u hu => ?_⟩⟩
    split at hu
    case h_1 v hv =>
      cases hu
      exact hv
    case h_2 => cases hu

/-- A build fails at its end only if a unit is missing, although no source has errors. -/
theorem finish_error {e : BuildError} (h : b.finish = .error e) :
    ¬ b.Erring ∧ b.layering.isCyclic = false ∧ ∃ i ∈ b.layering.initOrder, b.unitAt? i = none := by
  have herring := b.hasErrors_finish
  rw [finish] at h
  dsimp only at h
  split at h
  · cases h
  case isFalse hor =>
  rw [Bool.or_eq_true, herring, not_or, Bool.not_eq_true] at hor
  refine ⟨hor.1, hor.2, ?_⟩
  obtain hmap | ⟨units, -, hmap⟩ := except_bind_error h
  · obtain ⟨i, hi, hnone⟩ := mapM_eq_error hmap
    refine ⟨i, hi, ?_⟩
    split at hnone
    · cases hnone
    case h_2 hfind => exact hfind
  · cases hmap

end Build

end Pascaline
