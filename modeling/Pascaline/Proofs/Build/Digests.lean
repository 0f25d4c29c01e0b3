import Pascaline.Proofs.Build.Sources
import Pascaline.Proofs.Build.Units
import Pascaline.Proofs.Graph.Digests
import Pascaline.Proofs.Pairwise

/-!
# The digests of a build

The graph gives every unit a digest, of its content and of what it uses in the order of names. A
compiled unit has one too, of its content and of the digests that it recorded, in the order of its
uses clause.
-/

namespace Pascaline

namespace Build

variable {b : Build} {name : String}

/-! ## Digests of the graph -/

/-- The sources of a build as the graph takes them. -/
def nodes (b : Build) : List GraphNode :=
  b.sources.map fun s => ⟨s.summary, s.failed, s.report.firstError?⟩

/-- The units that a source uses and that have a source, in the order of names. -/
def usedBy (b : Build) (s : SourceSummary) : List String :=
  sortedNames ((s.uses.map (·.name)).filter fun n =>
    n ≠ s.name ∧ n ≠ "" ∧ (b.source? n).isSome)

theorem sourceOf?_nodes (b : Build) (name : String) :
    UnitGraph.sourceOf? b.nodes name = if name = "" then none else
      (b.source? name).map fun s => ⟨s.summary, s.failed, s.report.firstError?⟩ := by
  rw [UnitGraph.sourceOf?, nodes, List.find?_map]
  rfl

theorem usedNames_nodes (b : Build) (n : GraphNode) :
    UnitGraph.usedNames b.nodes n = b.usedBy n.summary := by
  rw [UnitGraph.usedNames, usedBy]
  refine congrArg sortedNames (List.filter_congr fun name _ => ?_)
  rw [decide_eq_decide, sourceOf?_nodes]
  by_cases hname : name = "" <;> simp [hname]

/-- The graph with the units marked that no layer takes. -/
def marked (g : UnitGraph) : UnitGraph :=
  { g with slots := g.slots.mapIdx fun i s => { s with broken := s.broken || g.layering.stuck.contains i } }

theorem graph_layOut (b : Build) :
    b.layOut.graph = (marked (UnitGraph.ofNodes b.nodes).1).withHashes
      (UnitGraph.ofNodes b.nodes).1.layering := rfl

theorem slot_marked (g : UnitGraph) (i : Nat) :
    ((marked g).slot i).summary = (g.slot i).summary ∧
      ((marked g).slot i).present = (g.slot i).present := by
  simp only [UnitGraph.slot, marked, Array.getD_eq_getD_getElem?, Array.getElem?_mapIdx]
  cases g.slots[i]? with
  | none => exact ⟨rfl, rfl⟩
  | some s => exact ⟨rfl, rfl⟩

theorem hashes_marked (g : UnitGraph) (l : Layering) : (marked g).hashes l = g.hashes l := by
  have hstep : (marked g).hashStep = g.hashStep := by
    funext hashes i
    have hpresent : (marked g).isPresent = g.isPresent := funext fun k => (slot_marked g k).2
    rw [UnitGraph.hashStep, UnitGraph.hashStep, (slot_marked g i).1, UnitGraph.deps, hpresent]
    rfl
  rw [UnitGraph.hashes, UnitGraph.hashes, hstep]
  rfl

theorem slot_withHashes (g : UnitGraph) (l : Layering) {i : Nat} (hi : i < g.slots.size) :
    (g.withHashes l).slot i = { g.slot i with
      summary := { (g.slot i).summary with hash := (g.hashes l).getD i .zero } } := by
  simp [UnitGraph.slot, UnitGraph.withHashes, hi]

theorem hashOf_eq {i : Nat} (hi : i < b.graph.slots.size) (hpresent : (b.graph.slot i).present)
    (hname : (b.graph.slot i).summary.name = name)
    (honly : ∀ j < b.graph.slots.size, (b.graph.slot j).present →
      (b.graph.slot j).summary.name = name → j = i) :
    b.hashOf name = (b.graph.slot i).summary.hash := by
  have hslot : ∀ j (hj : j < b.graph.slots.size), b.graph.slot j = b.graph.slots.toList[j] := by
    intro j hj
    simp [UnitGraph.slot, hj]
  have hfind : (b.graph.slots.toList.find? fun s => s.present && s.summary.name == name) =
      some (b.graph.slot i) := by
    rw [List.find?_eq_some_iff_getElem]
    refine ⟨by simp [hpresent, hname], i, hi, (hslot i hi).symm, fun j hj => ?_⟩
    have hj' := Nat.lt_trans hj hi
    rw [← hslot j hj', Bool.not_eq_true', Bool.and_eq_false_iff, beq_eq_false_iff_ne]
    by_contra hboth
    rw [not_or, Bool.not_eq_false, not_not] at hboth
    exact absurd (honly j hj' hboth.1 hboth.2) (Nat.ne_of_lt hj)
  rw [hashOf, hfind]
  rfl

theorem size_slots_layOut (b : Build) :
    b.layOut.graph.slots.size = (UnitGraph.ofNodes b.nodes).1.slots.size := by
  simp [graph_layOut, UnitGraph.withHashes, marked]

theorem slot_marked_withHashes (g : UnitGraph) (l : Layering) {j : Nat}
    (hj : j < (marked g).slots.size) :
    (((marked g).withHashes l).slot j).present = (g.slot j).present ∧
    (((marked g).withHashes l).slot j).summary =
      { (g.slot j).summary with hash := (g.hashes l).getD j .zero } := by
  rw [slot_withHashes _ _ hj, hashes_marked]
  exact ⟨(slot_marked g j).2, by rw [(slot_marked g j).1]⟩

theorem slot_layOut {j : Nat} (hj : j < b.layOut.graph.slots.size) :
    (b.layOut.graph.slot j).present = ((UnitGraph.ofNodes b.nodes).1.slot j).present ∧
    (b.layOut.graph.slot j).summary = { ((UnitGraph.ofNodes b.nodes).1.slot j).summary with
      hash := ((UnitGraph.ofNodes b.nodes).1.hashes (UnitGraph.ofNodes b.nodes).1.layering).getD j .zero } := by
  rw [graph_layOut]
  exact slot_marked_withHashes _ _ (by simpa [size_slots_layOut, marked] using hj)

theorem indexOf?_slot_layOut {j : Nat} (hj : j < b.layOut.graph.slots.size)
    (hpresent : (b.layOut.graph.slot j).present) :
    (UnitGraph.ofNodes b.nodes).1.indexOf? (b.layOut.graph.slot j).summary.name = some j := by
  have hg := UnitGraph.numbered_ofNodes b.nodes
  have hindex := hg.indexOf?_nameOf (hg.slots ▸ size_slots_layOut b ▸ hj)
  rw [(slot_layOut hj).1] at hpresent
  rw [(slot_layOut hj).2]
  obtain ⟨n, k, hn, hslot⟩ | ⟨-, hslot⟩ := UnitGraph.slot_ofNodes hindex
  · rw [hslot]
    exact (UnitGraph.name_of_sourceOf? hn).symm ▸ hindex
  · rw [hslot] at hpresent
    cases hpresent

theorem hashOf_layOut (h : (UnitGraph.sourceOf? b.nodes name).isSome) :
    b.layOut.hashOf name = UnitGraph.moduleHash b.nodes name := by
  have hg := UnitGraph.numbered_ofNodes b.nodes
  obtain ⟨n, hn⟩ := Option.isSome_iff_exists.mp h
  obtain ⟨i, hi⟩ := UnitGraph.indexOf?_of_sourceOf? hn
  have hlt : i < b.layOut.graph.slots.size := by
    rw [size_slots_layOut, hg.slots]
    exact (hg.eq_nameOf hi).1
  have hpresent : (b.layOut.graph.slot i).present := by
    have := UnitGraph.isPresent_ofNodes hi
    rw [hn] at this
    rw [(slot_layOut hlt).1]
    exact this
  have hname : (b.layOut.graph.slot i).summary.name = name := by
    have hindex := indexOf?_slot_layOut hlt hpresent
    exact (hg.eq_nameOf hindex).2.symm.trans (hg.eq_nameOf hi).2
  rw [UnitGraph.moduleHash_eq hi, hashOf_eq hlt hpresent hname ?_, (slot_layOut hlt).2]
  intro j hj hj₁ hj₂
  have hjindex := indexOf?_slot_layOut hj hj₁
  rw [hj₂, hi] at hjindex
  exact (Option.some.inj hjindex).symm

theorem hashOf_layOut_spec (hcyclic : b.layOut.layering.isCyclic = false) {src : FoundSource}
    (hsrc : b.source? name = some src) (hname : name ≠ "") :
    b.layOut.hashOf name =
      src.summary.content.combine ((b.usedBy src.summary).map b.layOut.hashOf) := by
  have hcyclic : (UnitGraph.ofNodes b.nodes).1.layering.isCyclic = false := hcyclic
  have hn : UnitGraph.sourceOf? b.nodes name =
      some ⟨src.summary, src.failed, src.report.firstError?⟩ := by
    rw [sourceOf?_nodes, if_neg hname, hsrc]
    rfl
  rw [hashOf_layOut (by rw [hn]; rfl),
    UnitGraph.moduleHash_spec hcyclic hn, usedNames_nodes]
  refine congrArg _ (List.map_congr_left fun used hused => (hashOf_layOut ?_).symm)
  rw [usedBy, mem_sortedNames, List.mem_filter, decide_eq_true_eq] at hused
  obtain ⟨-, -, hne, hused⟩ := hused
  rw [sourceOf?_nodes, if_neg hne, Option.isSome_map]
  exact hused

end Build

/-! ## Digests of units -/

namespace CompiledUnit

/-- A unit comes from a content and recorded current digests of what it uses. -/
structure Records (hash : String → Digest) (src : SourceSummary) (u : CompiledUnit) : Prop where
  source : u.source = src.content
  digests : ∀ e ∈ u.deps, e.digest = hash e.name

/-- A unit has the name of its source and records what the source uses, where it is first
mentioned. -/
structure MadeFrom (src : SourceSummary) (u : CompiledUnit) : Prop where
  name : u.name = src.name
  deps : u.deps.map (·.name) = (src.uses.map (·.name)).eraseDups

theorem Records.digest_eq {hash : String → Digest} {src : SourceSummary} {u : CompiledUnit}
    (h : u.Records hash src) :
    u.digest = src.content.combine ((u.deps.map (·.name)).map hash) := by
  rw [digest, h.source, List.map_map]
  exact congrArg _ (List.map_congr_left h.digests)

end CompiledUnit

namespace Build

variable {b : Build}

theorem lookup_depsOf (src : FoundSource) (name : String) :
    (b.depsOf src).lookup name =
      if name ∈ src.summary.uses.map (·.name) then some (b.hashOf name) else none := by
  rw [depsOf]
  induction src.summary.uses with
  | nil => rfl
  | cons u uses ih =>
    rw [List.map_cons, List.lookup_cons, ih]
    by_cases hname : name = u.name
    · simp [hname]
    · simp [hname, beq_eq_false_iff_ne.mpr hname]

theorem names_of_ofModule {types : TypeTable} {m : Bound.Module} {u : CompiledUnit}
    (h : CompiledUnit.ofModule types m = .ok u) : u.name = m.name ∧ u.imports = m.uses := by
  rw [CompiledUnit.ofModule] at h
  obtain ⟨_, -, h⟩ := except_bind_ok h
  obtain ⟨_, -, h⟩ := except_bind_ok h
  obtain ⟨_, -, h⟩ := except_bind_ok h
  cases h
  exact ⟨rfl, rfl⟩

theorem lowerSource_spec {src : FoundSource} {module : Bound.Module} {u : CompiledUnit}
    (h : b.lowerSource src module = .ok u)
    (huses : module.uses = (src.summary.uses.map (·.name)).eraseDups) :
    u.name = module.name ∧ u.Records b.hashOf src.summary ∧
      u.deps.map (·.name) = (src.summary.uses.map (·.name)).eraseDups := by
  rw [lowerSource] at h
  split at h
  · cases h
  case h_2 v hv =>
    have himports := names_of_ofModule hv
    cases h
    refine ⟨himports.1, ⟨rfl, fun e he => ?_⟩, ?_⟩
    · obtain ⟨name, hname, rfl⟩ := List.mem_map.mp he
      rw [himports.2, huses, List.mem_eraseDups] at hname
      rw [lookup_depsOf, if_pos hname]
      rfl
    · rw [List.map_map, himports.2, huses]
      exact List.map_id _

theorem records_of_fresh {src : FoundSource} {stored : StoredUnit} {u : CompiledUnit}
    {name path : String} (h : stored.fresh name path src.summary.content (b.depsOf src) = .ok (some u)) :
    u.Records b.hashOf src.summary := by
  cases stored with
  | missing => cases h
  | corrupt file e => cases h
  | found v =>
    rw [StoredUnit.fresh] at h
    split at h
    · cases h
    split at h
    case h_2 => cases h
    case h_1 hfresh =>
    cases h
    rw [CompiledUnit.checkFresh] at hfresh
    split at hfresh
    · cases hfresh
    case isFalse hsource =>
    dsimp only at hfresh
    split at hfresh
    · cases hfresh
    split at hfresh
    · cases hfresh
    case h_2 hdeps =>
    refine ⟨not_not.mp hsource, fun e he => ?_⟩
    have hlookup := List.find?_eq_none.mp hdeps e he
    simp only [lookup_depsOf, decide_eq_true_eq, not_not] at hlookup
    split at hlookup
    · exact (Option.some.inj hlookup).symm
    · cases hlookup

end Build

/-! ## The passes of a build -/

namespace BuildM

open Build

variable {b₀ b b' : Build} {s s' : Build × Disk}

/-- Since the sources were laid out, only reports and units were added. -/
structure Tracks (b₀ b : Build) : Prop where
  request : b.request = b₀.request
  graph : b.graph = b₀.graph
  layering : b.layering = b₀.layering
  summaries : b.sources.map (·.summary) = b₀.sources.map (·.summary)
  faithful : ∀ src ∈ b.sources, src.Faithful
  units : b.units = []
  compiled : ∀ u ∈ b.compiled, ∃ src, b₀.source? src.summary.name = some src ∧
    src.summary.name ≠ "" ∧ u.Records b₀.hashOf src.summary ∧
    (b₀.request.cache = "" → u.MadeFrom src.summary)

theorem Tracks.quiet (h : Tracks b₀ b) (hb : Quiet b b') : Tracks b₀ b' where
  request := hb.request.trans h.request
  graph := hb.graph.trans h.graph
  layering := hb.layering.trans h.layering
  summaries := by rw [hb.sources, h.summaries]
  faithful := hb.sources ▸ h.faithful
  units := hb.units.trans h.units
  compiled := hb.compiled ▸ h.compiled

theorem Tracks.hashOf (h : Tracks b₀ b) : b.hashOf = b₀.hashOf := by
  funext name
  rw [Build.hashOf, Build.hashOf, h.graph]

theorem source?_summary (b : Build) (name : String) :
    (b.source? name).map (·.summary) = (b.sources.map (·.summary)).find? (·.name == name) := by
  rw [source?, List.find?_map]
  rfl

theorem name_of_source? {name : String} {src : FoundSource} (h : b.source? name = some src) :
    src.summary.name = name := by
  simpa using List.find?_some h

theorem source?_of_summaries (h : b'.sources.map (·.summary) = b.sources.map (·.summary))
    {name : String} {src : FoundSource} (hsrc : b.source? name = some src) :
    ∃ src', b'.source? src'.summary.name = some src' ∧ src'.summary = src.summary := by
  have hfind := source?_summary b' name
  rw [h, ← source?_summary, hsrc] at hfind
  obtain ⟨src', hsrc', hsummary⟩ := Option.map_eq_some_iff.mp hfind
  exact ⟨src', (name_of_source? hsrc').symm ▸ hsrc', hsummary⟩

theorem Tracks.record (h : Tracks b₀ b) {src : FoundSource}
    (hsrc : b₀.source? src.summary.name = some src) (hname : src.summary.name ≠ "")
    {u : CompiledUnit} (hrecords : u.Records b₀.hashOf src.summary)
    (hmade : b₀.request.cache = "" → u.MadeFrom src.summary) : Tracks b₀ (b.record u) := by
  refine { h with compiled := fun v hv => ?_ }
  obtain rfl | hv := List.mem_cons.mp hv
  · exact ⟨src, hsrc, hname, hrecords, hmade⟩
  · exact h.compiled v hv

theorem foldl_add {α : Type} (f : α → Diagnostic) (xs : List α) (src : FoundSource) :
    (xs.foldl (fun src x => src.add (f x)) src).summary = src.summary ∧
      (src.Faithful → (xs.foldl (fun src x => src.add (f x)) src).Faithful) := by
  induction xs generalizing src with
  | nil => exact ⟨rfl, id⟩
  | cons x xs ih => exact ⟨(ih _).1.trans rfl, fun h => (ih _).2 (h.add _)⟩

theorem Tracks.reports (h : Tracks b₀ b) {f : FoundSource → FoundSource}
    (hsummary : ∀ src, (f src).summary = src.summary) (hfaithful : ∀ src, src.Faithful → (f src).Faithful) :
    Tracks b₀ { b with sources := b.sources.map f } where
  request := h.request
  graph := h.graph
  layering := h.layering
  summaries := by
    rw [← h.summaries, List.map_map]
    exact List.map_congr_left fun src _ => hsummary src
  faithful src hsrc := by
    obtain ⟨src₁, hsrc₁, rfl⟩ := List.mem_map.mp hsrc
    exact hfaithful src₁ (h.faithful src₁ hsrc₁)
  units := h.units
  compiled := h.compiled

theorem Tracks.addErrors (h : Tracks b₀ b) (name : String) (errors : List Diagnostic) :
    Tracks b₀ (b.addErrors name errors) := by
  refine h.reports (fun src => ?_) fun src hsrc => ?_
  · split
    · exact (foldl_add id errors src).1
    · rfl
  · split
    · exact (foldl_add id errors src).2 hsrc
    · exact hsrc

/-! ## One unit -/

-- Unifiers would run the binding of a file.
attribute [local irreducible] Bound.Module.ofFile

theorem tracks_bindSource {src : FoundSource} {tree : Tree.File} {r : Bound.BindResult}
    (h : Tracks b₀ b) (hbind : b.bindSource src tree = .ok (r, b')) :
    Tracks b₀ b' ∧ r.module.name = tree.name.name ∧
      r.module.uses = (tree.allUses.map (·.name)).eraseDups := by
  unfold bindSource at hbind
  dsimp only at hbind
  split at hbind
  case h_2 => cases hbind
  case h_1 r' hr =>
    cases hbind
    have htypes : Tracks b₀ { b with types := r.types } := h.quiet ⟨rfl, rfl, rfl, rfl, rfl, rfl, rfl, rfl⟩
    exact ⟨htypes.addErrors _ _, Bound.Module.ofFile_gives hr⟩

theorem madeFrom_of_lowerSource {src : FoundSource} {tree : Tree.File} {module : Bound.Module}
    {u : CompiledUnit} (hfaithful : src.Faithful) (htree : src.tree = some tree)
    (hreport : src.report.hasErrors = false) (hmodule : module.name = tree.name.name)
    (huses : module.uses = (tree.allUses.map (·.name)).eraseDups)
    (h : b.lowerSource src module = .ok u) :
    u.Records b.hashOf src.summary ∧ u.MadeFrom src.summary := by
  rw [← hfaithful.uses tree htree] at huses
  obtain ⟨hname, hrecords, hdeps⟩ := lowerSource_spec h huses
  refine ⟨hrecords, ⟨?_, hdeps⟩⟩
  rw [hname, hmodule]
  exact ((hfaithful.name tree htree).resolve_right (by simp [hreport])).symm

theorem Tracks.markBroken (h : Tracks b₀ b) (name : String) (first : Option Diagnostic) :
    Tracks b₀ (b.markBroken name first) :=
  ⟨h.request, h.graph, h.layering, h.summaries, h.faithful, h.units, h.compiled⟩

theorem tracks_compileSource {src : FoundSource} {tree : Tree.File} {u : PUnit}
    (h : Tracks b₀ s.1) (hsrc : s.1.source? src.summary.name = some src)
    (hname : src.summary.name ≠ "") (htree : src.tree = some tree)
    (hreport : src.report.hasErrors = false) (hrun : Yields (compileSource src tree) s u s') :
    Tracks b₀ s'.1 := by
  obtain ⟨src₀, hsrc₀, hsummary⟩ := source?_of_summaries h.summaries.symm hsrc
  have hfaithful := h.faithful src (List.mem_of_find?_eq_some hsrc)
  obtain ⟨b, b₁, r, hbefore, hbind, hafter⟩ := compileSource_spec hrun
  obtain ⟨hbound, hmodule, huses⟩ := tracks_bindSource (h.quiet hbefore) hbind
  obtain ⟨-, -, b₂, first, hquiet, hmarked⟩ | ⟨-, b₂, v, b₃, hquiet, hlower, hquiet', hpersist⟩ := hafter
  · rw [hmarked]
    exact (hbound.quiet hquiet).markBroken _ _
  · obtain ⟨hrecords, hmade⟩ := madeFrom_of_lowerSource hfaithful htree hreport hmodule huses hlower
    rw [(hbound.quiet hquiet).hashOf, ← hsummary] at hrecords
    rw [← hsummary] at hmade hname
    refine Tracks.quiet ?_ (quiet_persist hpersist)
    exact ((hbound.quiet hquiet).quiet hquiet').record hsrc₀ hname hrecords fun _ => hmade

theorem load_nowhere {name : String} {disk disk' : Disk} {r : Except FileError StoredUnit}
    (h : (UnitCache.load "" name : StateM Disk _).run disk = (r, disk')) : r = .ok .missing := by
  cases h
  rfl

theorem tracks_reuse {src : FoundSource} {span : Journal.OpenSpan} {r : Bool × Journal.OpenSpan}
    (h : Tracks b₀ s.1) (hsrc : s.1.source? src.summary.name = some src)
    (hname : src.summary.name ≠ "") (hrun : Yields (reuse src span) s r s') :
    Tracks b₀ s'.1 ∧ s'.1.sources = s.1.sources := by
  obtain ⟨src₀, hsrc₀, hsummary⟩ := source?_of_summaries h.summaries.symm hsrc
  obtain ⟨-, ⟨-, hquiet⟩ | ⟨b, stored, u, hquiet, hload, hfresh, hquiet'⟩⟩ := reuse_spec hrun
  · exact ⟨h.quiet hquiet, hquiet.sources⟩
  · have hrecords := records_of_fresh hfresh
    rw [(h.quiet hquiet).hashOf, ← hsummary] at hrecords
    rw [← hsummary] at hname
    refine ⟨Tracks.quiet ?_ hquiet', hquiet'.sources.trans hquiet.sources⟩
    refine (h.quiet hquiet).record hsrc₀ hname ⟨hrecords.source, hrecords.digests⟩ fun hcache => ?_
    rw [(h.quiet hquiet).request, hcache] at hload
    cases load_nowhere hload
    cases hfresh

theorem tracks_compileUnit {root : Nat} {slot : GraphSlot} {src : FoundSource} {u : PUnit}
    (h : Tracks b₀ s.1) (hsrc : s.1.source? src.summary.name = some src)
    (hname : src.summary.name ≠ "") (hrun : Yields (compileUnit root slot src) s u s') :
    Tracks b₀ s'.1 := by
  obtain ⟨b, first, hquiet, hsilent, -⟩ |
    ⟨tree, span, t, reused, t₁, htree, hsound, hopen, hreuse, hrest⟩ := compileUnit_spec hrun
  · exact ((h.quiet hquiet).markBroken _ _).quiet hsilent.quiet
  · have hsrc' : t.1.source? src.summary.name = some src := by
      rw [source?, hopen.quiet.sources]
      exact hsrc
    obtain ⟨htracks, hsources⟩ := tracks_reuse (h.quiet hopen.quiet) hsrc' hname hreuse
    obtain ⟨-, hclose⟩ | ⟨t₂, hcompile, hclose⟩ := hrest
    · exact htracks.quiet hclose.quiet
    · have hreport : src.report.hasErrors = false := by
        simp only [FoundSource.failed, Bool.or_eq_false_iff] at hsound
        exact hsound.2
      replace hsrc' : t₁.1.source? src.summary.name = some src := by
        rw [source?, hsources]
        exact hsrc'
      exact (tracks_compileSource htracks hsrc' hname htree hreport hcompile).quiet hclose.quiet

/-! ## All units -/

theorem name_of_slot_layOut {i : Nat} {slot : GraphSlot} (hslot : b.layOut.graph.slots[i]? = some slot)
    (hpresent : slot.present) : slot.summary.name ≠ "" := by
  obtain ⟨hi, rfl⟩ := Array.getElem?_eq_some_iff.mp hslot
  have heq : b.layOut.graph.slot i = b.layOut.graph.slots[i] := by simp [UnitGraph.slot, hi]
  rw [← heq] at hpresent ⊢
  exact UnitGraph.ne_empty_of_indexOf? (indexOf?_slot_layOut hi hpresent)

theorem tracks_compileAll {root : Nat} {note : String} (h : Tracks b.layOut s.1)
    (hrun : Yields (compileAll root) s note s') :
    ∃ b', Tracks b.layOut b' ∧ s'.1 = b'.reportBroken := by
  simp only [compileAll, yields_bind, yields_get] at hrun
  obtain ⟨_, _, ⟨rfl, rfl⟩, hrun⟩ := hrun
  split at hrun
  · simp only [yields_bind, yields_modify, yields_pure] at hrun
    obtain ⟨_, t, hall, _, _, rfl, -, rfl⟩ := hrun
    refine ⟨t.1, yields_forM (P := Tracks b.layOut) ?_ h hall, rfl⟩
    intro i _ s _ s' h hone
    simp only [yields_bind, yields_get] at hone
    obtain ⟨_, s, ⟨rfl, rfl⟩, hone⟩ := hone
    split at hone
    · exact (yields_pure.mp hone).2 ▸ h
    case h_2 slot hslot =>
    split at hone
    · exact (yields_pure.mp hone).2 ▸ h
    case h_2 src hsrc =>
    split at hsrc
    case isFalse => cases hsrc
    case isTrue hpresent =>
    have hname := name_of_source? hsrc
    have hne : src.summary.name ≠ "" := by
      rw [hname]
      exact name_of_slot_layOut (h.graph ▸ hslot) hpresent
    split at hone
    · simp only [yields_bind, yields_throw, false_and, exists_false] at hone
    · exact tracks_compileUnit h (hname ▸ hsrc) hne hone
  · simp only [yields_bind, yields_modify, yields_pure] at hrun
    obtain ⟨_, _, rfl, -, rfl⟩ := hrun
    exact ⟨_, h, rfl⟩

/-! ## The whole build -/

theorem slots_reportBroken (b : Build) : ∃ mark : GraphSlot → GraphSlot,
    b.reportBroken.graph.slots.toList = b.graph.slots.toList.map mark ∧
      ∀ s, (mark s).present = s.present ∧ (mark s).summary = s.summary := by
  refine ⟨_, Array.toList_map, fun s => ?_⟩
  split <;> exact ⟨rfl, rfl⟩

theorem hashOf_reportBroken (b : Build) (name : String) : b.reportBroken.hashOf name = b.hashOf name := by
  obtain ⟨mark, hslots, hmark⟩ := slots_reportBroken b
  rw [Build.hashOf, Build.hashOf, hslots, List.find?_map, Option.map_map]
  simp only [Function.comp_def, hmark]

theorem sources_addReports (b : Build) (reports : List (Nat × Diagnostic)) :
    (b.addReports reports).sources.map (·.summary) = b.sources.map (·.summary) ∧
      ((∀ src ∈ b.sources, src.Faithful) → ∀ src ∈ (b.addReports reports).sources, src.Faithful) := by
  constructor
  · refine List.ext_getElem (by simp [addReports]) fun i hi _ => ?_
    simp only [addReports, List.getElem_map, List.getElem_mapIdx]
    exact (foldl_add _ _ _).1
  · intro h src hsrc
    obtain ⟨i, hi, rfl⟩ := List.mem_mapIdx.mp hsrc
    exact (foldl_add _ _ _).2 (h _ (List.getElem_mem hi))

theorem finish_spec (h : b.finish = .ok b') :
    b'.sources = b.sources ∧ b'.graph = b.graph ∧
    ∀ u ∈ b'.units, u ∈ b.units ∨ b.layering.isCyclic = false ∧ u ∈ b.compiled := by
  rw [finish] at h
  dsimp only at h
  split at h
  · cases h
    exact ⟨rfl, rfl, fun u hu => .inl hu⟩
  case isFalse hsound =>
    obtain ⟨units, hunits, h⟩ := except_bind_ok h
    cases h
    refine ⟨rfl, rfl, fun u hu => .inr ⟨?_, ?_⟩⟩
    · simp only [Bool.or_eq_true, not_or, Bool.not_eq_true] at hsound
      exact hsound.2
    · obtain ⟨i, hi⟩ := forall₂_mem_right (mapM_eq_ok hunits) hu
      split at hi
      case h_1 v hv =>
        cases hi
        exact List.mem_of_find?_eq_some hv
      case h_2 => cases hi

theorem usedBy_congr (h : b'.sources.map (·.summary) = b.sources.map (·.summary)) (src : SourceSummary) :
    b'.usedBy src = b.usedBy src := by
  have hsource : ∀ name, (b'.source? name).isSome = (b.source? name).isSome := by
    intro name
    rw [← Option.isSome_map (f := (·.summary)), source?_summary, h, ← source?_summary,
      Option.isSome_map]
  simp only [usedBy, hsource]

theorem quiet_foldl {α : Type} {f : Build → α → Build} (hf : ∀ b x, Quiet b (f b x)) (xs : List α)
    (b : Build) : Quiet b (xs.foldl f b) := by
  induction xs generalizing b with
  | nil => exact .refl b
  | cons x xs ih => exact (hf b x).trans (ih _)

theorem discover_spec {note : String} (hrun : Yields discover s note s') :
    s'.1.request = s.1.request ∧ s'.1.compiled = s.1.compiled ∧ s'.1.units = s.1.units ∧
      ∀ src ∈ s'.1.sources, src.Faithful := by
  simp only [discover, yields_bind, yields_get, yields_lift] at hrun
  obtain ⟨_, _, ⟨rfl, rfl⟩, r, t, ⟨ht, hdiscover⟩, hrun⟩ := hrun
  split at hrun
  · exact absurd hrun yields_throw
  case h_2 d =>
    simp only [yields_bind, yields_modify, yields_pure] at hrun
    obtain ⟨_, _, rfl, -, rfl⟩ := hrun
    have hquiet := quiet_foldl
      (fun b (src : FoundSource) => quiet_ends b src.summary.path .parse (src.report.firstError?.map .report) 0)
      d.found { t.1 with library := d.library, sources := d.found }
    rw [← ht]
    refine ⟨hquiet.request, hquiet.compiled, hquiet.units, ?_⟩
    rw [hquiet.sources]
    refine Discovery.discover_ensures ?_ _ _ d (congrArg Prod.fst hdiscover)
    simp [Discovery.Sincere]

theorem tracks_layOut (hunits : b.units = []) (hcompiled : b.compiled = [])
    (hfaithful : ∀ src ∈ b.sources, src.Faithful) : Tracks b.layOut b.layOut where
  request := rfl
  graph := rfl
  layering := rfl
  summaries := rfl
  faithful := (sources_addReports _ _).2 hfaithful
  units := hunits
  compiled u hu := by
    have hu : u ∈ b.compiled := hu
    rw [hcompiled] at hu
    cases hu

theorem passes_spec {u : PUnit} (hunits : s.1.units = []) (hcompiled : s.1.compiled = [])
    (hrun : Yields passes s u s') :
    ∃ b b' : Build, b.layOut.request = s.1.request ∧ Tracks b.layOut b' ∧
      s'.1.sources.map (·.summary) = b.sources.map (·.summary) ∧
      (∀ name, s'.1.hashOf name = b.layOut.hashOf name) ∧
      ∀ u ∈ s'.1.units, b.layOut.layering.isCyclic = false ∧ u ∈ b'.compiled := by
  simp only [passes, yields_bind, yields_get] at hrun
  obtain ⟨_, _, ⟨rfl, rfl⟩, hrun⟩ := hrun
  obtain ⟨span, t, r, t', hopen, hbody, -, hclose⟩ := yields_inSpan hrun
  simp only [yields_bind, yields_step, yields_pure] at hbody
  obtain ⟨_, t₁, hparse, _, t₂, hgraph, _, t₃, hcompile, _, t₄, ⟨hfinish, -⟩, -, rfl⟩ := hbody
  obtain ⟨p, _, p', hp, hdiscover, hp'⟩ := yields_inPhase hparse
  obtain ⟨q, _, q', hq, hlayOut, hq'⟩ := yields_inPhase hgraph
  obtain ⟨c, _, c', hc, hall, hc'⟩ := yields_inPhase hcompile
  simp only [yields_bind, yields_modify, yields_get, yields_pure] at hlayOut
  obtain ⟨_, _, rfl, _, _, ⟨-, rfl⟩, -, rfl⟩ := hlayOut
  obtain ⟨hrequest₁, hcompiled₁, hunits₁, hfaithful⟩ := discover_spec hdiscover
  have hbefore := (hopen.trans hp).quiet
  have hafter := (hp'.trans hq).quiet
  replace hc' := hc'.quiet
  replace hclose := hclose.quiet
  have hlaid : Tracks q.1.layOut q.1.layOut := by
    refine tracks_layOut ?_ ?_ ?_
    · rw [hafter.units, hunits₁, hbefore.units, hunits]
    · rw [hafter.compiled, hcompiled₁, hbefore.compiled, hcompiled]
    · rw [hafter.sources]
      exact hfaithful
  obtain ⟨b', htracks, hbroken⟩ := tracks_compileAll (hlaid.quiet (hq'.trans hc).quiet) hall
  have hreported := hashOf_reportBroken b'
  rw [hbroken] at hc'
  replace hfinish : t₃.1.finish = .ok t'.1 := by
    cases hf : t₃.1.finish with
    | error e =>
      rw [hf] at hfinish
      cases hfinish
    | ok b =>
      rw [hf] at hfinish
      cases hfinish
      rfl
  obtain ⟨hsources, hgraph, hmade⟩ := finish_spec hfinish
  refine ⟨q.1, b', ?_, htracks, ?_, fun name => ?_, fun u hu => ?_⟩
  · exact hafter.request.trans (hrequest₁.trans hbefore.request)
  · rw [hclose.sources, hsources, hc'.sources]
    refine (sources_addReports _ _).1.trans ?_
    exact htracks.summaries.trans (sources_addReports _ _).1
  · rw [← htracks.hashOf, ← hreported, Build.hashOf, Build.hashOf, hclose.graph, hgraph, hc'.graph]
  · rw [hclose.units] at hu
    obtain hu | ⟨hcyclic, hu⟩ := hmade u hu
    · rw [hc'.units] at hu
      have hu : u ∈ b'.units := hu
      rw [htracks.units] at hu
      cases hu
    · rw [hc'.layering] at hcyclic
      rw [hc'.compiled] at hu
      exact ⟨htracks.layering ▸ hcyclic, hu⟩

theorem passes_of_compile {u : PUnit} (hrun : Yields compile s u s') : Yields passes s () s' := by
  simp only [compile, yields_bind, yields_get] at hrun
  obtain ⟨_, _, ⟨rfl, rfl⟩, hrun⟩ := hrun
  split at hrun
  · simp only [yields_bind, yields_throw, false_and, exists_false] at hrun
  simp only [yields_bind] at hrun
  obtain ⟨r, t, hobserve, hrun⟩ := hrun
  split at hrun
  · simp only [yields_bind, yields_throw, and_false, exists_false] at hrun
  simp only [yields_bind, yields_get] at hrun
  obtain ⟨_, _, ⟨rfl, rfl⟩, hrun⟩ := hrun
  split at hrun
  · simp only [yields_bind, yields_throw, and_false, exists_false] at hrun
  · obtain ⟨-, rfl⟩ := yields_pure.mp hrun
    exact yields_observe hobserve () rfl

/-- The digest of a unit is that of its source and of what it uses in the order of its uses clause;
the digest of its name in the graph has what is used in the order of names. Every digest that a unit
recorded is the one of the graph. So the two agree for units that use others in the order of names.
A unit that comes from a store has recorded what it was compiled against. -/
theorem unit_digests_agree {disk disk' : Disk} {r : BuildRequest} {b : Build}
    (h : (perform r compile : StateM Disk _).run disk = ((.ok (), b), disk')) :
    ∀ u ∈ b.units, ∃ src, b.source? src.summary.name = some src ∧
      u.source = src.summary.content ∧ (∀ e ∈ u.deps, e.digest = b.hashOf e.name) ∧
      b.hashOf src.summary.name =
        src.summary.content.combine ((b.usedBy src.summary).map b.hashOf) ∧
      (u.deps.map (·.name) = b.usedBy src.summary → u.digest = b.hashOf src.summary.name) ∧
      (r.cache = "" → u.name = src.summary.name ∧
        u.deps.map (·.name) = (src.summary.uses.map (·.name)).eraseDups) := by
  have hrun : Yields compile (((BuildRequest.start r : StateM Disk _).run disk).1, disk) ()
      (b, disk') := h
  obtain ⟨b₁, b₂, hrequest, htracks, hsummaries, hhash, hunits⟩ :=
    passes_spec rfl rfl (passes_of_compile hrun)
  replace hhash : b₁.layOut.hashOf = b.hashOf := funext fun name => (hhash name).symm
  have hlaid : b.sources.map (·.summary) = b₁.layOut.sources.map (·.summary) :=
    hsummaries.trans (sources_addReports _ _).1.symm
  intro u hu
  obtain ⟨hcyclic, hu⟩ := hunits u hu
  obtain ⟨src₁, hsrc₁, hname, hrecords, hmade⟩ := htracks.compiled u hu
  obtain ⟨src, hsrc, hsummary⟩ := source?_of_summaries hlaid hsrc₁
  obtain ⟨src₀, hsrc₀, hsummary₀⟩ := source?_of_summaries hsummaries.symm hsrc
  rw [← hsummary] at hname hrecords hmade
  rw [hhash] at hrecords
  have hspec := hashOf_layOut_spec hcyclic hsrc₀ (hsummary₀ ▸ hname)
  rw [hsummary₀, hhash, ← usedBy_congr hsummaries] at hspec
  refine ⟨src, hsrc, hrecords.source, hrecords.digests, hspec, fun horder => ?_, fun hcache => ?_⟩
  · rw [hrecords.digest_eq, horder, hspec]
  · obtain ⟨hunit, hdeps⟩ := hmade (hrequest ▸ hcache)
    exact ⟨hunit, hdeps⟩

/-- A program and a unit that uses two others, with its uses clause. -/
def projectDisk (clause : String) : Disk :=
  { entries := [("/main.pas", .file (utf8 "program main; uses m; begin end.")),
      ("/m.pas", .file (utf8 ("unit m; interface uses " ++ clause ++ "; implementation end."))),
      ("/a.pas", .file (utf8 "unit a; interface implementation end.")),
      ("/b.pas", .file (utf8 "unit b; interface implementation end."))] }

/-- The program of a project is compiled. -/
def projectRun (clause : String) : (Except BuildError Unit × Build) × Disk :=
  (perform { target := "/main.pas" } compile : StateM Disk _).run (projectDisk clause)

theorem projectRun_eq {clause : String} (h : (projectRun clause).1.1.toOption.isSome = true) :
    (perform { target := "/main.pas" } compile : StateM Disk _).run (projectDisk clause) =
      ((.ok (), (projectRun clause).1.2), (projectRun clause).2) := by
  rw [← eq_ok_of_isSome (d := ()) h]
  rfl

set_option maxRecDepth 100000 in
theorem unit_digests_agree_ordered :
    ∃ b disk', (perform { target := "/main.pas" } compile : StateM Disk _).run (projectDisk "a, b") =
        ((.ok (), b), disk') ∧
      b.units.map (·.name) = ["b", "a", "m", "main"] ∧ ∀ u ∈ b.units, u.digest = b.hashOf u.name := by
  let b := (projectRun "a, b").1.2
  have hproject : (projectRun "a, b").1.1.toOption.isSome = true ∧
      b.units.map (·.name) = ["b", "a", "m", "main"] ∧
      ∀ src ∈ b.sources, (src.summary.uses.map (·.name)).eraseDups = b.usedBy src.summary := by
    decide +kernel
  obtain ⟨hok, hnames, horder⟩ := hproject
  refine ⟨b, _, projectRun_eq hok, hnames, fun u hu => ?_⟩
  obtain ⟨src, hsrc, -, -, -, hagree, hmade⟩ := unit_digests_agree (projectRun_eq hok) u hu
  obtain ⟨hname, hdeps⟩ := hmade rfl
  rw [hname]
  exact hagree (hdeps.trans (horder src (List.mem_of_find?_eq_some hsrc)))

set_option maxRecDepth 100000 in
/-- A unit that uses others out of order does not have the digest that its users record. -/
theorem crossed_digests_disagree :
    ∃ b disk', (perform { target := "/main.pas" } compile : StateM Disk _).run (projectDisk "b, a") =
        ((.ok (), b), disk') ∧ ∃ u ∈ b.units, u.digest ≠ b.hashOf u.name := by
  let b := (projectRun "b, a").1.2
  have hproject : (projectRun "b, a").1.1.toOption.isSome = true ∧
      (b.units.any fun u => u.name == "m" &&
        u.digest.bytes.head? != (b.hashOf u.name).bytes.head?) = true := by
    decide +kernel
  obtain ⟨hok, hany⟩ := hproject
  obtain ⟨u, hu, hdiffer⟩ := List.any_eq_true.mp hany
  refine ⟨b, _, projectRun_eq hok, u, hu, fun heq => ?_⟩
  simp [heq] at hdiffer

end BuildM

end Pascaline
