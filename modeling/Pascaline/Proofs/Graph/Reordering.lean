import Pascaline.Proofs.Graph.Digests

/-!
# Sources in another order

Neither the order in which sources are found nor the order and the repetitions in a uses clause show
in the graph, its layers or the digests.
-/

namespace Pascaline.UnitGraph

variable {nodes nodes' : List GraphNode} {i : Nat} {a b : String}

/-- The source with its uses clause in another order, or with other repetitions in it. What the graph
does not look at may differ. -/
structure Reordered (n n' : GraphNode) : Prop where
  name : n'.summary.name = n.summary.name
  content : n'.summary.content = n.summary.content
  uses : ∀ b, (∃ u ∈ n'.summary.uses, u.name = b) ↔ ∃ u ∈ n.summary.uses, u.name = b

/-! ## The source of a name -/

theorem sourceOf?_of_mem {n : GraphNode} (hdistinct : (nodes.map (·.summary.name)).Nodup)
    (hn : n ∈ nodes) (hname : n.summary.name ≠ "") :
    sourceOf? nodes n.summary.name = some n := by
  rw [sourceOf?, if_neg hname]
  obtain ⟨m, hm⟩ : ∃ m, nodes.find? (·.summary.name == n.summary.name) = some m := by
    rw [← Option.isSome_iff_exists, List.find?_isSome]
    exact ⟨n, hn, beq_self_eq_true _⟩
  have hsame : m.summary.name = n.summary.name := by simpa using List.find?_some hm
  rw [hm, List.inj_on_of_nodup_map hdistinct (List.mem_of_find?_eq_some hm) hn hsame]

theorem mem_of_sourceOf? {n : GraphNode} (h : sourceOf? nodes a = some n) : n ∈ nodes := by
  rw [sourceOf?] at h
  split at h
  · cases h
  · exact List.mem_of_find?_eq_some h

theorem ne_empty_of_sourceOf? {n : GraphNode} (h : sourceOf? nodes a = some n) : a ≠ "" := by
  rw [sourceOf?] at h
  split at h
  · cases h
  · assumption

theorem sourceOf?_perm (hdistinct : (nodes.map (·.summary.name)).Nodup) (hperm : nodes.Perm nodes')
    (a : String) : sourceOf? nodes' a = sourceOf? nodes a := by
  have hto : ∀ {xs ys : List GraphNode} {n : GraphNode}, (ys.map (·.summary.name)).Nodup →
      xs.Perm ys → sourceOf? xs a = some n → sourceOf? ys a = some n := by
    intro xs ys n hys hxy hn
    obtain rfl := name_of_sourceOf? hn
    exact sourceOf?_of_mem hys (hxy.mem_iff.mp (mem_of_sourceOf? hn)) (ne_empty_of_sourceOf? hn)
  have hdistinct' : (nodes'.map (·.summary.name)).Nodup := (hperm.map _).nodup_iff.mp hdistinct
  exact Option.ext fun n => ⟨hto hdistinct hperm.symm, hto hdistinct' hperm⟩

theorem sourceOf?_reordered (h : List.Forall₂ Reordered nodes nodes') (a : String) :
    Option.Rel Reordered (sourceOf? nodes a) (sourceOf? nodes' a) := by
  rw [sourceOf?, sourceOf?]
  split
  · exact .none
  · induction h with
    | nil => exact .none
    | cons hn _ ih =>
      rw [List.find?_cons, List.find?_cons, hn.name]
      split
      · exact .some hn
      · exact ih

/-! ## Graphs of the same sources -/

/-- The sources have the same names, contents and uses. -/
structure Alike (nodes nodes' : List GraphNode) : Prop where
  named : ∀ a, (∃ n ∈ nodes', n.summary.name = a ∨ ∃ u ∈ n.summary.uses, u.name = a) ↔
    ∃ n ∈ nodes, n.summary.name = a ∨ ∃ u ∈ n.summary.uses, u.name = a
  sources : ∀ a, Option.Rel Reordered (sourceOf? nodes a) (sourceOf? nodes' a)

theorem Alike.of_reordered {mid : List GraphNode} (hdistinct : (nodes.map (·.summary.name)).Nodup)
    (hperm : nodes.Perm mid) (hsame : List.Forall₂ Reordered mid nodes') : Alike nodes nodes' := by
  refine ⟨fun a => ?_, fun a => ?_⟩
  · have hmid : (∃ n ∈ mid, n.summary.name = a ∨ ∃ u ∈ n.summary.uses, u.name = a) ↔
        ∃ n ∈ nodes, n.summary.name = a ∨ ∃ u ∈ n.summary.uses, u.name = a := by
      simp only [hperm.mem_iff]
    rw [← hmid]
    clear hmid hperm hdistinct
    induction hsame with
    | nil => rfl
    | cons hn _ ih => simp only [List.exists_mem_cons_iff, ih, hn.name, hn.uses]
  · rw [← sourceOf?_perm hdistinct hperm]
    exact sourceOf?_reordered hsame a

namespace Alike

variable (h : Alike nodes nodes')
include h

theorem names_eq : (ofNodes nodes').1.names = (ofNodes nodes).1.names := by
  have hmem : ∀ {nodes : List GraphNode} {a : String},
      a ∈ (ofNodes nodes).1.names.toList ↔ a ≠ "" ∧ ∃ n ∈ nodes, n.summary.name = a ∨
        ∃ u ∈ n.summary.uses, u.name = a := by
    intro nodes a
    rw [← mem_names_ofNodes, Array.mem_toList_iff, Array.mem_iff_getElem?]
    simp only [(numbered_ofNodes nodes).indexOf?_iff]
  refine Array.toList_inj.mp (List.Pairwise.eq_of_mem_iff (r := (· < ·))
    (numbered_ofNodes nodes').sorted (numbered_ofNodes nodes).sorted fun a => ?_)
  rw [hmem, hmem, h.named]

theorem indexOf?_eq (a : String) : (ofNodes nodes').1.indexOf? a = (ofNodes nodes).1.indexOf? a := by
  rw [indexOf?, indexOf?, h.names_eq]

theorem size_eq : (ofNodes nodes').1.names.size = (ofNodes nodes).1.names.size := by
  rw [h.names_eq]

theorem slot_cases (hi : i < (ofNodes nodes).1.names.size) :
    ((ofNodes nodes').1.isPresent i = (ofNodes nodes).1.isPresent i) ∧
    ((ofNodes nodes').1.slot i).summary.content = ((ofNodes nodes).1.slot i).summary.content ∧
    ∀ b, (∃ u ∈ ((ofNodes nodes').1.slot i).summary.uses, u.name = b) ↔
      ∃ u ∈ ((ofNodes nodes).1.slot i).summary.uses, u.name = b := by
  have hindex := (numbered_ofNodes nodes).indexOf?_nameOf hi
  have hindex' := h.indexOf?_eq _ ▸ hindex
  have hsource := h.sources ((ofNodes nodes).1.nameOf i)
  rw [isPresent, isPresent]
  rcases slot_ofNodes hindex with ⟨n, k, hn, hslot⟩ | ⟨hn, hslot⟩ <;>
    rcases slot_ofNodes hindex' with ⟨n', k', hn', hslot'⟩ | ⟨hn', hslot'⟩ <;>
    rw [hn, hn'] at hsource <;> rw [hslot, hslot']
  · cases hsource with
    | some hsame => exact ⟨rfl, hsame.content, hsame.uses⟩
  · cases hsource
  · cases hsource
  · exact ⟨rfl, rfl, fun _ => Iff.rfl⟩

theorem isPresent_eq (i : Nat) : (ofNodes nodes').1.isPresent i = (ofNodes nodes).1.isPresent i := by
  by_cases hi : i < (ofNodes nodes).1.names.size
  · exact (h.slot_cases hi).1
  · rw [Bool.eq_iff_iff]
    exact iff_of_false (fun hp => hi (h.size_eq ▸ lt_of_isPresent hp)) fun hp => hi (lt_of_isPresent hp)

theorem out_eq (i : Nat) : (ofNodes nodes').1.out i = (ofNodes nodes).1.out i := by
  rw [out_ofNodes, out_ofNodes, h.size_eq]
  split
  case isFalse => rfl
  case isTrue hi =>
    refine List.Pairwise.eq_of_mem_iff (r := (· < ·)) (usesOf_sorted ..) (usesOf_sorted ..) fun k => ?_
    have hnames : ∀ us : List UseRef, (∃ u ∈ us, (ofNodes nodes).1.indexOf? u.name = some k) ↔
        ∃ b, (∃ u ∈ us, u.name = b) ∧ (ofNodes nodes).1.indexOf? b = some k := by
      intro us
      constructor
      · rintro ⟨u, hu, hk⟩
        exact ⟨u.name, ⟨u, hu, rfl⟩, hk⟩
      · rintro ⟨_, ⟨u, hu, rfl⟩, hk⟩
        exact ⟨u, hu, hk⟩
    have huses := (h.slot_cases hi).2.2
    simp only [mem_usesOf, h.indexOf?_eq, hnames, huses]

theorem deps_eq (i : Nat) : (ofNodes nodes').1.deps i = (ofNodes nodes).1.deps i := by
  rw [deps, deps, h.out_eq, funext h.isPresent_eq]

theorem edges_eq : (ofNodes nodes').1.edges = (ofNodes nodes).1.edges := by
  have hsize : ∀ nodes, (ofNodes nodes).1.edges.size = (ofNodes nodes).1.names.size := by
    intro nodes
    let g := ((unplaced nodes).place nodes.zipIdx).1
    have hg : (ofNodes nodes).1 =
      { g with edges := (g.indices.map fun i => g.usesOf i (g.slot i).summary.uses).toArray } := rfl
    simp [hg, indices]
  refine Array.ext (by rw [hsize, hsize, h.size_eq]) fun i hi hi' => ?_
  have hout := h.out_eq i
  simp only [out, Array.getD_eq_getD_getElem?, Array.getElem?_eq_getElem hi,
    Array.getElem?_eq_getElem hi', Option.getD_some] at hout
  exact hout

end Alike

/-! ## Layers and digests of the same graph -/

/-- Two graphs with the same numbers, sources and uses. -/
structure SameShape (g g' : UnitGraph) : Prop where
  size : g'.names.size = g.names.size
  present : g'.isPresent = g.isPresent
  deps : g'.deps = g.deps

namespace SameShape

variable {g g' : UnitGraph} (h : SameShape g g')
include h

theorem indegrees_eq : g'.indegrees = g.indegrees := by
  rw [indegrees, indegrees, indices, indices, h.size, h.present, h.deps]

theorem layersFrom_eq (rounds : Nat) (left : Array Nat) (ready : List Nat) :
    g'.layersFrom rounds left ready = g.layersFrom rounds left ready := by
  induction rounds generalizing left ready with
  | zero => rfl
  | succ rounds ih =>
    cases ready with
    | nil => rfl
    | cons i is => simp only [layersFrom, h.deps, ih]

theorem layering_eq : g'.layering = g.layering := by
  unfold layering
  rw [h.indegrees_eq, indices, indices, h.size, h.present]
  simp only [h.layersFrom_eq]

theorem hashes_eq (hcontent : ∀ i, (g'.slot i).summary.content = (g.slot i).summary.content)
    (l : Layering) : g'.hashes l = g.hashes l := by
  have hstep : g'.hashStep = g.hashStep := by
    funext hashes i
    rw [hashStep, hashStep, h.deps, hcontent]
  rw [hashes, hashes, h.size, hstep]

end SameShape

theorem Alike.sameShape (h : Alike nodes nodes') : SameShape (ofNodes nodes).1 (ofNodes nodes').1 :=
  ⟨h.size_eq, funext h.isPresent_eq, funext h.deps_eq⟩

theorem Alike.content_eq (h : Alike nodes nodes') (i : Nat) :
    ((ofNodes nodes').1.slot i).summary.content = ((ofNodes nodes).1.slot i).summary.content := by
  by_cases hi : i < (ofNodes nodes).1.names.size
  · exact (h.slot_cases hi).2.1
  · have hslots := (numbered_ofNodes nodes).slots
    have hslots' := (numbered_ofNodes nodes').slots
    have hsize := h.size_eq
    have hnone : (ofNodes nodes).1.slots.size ≤ i := by omega
    have hnone' : (ofNodes nodes').1.slots.size ≤ i := by omega
    simp only [slot, Array.getD_eq_getD_getElem?, Array.getElem?_eq_none hnone,
      Array.getElem?_eq_none hnone']

theorem Alike.moduleHash_eq (h : Alike nodes nodes') (a : String) :
    moduleHash nodes' a = moduleHash nodes a := by
  cases hi : (ofNodes nodes).1.indexOf? a with
  | none =>
    have hnone : ∀ {nodes}, (ofNodes nodes).1.indexOf? a = none → moduleHash nodes a = .zero := by
      intro nodes hi
      have hindex : ((ofNodes nodes).1.withHashes (ofNodes nodes).1.layering).indexOf? a = none := hi
      rw [moduleHash, hindex]
      rfl
    rw [hnone hi, hnone ((h.indexOf?_eq a).trans hi)]
  | some i =>
    rw [UnitGraph.moduleHash_eq hi, UnitGraph.moduleHash_eq ((h.indexOf?_eq a).trans hi),
      h.sameShape.layering_eq, h.sameShape.hashes_eq h.content_eq]

/-- Sources of distinct names may be found in another order, and each may list what it uses in another
order or repeatedly: names, numbers and edges, layers and leftovers, and the digest of every name are
the same. -/
theorem reordering_does_not_show {mid : List GraphNode}
    (hdistinct : (nodes.map (·.summary.name)).Nodup) (hperm : nodes.Perm mid)
    (hsame : List.Forall₂ Reordered mid nodes') :
    let g := (ofNodes nodes).1
    let g' := (ofNodes nodes').1
    g'.names = g.names ∧ (∀ a, g'.indexOf? a = g.indexOf? a) ∧
      g'.edges = g.edges ∧ g'.indegrees = g.indegrees ∧ (∀ i, g'.isPresent i = g.isPresent i) ∧
      g'.layering = g.layering ∧ ∀ a, moduleHash nodes' a = moduleHash nodes a := by
  have h := Alike.of_reordered hdistinct hperm hsame
  exact ⟨h.names_eq, h.indexOf?_eq, h.edges_eq, h.sameShape.indegrees_eq, h.isPresent_eq,
    h.sameShape.layering_eq, h.moduleHash_eq⟩

/-- A source that uses others, without content. -/
def sourceUsing (name : String) (uses : List String) : GraphNode :=
  ⟨{ name, uses := uses.map fun u => { name := u } }, false, none⟩

def tidyDesk : List GraphNode :=
  [sourceUsing "desk" ["ink", "pen"], sourceUsing "pen" ["ink"], sourceUsing "ink" []]

/-- The same sources, found in another order, with other uses clauses. -/
def untidyDesk : List GraphNode :=
  [sourceUsing "ink" [], sourceUsing "desk" ["pen", "ink", "pen"], sourceUsing "pen" ["ink", "ink"]]

theorem reordering_does_not_show_desk :
    (tidyDesk.map (·.summary.name)).Nodup ∧
    (ofNodes untidyDesk).1.layering = (ofNodes tidyDesk).1.layering ∧
    (ofNodes untidyDesk).1.edges = (ofNodes tidyDesk).1.edges ∧
    moduleHash untidyDesk "desk" = moduleHash tidyDesk "desk" := by
  have hdistinct : (tidyDesk.map (·.summary.name)).Nodup := by decide
  have hsame : List.Forall₂ Reordered
      [sourceUsing "ink" [], sourceUsing "desk" ["ink", "pen"], sourceUsing "pen" ["ink"]]
      untidyDesk := by
    refine .cons ⟨rfl, rfl, fun b => Iff.rfl⟩ (.cons ⟨rfl, rfl, fun b => ?_⟩
      (.cons ⟨rfl, rfl, fun b => ?_⟩ .nil))
    · simp only [sourceUsing, List.map_cons, List.map_nil, List.exists_mem_cons_iff]
      tauto
    · simp only [sourceUsing, List.map_cons, List.map_nil, List.exists_mem_cons_iff]
      tauto
  have hperm : tidyDesk.Perm
      [sourceUsing "ink" [], sourceUsing "desk" ["ink", "pen"], sourceUsing "pen" ["ink"]] :=
    List.perm_append_singleton (sourceUsing "ink" [])
      [sourceUsing "desk" ["ink", "pen"], sourceUsing "pen" ["ink"]]
  obtain ⟨-, -, hedges, -, -, hlayers, hhash⟩ := reordering_does_not_show hdistinct hperm hsame
  exact ⟨hdistinct, hlayers, hedges, hhash "desk"⟩

end Pascaline.UnitGraph
