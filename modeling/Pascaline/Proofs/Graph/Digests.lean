import Mathlib.Data.Set.Function
import Pascaline.Proofs.Graph.Layers
import Pascaline.Proofs.Graph.Slots

/-!
# Digests of units

The digest of a unit is that of its content and of the digests of what it uses, in the order of
names. Numbers do not matter, so a unit keeps its digest as long as nothing below it changes.

A stored unit is used again if its digest is the current one. The digest tells exactly whether the
unit or anything it uses, directly or not, has another content than before.
-/

namespace Pascaline.UnitGraph

variable {g : UnitGraph} {i k : Nat}

/-! ## Digests by number -/

theorem size_foldl_hashStep (order : List Nat) (hashes : Array Digest) :
    (order.foldl g.hashStep hashes).size = hashes.size := by
  induction order generalizing hashes with
  | nil => rfl
  | cons i order ih => simp [ih, hashStep]

theorem getD_hashStep_of_ne (hashes : Array Digest) (h : i ≠ k) :
    (g.hashStep hashes i).getD k .zero = hashes.getD k .zero := by
  simp [hashStep, Array.getD_eq_getD_getElem?, h]

theorem getD_hashStep_self {hashes : Array Digest} (h : i < hashes.size) :
    (g.hashStep hashes i).getD i .zero =
      (g.slot i).summary.content.combine ((g.deps i).map fun k => hashes.getD k .zero) := by
  simp [hashStep, Array.getD_eq_getD_getElem?, h]

theorem getD_foldl_hashStep_of_not_mem {order : List Nat} (h : k ∉ order) (hashes : Array Digest) :
    (order.foldl g.hashStep hashes).getD k .zero = hashes.getD k .zero := by
  induction order generalizing hashes with
  | nil => rfl
  | cons i order ih =>
    rw [List.mem_cons, not_or] at h
    rw [List.foldl_cons, ih h.2, getD_hashStep_of_ne hashes (Ne.symm h.1)]

/-- Once the units that a unit uses have their digests, it gets its own, and no later step changes
them. -/
theorem getD_foldl_hashStep {before after : List Nat} {hashes : Array Digest}
    (hnodup : (before ++ i :: after).Nodup) (hi : i < hashes.size)
    (hdeps : ∀ k ∈ g.deps i, k ∈ before) :
    let final := (before ++ i :: after).foldl g.hashStep hashes
    final.getD i .zero =
      (g.slot i).summary.content.combine ((g.deps i).map fun k => final.getD k .zero) := by
  intro final
  have hfinal : final = after.foldl g.hashStep (g.hashStep (before.foldl g.hashStep hashes) i) := by
    simp [final]
  obtain ⟨-, hcons, hdisj⟩ := List.nodup_append'.mp hnodup
  have hused : ∀ k ∈ g.deps i,
      (before.foldl g.hashStep hashes).getD k .zero = final.getD k .zero := by
    intro k hk
    have hlater : k ∉ i :: after := hdisj (hdeps k hk)
    rw [List.mem_cons, not_or] at hlater
    rw [hfinal, getD_foldl_hashStep_of_not_mem hlater.2, getD_hashStep_of_ne _ (Ne.symm hlater.1)]
  rw [← List.map_congr_left hused, hfinal,
    getD_foldl_hashStep_of_not_mem (List.nodup_cons.mp hcons).1]
  exact getD_hashStep_self (size_foldl_hashStep before hashes ▸ hi)

theorem hashes_spec (hg : g.Bounded) (hcyclic : g.layering.isCyclic = false)
    (hi : g.isPresent i) :
    (g.hashes g.layering).getD i .zero = (g.slot i).summary.content.combine
      ((g.deps i).map fun k => (g.hashes g.layering).getD k .zero) := by
  have hmem : i ∈ g.layering.initOrder :=
    List.mem_reverse.mpr ((mem_order hg hcyclic).mpr (hg.mem_present.mpr hi))
  obtain ⟨before, after, horder⟩ := List.append_of_mem hmem
  have hnodup : g.layering.initOrder.Nodup := List.nodup_reverse.mpr (usersFirst_order hg).nodup
  rw [hashes, if_neg (by simp [hcyclic]), horder]
  exact getD_foldl_hashStep (horder ▸ hnodup) (by simpa using hg i hi) (deps_before hg hcyclic horder)

/-! ## Digests by name -/

variable {nodes : List GraphNode} {a b : String}

theorem bounded_ofNodes (nodes : List GraphNode) : (ofNodes nodes).1.Bounded :=
  fun _ => lt_of_isPresent

/-- The digest that a name has in the graph of some sources. -/
def moduleHash (nodes : List GraphNode) (name : String) : Digest :=
  let g := (ofNodes nodes).1.withHashes (ofNodes nodes).1.layering
  ((g.indexOf? name).map fun i => (g.slot i).summary.hash).getD .zero

/-- The names that a source uses, in order. -/
def usedNames (nodes : List GraphNode) (n : GraphNode) : List String :=
  sortedNames ((n.summary.uses.map (·.name)).filter fun b =>
    b ≠ n.summary.name ∧ (sourceOf? nodes b).isSome)

theorem name_of_sourceOf? {n : GraphNode} (h : sourceOf? nodes a = some n) : n.summary.name = a := by
  rw [sourceOf?] at h
  split at h
  · cases h
  · simpa using List.find?_some h

theorem mem_usedNames {n : GraphNode} (h : sourceOf? nodes a = some n) :
    b ∈ usedNames nodes n ↔ Uses nodes a b := by
  simp only [usedNames, mem_sortedNames, List.mem_filter, List.mem_map, decide_eq_true_eq,
    name_of_sourceOf? h, Uses, h, Option.some.injEq, exists_eq_left']
  tauto

theorem indexOf?_of_sourceOf? {n : GraphNode} (h : sourceOf? nodes a = some n) :
    ∃ i, (ofNodes nodes).1.indexOf? a = some i := by
  have hname := name_of_sourceOf? h
  rw [sourceOf?] at h
  split at h
  · cases h
  case isFalse hne =>
    exact mem_names_ofNodes.mpr ⟨hne, n, List.mem_of_find?_eq_some h, .inl hname⟩

theorem moduleHash_eq (h : (ofNodes nodes).1.indexOf? a = some i) :
    moduleHash nodes a = ((ofNodes nodes).1.hashes (ofNodes nodes).1.layering).getD i .zero := by
  have hi : i < (ofNodes nodes).1.slots.size := by
    rw [(numbered_ofNodes nodes).slots]
    exact ((numbered_ofNodes nodes).eq_nameOf h).1
  have hindex : ((ofNodes nodes).1.withHashes (ofNodes nodes).1.layering).indexOf? a = some i := h
  rw [moduleHash, hindex]
  simp [slot, withHashes, Array.getD_eq_getD_getElem?, hi]

theorem uses_of_mem_deps (h : k ∈ (ofNodes nodes).1.deps i) :
    Uses nodes ((ofNodes nodes).1.nameOf i) ((ofNodes nodes).1.nameOf k) := by
  have hk := bounded_ofNodes nodes k (isPresent_of_mem_deps h)
  have hi : i < (ofNodes nodes).1.names.size := by
    by_contra hi
    have hout := (List.mem_filter.mp h).1
    rw [out_ofNodes, if_neg hi] at hout
    cases hout
  have hn := numbered_ofNodes nodes
  exact (mem_deps_iff (hn.indexOf?_nameOf hi) (hn.indexOf?_nameOf hk)).mp h

theorem deps_names {n : GraphNode} (hn : sourceOf? nodes a = some n)
    (hi : (ofNodes nodes).1.indexOf? a = some i) :
    ((ofNodes nodes).1.deps i).map (ofNodes nodes).1.nameOf = usedNames nodes n := by
  have hg := numbered_ofNodes nodes
  have hbound : ∀ k ∈ (ofNodes nodes).1.deps i, k < (ofNodes nodes).1.names.size :=
    fun k hk => bounded_ofNodes nodes k (isPresent_of_mem_deps hk)
  refine List.Pairwise.eq_of_mem_iff (r := (· < ·)) ?_ (sortedNames_sorted _) fun b => ?_
  · refine List.pairwise_map.mpr ((deps_sorted nodes i).imp_of_mem fun hj hk hjk => ?_)
    exact hg.nameOf_lt hjk (hbound _ hk)
  · rw [mem_usedNames hn, List.mem_map]
    constructor
    · rintro ⟨k, hk, rfl⟩
      exact (hg.eq_nameOf hi).2 ▸ uses_of_mem_deps hk
    · intro hab
      obtain ⟨m, hm⟩ := Option.isSome_iff_exists.mp hab.2.2
      obtain ⟨k, hk⟩ := indexOf?_of_sourceOf? hm
      exact ⟨k, (mem_deps_iff hi hk).mpr hab, (hg.eq_nameOf hk).2⟩

theorem moduleHash_spec (hcyclic : (ofNodes nodes).1.layering.isCyclic = false) {n : GraphNode}
    (h : sourceOf? nodes a = some n) :
    moduleHash nodes a =
      n.summary.content.combine ((usedNames nodes n).map (moduleHash nodes)) := by
  obtain ⟨i, hi⟩ := indexOf?_of_sourceOf? h
  have hg := numbered_ofNodes nodes
  have hpresent : (ofNodes nodes).1.isPresent i := by
    rw [isPresent_ofNodes hi, h]
    rfl
  have hslot : ((ofNodes nodes).1.slot i).summary = n.summary := by
    obtain ⟨m, k, hm, hslot⟩ | ⟨hm, -⟩ := slot_ofNodes hi
    · rw [hslot, ← Option.some.inj (hm.symm.trans h)]
      rfl
    · cases hm.symm.trans h
  rw [moduleHash_eq hi, hashes_spec (bounded_ofNodes nodes) hcyclic hpresent,
    hslot, ← deps_names h hi, List.map_map]
  refine congrArg _ (List.map_congr_left fun k hk => (moduleHash_eq ?_).symm)
  exact hg.indexOf?_nameOf (bounded_ofNodes nodes k (isPresent_of_mem_deps hk))

/-! ## When a digest changes -/

variable {old new : List GraphNode} {m : String}

/-- Sources that use what is there, none of them itself through others. -/
structure WellLinked (nodes : List GraphNode) : Prop where
  complete : ∀ a n, sourceOf? nodes a = some n → ∀ u ∈ n.summary.uses, (sourceOf? nodes u.name).isSome
  acyclic : ∀ a, ¬ Relation.TransGen (Uses nodes) a a

theorem WellLinked.not_isCyclic (h : WellLinked nodes) :
    (ofNodes nodes).1.layering.isCyclic = false :=
  not_isCyclic_of_acyclic (bounded_ofNodes nodes) fun _ hk =>
    h.acyclic _ (hk.lift (ofNodes nodes).1.nameOf fun _ _ => uses_of_mem_deps)

/-- The content that counts under a name. -/
def contentOf? (nodes : List GraphNode) (a : String) : Option Digest :=
  (sourceOf? nodes a).map (·.summary.content)

/-- The uses clause that counts under a name. -/
def usesOf? (nodes : List GraphNode) (a : String) : Option (List String) :=
  (sourceOf? nodes a).map fun n => n.summary.uses.map (·.name)

/-- What goes into the digests of some sources. -/
def digestInputs (nodes : List GraphNode) : Set (Digest × List Digest) :=
  {p | ∃ a n, sourceOf? nodes a = some n ∧
    p = (n.summary.content, (usedNames nodes n).map (moduleHash nodes))}

/-- Sources without cycles can be walked down from any of them. -/
theorem uses_wellFounded (hacyclic : ∀ a, ¬ Relation.TransGen (Uses nodes) a a) :
    WellFounded fun b a => Uses nodes a b := by
  have hfinite : {a | (sourceOf? nodes a).isSome}.Finite := by
    refine (List.finite_toSet (nodes.map (·.summary.name))).subset fun a ha => ?_
    obtain ⟨n, hn⟩ := Option.isSome_iff_exists.mp ha
    refine List.mem_map.mpr ⟨n, ?_, name_of_sourceOf? hn⟩
    rw [sourceOf?] at hn
    split at hn
    · cases hn
    · exact List.mem_of_find?_eq_some hn
  let below : String → String → Prop := fun b a => Relation.TransGen (Uses nodes) a b
  have : IsStrictOrder String below :=
    { irrefl := hacyclic, trans := fun _ _ _ hab hbc => hbc.trans hab }
  refine Subrelation.wf ?_ (Set.wellFoundedOn_iff.mp (hfinite.wellFoundedOn (r := below)))
  intro b a hab
  obtain ⟨n, hn, -⟩ := hab.2.1
  exact ⟨.single hab, hab.2.2, by simp [hn]⟩

/-- A name uses the same in two sets of sources if its uses clause is the same and what the first
set has of it, the second has too. -/
theorem usedNames_congr (hold : WellLinked old) {n n' : GraphNode} (hn : sourceOf? old a = some n)
    (hn' : sourceOf? new a = some n') (huses : usesOf? old a = usesOf? new a)
    (hpresent : ∀ b, Uses old a b → (sourceOf? new b).isSome) :
    usedNames old n = usedNames new n' := by
  have hlist : n.summary.uses.map (·.name) = n'.summary.uses.map (·.name) := by
    simpa [usesOf?, hn, hn'] using huses
  rw [usedNames, usedNames, ← hlist, name_of_sourceOf? hn, name_of_sourceOf? hn']
  refine congrArg sortedNames (List.filter_congr fun b hb => ?_)
  obtain ⟨u, hu, rfl⟩ := List.mem_map.mp hb
  have hthere := hold.complete a n hn u hu
  rw [decide_eq_decide]
  refine and_congr_right fun hne => iff_of_true hthere (hpresent _ ?_)
  exact ⟨hne, ⟨n, hn, u, hu, rfl⟩, hthere⟩

/-- A name keeps its digest if everything it leads to keeps its content and uses clause. -/
theorem moduleHash_congr (hold : WellLinked old) (hnew : WellLinked new)
    (ha : (sourceOf? old a).isSome)
    (hsame : ∀ b, Relation.ReflTransGen (Uses old) a b →
      contentOf? old b = contentOf? new b ∧ usesOf? old b = usesOf? new b) :
    moduleHash old a = moduleHash new a := by
  induction a using (uses_wellFounded hold.acyclic).induction with | h a ih
  obtain ⟨n, hn⟩ := Option.isSome_iff_exists.mp ha
  have hthere : ∀ b, Relation.ReflTransGen (Uses old) a b → (sourceOf? old b).isSome →
      (sourceOf? new b).isSome := by
    intro b hab hb
    have := congrArg Option.isSome (hsame b hab).1
    simpa [contentOf?, hb] using this
  obtain ⟨n', hn'⟩ := Option.isSome_iff_exists.mp (hthere a .refl (by simp [hn]))
  obtain ⟨hcontent, huses⟩ := hsame a .refl
  have hnames := usedNames_congr hold hn hn' huses fun b hab => hthere b (.single hab) hab.2.2
  have hcontent : n.summary.content = n'.summary.content := by
    simpa [contentOf?, hn, hn'] using hcontent
  rw [moduleHash_spec hold.not_isCyclic hn, moduleHash_spec hnew.not_isCyclic hn', ← hnames, hcontent]
  refine congrArg _ (List.map_congr_left fun b hb => ?_)
  have hab := (mem_usedNames hn).mp hb
  exact ih b hab hab.2.2 fun c hbc => hsame c (.head hab hbc)

theorem content_of_moduleHash (hold : WellLinked old) (hnew : WellLinked new)
    (hinj : Set.InjOn (fun p => p.1.combine p.2) (digestInputs old ∪ digestInputs new))
    (huses : ∀ a, contentOf? old a = contentOf? new a → usesOf? old a = usesOf? new a)
    (ha : (sourceOf? old a).isSome) (ha' : (sourceOf? new a).isSome)
    (hhash : moduleHash old a = moduleHash new a) :
    ∀ b, Relation.ReflTransGen (Uses old) a b → contentOf? old b = contentOf? new b := by
  induction a using (uses_wellFounded hold.acyclic).induction with | h a ih
  obtain ⟨n, hn⟩ := Option.isSome_iff_exists.mp ha
  obtain ⟨n', hn'⟩ := Option.isSome_iff_exists.mp ha'
  have hinput := hhash
  rw [moduleHash_spec hold.not_isCyclic hn, moduleHash_spec hnew.not_isCyclic hn'] at hinput
  have hpair := hinj (.inl ⟨a, n, hn, rfl⟩) (.inr ⟨a, n', hn', rfl⟩) hinput
  obtain ⟨hcontent, hdigests⟩ := Prod.mk.inj hpair
  have hcontent : contentOf? old a = contentOf? new a := by simp [contentOf?, hn, hn', hcontent]
  have hlist : n.summary.uses.map (·.name) = n'.summary.uses.map (·.name) := by
    simpa [usesOf?, hn, hn'] using huses a hcontent
  have hpresent : ∀ b, Uses old a b → (sourceOf? new b).isSome := by
    rintro b ⟨-, ⟨m, hm, u, hu, rfl⟩, -⟩
    obtain rfl := Option.some.inj (hn.symm.trans hm)
    obtain ⟨v, hv, hvu⟩ := List.mem_map.mp (hlist ▸ List.mem_map_of_mem hu)
    exact hvu ▸ hnew.complete a n' hn' v hv
  have hnames := usedNames_congr hold hn hn' (huses a hcontent) hpresent
  rw [← hnames] at hdigests
  intro b hab
  obtain rfl | ⟨c, hac, hcb⟩ := hab.cases_head
  · exact hcontent
  · have hc := List.map_inj_left.mp hdigests c ((mem_usedNames hn).mpr hac)
    exact ih c hac hac.2.2 (hpresent c hac) hc b hcb

/-- Staleness is exact. Where the digests of two sets of sources do not collide and a content fixes
its uses clause, a name has the same digest in both sets if and only if it and everything it leads
to have the same content in both. What it does not lead to never matters. -/
theorem moduleHash_tells_change (hold : WellLinked old) (hnew : WellLinked new)
    (hm : (sourceOf? old m).isSome) (hm' : (sourceOf? new m).isSome) :
    (Set.InjOn (fun p => p.1.combine p.2) (digestInputs old ∪ digestInputs new) →
      (∀ a, contentOf? old a = contentOf? new a → usesOf? old a = usesOf? new a) →
      (moduleHash old m = moduleHash new m ↔
        ∀ a, Relation.ReflTransGen (Uses old) m a → contentOf? old a = contentOf? new a)) ∧
    ((∀ a, Relation.ReflTransGen (Uses old) m a →
        contentOf? old a = contentOf? new a ∧ usesOf? old a = usesOf? new a) →
      moduleHash old m = moduleHash new m) := by
  refine ⟨fun hinj huses => ⟨?_, fun hsame => ?_⟩, moduleHash_congr hold hnew hm⟩
  · exact content_of_moduleHash hold hnew hinj huses hm hm'
  · exact moduleHash_congr hold hnew hm fun a ha => ⟨hsame a ha, huses a (hsame a ha)⟩

/-! ## A unit that is edited -/

def stamped (stamp : UInt8) : Digest := ⟨List.replicate 32 stamp⟩

/-- A desk that uses ink, whose source has some content. -/
def deskAndInk (ink : UInt8) : List GraphNode :=
  [⟨{ name := "desk", uses := [{ name := "ink" }], content := stamped 1 }, false, none⟩,
    ⟨{ name := "ink", content := stamped ink }, false, none⟩]

theorem sourceOf?_deskAndInk {ink : UInt8} {n : GraphNode}
    (h : sourceOf? (deskAndInk ink) a = some n) :
    (a = "desk" ∧ n.summary.uses = [{ name := "ink" }] ∧ n.summary.content = stamped 1) ∨
      (a = "ink" ∧ n.summary.uses = [] ∧ n.summary.content = stamped ink) := by
  have hname := name_of_sourceOf? h
  rw [sourceOf?] at h
  split at h
  · cases h
  · have hmem := List.mem_of_find?_eq_some h
    simp only [deskAndInk, List.mem_cons, List.not_mem_nil, or_false] at hmem
    obtain rfl | rfl := hmem
    · exact .inl ⟨hname.symm, rfl, rfl⟩
    · exact .inr ⟨hname.symm, rfl, rfl⟩

theorem uses_deskAndInk {ink : UInt8} : Uses (deskAndInk ink) a b ↔ a = "desk" ∧ b = "ink" := by
  constructor
  · rintro ⟨-, ⟨n, hn, u, hu, rfl⟩, -⟩
    obtain ⟨ha, huses, -⟩ | ⟨-, huses, -⟩ := sourceOf?_deskAndInk hn
    · rw [huses, List.mem_singleton] at hu
      exact ⟨ha, congrArg (·.name) hu⟩
    · rw [huses] at hu
      cases hu
  · rintro ⟨rfl, rfl⟩
    exact ⟨by decide, ⟨_, rfl, { name := "ink" }, List.mem_singleton_self _, rfl⟩, rfl⟩

theorem wellLinked_deskAndInk (ink : UInt8) : WellLinked (deskAndInk ink) where
  complete a n hn u hu := by
    obtain ⟨-, huses, -⟩ | ⟨-, huses, -⟩ := sourceOf?_deskAndInk hn
    · rw [huses, List.mem_singleton] at hu
      rw [hu]
      rfl
    · rw [huses] at hu
      cases hu
  acyclic a h := by
    have hends : ∀ {c}, Relation.TransGen (Uses (deskAndInk ink)) a c → a = "desk" ∧ c = "ink" := by
      intro c hc
      induction hc with
      | single hab => exact uses_deskAndInk.mp hab
      | tail _ hbc ih => exact ⟨ih.1, (uses_deskAndInk.mp hbc).2⟩
    obtain ⟨rfl, hne⟩ := hends h
    exact absurd hne (by decide)

/-- What goes into the digests of the desk and its ink. -/
def deskInputs (ink : UInt8) : List (Digest × List Digest) :=
  [(stamped 1, [(stamped ink).combine []]), (stamped ink, [])]

theorem usedNames_deskAndInk {ink : UInt8} {n : GraphNode}
    (h : sourceOf? (deskAndInk ink) a = some n) :
    usedNames (deskAndInk ink) n = if a = "desk" then ["ink"] else [] := by
  refine List.Pairwise.eq_of_mem_iff (r := (· < ·)) (sortedNames_sorted _) ?_ fun b => ?_
  · split <;> simp
  · rw [mem_usedNames h, uses_deskAndInk]
    split <;> simp_all

theorem digestInputs_deskAndInk (ink : UInt8) :
    ∀ p ∈ digestInputs (deskAndInk ink), p ∈ deskInputs ink := by
  have hink : moduleHash (deskAndInk ink) "ink" = (stamped ink).combine [] := by
    have hn : sourceOf? (deskAndInk ink) "ink" =
      some ⟨{ name := "ink", content := stamped ink }, false, none⟩ := rfl
    rw [moduleHash_spec (wellLinked_deskAndInk ink).not_isCyclic hn, usedNames_deskAndInk hn]
    rfl
  rintro p ⟨a, n, hn, rfl⟩
  rw [usedNames_deskAndInk hn]
  obtain ⟨rfl, -, hcontent⟩ | ⟨rfl, -, hcontent⟩ := sourceOf?_deskAndInk hn
  · simp [deskInputs, hcontent, hink]
  · simp [deskInputs, hcontent]

set_option maxRecDepth 100000 in
/-- Other ink makes another digest of the desk. -/
theorem moduleHash_tells_other_ink :
    WellLinked (deskAndInk 2) ∧ WellLinked (deskAndInk 3) ∧
      Set.InjOn (fun p : Digest × List Digest => p.1.combine p.2)
        (digestInputs (deskAndInk 2) ∪ digestInputs (deskAndInk 3)) ∧
      moduleHash (deskAndInk 2) "desk" ≠ moduleHash (deskAndInk 3) "desk" := by
  have hdesk₂ : ((stamped 1).combine [(stamped 2).combine []]).bytes.head? = some 63 := by
    decide +kernel
  have hink₂ : ((stamped 2).combine []).bytes.head? = some 117 := by decide +kernel
  have hdesk₃ : ((stamped 1).combine [(stamped 3).combine []]).bytes.head? = some 123 := by
    decide +kernel
  have hink₃ : ((stamped 3).combine []).bytes.head? = some 100 := by decide +kernel
  have hnodup : ((deskInputs 2 ++ deskInputs 3).map fun p => (p.1.combine p.2).bytes.head?) =
      [some 63, some 117, some 123, some 100] := by
    simp only [deskInputs, List.cons_append, List.nil_append, List.map_cons, List.map_nil, hdesk₂,
      hink₂, hdesk₃, hink₃]
  have hinj : Set.InjOn (fun p : Digest × List Digest => p.1.combine p.2)
      (digestInputs (deskAndInk 2) ∪ digestInputs (deskAndInk 3)) := by
    intro p hp q hq hpq
    have hmem : ∀ p ∈ digestInputs (deskAndInk 2) ∪ digestInputs (deskAndInk 3),
        p ∈ deskInputs 2 ++ deskInputs 3 := fun p hp =>
      List.mem_append.mpr (hp.imp (digestInputs_deskAndInk 2 p) (digestInputs_deskAndInk 3 p))
    refine List.inj_on_of_nodup_map (f := fun p => (p.1.combine p.2).bytes.head?) ?_ (hmem p hp)
      (hmem q hq) (congrArg (·.bytes.head?) hpq)
    rw [hnodup]
    decide
  have huses : ∀ a, contentOf? (deskAndInk 2) a = contentOf? (deskAndInk 3) a →
      usesOf? (deskAndInk 2) a = usesOf? (deskAndInk 3) a := by
    intro a _
    by_cases hdesk : "desk" = a
    · subst hdesk
      rfl
    by_cases hink : "ink" = a
    · subst hink
      rfl
    simp [usesOf?, sourceOf?, deskAndInk, hdesk, hink]
  have hlinked := wellLinked_deskAndInk
  refine ⟨hlinked 2, hlinked 3, hinj, fun hhash => ?_⟩
  have hsame := ((moduleHash_tells_change (m := "desk") (hlinked 2) (hlinked 3) rfl rfl).1 hinj
    huses).mp hhash "ink" (.single (uses_deskAndInk.mpr ⟨rfl, rfl⟩))
  exact absurd hsame (by decide)

end Pascaline.UnitGraph
