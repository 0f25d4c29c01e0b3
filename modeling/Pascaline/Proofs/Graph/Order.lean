import Pascaline.Proofs.Graph.Digests

/-!
# The order of units and its cycles

Rounds that take the units nobody left uses come to an end by themselves. They put every unit in a
layer before those of the units that it uses, and leave over exactly the units on a cycle and those
that such a unit leads to.

A walk along the uses of a unit either finishes it, when all that it uses is finished, or comes back
to a unit of its own path, which closes a cycle. So the walks find a cycle exactly if the layers
leave units over.
-/

namespace Pascaline.UnitGraph

variable {g : UnitGraph} {i k : Nat}

/-! ## Rounds without a bound -/

/-- From these counts and ready units, rounds take these layers and leave these counts. -/
inductive Rounds (g : UnitGraph) : Array Nat → List Nat → List (List Nat) → Array Nat → Prop where
  | ended {left : Array Nat} : Rounds g left [] [] left
  | next {left left' : Array Nat} {ready : List Nat} {batches : List (List Nat)} (hne : ready ≠ [])
      (hrest : let s := (ready.flatMap g.deps).foldl release (left, [])
        Rounds g s.1 (sorted s.2) batches left') : Rounds g left ready (ready :: batches) left'

variable {done ready : List Nat} {left left' : Array Nat} {batches : List (List Nat)}

theorem layersFrom_rounds (hg : g.Bounded) (rounds : Nat) (h : g.Round done left ready)
    (hrounds : (g.rest done).length < rounds) :
    g.Rounds left ready (g.layersFrom rounds left ready).1 (g.layersFrom rounds left ready).2 := by
  induction rounds generalizing done left ready with
  | zero => omega
  | succ rounds ih =>
    match ready with
    | [] => exact .ended
    | i :: is =>
      refine .next (List.cons_ne_nil i is) (ih (h.next hg) ?_)
      have hlength := h.rest_perm.length_eq
      simp only [List.length_append, List.length_cons] at hlength
      omega

/-- No unit of the first layer is used in the second. -/
def Unused (g : UnitGraph) (early late : List Nat) : Prop := ∀ k ∈ early, ∀ i ∈ late, k ∉ g.deps i

theorem Round.unused (h : g.Round done left ready) : g.Unused ready (g.rest done) :=
  fun k hk => demand_eq_zero.mp ((h.mem_ready k).mp hk).2

/-- What rounds do: the counts at the end are right again, and no unit is used in its own layer or in
a later one. -/
structure Rounds.Spec (g : UnitGraph) (done : List Nat) (batches : List (List Nat))
    (left' : Array Nat) : Prop where
  taken : ∀ k ∈ batches.flatten, k ∈ g.rest done
  round : g.Round (done ++ batches.flatten) left' []
  nodup : batches.flatten.Nodup
  later : batches.Pairwise g.Unused
  apart : ∀ batch ∈ batches, g.Unused batch batch

theorem Rounds.spec (hg : g.Bounded) (h : g.Rounds left ready batches left')
    (hround : g.Round done left ready) : Rounds.Spec g done batches left' := by
  induction h generalizing done with
  | ended => exact ⟨by simp, by simpa using hround, .nil, .nil, by simp⟩
  | @next left left' ready batches _ _ ih =>
    have hrest := ih (hround.next hg)
    have hfirst : ∀ k ∈ ready, k ∈ g.rest done := fun k hk => ((hround.mem_ready k).mp hk).1
    have hlater : ∀ k ∈ batches.flatten, k ∈ g.rest done ∧ k ∉ ready :=
      fun k hk => mem_rest_append.mp (hrest.taken k hk)
    refine ⟨?_, ?_, ?_, ?_, ?_⟩
    · rw [List.flatten_cons, List.forall_mem_append]
      exact ⟨hfirst, fun k hk => (hlater k hk).1⟩
    · rw [List.flatten_cons, ← List.append_assoc]
      exact hrest.round
    · rw [List.flatten_cons]
      exact hround.nodup.append hrest.nodup fun k hk hk' => (hlater k hk').2 hk
    · refine .cons (fun batch hbatch k hk i hi => ?_) hrest.later
      exact hround.unused k hk i (hlater i (List.mem_flatten_of_mem hbatch hi)).1
    · rw [List.forall_mem_cons]
      exact ⟨fun k hk i hi => hround.unused k hk i (hfirst i hi), hrest.apart⟩

theorem Rounds.Spec.lt (h : Rounds.Spec g done batches left') {a b : Nat} {early late : List Nat}
    (ha : batches[a]? = some early) (hb : batches[b]? = some late) (hi : i ∈ early) (hk : k ∈ late)
    (huse : k ∈ g.deps i) : a < b := by
  by_contra hle
  obtain ⟨ha', rfl⟩ := List.getElem?_eq_some_iff.mp ha
  obtain ⟨hb', rfl⟩ := List.getElem?_eq_some_iff.mp hb
  obtain hlt | rfl := Nat.lt_or_eq_of_le (Nat.le_of_not_lt hle)
  · exact List.pairwise_iff_getElem.mp h.later b a hb' ha' hlt k hk i hi huse
  · exact h.apart _ (List.getElem_mem _) k hk i hi huse

/-! ## The layers of a graph -/

/-- The units that nobody uses. -/
def unusedUnits (g : UnitGraph) : List Nat := g.present.filter fun i => g.indegrees.getD i 0 = 0

/-- The layers are those of rounds that go on until no unit is ready. -/
theorem layering_rounds (hg : g.Bounded) : ∃ left,
    g.Rounds g.indegrees g.unusedUnits g.layering.batches left ∧
      g.layering.stuck = g.present.filter fun i => 0 < left.getD i 0 := by
  refine ⟨_, layersFrom_rounds hg (g.names.size + 1) hg.first_round ?_, rfl⟩
  have hrest : (g.rest []).length ≤ g.present.length := List.length_filter_le _ _
  have hpresent : g.present.length ≤ g.indices.length := List.length_filter_le _ _
  simp only [indices, List.length_range] at hpresent
  omega

/-- A unit that has a source uses another one. -/
def Edge (g : UnitGraph) (i k : Nat) : Prop := g.isPresent i ∧ k ∈ g.deps i

/-- What the layers of a graph are. -/
structure Layered (g : UnitGraph) (l : Layering) : Prop where
  nodup : l.order.Nodup
  taken : ∀ k ∈ l.order, g.isPresent k
  later : ∀ {a b : Nat} {early late : List Nat} {i k : Nat}, l.batches[a]? = some early →
    l.batches[b]? = some late → i ∈ early → k ∈ late → g.Edge i k → a < b
  users : ∀ k ∈ l.order, ∀ i, g.Edge i k → i ∈ l.order
  left : ∀ k, k ∈ l.stuck ↔ g.isPresent k ∧ k ∉ l.order
  used : ∀ k ∈ l.stuck, ∃ i ∈ l.stuck, g.Edge i k

theorem layered_layering (hg : g.Bounded) : g.Layered g.layering := by
  obtain ⟨left, hrounds, hstuck⟩ := layering_rounds hg
  have h := hrounds.spec hg hg.first_round
  have hround : g.Round g.layering.order left [] := h.round
  have hused : ∀ k ∈ g.rest g.layering.order, g.demand g.layering.order k ≠ 0 := by
    intro k hk hzero
    cases (hround.mem_ready k).mpr ⟨hk, hzero⟩
  have hleft : ∀ k, k ∈ g.layering.stuck ↔ k ∈ g.rest g.layering.order := by
    intro k
    rw [hstuck, List.mem_filter, decide_eq_true_eq, hround.left_eq, mem_rest]
    refine and_congr_right fun hk => ⟨fun hpos hdone => ?_, fun hdone => ?_⟩
    · have := hround.settled k hdone
      omega
    · exact Nat.pos_of_ne_zero (hused k (mem_rest.mpr ⟨hk, hdone⟩))
  refine ⟨h.nodup, fun k hk => hg.mem_present.mp (mem_rest.mp (h.taken k hk)).1, ?_, ?_, ?_, ?_⟩
  · exact fun ha hb hi hk huse => h.lt ha hb hi hk huse.2
  · intro k hk i huse
    by_contra hnot
    have hi : i ∈ g.rest g.layering.order := mem_rest.mpr ⟨hg.mem_present.mpr huse.1, hnot⟩
    exact demand_eq_zero.mp (hround.settled k hk) i hi huse.2
  · intro k
    rw [hleft, mem_rest, hg.mem_present]
  · intro k hk
    obtain ⟨i, hi, huse⟩ : ∃ i ∈ g.rest g.layering.order, k ∈ g.deps i := by
      simpa [demand_eq_zero] using hused k ((hleft k).mp hk)
    exact ⟨i, (hleft i).mpr hi, hg.mem_present.mp (mem_rest.mp hi).1, huse⟩

namespace Layered

variable {l : Layering}

theorem mem_order : k ∈ l.order ↔
    ∃ (a : Nat) (batch : List Nat), l.batches[a]? = some batch ∧ k ∈ batch := by
  rw [Layering.order, List.mem_flatten]
  constructor
  · rintro ⟨batch, hbatch, hk⟩
    obtain ⟨a, ha⟩ := List.mem_iff_getElem?.mp hbatch
    exact ⟨a, batch, ha, hk⟩
  · rintro ⟨a, batch, ha, hk⟩
    exact ⟨batch, List.mem_of_getElem? ha, hk⟩

/-- A unit that leads to one in the layers is in an earlier layer. -/
theorem path_lt (h : g.Layered l) (hpath : Relation.TransGen g.Edge i k) {b : Nat} {late : List Nat}
    (hb : l.batches[b]? = some late) (hk : k ∈ late) :
    ∃ (a : Nat) (early : List Nat), a < b ∧ l.batches[a]? = some early ∧ i ∈ early := by
  have hstep : ∀ {i k b : Nat} {late : List Nat}, g.Edge i k → l.batches[b]? = some late →
      k ∈ late → ∃ (a : Nat) (early : List Nat), a < b ∧ l.batches[a]? = some early ∧ i ∈ early := by
    intro i k b late huse hb hk
    obtain ⟨a, early, ha, hi⟩ := mem_order.mp (h.users k (mem_order.mpr ⟨b, late, hb, hk⟩) i huse)
    exact ⟨a, early, h.later ha hb hi hk huse, ha, hi⟩
  induction hpath using Relation.TransGen.head_induction_on with
  | single huse => exact hstep huse hb hk
  | head huse _ ih =>
    obtain ⟨a, early, hab, ha, hi⟩ := ih
    obtain ⟨a', early', haa, ha', hi'⟩ := hstep huse ha hi
    exact ⟨a', early', Nat.lt_trans haa hab, ha', hi'⟩

theorem cycle_not_mem (h : g.Layered l) (hcycle : Relation.TransGen g.Edge k k) : k ∉ l.order := by
  intro hk
  obtain ⟨b, late, hb, hk⟩ := mem_order.mp hk
  induction b using Nat.strong_induction_on generalizing late with
  | _ b ih =>
    obtain ⟨a, early, hab, ha, hk'⟩ := h.path_lt hcycle hb hk
    exact ih a hab early ha hk'

theorem mem_stuck_iff (h : g.Layered l) (hk : g.isPresent k) : k ∈ l.stuck ↔
    ∃ c, Relation.TransGen g.Edge c c ∧ Relation.ReflTransGen g.Edge c k := by
  constructor
  · intro hstuck
    by_contra hnone
    push Not at hnone
    -- Among the units left over that lead to `k` each has a user, so none comes first.
    let before : Nat → Nat → Prop := fun i j =>
      Relation.TransGen g.Edge i j ∧ Relation.ReflTransGen g.Edge j k
    have : IsStrictOrder Nat before :=
      { irrefl := fun i hi => hnone i hi.1 hi.2
        trans := fun _ _ _ hij hjk => ⟨hij.1.trans hjk.1, hjk.2⟩ }
    have hwf := (List.finite_toSet l.stuck).wellFoundedOn (r := before)
    refine hwf.induction (P := fun j => ¬Relation.ReflTransGen g.Edge j k) hstuck
      (fun j hj ih hjk => ?_) .refl
    obtain ⟨i, hi, huse⟩ := h.used j hj
    exact ih i hi ⟨.single huse, hjk⟩ (.head huse hjk)
  · rintro ⟨c, hcycle, hck⟩
    refine (h.left k).mpr ⟨hk, fun horder => ?_⟩
    obtain rfl | hpath := Relation.reflTransGen_iff_eq_or_transGen.mp hck
    · exact h.cycle_not_mem hcycle horder
    · obtain ⟨b, late, hb, hlate⟩ := mem_order.mp horder
      obtain ⟨a, early, -, ha, hc⟩ := h.path_lt hpath hb hlate
      exact h.cycle_not_mem hcycle (mem_order.mpr ⟨a, early, ha, hc⟩)

theorem isCyclic_iff (h : g.Layered l) :
    l.isCyclic = true ↔ ∃ c, Relation.TransGen g.Edge c c := by
  have hempty : l.isCyclic = true ↔ ∃ k, k ∈ l.stuck := by
    rw [Layering.isCyclic, Bool.not_eq_true', List.isEmpty_eq_false_iff_exists_mem]
  rw [hempty]
  constructor
  · rintro ⟨k, hk⟩
    obtain ⟨c, hcycle, -⟩ := (h.mem_stuck_iff ((h.left k).mp hk).1).mp hk
    exact ⟨c, hcycle⟩
  · rintro ⟨c, hcycle⟩
    obtain ⟨k, hck, -⟩ := Relation.TransGen.head'_iff.mp hcycle
    exact ⟨c, (h.mem_stuck_iff hck.1).mpr ⟨c, hcycle, .refl⟩⟩

end Layered

/-! ## Uses by name -/

variable {nodes : List GraphNode}

/-- The number of a name. -/
def numberOf (nodes : List GraphNode) (a : String) : Nat := ((ofNodes nodes).1.indexOf? a).getD 0

theorem numberOf_nameOf (hi : i < (ofNodes nodes).1.names.size) :
    numberOf nodes ((ofNodes nodes).1.nameOf i) = i := by
  rw [numberOf, (numbered_ofNodes nodes).indexOf?_nameOf hi, Option.getD_some]

theorem isPresent_iff : (ofNodes nodes).1.isPresent i ↔
    ∃ a, (sourceOf? nodes a).isSome ∧ (ofNodes nodes).1.indexOf? a = some i := by
  constructor
  · intro hi
    have hindex := (numbered_ofNodes nodes).indexOf?_nameOf (lt_of_isPresent hi)
    exact ⟨_, isPresent_ofNodes hindex ▸ hi, hindex⟩
  · rintro ⟨a, ha, hindex⟩
    rw [isPresent_ofNodes hindex]
    exact ha

theorem uses_of_edge (h : (ofNodes nodes).1.Edge i k) :
    Uses nodes ((ofNodes nodes).1.nameOf i) ((ofNodes nodes).1.nameOf k) := uses_of_mem_deps h.2

theorem edge_of_uses {a b : String} (h : Uses nodes a b) :
    (ofNodes nodes).1.Edge (numberOf nodes a) (numberOf nodes b) := by
  obtain ⟨n, hn, -⟩ := h.2.1
  obtain ⟨m, hm⟩ := Option.isSome_iff_exists.mp h.2.2
  obtain ⟨i, hi⟩ := indexOf?_of_sourceOf? hn
  obtain ⟨k, hk⟩ := indexOf?_of_sourceOf? hm
  rw [numberOf, numberOf, hi, hk]
  exact ⟨by rw [Option.getD_some, isPresent_ofNodes hi, hn]; rfl, (mem_deps_iff hi hk).mpr h⟩

theorem edge_iff (hi : i < (ofNodes nodes).1.names.size) (hk : k < (ofNodes nodes).1.names.size) :
    (ofNodes nodes).1.Edge i k ↔
      Uses nodes ((ofNodes nodes).1.nameOf i) ((ofNodes nodes).1.nameOf k) := by
  refine ⟨uses_of_edge, fun h => ?_⟩
  have hedge := edge_of_uses h
  rwa [numberOf_nameOf hi, numberOf_nameOf hk] at hedge

theorem exists_cycle_iff : (∃ c, Relation.TransGen (ofNodes nodes).1.Edge c c) ↔
    ∃ a, Relation.TransGen (Uses nodes) a a := by
  constructor
  · rintro ⟨c, hc⟩
    exact ⟨_, hc.lift (ofNodes nodes).1.nameOf fun _ _ => uses_of_edge⟩
  · rintro ⟨a, ha⟩
    exact ⟨_, ha.lift (numberOf nodes) fun _ _ => edge_of_uses⟩

theorem exists_cycle_above_iff (hk : k < (ofNodes nodes).1.names.size) :
    (∃ c, Relation.TransGen (ofNodes nodes).1.Edge c c ∧
        Relation.ReflTransGen (ofNodes nodes).1.Edge c k) ↔
      ∃ a, Relation.TransGen (Uses nodes) a a ∧
        Relation.ReflTransGen (Uses nodes) a ((ofNodes nodes).1.nameOf k) := by
  constructor
  · rintro ⟨c, hc, hck⟩
    exact ⟨_, hc.lift (ofNodes nodes).1.nameOf fun _ _ => uses_of_edge,
      hck.lift (ofNodes nodes).1.nameOf fun _ _ => uses_of_edge⟩
  · rintro ⟨a, ha, hak⟩
    have hnumber : Relation.ReflTransGen (ofNodes nodes).1.Edge (numberOf nodes a)
        (numberOf nodes ((ofNodes nodes).1.nameOf k)) :=
      hak.lift (numberOf nodes) fun _ _ => edge_of_uses
    rw [numberOf_nameOf hk] at hnumber
    exact ⟨_, ha.lift (numberOf nodes) fun _ _ => edge_of_uses, hnumber⟩

/-! ## The order of sources -/

theorem lt_of_getElem?_reverse {α : Type} {xs : List α} {x y : α} {a b : Nat}
    (h : ∀ {a b : Nat}, xs[a]? = some x → xs[b]? = some y → a < b)
    (ha : xs.reverse[a]? = some x) (hb : xs.reverse[b]? = some y) : b < a := by
  have ha' : a < xs.length := by simpa using (List.getElem?_eq_some_iff.mp ha).1
  have hb' : b < xs.length := by simpa using (List.getElem?_eq_some_iff.mp hb).1
  rw [List.getElem?_reverse ha'] at ha
  rw [List.getElem?_reverse hb'] at hb
  have := h ha hb
  omega

theorem UsersFirst.lt {order : List Nat} (h : g.UsersFirst order) {a b : Nat}
    (ha : order[a]? = some i) (hb : order[b]? = some k) (huse : k ∈ g.deps i) : a < b := by
  by_contra hle
  obtain ⟨ha', rfl⟩ := List.getElem?_eq_some_iff.mp ha
  obtain ⟨hb', rfl⟩ := List.getElem?_eq_some_iff.mp hb
  obtain hlt | rfl := Nat.lt_or_eq_of_le (Nat.le_of_not_lt hle)
  · exact List.pairwise_iff_getElem.mp h.behind b a hb' ha' hlt huse
  · exact h.apart _ (List.getElem_mem _) huse

/-- Layers that order sources by what they use, as numbers in a graph. -/
structure Sorts (nodes : List GraphNode) (g : UnitGraph) (l : Layering) : Prop where
  /-- Rounds without a bound come to an end, with these layers. -/
  rounds : ∃ left, g.Rounds g.indegrees g.unusedUnits l.batches left
  nodup : (l.order ++ l.stuck).Nodup
  all : ∀ i, i ∈ l.order ++ l.stuck ↔ ∃ a, (sourceOf? nodes a).isSome ∧ g.indexOf? a = some i
  batches : ∀ (a b : Nat) (early late : List Nat), l.batches[a]? = some early →
    l.batches[b]? = some late → ∀ i ∈ early, ∀ k ∈ late,
      Uses nodes (g.nameOf i) (g.nameOf k) → a < b
  waves : ∀ (a b : Nat) (wave wave' : List Nat), l.waves[a]? = some wave →
    l.waves[b]? = some wave' → ∀ i ∈ wave, ∀ k ∈ wave',
      Uses nodes (g.nameOf i) (g.nameOf k) → b < a
  initOrder : ∀ (a b i k : Nat), l.initOrder[a]? = some i → l.initOrder[b]? = some k →
    Uses nodes (g.nameOf i) (g.nameOf k) → b < a
  stuck : ∀ i, i ∈ l.stuck ↔ g.isPresent i ∧ ∃ a, Relation.TransGen (Uses nodes) a a ∧
    Relation.ReflTransGen (Uses nodes) a (g.nameOf i)
  cyclic : l.isCyclic = true ↔ ∃ a, Relation.TransGen (Uses nodes) a a

/-- The layers of the graph of any sources put them in order: all that are in no layer are on a cycle
of uses or used, directly or not, by a source on one. -/
theorem layering_sorts (nodes : List GraphNode) :
    Sorts nodes (ofNodes nodes).1 (ofNodes nodes).1.layering := by
  have hg := bounded_ofNodes nodes
  have h := layered_layering hg
  have hlt : ∀ i, (ofNodes nodes).1.isPresent i → i < (ofNodes nodes).1.names.size := hg
  have hpresent : ∀ i, i ∈ (ofNodes nodes).1.layering.order ++ (ofNodes nodes).1.layering.stuck ↔
      (ofNodes nodes).1.isPresent i := by
    intro i
    rw [List.mem_append, h.left]
    have := h.taken i
    tauto
  have hedge : ∀ {i k : Nat}, i ∈ (ofNodes nodes).1.layering.order →
      k ∈ (ofNodes nodes).1.layering.order →
      Uses nodes ((ofNodes nodes).1.nameOf i) ((ofNodes nodes).1.nameOf k) →
      (ofNodes nodes).1.Edge i k :=
    fun hi hk huse => (edge_iff (hlt _ (h.taken _ hi)) (hlt _ (h.taken _ hk))).mpr huse
  have hbatches : ∀ {a b i k : Nat} {early late : List Nat},
      (ofNodes nodes).1.layering.batches[a]? = some early →
      (ofNodes nodes).1.layering.batches[b]? = some late → i ∈ early → k ∈ late →
      Uses nodes ((ofNodes nodes).1.nameOf i) ((ofNodes nodes).1.nameOf k) → a < b := by
    intro a b i k early late ha hb hi hk huse
    exact h.later ha hb hi hk
      (hedge (Layered.mem_order.mpr ⟨a, early, ha, hi⟩) (Layered.mem_order.mpr ⟨b, late, hb, hk⟩) huse)
  refine ⟨?_, ?_, fun i => (hpresent i).trans isPresent_iff, ?_, ?_, ?_, fun i => ?_,
    h.isCyclic_iff.trans exists_cycle_iff⟩
  · obtain ⟨left, hrounds, -⟩ := layering_rounds hg
    exact ⟨left, hrounds⟩
  · refine h.nodup.append ?_ fun i hi hstuck => ((h.left i).mp hstuck).2 hi
    obtain ⟨left, -, hstuck⟩ := layering_rounds hg
    rw [hstuck]
    exact (present_nodup _).filter _
  · exact fun a b early late ha hb i hi k hk huse => hbatches ha hb hi hk huse
  · intro a b wave wave' ha hb i hi k hk huse
    exact lt_of_getElem?_reverse (fun ha hb => hbatches ha hb hi hk huse) ha hb
  · intro a b i k ha hb huse
    refine lt_of_getElem?_reverse (fun ha hb => ?_) ha hb
    have huse := hedge (List.mem_of_getElem? ha) (List.mem_of_getElem? hb) huse
    exact (usersFirst_order hg).lt ha hb huse.2
  · refine ⟨fun hi => ?_, fun ⟨hi, hcycle⟩ => ?_⟩
    · have hi' := ((h.left i).mp hi).1
      exact ⟨hi', (exists_cycle_above_iff (hlt i hi')).mp ((h.mem_stuck_iff hi').mp hi)⟩
    · exact (h.mem_stuck_iff hi).mpr ((exists_cycle_above_iff (hlt i hi)).mpr hcycle)

/-! ## Finished units -/

variable {path : List Nat}

/-- Units each of which uses only units that were finished before it. -/
inductive Finished (g : UnitGraph) : List Nat → Prop where
  | nil : Finished g []
  | cons {i : Nat} {done : List Nat} (huses : ∀ k ∈ g.deps i, k ∈ done) (hdone : Finished g done) :
      Finished g (i :: done)

namespace Finished

theorem path_mem (h : Finished g done) (hi : i ∈ done) (hpath : Relation.TransGen g.Edge i k) :
    k ∈ done := by
  have hstep : ∀ {i k : Nat}, i ∈ done → g.Edge i k → k ∈ done := by
    clear hpath hi
    intro i k hi huse
    induction h with
    | nil => cases hi
    | cons huses _ ih =>
      rcases List.mem_cons.mp hi with rfl | hi
      · exact List.mem_cons_of_mem _ (huses k huse.2)
      · exact List.mem_cons_of_mem _ (ih hi)
  induction hpath with
  | single huse => exact hstep hi huse
  | tail _ huse ih => exact hstep ih huse

theorem acyclic (h : Finished g done) (hi : i ∈ done) : ¬Relation.TransGen g.Edge i i := by
  induction h with
  | nil => cases hi
  | @cons j done huses hdone ih =>
    intro hcycle
    rcases List.mem_cons.mp hi with rfl | hi
    · obtain ⟨k, hik, hki⟩ := Relation.TransGen.head'_iff.mp hcycle
      have hk := huses k hik.2
      refine ih ?_ hcycle
      rcases Relation.reflTransGen_iff_eq_or_transGen.mp hki with rfl | hki
      · exact hk
      · exact hdone.path_mem hk hki
    · exact ih hi hcycle

end Finished

/-! ## Paths -/

/-- A list of units that each use the next, with the same unit at both ends and no other one twice. -/
structure IsCycle (g : UnitGraph) (cycle : List Nat) : Prop where
  chain : cycle.IsChain g.Edge
  ends : ∃ c mid, cycle = c :: mid ++ [c] ∧ mid ≠ [] ∧ (c :: mid).Nodup

theorem IsCycle.transGen {cycle : List Nat} (h : g.IsCycle cycle) (hi : i ∈ cycle) :
    Relation.TransGen g.Edge i i := by
  obtain ⟨c, mid, rfl, -, -⟩ := h.ends
  have hpairs : (c :: (mid ++ [c])).Pairwise (Relation.TransGen g.Edge) :=
    List.isChain_iff_pairwise.mp (h.chain.imp fun _ _ => .single)
  obtain ⟨hfirst, hrest⟩ := List.pairwise_cons.mp hpairs
  have hlast := (List.pairwise_append.mp hrest).2.2
  simp only [List.cons_append, List.mem_cons, List.mem_append, List.not_mem_nil, or_false] at hi
  rcases hi with rfl | hi | rfl
  · exact hfirst i (by simp)
  · exact (hlast i hi c (by simp)).trans (hfirst i (by simp [hi]))
  · exact hfirst i (by simp)

/-- Where a walk stands: `path` leads to it, the nearest first, and `done` was finished before. -/
structure Walking (g : UnitGraph) (path done : List Nat) : Prop where
  present : ∀ k ∈ path, g.isPresent k
  chain : path.IsChain fun i k => g.Edge k i
  nodup : path.Nodup
  finished : Finished g done
  apart : ∀ k ∈ path, k ∉ done

theorem Walking.length_le (hg : g.Bounded) (h : g.Walking path done) :
    path.length ≤ g.present.length :=
  (List.subperm_of_subset h.nodup fun k hk => hg.mem_present.mpr (h.present k hk)).length_le

/-- A unit of the path that the nearest one uses closes a cycle. -/
theorem Walking.closes (h : g.Walking (i :: path) done) (huse : g.Edge i k) (hne : k ≠ i)
    (hmem : k ∈ i :: path) :
    g.IsCycle (k :: ((i :: path).takeWhile (· ≠ k)).reverse ++ [k]) := by
  obtain ⟨front, rest, hsplit, hfront⟩ := List.eq_append_cons_of_mem hmem
  have htake : (i :: path).takeWhile (· ≠ k) = front := by
    rw [hsplit, List.takeWhile_append_of_pos]
    · simp
    · intro j hj
      simp only [ne_eq, decide_not, Bool.not_eq_true', decide_eq_false_iff_not]
      rintro rfl
      exact hfront hj
  have hfirst : front.head? = some i := by
    cases front with
    | nil => exact absurd (List.cons.inj hsplit).1.symm hne
    | cons j front => exact congrArg some (List.cons.inj hsplit).1.symm
  have hchain := h.chain
  have hnodup := h.nodup
  rw [hsplit] at hchain hnodup
  rw [htake]
  refine ⟨?_, k, front.reverse, rfl, ?_, ?_⟩
  · have hback : (k :: (front ++ [k])).IsChain fun i k => g.Edge k i := by
      refine List.isChain_cons.mpr ⟨fun j hj => ?_, ?_⟩
      · rw [List.head?_append, hfirst] at hj
        cases hj
        exact huse
      · rw [← List.singleton_append, ← List.append_assoc] at hchain
        exact (List.isChain_append.mp hchain).1
    have hreverse := List.isChain_reverse.mpr hback
    simpa using hreverse
  · rintro heq
    rw [List.reverse_eq_nil_iff.mp heq] at hfirst
    cases hfirst
  · rw [List.nodup_cons, List.nodup_reverse, List.mem_reverse]
    exact ⟨hfront, (List.nodup_append.mp hnodup).1⟩

/-! ## Walks -/

/-- What a part of a walk ends with: more units that are finished, or a cycle. -/
def Ends (g : UnitGraph) (path done : List Nat) (reached : List Nat → Prop) :
    Except (List Nat) (List Nat) → Prop
  | .ok done' => g.Walking path done' ∧ done ⊆ done' ∧ reached done'
  | .error cycle => g.IsCycle cycle

/-- Taking units one after the other, each from where the one before has ended. -/
theorem ends_foldlM {f : List Nat → Nat → Except (List Nat) (List Nat)} {ks : List Nat}
    (h : g.Walking path done)
    (hf : ∀ k ∈ ks, ∀ done, g.Walking path done → g.Ends path done (k ∈ ·) (f done k)) :
    g.Ends path done (ks ⊆ ·) (ks.foldlM f done) := by
  induction ks generalizing done with
  | nil => exact ⟨h, List.Subset.refl _, List.nil_subset _⟩
  | cons k ks ih =>
    have hk := hf k List.mem_cons_self done h
    rw [List.foldlM_cons]
    cases hx : f done k with
    | error cycle =>
      rw [hx] at hk
      exact hk
    | ok done₁ =>
      rw [hx] at hk
      obtain ⟨h₁, hle, hmem⟩ := hk
      have hrest := ih h₁ fun k hk => hf k (List.mem_cons_of_mem _ hk)
      show g.Ends path done (k :: ks ⊆ ·) (ks.foldlM f done₁)
      cases hy : ks.foldlM f done₁ with
      | error cycle =>
        rw [hy] at hrest
        exact hrest
      | ok done' =>
        rw [hy] at hrest
        obtain ⟨h', hle', hsub⟩ := hrest
        exact ⟨h', List.Subset.trans hle hle', List.cons_subset.mpr ⟨hle' hmem, hsub⟩⟩

theorem Walking.enter (h : g.Walking path done) (hi : g.isPresent i) (hedge : ∀ j ∈ path.head?, g.Edge j i)
    (hpath : i ∉ path) (hdone : i ∉ done) : g.Walking (i :: path) done :=
  ⟨List.forall_mem_cons.mpr ⟨hi, h.present⟩, List.isChain_cons.mpr ⟨hedge, h.chain⟩,
    List.nodup_cons.mpr ⟨hpath, h.nodup⟩, h.finished, List.forall_mem_cons.mpr ⟨hdone, h.apart⟩⟩

theorem Walking.finish (h : g.Walking (i :: path) done) (huses : g.deps i ⊆ done) :
    g.Walking path (i :: done) := by
  obtain ⟨hnot, hnodup⟩ := List.nodup_cons.mp h.nodup
  refine ⟨fun k hk => h.present k (List.mem_cons_of_mem _ hk), h.chain.tail, hnodup,
    .cons (fun k hk => huses hk) h.finished, fun k hk hmem => ?_⟩
  rcases List.mem_cons.mp hmem with rfl | hmem
  · exact hnot hk
  · exact h.apart k (List.mem_cons_of_mem _ hk) hmem

theorem ends_walk (hg : g.Bounded) (hself : ∀ i, i ∉ g.deps i) (depth : Nat)
    (h : g.Walking (i :: path) done) (hdepth : g.present.length < depth + path.length) :
    g.Ends path done (i ∈ ·) (g.walk depth path done i) := by
  induction depth generalizing i path done with
  | zero =>
    have := h.length_le hg
    rw [List.length_cons] at this
    omega
  | succ depth ih =>
    have huses : g.Ends (i :: path) done (g.deps i ⊆ ·) ((g.deps i).foldlM (fun done k =>
        if (i :: path).contains k then
          .error (k :: ((i :: path).takeWhile (· ≠ k)).reverse ++ [k])
        else if done.contains k then .ok done else g.walk depth (i :: path) done k) done) := by
      refine ends_foldlM h fun k hk done h => ?_
      have hedge : g.Edge i k := ⟨h.present i List.mem_cons_self, hk⟩
      split
      case isTrue hmem =>
        exact h.closes hedge (fun heq => hself i (heq ▸ hk)) (List.contains_iff_mem.mp hmem)
      case isFalse hpath =>
        split
        case isTrue hmem =>
          exact ⟨h, List.Subset.refl _, List.contains_iff_mem.mp hmem⟩
        case isFalse hdone =>
          rw [List.contains_iff_mem] at hpath hdone
          refine ih (h.enter (isPresent_of_mem_deps hk) ?_ hpath hdone) ?_
          · rintro j ⟨⟩
            exact hedge
          · rw [List.length_cons]
            omega
    rw [walk]
    cases hx : (g.deps i).foldlM (fun done k =>
        if (i :: path).contains k then
          Except.error (k :: ((i :: path).takeWhile (· ≠ k)).reverse ++ [k])
        else if done.contains k then .ok done else g.walk depth (i :: path) done k) done with
    | error cycle =>
      rw [hx] at huses
      exact huses
    | ok done' =>
      rw [hx] at huses
      obtain ⟨h', hle, hsub⟩ := huses
      exact ⟨h'.finish hsub, fun k hk => List.mem_cons_of_mem _ (hle hk), List.mem_cons_self⟩

/-! ## The first cycle -/

theorem findCycle_spec (hg : g.Bounded) (hself : ∀ i, i ∉ g.deps i) :
    g.findCycle = [] ∧ (∀ c, ¬Relation.TransGen g.Edge c c) ∨ g.IsCycle g.findCycle := by
  have hstart : g.Walking [] [] := ⟨by simp, .nil, .nil, .nil, by simp⟩
  have hwalks : g.Ends [] [] (g.present ⊆ ·) (g.present.foldlM (fun done i =>
      if done.contains i then .ok done else g.walk (g.names.size + 1) [] done i) []) := by
    refine ends_foldlM hstart fun i hi done h => ?_
    split
    case isTrue hmem => exact ⟨h, List.Subset.refl _, List.contains_iff_mem.mp hmem⟩
    case isFalse hdone =>
      rw [List.contains_iff_mem] at hdone
      have hpresent : g.present.length ≤ g.indices.length := List.length_filter_le _ _
      simp only [indices, List.length_range] at hpresent
      refine ends_walk hg hself _ (h.enter (hg.mem_present.mp hi) (by simp) (by simp) hdone) ?_
      simp only [List.length_nil]
      omega
  have hfind : g.findCycle = match g.present.foldlM (fun done i =>
      if done.contains i then .ok done else g.walk (g.names.size + 1) [] done i) [] with
    | .ok _ => []
    | .error cycle => cycle := rfl
  rw [hfind]
  cases hx : g.present.foldlM (fun done i =>
      if done.contains i then Except.ok done else g.walk (g.names.size + 1) [] done i) [] with
  | error cycle =>
    rw [hx] at hwalks
    exact .inr hwalks
  | ok done =>
    rw [hx] at hwalks
    obtain ⟨h, -, hall⟩ := hwalks
    refine .inl ⟨rfl, fun c hc => ?_⟩
    obtain ⟨k, hck, -⟩ := Relation.TransGen.head'_iff.mp hc
    exact h.finished.acyclic (hall (hg.mem_present.mpr hck.1)) hc

/-! ## Agreement with the layers -/

theorem not_mem_deps_self (nodes : List GraphNode) (i : Nat) : i ∉ (ofNodes nodes).1.deps i :=
  fun h => (uses_of_mem_deps h).1 rfl

/-- The search for a cycle finds one exactly if the layers leave units over. What it finds leads from a
unit back to it by uses, over at least one other unit and over none twice, and none of them is in a
layer. -/
theorem findCycle_agrees (nodes : List GraphNode) :
    let g := (ofNodes nodes).1
    (g.findCycle ≠ [] ↔ g.layering.isCyclic = true) ∧
    (g.findCycle = [] ∨
      3 ≤ g.findCycle.length ∧
      (∃ c mid, g.findCycle = c :: mid ++ [c] ∧ (c :: mid).Nodup) ∧
      g.findCycle.IsChain (fun i k => Uses nodes (g.nameOf i) (g.nameOf k)) ∧
      ∀ i ∈ g.findCycle, (∃ a, (sourceOf? nodes a).isSome ∧ g.indexOf? a = some i) ∧
        i ∈ g.layering.stuck) := by
  intro g
  have hg : g.Bounded := bounded_ofNodes nodes
  have h : g.Layered g.layering := layered_layering hg
  rcases findCycle_spec hg (not_mem_deps_self nodes) with ⟨hnil, hacyclic⟩ | hcycle
  · refine ⟨?_, .inl hnil⟩
    rw [h.isCyclic_iff, hnil]
    exact iff_of_false (by simp) fun ⟨c, hc⟩ => hacyclic c hc
  · obtain ⟨c, mid, heq, hmid, hnodup⟩ := hcycle.ends
    have hlength : 3 ≤ g.findCycle.length := by
      have := List.length_pos_iff.mpr hmid
      rw [heq]
      simp only [List.length_append, List.length_cons, List.length_nil]
      omega
    refine ⟨?_, .inr ⟨hlength, ⟨c, mid, heq, hnodup⟩, hcycle.chain.imp fun _ _ => uses_of_edge, ?_⟩⟩
    · rw [h.isCyclic_iff]
      refine iff_of_true (by rw [heq]; simp) ⟨c, hcycle.transGen ?_⟩
      rw [heq]
      simp
    · intro i hi
      have hback := hcycle.transGen hi
      obtain ⟨k, hik, -⟩ := Relation.TransGen.head'_iff.mp hback
      exact ⟨isPresent_iff.mp hik.1, (h.mem_stuck_iff hik.1).mpr ⟨i, hback, .refl⟩⟩

end Pascaline.UnitGraph
