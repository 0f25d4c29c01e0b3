import Mathlib.Order.WellFoundedSet
import Pascaline.Proofs.Graph.Slots

/-!
# Layers of units

What is left of the counts is, after every round, the number of uses by units that were not taken
yet. So a unit is taken when all its users were, and only units on or behind a cycle are left over.
-/

namespace Pascaline.UnitGraph

variable {g : UnitGraph} {i k : Nat}

/-! ## Counting uses -/

/-- The units that have a source. -/
def present (g : UnitGraph) : List Nat := g.indices.filter g.isPresent

/-- The units still to be taken. -/
def rest (g : UnitGraph) (done : List Nat) : List Nat := g.present.filter (· ∉ done)

/-- How often the units still to be taken use a unit. -/
def demand (g : UnitGraph) (done : List Nat) (k : Nat) : Nat :=
  ((g.rest done).flatMap g.deps).count k

theorem mem_rest {done : List Nat} : k ∈ g.rest done ↔ k ∈ g.present ∧ k ∉ done := by
  simp [rest]

theorem present_nodup (g : UnitGraph) : g.present.Nodup := List.nodup_range.filter _

theorem demand_eq_zero {done : List Nat} : g.demand done k = 0 ↔ ∀ j ∈ g.rest done, k ∉ g.deps j := by
  simp [demand, List.count_eq_zero]

theorem getD_modify (counts : Array Nat) (j k : Nat) (hj : j < counts.size) :
    (counts.modify j (· + 1)).getD k 0 = counts.getD k 0 + if j = k then 1 else 0 := by
  simp only [Array.getD_eq_getD_getElem?, Array.getElem?_modify]
  split
  case isTrue h =>
    subst h
    simp [hj]
  case isFalse => rfl

theorem getD_foldl_modify (uses : List Nat) (counts : Array Nat)
    (h : ∀ j ∈ uses, j < counts.size) :
    let counts' := uses.foldl (fun counts k => counts.modify k (· + 1)) counts
    counts'.size = counts.size ∧ ∀ k, counts'.getD k 0 = counts.getD k 0 + uses.count k := by
  induction uses generalizing counts with
  | nil => exact ⟨rfl, fun k => rfl⟩
  | cons j uses ih =>
    rw [List.forall_mem_cons] at h
    obtain ⟨hsize, hcount⟩ := ih (counts.modify j (· + 1)) (by simpa using h.2)
    refine ⟨by simpa using hsize, fun k => ?_⟩
    rw [List.foldl_cons, hcount, getD_modify counts j k h.1, List.count_cons, beq_eq_decide]
    grind

/-- Every unit that has a source has a number. -/
def Bounded (g : UnitGraph) : Prop := ∀ i, g.isPresent i → i < g.names.size

theorem Bounded.mem_present (h : g.Bounded) : k ∈ g.present ↔ g.isPresent k := by
  simp only [present, indices, List.mem_filter, List.mem_range, and_iff_right_iff_imp]
  exact h k

theorem Bounded.mem_present_of_mem_deps (h : g.Bounded) (hk : k ∈ g.deps i) : k ∈ g.present :=
  h.mem_present.mpr (List.mem_filter.mp hk).2

theorem Bounded.indegrees_eq (h : g.Bounded) (k : Nat) :
    g.indegrees.getD k 0 = g.demand [] k := by
  have hrest : g.rest [] = g.present := by simp [rest]
  have hlt : ∀ j ∈ g.present.flatMap g.deps, j < (Array.replicate g.names.size 0).size := by
    intro j hj
    obtain ⟨i, -, hji⟩ := List.mem_flatMap.mp hj
    simpa using h j (List.mem_filter.mp hji).2
  have hfold := (getD_foldl_modify _ _ hlt).2 k
  rw [List.foldl_flatMap] at hfold
  rw [demand, hrest]
  refine hfold.trans ?_
  simp only [Array.getD_eq_getD_getElem?, Array.getElem?_replicate]
  split <;> simp

/-! ## One round -/

/-- What is left after some uses were taken away, and which units are released by that. -/
theorem foldl_release (uses : List Nat) (left : Array Nat) (released : List Nat)
    (hle : ∀ k, uses.count k ≤ left.getD k 0) :
    let s := uses.foldl release (left, released)
    (∀ k, s.1.getD k 0 = left.getD k 0 - uses.count k) ∧
    (∀ k, k ∈ s.2 ↔ k ∈ released ∨ k ∈ uses ∧ left.getD k 0 = uses.count k) ∧
    (released.Nodup → (∀ k ∈ released, k ∉ uses) → s.2.Nodup) := by
  induction uses generalizing left released with
  | nil => simp
  | cons j uses ih =>
    have hj : uses.count j + 1 ≤ left.getD j 0 := by simpa using hle j
    have hset : ∀ k, (left.set! j (left.getD j 0 - 1)).getD k 0 =
        if k = j then left.getD j 0 - 1 else left.getD k 0 := by
      intro k
      have hsize : j < left.size := by
        by_contra hsize
        simp [Array.getD_eq_getD_getElem?, Array.getElem?_eq_none (Nat.le_of_not_lt hsize)] at hj
      simp only [Array.getD_eq_getD_getElem?, Array.set!_eq_setIfInBounds,
        Array.getElem?_setIfInBounds, hsize]
      grind
    have hle' : ∀ k, uses.count k ≤ (left.set! j (left.getD j 0 - 1)).getD k 0 := by
      intro k
      have := hle k
      rw [hset k]
      grind
    obtain ⟨hleft, hmem, hnodup⟩ := ih (left.set! j (left.getD j 0 - 1))
      (if left.getD j 0 - 1 = 0 then released ++ [j] else released) hle'
    simp only [List.foldl_cons, release]
    refine ⟨fun k => ?_, fun k => ?_, fun hrel hdisj => hnodup ?_ fun k hk => ?_⟩
    · rw [hleft, hset, List.count_cons]
      split
      case isTrue hk =>
        subst hk
        simp only [beq_self_eq_true, if_true]
        omega
      case isFalse hk => simp [Ne.symm hk]
    · rw [hmem, hset, List.mem_cons, List.count_cons]
      by_cases hk : k = j
      · subst hk
        have hcount : 0 < uses.count k ↔ k ∈ uses := List.count_pos_iff
        simp only [if_true, beq_self_eq_true, true_or, true_and]
        split
        case isTrue hzero =>
          have hlast : left.getD k 0 = uses.count k + 1 := by omega
          simp [hlast]
        case isFalse hne =>
          refine or_congr_right ?_
          rw [← hcount]
          omega
      · simp only [hk, false_or, beq_iff_eq, Ne.symm hk, if_false, Nat.add_zero]
        split
        case isTrue => simp [hk]
        case isFalse => rfl
    · split
      case isTrue =>
        refine List.Nodup.append hrel (List.nodup_singleton j) fun k hk hkj => ?_
        exact hdisj k hk (List.mem_cons.mpr (.inl (List.mem_singleton.mp hkj)))
      case isFalse => exact hrel
    · intro huses
      split at hk
      case isTrue hzero =>
        rcases List.mem_append.mp hk with hk | hk
        · exact hdisj k hk (List.mem_cons_of_mem _ huses)
        · obtain rfl := List.mem_singleton.mp hk
          have hpos := List.count_pos_iff.mpr huses
          omega
      case isFalse => exact hdisj k hk (List.mem_cons_of_mem _ huses)

/-- Between two rounds: the counts are those of the units still to be taken, `ready` holds those of
them that none of them uses. -/
structure Round (g : UnitGraph) (done : List Nat) (left : Array Nat) (ready : List Nat) : Prop where
  left_eq : ∀ k, left.getD k 0 = g.demand done k
  mem_ready : ∀ k, k ∈ ready ↔ k ∈ g.rest done ∧ g.demand done k = 0
  nodup : ready.Nodup
  settled : ∀ k ∈ done, g.demand done k = 0

variable {done ready : List Nat} {left : Array Nat}

theorem mem_rest_append : k ∈ g.rest (done ++ ready) ↔ k ∈ g.rest done ∧ k ∉ ready := by
  simp only [mem_rest, List.mem_append, not_or, and_assoc]

theorem Round.rest_perm (h : g.Round done left ready) :
    (g.rest done).Perm (ready ++ g.rest (done ++ ready)) := by
  refine (List.perm_ext_iff_of_nodup ((present_nodup g).filter _) ?_).mpr fun k => ?_
  · refine h.nodup.append ((present_nodup g).filter _) fun k hk hk' => ?_
    exact (mem_rest.mp hk').2 (List.mem_append_right _ hk)
  · have := h.mem_ready k
    rw [List.mem_append, mem_rest_append]
    tauto

theorem Round.demand_eq (h : g.Round done left ready) (k : Nat) :
    g.demand done k = (ready.flatMap g.deps).count k + g.demand (done ++ ready) k := by
  rw [demand, (h.rest_perm.flatMap_right g.deps).count_eq, List.flatMap_append, List.count_append]
  rfl

theorem Round.next (hg : g.Bounded) (h : g.Round done left ready) :
    let s := (ready.flatMap g.deps).foldl release (left, [])
    g.Round (done ++ ready) s.1 (sorted s.2) := by
  have hle : ∀ k, (ready.flatMap g.deps).count k ≤ left.getD k 0 := by
    intro k
    rw [h.left_eq, h.demand_eq k]
    omega
  have hsettled : ∀ k ∈ done ++ ready, g.demand done k = 0 := by
    intro k hk
    obtain hk | hk := List.mem_append.mp hk
    · exact h.settled k hk
    · exact ((h.mem_ready k).mp hk).2
  obtain ⟨hleft, hmem, hnodup⟩ := foldl_release (ready.flatMap g.deps) left [] hle
  refine ⟨fun k => ?_, fun k => ?_, ?_, fun k hk => ?_⟩
  · rw [hleft, h.left_eq, h.demand_eq k]
    omega
  · have hdemand := h.demand_eq k
    rw [(sorted_perm _).mem_iff, hmem, h.left_eq]
    constructor
    · rintro (hk | ⟨hk, heq⟩)
      · cases hk
      · have hpos := List.count_pos_iff.mpr hk
        obtain ⟨i, -, hki⟩ := List.mem_flatMap.mp hk
        refine ⟨mem_rest.mpr ⟨hg.mem_present_of_mem_deps hki, fun hk => ?_⟩, by omega⟩
        have := hsettled k hk
        omega
    · rintro ⟨hrest, hzero⟩
      rw [mem_rest_append] at hrest
      have hnot : g.demand done k ≠ 0 := fun hz => hrest.2 ((h.mem_ready k).mpr ⟨hrest.1, hz⟩)
      exact .inr ⟨List.count_pos_iff.mp (by omega), by omega⟩
  · exact (sorted_perm _).nodup_iff.mpr (hnodup .nil (by simp))
  · have := h.demand_eq k
    have := hsettled k hk
    omega

/-! ## All rounds -/

/-- Units in an order in which none uses itself or one before it. -/
structure UsersFirst (g : UnitGraph) (order : List Nat) : Prop where
  nodup : order.Nodup
  behind : order.Pairwise fun i k => i ∉ g.deps k
  apart : ∀ i ∈ order, i ∉ g.deps i

/-- The rounds end when no unit is ready. They take units users first. -/
theorem layersFrom_spec (hg : g.Bounded) (rounds : Nat) (h : g.Round done left ready)
    (hrounds : (g.rest done).length < rounds) :
    let r := g.layersFrom rounds left ready
    (∀ k ∈ r.1.flatten, k ∈ g.rest done) ∧ g.UsersFirst r.1.flatten ∧
      g.Round (done ++ r.1.flatten) r.2 [] := by
  induction rounds generalizing done left ready with
  | zero => omega
  | succ rounds ih =>
    match ready with
    | [] => exact ⟨by simp [layersFrom], by constructor <;> simp [layersFrom],
        by simpa [layersFrom] using h⟩
    | i :: is =>
      have hlength := h.rest_perm.length_eq
      obtain ⟨hmem, horder, hround⟩ := ih (h.next hg) (by
        simp only [List.length_append, List.length_cons] at hlength
        omega)
      simp only [layersFrom, List.flatten_cons]
      generalize g.layersFrom rounds _ _ = r at hmem horder hround ⊢
      have hready : ∀ k ∈ i :: is, ∀ j ∈ g.rest done, k ∉ g.deps j :=
        fun k hk => demand_eq_zero.mp ((h.mem_ready k).mp hk).2
      have hlater : ∀ k ∈ r.1.flatten, k ∈ g.rest done ∧ k ∉ i :: is :=
        fun k hk => mem_rest_append.mp (hmem k hk)
      have hfirst : ∀ k ∈ i :: is, k ∈ g.rest done := fun k hk => ((h.mem_ready k).mp hk).1
      refine ⟨fun k hk => ?_, ⟨?_, ?_, fun k hk => ?_⟩, by simpa [List.append_assoc] using hround⟩
      · exact (List.mem_append.mp hk).elim (hfirst k) fun hk => (hlater k hk).1
      · exact h.nodup.append horder.nodup fun k hk hk' => (hlater k hk').2 hk
      · refine List.pairwise_append.mpr ⟨?_, horder.behind, fun k hk j hj => ?_⟩
        · exact List.pairwise_of_forall_mem_list fun k hk j hj => hready k hk j (hfirst j hj)
        · exact hready k hk j (hlater j hj).1
      · obtain hk | hk := List.mem_append.mp hk
        · exact hready k hk k (hfirst k hk)
        · exact horder.apart k hk

/-! ## The order of units -/

theorem Bounded.first_round (hg : g.Bounded) :
    g.Round [] g.indegrees (g.present.filter fun i => g.indegrees.getD i 0 = 0) where
  left_eq := hg.indegrees_eq
  mem_ready k := by simp [mem_rest, hg.indegrees_eq]
  nodup := (present_nodup g).filter _
  settled := by simp

/-- The layers hold units users first, and each unit left over is used by another one. -/
theorem layering_spec (hg : g.Bounded) :
    (∀ k ∈ g.layering.order, k ∈ g.present) ∧ g.UsersFirst g.layering.order ∧
    (∀ k ∈ g.rest g.layering.order, g.demand g.layering.order k ≠ 0) ∧
    g.layering.stuck = g.present.filter fun k => 0 < g.demand g.layering.order k := by
  have hrounds : (g.rest []).length < g.names.size + 1 := by
    have hrest : (g.rest []).length ≤ g.present.length := List.length_filter_le _ _
    have hpresent : g.present.length ≤ g.indices.length := List.length_filter_le _ _
    simp only [indices, List.length_range] at hpresent
    omega
  obtain ⟨hmem, horder, hround⟩ := layersFrom_spec hg (g.names.size + 1) hg.first_round hrounds
  rw [List.nil_append] at hround
  refine ⟨fun k hk => (mem_rest.mp (hmem k hk)).1, horder, fun k hk hzero => ?_, ?_⟩
  · cases (hround.mem_ready k).mpr ⟨hk, hzero⟩
  · refine List.filter_congr fun k _ => ?_
    rw [decide_eq_decide]
    exact iff_of_eq (congrArg (0 < ·) (hround.left_eq k))

theorem usersFirst_order (hg : g.Bounded) : g.UsersFirst g.layering.order := (layering_spec hg).2.1

theorem not_isCyclic_iff : g.layering.isCyclic = false ↔ g.layering.stuck = [] := by
  simp [Layering.isCyclic]

theorem mem_order (hg : g.Bounded) (h : g.layering.isCyclic = false) :
    k ∈ g.layering.order ↔ k ∈ g.present := by
  obtain ⟨hmem, -, hrest, hstuck⟩ := layering_spec hg
  refine ⟨hmem k, fun hk => ?_⟩
  by_contra hnot
  rw [not_isCyclic_iff.mp h] at hstuck
  have := List.filter_eq_nil_iff.mp hstuck.symm k hk
  have := hrest k (mem_rest.mpr ⟨hk, hnot⟩)
  simp only [decide_eq_true_eq] at *
  omega

theorem deps_before (hg : g.Bounded) (h : g.layering.isCyclic = false) {before after : List Nat}
    (horder : g.layering.initOrder = before ++ i :: after) : ∀ k ∈ g.deps i, k ∈ before := by
  intro k hk
  have hrev : g.layering.order = after.reverse ++ i :: before.reverse := by
    simpa [Layering.initOrder] using congrArg List.reverse horder
  have hspec := usersFirst_order hg
  have hmem := (mem_order hg h).mpr (hg.mem_present_of_mem_deps hk)
  rw [hrev] at hspec hmem
  rcases List.mem_append.mp hmem with hafter | hcons
  · have := (List.pairwise_append.mp hspec.behind).2.2 k hafter i List.mem_cons_self
    exact absurd hk this
  · rcases List.mem_cons.mp hcons with rfl | hbefore
    · exact absurd hk (hspec.apart k (by simp))
    · exact List.mem_reverse.mp hbefore

theorem not_isCyclic_of_acyclic (hg : g.Bounded)
    (hacyclic : ∀ k, ¬ Relation.TransGen (fun i k => k ∈ g.deps i) k k) :
    g.layering.isCyclic = false := by
  obtain ⟨-, -, hrest, hstuck⟩ := layering_spec hg
  have huser : ∀ k, g.demand g.layering.order k ≠ 0 →
      ∃ j ∈ g.rest g.layering.order, k ∈ g.deps j := by
    intro k hk
    simpa [demand_eq_zero] using hk
  have hempty : g.rest g.layering.order = [] := by
    by_contra hne
    obtain ⟨j, hj⟩ := List.exists_mem_of_ne_nil _ hne
    let users : Nat → Nat → Prop := Relation.TransGen fun i k => k ∈ g.deps i
    have : IsStrictOrder Nat users := { irrefl := hacyclic, trans := fun _ _ _ => .trans }
    -- a unit that is left over has a user that is left over: no such unit is the first
    have hwf := (List.finite_toSet (g.rest g.layering.order)).wellFoundedOn (r := users)
    refine hwf.induction (P := fun _ => False) hj fun k hk ih => ?_
    obtain ⟨i, hi, hik⟩ := huser k (hrest k hk)
    exact ih i hi (.single hik)
  rw [not_isCyclic_iff, hstuck, List.filter_eq_nil_iff]
  intro k _
  by_contra hk
  obtain ⟨j, hj, -⟩ := huser k (by simpa [Nat.pos_iff_ne_zero] using hk)
  rw [hempty] at hj
  cases hj

end Pascaline.UnitGraph
