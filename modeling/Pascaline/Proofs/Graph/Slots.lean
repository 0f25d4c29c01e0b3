import Mathlib.Data.List.Sort
import Mathlib.Data.String.Basic
import Pascaline.UnitGraph

/-!
# What a graph of units holds

Names are numbered in their order. The slot of a name holds the first source of that name, and its
edges lead to the numbers of the names that the source uses.
-/

namespace Pascaline

/-! ## Sorted lists and lists without repetition -/

theorem sorted_eq {α : Type} [LE α] [DecidableLE α] (xs : List α) :
    sorted xs = xs.insertionSort (· ≤ ·) := by
  have hinsert : ∀ (x : α) (ys : List α), insertSorted x ys = ys.orderedInsert (· ≤ ·) x := by
    intro x ys
    induction ys with
    | nil => rfl
    | cons y ys ih => rw [insertSorted, List.orderedInsert, ih]
  induction xs with
  | nil => rfl
  | cons x xs ih => rw [List.insertionSort_cons, ← ih, ← hinsert, sorted, List.foldr_cons, sorted]

theorem sorted_perm {α : Type} [LE α] [DecidableLE α] (xs : List α) : (sorted xs).Perm xs :=
  sorted_eq xs ▸ List.perm_insertionSort (· ≤ ·) xs

theorem sorted_pairwise {α : Type} [LinearOrder α] (xs : List α) :
    (sorted xs).Pairwise (· ≤ ·) :=
  sorted_eq xs ▸ List.pairwise_insertionSort (· ≤ ·) xs

theorem eraseDups_sublist {α : Type} [BEq α] (xs : List α) : xs.eraseDups.Sublist xs := by
  match xs with
  | [] => exact .slnil
  | x :: xs =>
    rw [List.eraseDups_cons]
    exact ((eraseDups_sublist _).trans List.filter_sublist).cons_cons x
termination_by xs.length
decreasing_by exact Nat.lt_succ_of_le (List.length_filter_le _ _)

theorem nodup_eraseDups {α : Type} [BEq α] [LawfulBEq α] (xs : List α) : xs.eraseDups.Nodup := by
  match xs with
  | [] => exact .nil
  | x :: xs =>
    rw [List.eraseDups_cons, List.nodup_cons]
    refine ⟨fun hx => ?_, nodup_eraseDups _⟩
    rw [List.mem_eraseDups, List.mem_filter] at hx
    simp at hx
termination_by xs.length
decreasing_by exact Nat.lt_succ_of_le (List.length_filter_le _ _)

theorem sortedNames_sorted (names : List String) : (sortedNames names).Pairwise (· < ·) := by
  have hle : (sortedNames names).Pairwise (· ≤ ·) :=
    (sorted_pairwise names).sublist (eraseDups_sublist _)
  exact (hle.and (nodup_eraseDups _)).imp fun h => lt_of_le_of_ne h.1 h.2

theorem mem_sortedNames {names : List String} {name : String} :
    name ∈ sortedNames names ↔ name ∈ names := by
  rw [sortedNames, List.mem_eraseDups, (sorted_perm names).mem_iff]

namespace UnitGraph

variable {g : UnitGraph} {nodes : List GraphNode} {i k : Nat} {name : String}

/-! ## Numbers of names -/

/-- The names of a graph are in order, and each has a slot. -/
structure Numbered (g : UnitGraph) : Prop where
  sorted : g.names.toList.Pairwise (· < ·)
  slots : g.slots.size = g.names.size

theorem Numbered.indexOf?_iff (h : g.Numbered) : g.indexOf? name = some i ↔ g.names[i]? = some name := by
  have hnodup : g.names.toList.Nodup := h.sorted.imp fun h => ne_of_lt h
  rw [indexOf?, Array.findIdx?_eq_some_iff_getElem, Array.getElem?_eq_some_iff]
  constructor
  · rintro ⟨hi, hname, -⟩
    exact ⟨hi, beq_iff_eq.mp hname⟩
  · rintro ⟨hi, rfl⟩
    refine ⟨hi, beq_iff_eq.mpr rfl, fun j hj => ?_⟩
    simp only [beq_iff_eq]
    intro heq
    have hji : j = i := by
      rw [← Array.getElem_toList, ← Array.getElem_toList] at heq
      exact hnodup.getElem_inj_iff.mp heq
    omega

/-- The name of a number. -/
def nameOf (g : UnitGraph) (i : Nat) : String := g.names.getD i ""

theorem Numbered.nameOf_lt (h : g.Numbered) (hik : i < k) (hk : k < g.names.size) :
    g.nameOf i < g.nameOf k := by
  have hi : i < g.names.size := Nat.lt_trans hik hk
  have hlt := List.pairwise_iff_getElem.mp h.sorted i k (by simpa using hi) (by simpa using hk) hik
  simpa [nameOf, hi, hk] using hlt

theorem Numbered.indexOf?_nameOf (h : g.Numbered) (hi : i < g.names.size) :
    g.indexOf? (g.nameOf i) = some i := by
  rw [h.indexOf?_iff, nameOf]
  simp [hi]

theorem Numbered.eq_nameOf (h : g.Numbered) (hi : g.indexOf? name = some i) :
    i < g.names.size ∧ g.nameOf i = name := by
  obtain ⟨hlt, rfl⟩ := Array.getElem?_eq_some_iff.mp (h.indexOf?_iff.mp hi)
  exact ⟨hlt, by simp [nameOf, hlt]⟩

/-! ## Placing sources -/

/-- The slot that a source takes. -/
def slotFor (n : GraphNode) (k : Nat) : GraphSlot := ⟨n.summary, some k, n.broken, n.firstError⟩

/-- A source that belongs to a slot. -/
def belongs (g : UnitGraph) (i : Nat) (n : GraphNode) : Bool :=
  n.summary.name ≠ "" && g.indexOf? n.summary.name == some i

theorem names_place (l : List (GraphNode × Nat)) : (g.place l).1.names = g.names := by
  induction l generalizing g with
  | nil => rfl
  | cons x l ih =>
    obtain ⟨n, k⟩ := x
    rw [place]
    split
    · exact ih
    · split
      · exact ih
      · exact ih

/-- Puts a source into a slot. -/
def fill (g : UnitGraph) (j : Nat) (n : GraphNode) (k : Nat) : UnitGraph :=
  { g with slots := g.slots.set! j (slotFor n k) }

theorem slot_fill (hi : i < g.slots.size) (j : Nat) (n : GraphNode) (k : Nat) :
    (g.fill j n k).slot i = if j = i then slotFor n k else g.slot i := by
  simp only [slot, fill, Array.getD_eq_getD_getElem?, Array.set!_eq_setIfInBounds,
    Array.getElem?_setIfInBounds]
  split
  · simp [*]
  · rfl

theorem belongs_eq_false {n : GraphNode}
    (h : (if n.summary.name = "" then none else g.indexOf? n.summary.name) ≠ some i) :
    g.belongs i n = false := by
  unfold belongs
  split at h
  case isTrue hname => simp [hname]
  case isFalse => simp [h]

theorem slot_place (l : List (GraphNode × Nat)) (hi : i < g.slots.size) :
    (g.place l).1.slot i =
      if g.isPresent i then g.slot i
      else ((l.find? fun x => g.belongs i x.1).map fun x => slotFor x.1 x.2).getD (g.slot i) := by
  induction l generalizing g with
  | nil => simp [place]
  | cons x l ih =>
    obtain ⟨n, k⟩ := x
    rw [place]
    split
    case h_1 hnone =>
      have hbelongs : g.belongs i n = false := belongs_eq_false (by rw [hnone]; simp)
      rw [ih hi, List.find?_cons_of_neg]
      simp [hbelongs]
    case h_2 j hj =>
      have hbelongs : j ≠ i → g.belongs i n = false :=
        fun hne => belongs_eq_false (hj ▸ fun h => hne (Option.some.inj h))
      split
      case isTrue hpresent =>
        by_cases hji : j = i
        · subst hji
          rw [ih hi, if_pos hpresent, if_pos hpresent]
        · rw [ih hi, List.find?_cons_of_neg]
          simp [hbelongs hji]
      case isFalse hpresent =>
        have hfill : (g.fill j n k).slots.size = g.slots.size := by simp [fill]
        refine (ih (g := g.fill j n k) (hfill ▸ hi)).trans ?_
        rw [isPresent, isPresent, slot_fill hi]
        by_cases hji : j = i
        · subst hji
          have hname : g.belongs j n = true := by
            split at hj
            · cases hj
            case isFalse hname => simp [belongs, hname, hj]
          rw [isPresent] at hpresent
          rw [if_pos rfl, if_neg hpresent, List.find?_cons_of_pos (a := (n, k)) hname]
          rfl
        · rw [if_neg hji, List.find?_cons_of_neg (by simp [hbelongs hji])]
          rfl

/-! ## The graph of sources -/

/-- The source that counts under a name. -/
def sourceOf? (nodes : List GraphNode) (name : String) : Option GraphNode :=
  if name = "" then none else nodes.find? (·.summary.name == name)

/-- The slots before any source is placed. -/
def unplaced (nodes : List GraphNode) : UnitGraph :=
  { names := (allNames (nodes.map (·.summary))).toArray
    slots := (allNames (nodes.map (·.summary))).toArray.map fun name => { summary := { name } } }

theorem unplaced_numbered (nodes : List GraphNode) : (unplaced nodes).Numbered :=
  ⟨sortedNames_sorted _, Array.size_map⟩

/-- The graph of sources, as far as names and slots go. -/
theorem ofNodes_eq (nodes : List GraphNode) : ∃ edges,
    (ofNodes nodes).1 = { ((unplaced nodes).place nodes.zipIdx).1 with edges } := ⟨_, rfl⟩

theorem names_ofNodes (nodes : List GraphNode) : (ofNodes nodes).1.names = (unplaced nodes).names := by
  obtain ⟨edges, h⟩ := ofNodes_eq nodes
  rw [h]
  exact names_place _

theorem size_slots_place (l : List (GraphNode × Nat)) :
    (g.place l).1.slots.size = g.slots.size := by
  induction l generalizing g with
  | nil => rfl
  | cons x l ih =>
    rw [place]
    split
    · exact ih
    · split
      · exact ih
      · rw [ih]
        simp

theorem numbered_ofNodes (nodes : List GraphNode) : (ofNodes nodes).1.Numbered := by
  obtain ⟨edges, h⟩ := ofNodes_eq nodes
  refine ⟨names_ofNodes nodes ▸ (unplaced_numbered nodes).sorted, ?_⟩
  rw [names_ofNodes, h]
  exact (size_slots_place _).trans (unplaced_numbered nodes).slots

theorem mem_names_ofNodes : (∃ i, (ofNodes nodes).1.indexOf? name = some i) ↔
    name ≠ "" ∧ ∃ n ∈ nodes, n.summary.name = name ∨ ∃ u ∈ n.summary.uses, u.name = name := by
  simp only [(numbered_ofNodes nodes).indexOf?_iff, names_ofNodes, ← Array.mem_iff_getElem?]
  simp only [unplaced, allNames, List.mem_toArray, mem_sortedNames, List.mem_filter,
    List.mem_flatMap, List.mem_map, List.mem_cons, decide_eq_true_eq, exists_exists_and_eq_and]
  rw [and_comm]
  simp only [eq_comm (a := name)]

theorem ne_empty_of_indexOf? (h : (ofNodes nodes).1.indexOf? name = some i) : name ≠ "" :=
  (mem_names_ofNodes.mp ⟨i, h⟩).1

theorem find?_zipIdx {α : Type} (xs : List α) (p : α → Bool) :
    xs.find? p = (xs.zipIdx.find? fun x => p x.1).map (·.1) := by
  conv_lhs => rw [← List.zipIdx_map_fst 0 xs, List.find?_map]
  rfl

theorem slot_unplaced (h : (unplaced nodes).names[i]? = some name) :
    (unplaced nodes).slot i = { summary := { name } } := by
  have hslot : (unplaced nodes).slots[i]? = some { summary := { name } } := by
    simp only [unplaced] at h ⊢
    rw [Array.getElem?_map, h]
    rfl
  rw [slot, Array.getD_eq_getD_getElem?, hslot]
  rfl

theorem belongs_unplaced (h : (unplaced nodes).names[i]? = some name) (hname : name ≠ "")
    (n : GraphNode) : (unplaced nodes).belongs i n = (n.summary.name == name) := by
  rw [Bool.eq_iff_iff]
  simp only [belongs, Bool.and_eq_true, decide_eq_true_eq, beq_iff_eq,
    (unplaced_numbered nodes).indexOf?_iff]
  constructor
  · rintro ⟨-, hn⟩
    exact Option.some.inj (hn.symm.trans h)
  · rintro rfl
    exact ⟨hname, h⟩

theorem slot_ofNodes_eq (h : (ofNodes nodes).1.indexOf? name = some i) :
    (ofNodes nodes).1.slot i =
      ((nodes.zipIdx.find? fun x => x.1.summary.name == name).map
        fun x => slotFor x.1 x.2).getD { summary := { name } } := by
  have hne := ne_empty_of_indexOf? h
  have hname : (unplaced nodes).names[i]? = some name :=
    names_ofNodes nodes ▸ (numbered_ofNodes nodes).indexOf?_iff.mp h
  have hi : i < (unplaced nodes).slots.size := by
    rw [(unplaced_numbered nodes).slots]
    exact (Array.getElem?_eq_some_iff.mp hname).1
  obtain ⟨edges, hg⟩ := ofNodes_eq nodes
  rw [hg]
  refine (slot_place nodes.zipIdx hi).trans ?_
  simp only [isPresent, slot_unplaced hname, belongs_unplaced hname hne]
  rfl

theorem slot_ofNodes (h : (ofNodes nodes).1.indexOf? name = some i) :
    (∃ n k, sourceOf? nodes name = some n ∧ (ofNodes nodes).1.slot i = slotFor n k) ∨
      sourceOf? nodes name = none ∧ (ofNodes nodes).1.slot i = { summary := { name } } := by
  rw [slot_ofNodes_eq h, sourceOf?, if_neg (ne_empty_of_indexOf? h), find?_zipIdx]
  cases nodes.zipIdx.find? fun x => x.1.summary.name == name with
  | none => exact .inr ⟨rfl, rfl⟩
  | some x => exact .inl ⟨x.1, x.2, rfl, rfl⟩

theorem node_lt (h : (ofNodes nodes).1.indexOf? name = some i)
    (hk : ((ofNodes nodes).1.slot i).node = some k) : k < nodes.length := by
  rw [slot_ofNodes_eq h] at hk
  cases hfind : nodes.zipIdx.find? fun x => x.1.summary.name == name with
  | none =>
    rw [hfind] at hk
    cases hk
  | some x =>
    rw [hfind] at hk
    cases hk
    have hx := List.snd_lt_of_mem_zipIdx (List.mem_of_find?_eq_some hfind)
    simpa using hx

/-! ## Edges -/

theorem mem_usesOf {self : Nat} {uses : List UseRef} :
    k ∈ g.usesOf self uses ↔ k ≠ self ∧ ∃ u ∈ uses, g.indexOf? u.name = some k := by
  rw [usesOf, (sorted_perm _).mem_iff, List.mem_eraseDups, List.mem_filterMap]
  simp only [Option.filter_eq_some_iff, decide_eq_true_eq]
  grind

theorem usesOf_sorted (g : UnitGraph) (self : Nat) (uses : List UseRef) :
    (g.usesOf self uses).Pairwise (· < ·) := by
  have hle : (g.usesOf self uses).Pairwise (· ≤ ·) := sorted_pairwise _
  have hnodup : (g.usesOf self uses).Nodup :=
    (sorted_perm _).nodup_iff.mpr (nodup_eraseDups _)
  exact (hle.and hnodup).imp fun h => lt_of_le_of_ne h.1 h.2

theorem out_ofNodes (nodes : List GraphNode) (i : Nat) :
    (ofNodes nodes).1.out i =
      if i < (ofNodes nodes).1.names.size then
        (ofNodes nodes).1.usesOf i ((ofNodes nodes).1.slot i).summary.uses
      else [] := by
  let g := ((unplaced nodes).place nodes.zipIdx).1
  have hg : (ofNodes nodes).1 =
      { g with edges := (g.indices.map fun i => g.usesOf i (g.slot i).summary.uses).toArray } := rfl
  rw [hg, out, Array.getD_eq_getD_getElem?, List.getElem?_toArray, List.getElem?_map, indices]
  split
  case isTrue hi =>
    rw [List.getElem?_range hi]
    rfl
  case isFalse hi =>
    rw [List.getElem?_eq_none (by simpa using hi)]
    rfl

/-- One source uses another, and that is there. -/
def Uses (nodes : List GraphNode) (a b : String) : Prop :=
  b ≠ a ∧ (∃ n, sourceOf? nodes a = some n ∧ ∃ u ∈ n.summary.uses, u.name = b) ∧
    (sourceOf? nodes b).isSome

theorem isPresent_ofNodes (h : (ofNodes nodes).1.indexOf? name = some i) :
    (ofNodes nodes).1.isPresent i = (sourceOf? nodes name).isSome := by
  rw [isPresent]
  obtain ⟨n, k, hsource, hslot⟩ | ⟨hsource, hslot⟩ := slot_ofNodes h
  · rw [hsource, hslot]
    rfl
  · rw [hsource, hslot]
    rfl

theorem lt_of_isPresent (h : (ofNodes nodes).1.isPresent i) : i < (ofNodes nodes).1.names.size := by
  rw [← (numbered_ofNodes nodes).slots]
  by_contra hi
  rw [isPresent, slot, Array.getD_eq_getD_getElem?, Array.getElem?_eq_none (by omega)] at h
  cases h

theorem mem_out_iff {a b : String} (ha : (ofNodes nodes).1.indexOf? a = some i)
    (hb : (ofNodes nodes).1.indexOf? b = some k) :
    k ∈ (ofNodes nodes).1.out i ↔
      b ≠ a ∧ ∃ n, sourceOf? nodes a = some n ∧ ∃ u ∈ n.summary.uses, u.name = b := by
  have hn := numbered_ofNodes nodes
  have hki : k ≠ i ↔ b ≠ a := by
    refine not_congr ⟨?_, ?_⟩
    · rintro rfl
      exact (hn.eq_nameOf hb).2.symm.trans (hn.eq_nameOf ha).2
    · rintro rfl
      exact Option.some.inj (hb.symm.trans ha)
  have huse (u : UseRef) : (ofNodes nodes).1.indexOf? u.name = some k ↔ u.name = b := by
    constructor
    · intro hu
      exact (hn.eq_nameOf hu).2.symm.trans (hn.eq_nameOf hb).2
    · rintro rfl
      exact hb
  rw [out_ofNodes, if_pos (hn.eq_nameOf ha).1, mem_usesOf, hki]
  obtain ⟨n, l, hsource, hslot⟩ | ⟨hsource, hslot⟩ := slot_ofNodes ha
  · simp [hsource, hslot, slotFor, huse]
  · simp [hsource, hslot]

theorem mem_deps_iff {a b : String} (ha : (ofNodes nodes).1.indexOf? a = some i)
    (hb : (ofNodes nodes).1.indexOf? b = some k) :
    k ∈ (ofNodes nodes).1.deps i ↔ Uses nodes a b := by
  rw [deps, List.mem_filter, mem_out_iff ha hb, isPresent_ofNodes hb, and_assoc]
  rfl

theorem deps_sorted (nodes : List GraphNode) (i : Nat) :
    ((ofNodes nodes).1.deps i).Pairwise (· < ·) := by
  refine List.Pairwise.filter _ ?_
  rw [out_ofNodes]
  split
  · exact usesOf_sorted ..
  · exact .nil

theorem isPresent_of_mem_deps (h : k ∈ g.deps i) : g.isPresent k := (List.mem_filter.mp h).2

end UnitGraph

end Pascaline
