import Pascaline.Proofs.Heap.Cells

/-!
# What a collection keeps

Marking ends with an empty list of work, so the cells marked are closed under references. A
collection therefore frees a cell only if no root and no cell that stays refers to it.
-/

namespace Pascaline.Heap

/-! ## Marking -/

def Marking.Has (s : Marking) (k : Handle) : Prop := s.marked.getD k false = true

/-- Rounds still needed: one for every cell on the list and one for every handle not yet marked. -/
def Marking.debt (s : Marking) : Nat := s.work.length + s.marked.count false

/-- `t` is `s` with more handles found. Those found since wait on the list. -/
structure Marking.Extends (s t : Marking) : Prop where
  has : ∀ k, s.Has k → t.Has k
  work : ∀ k ∈ s.work, k ∈ t.work
  fresh : ∀ k, t.Has k → s.Has k ∨ k ∈ t.work
  size : t.marked.size = s.marked.size
  debt : t.debt = s.debt

theorem Marking.Extends.refl (s : Marking) : s.Extends s :=
  ⟨fun _ h => h, fun _ h => h, fun _ h => Or.inl h, rfl, rfl⟩

theorem Marking.Extends.trans {s t u : Marking} (hst : s.Extends t) (htu : t.Extends u) :
    s.Extends u := by
  refine ⟨fun k h => htu.has k (hst.has k h), fun k h => htu.work k (hst.work k h), ?_,
    htu.size.trans hst.size, htu.debt.trans hst.debt⟩
  intro k hk
  rcases htu.fresh k hk with hk | hk
  · rcases hst.fresh k hk with hk | hk
    · exact Or.inl hk
    · exact Or.inr (htu.work k hk)
  · exact Or.inr hk

theorem count_false_set {marked : Array Bool} {k : Nat} (hk : k < marked.size)
    (hfalse : marked.getD k false = false) :
    (marked.set! k true).count false + 1 = marked.count false := by
  have hget : marked[k] = false := by simpa [Array.getD, hk] using hfalse
  have hpos : 0 < marked.count false := Array.count_pos_iff.mpr (hget ▸ Array.getElem_mem hk)
  rw [Array.set!_eq_setIfInBounds, Array.setIfInBounds_def, dif_pos hk, Array.count_set]
  simp [hget]
  omega

theorem has_set_iff {s : Marking} {k j : Handle} {work : List Handle} (hk : k < s.marked.size) :
    Marking.Has ⟨s.marked.set! k true, work⟩ j ↔ j = k ∨ s.Has j := by
  unfold Marking.Has
  rw [Array.set!_eq_setIfInBounds, Array.getD_eq_getD_getElem?, Array.getElem?_setIfInBounds,
    Array.getD_eq_getD_getElem?]
  by_cases hj : j = k
  · simp [hj, hk]
  · simp [hj, Ne.symm hj]

theorem mark_extends (h : Heap) {s : Marking} (hsize : s.marked.size = h.cells.size) (v : Value) :
    s.Extends (h.mark s v) := by
  unfold mark
  split
  case h_2 => exact .refl s
  case h_1 k =>
    split
    case isFalse => exact .refl s
    case isTrue hcond =>
      rw [Bool.and_eq_true, Bool.not_eq_true'] at hcond
      obtain ⟨c, hc⟩ := Option.isSome_iff_exists.mp hcond.1
      have hk : k < s.marked.size := hsize ▸ lt_of_get? hc
      refine ⟨fun j hj => (has_set_iff hk).mpr (Or.inr hj),
        fun j hj => List.mem_cons_of_mem k hj, ?_, by simp, ?_⟩
      · intro j hj
        rcases (has_set_iff hk).mp hj with rfl | hj
        · exact Or.inr List.mem_cons_self
        · exact Or.inl hj
      · have := count_false_set hk hcond.2
        simp only [Marking.debt, List.length_cons]
        omega

theorem mark_has {h : Heap} {s : Marking} (hsize : s.marked.size = h.cells.size) {k : Handle}
    (hk : (h.get? k).isSome) : (h.mark s (.ref k)).Has k := by
  obtain ⟨c, hc⟩ := Option.isSome_iff_exists.mp hk
  have hlt : k < s.marked.size := hsize ▸ lt_of_get? hc
  unfold mark
  by_cases hs : s.marked.getD k false = true
  · simp only [hs, Bool.not_true, Bool.and_false, Bool.false_eq_true, if_false]
    exact hs
  · simp only [hk, hs, Bool.not_false, Bool.and_true, if_true]
    exact (has_set_iff hlt).mpr (Or.inl rfl)

theorem markAll_extends (h : Heap) {s : Marking} (hsize : s.marked.size = h.cells.size)
    (vs : List Value) : s.Extends (h.markAll s vs) := by
  unfold markAll
  induction vs generalizing s with
  | nil => exact .refl s
  | cons v vs ih =>
    have hv := mark_extends h hsize v
    exact hv.trans (ih (hv.size.trans hsize))

theorem markAll_has {h : Heap} {s : Marking} (hsize : s.marked.size = h.cells.size)
    {vs : List Value} {k : Handle} (hmem : .ref k ∈ vs) (hk : (h.get? k).isSome) :
    (h.markAll s vs).Has k := by
  unfold markAll
  induction vs generalizing s with
  | nil => simp at hmem
  | cons v vs ih =>
    have hsize' := (mark_extends h hsize v).size.trans hsize
    rcases List.mem_cons.mp hmem with rfl | hmem
    · exact (markAll_extends h hsize' vs).has k (mark_has hsize hk)
    · exact ih hsize' hmem

/-! ## Spreading -/

/-- All that a marked cell refers to is marked, unless the cell waits on the list. -/
def Closed (h : Heap) (s : Marking) : Prop :=
  ∀ j c, s.Has j → j ∉ s.work → h.get? j = some c →
    ∀ k, .ref k ∈ c.elems → (h.get? k).isSome → s.Has k

theorem spread_has (h : Heap) (rounds : Nat) {s : Marking}
    (hsize : s.marked.size = h.cells.size) {k : Handle} (hk : s.Has k) :
    (h.spread rounds s).Has k := by
  induction rounds generalizing s with
  | zero => exact hk
  | succ rounds ih =>
    unfold spread
    split
    · exact hk
    · have hext := fun work => markAll_extends h (s := { s with work }) hsize
      exact ih ((hext _ _).size.trans hsize) ((hext _ _).has k hk)

/-- As many rounds as the debt says leave nothing on the list, and what is marked is closed. -/
theorem spread_closed (h : Heap) (rounds : Nat) {s : Marking}
    (hsize : s.marked.size = h.cells.size) (hdebt : s.debt ≤ rounds) (hclosed : h.Closed s) :
    (h.spread rounds s).work = [] ∧ h.Closed (h.spread rounds s) := by
  induction rounds generalizing s with
  | zero =>
    have hwork : s.work = [] := List.eq_nil_of_length_eq_zero (by unfold Marking.debt at hdebt; omega)
    exact ⟨hwork, hclosed⟩
  | succ rounds ih =>
    unfold spread
    split
    case h_1 hwork => exact ⟨hwork, hclosed⟩
    case h_2 j work hwork =>
      have hsize' : ({ s with work } : Marking).marked.size = h.cells.size := hsize
      have hext := markAll_extends h hsize' (((h.get? j).map (·.elems.toList)).getD [])
      refine ih (hext.size.trans hsize) ?_ ?_
      · rw [hext.debt]
        simp only [Marking.debt, hwork, List.length_cons] at hdebt ⊢
        omega
      · -- `j` has left the list, and its references were just marked.
        intro i c hi hiwork hc k hk hlive
        rcases hext.fresh i hi with hold | hnew
        · by_cases hij : i = j
          · subst hij
            exact markAll_has hsize' (by simpa [hc] using hk) hlive
          · apply hext.has
            refine hclosed i c hold ?_ hc k hk hlive
            rw [hwork, List.mem_cons, not_or]
            exact ⟨hij, fun hmem => hiwork (hext.work i hmem)⟩
        · exact absurd hnew hiwork

/-- Whether a collection from these roots keeps a handle. -/
def Reached (h : Heap) (roots : List Value) (k : Handle) : Prop :=
  (h.reached roots).getD k false = true

theorem reached_of_root {h : Heap} {roots : List Value} {k : Handle} (hmem : .ref k ∈ roots)
    (hk : (h.get? k).isSome) : h.Reached roots k := by
  have hsize : (⟨Array.replicate h.cells.size false, []⟩ : Marking).marked.size = h.cells.size := by
    simp
  apply spread_has h _ ((markAll_extends h hsize _).size.trans hsize)
  exact markAll_has hsize (List.mem_append_left _ hmem) hk

theorem reached_of_elem {h : Heap} {roots : List Value} {j k : Handle} {c : Cell}
    (hj : h.Reached roots j) (hc : h.get? j = some c) (hmem : .ref k ∈ c.elems)
    (hk : (h.get? k).isSome) : h.Reached roots k := by
  have hsize : (⟨Array.replicate h.cells.size false, []⟩ : Marking).marked.size = h.cells.size := by
    simp
  have hext := markAll_extends h hsize (roots ++ h.pinned)
  have hdebt : (h.markAll ⟨Array.replicate h.cells.size false, []⟩ (roots ++ h.pinned)).debt ≤
      h.cells.size := by
    rw [hext.debt]
    simp [Marking.debt]
  have hclosed : h.Closed (h.markAll ⟨Array.replicate h.cells.size false, []⟩
      (roots ++ h.pinned)) := by
    intro i d hi hiwork
    rcases hext.fresh i hi with hold | hnew
    · simp [Marking.Has, Array.getD_eq_getD_getElem?, Array.getElem?_replicate] at hold
      split at hold <;> simp at hold
    · exact absurd hnew hiwork
  obtain ⟨hwork, hfinal⟩ := spread_closed h _ (hext.size.trans hsize) hdebt hclosed
  exact hfinal j c hj (by rw [hwork]; simp) hc k hmem hk

/-! ## Sweeping -/

theorem mem_garbage {h : Heap} {roots : List Value} {k : Handle} :
    k ∈ h.garbage (h.reached roots) ↔ (h.get? k).isSome ∧ ¬ h.Reached roots k := by
  simp only [garbage, List.mem_filter, List.mem_range, Bool.and_eq_true, Bool.not_eq_true', Reached,
    Bool.not_eq_true]
  constructor
  · exact fun hk => hk.2
  · rintro ⟨hlive, hk⟩
    obtain ⟨c, hc⟩ := Option.isSome_iff_exists.mp hlive
    exact ⟨lt_of_get? hc, hlive, hk⟩

theorem get?_release (h : Heap) (k j : Handle) :
    (h.release k).get? j = if j = k then none else h.get? j := by
  unfold release
  split
  case h_1 hnone =>
    split
    case isTrue hj => rw [hj, hnone]
    case isFalse => rfl
  case h_2 c hc =>
    have hk := lt_of_get? hc
    simp only [get?]
    by_cases hj : j = k
    · simp [hj, hk]
    · simp [hj, Ne.symm hj]

theorem get?_foldl_release (ks : List Handle) (h : Heap) (j : Handle) :
    (ks.foldl release h).get? j = if j ∈ ks then none else h.get? j := by
  induction ks generalizing h with
  | nil => simp
  | cons k ks ih =>
    rw [List.foldl_cons, ih, get?_release]
    by_cases hks : j ∈ ks <;> by_cases hk : j = k <;> simp [hks, hk]

theorem get?_collect (h : Heap) (roots : List Value) (k : Handle) (c : Cell) :
    (h.collect roots).get? k = some c ↔ h.get? k = some c ∧ h.Reached roots k := by
  unfold collect
  rw [get?_foldl_release]
  have hcount : ({ h with collections := h.collections + 1 } : Heap).get? k = h.get? k := rfl
  rw [hcount]
  split
  case isTrue hmem =>
    have := (mem_garbage.mp hmem).2
    simp [this]
  case isFalse hmem =>
    constructor
    · intro hc
      refine ⟨hc, ?_⟩
      by_contra hreach
      exact hmem (mem_garbage.mpr ⟨by simp [hc], hreach⟩)
    · exact fun hc => hc.1

theorem isSome_get?_collect {h : Heap} {roots : List Value} {k : Handle}
    (hk : (h.get? k).isSome) (hreach : h.Reached roots k) : ((h.collect roots).get? k).isSome := by
  obtain ⟨c, hc⟩ := Option.isSome_iff_exists.mp hk
  rw [(get?_collect h roots k c).mpr ⟨hc, hreach⟩]
  rfl

/-! ## The invariant -/

/-- Freeing changes the list of free handles only by the handle freed. -/
structure FreeOk (h : Heap) : Prop where
  lt : ∀ k ∈ h.free, k < h.cells.size
  pos : ∀ k ∈ h.free, k ≠ 0
  dead : ∀ k ∈ h.free, h.get? k = none
  nodup : h.free.Nodup
  nil_dead : h.get? 0 = none

theorem FreeOk.release {h : Heap} (hf : h.FreeOk) (k : Handle) : (h.release k).FreeOk := by
  have hget := get?_release h k
  unfold Heap.release at hget ⊢
  split
  case h_1 => exact hf
  case h_2 c hc =>
    simp only [hc] at hget
    refine ⟨?_, ?_, ?_, ?_, ?_⟩
    · intro j hj
      rw [Array.set!_eq_setIfInBounds, Array.size_setIfInBounds]
      rcases List.mem_cons.mp hj with rfl | hj
      · exact lt_of_get? hc
      · exact hf.lt j hj
    · intro j hj
      rcases List.mem_cons.mp hj with rfl | hj
      · rintro rfl
        simp [hf.nil_dead] at hc
      · exact hf.pos j hj
    · intro j hj
      rw [hget]
      rcases List.mem_cons.mp hj with rfl | hj
      · simp
      · simp [hf.dead j hj]
    · refine List.nodup_cons.mpr ⟨?_, hf.nodup⟩
      intro hk
      simp [hf.dead k hk] at hc
    · rw [hget]
      simp [hf.nil_dead]

theorem FreeOk.foldl_release (ks : List Handle) {h : Heap} (hf : h.FreeOk) :
    (ks.foldl Heap.release h).FreeOk := by
  induction ks generalizing h with
  | nil => exact hf
  | cons k ks ih => exact ih (hf.release k)

theorem cells_size_foldl_release (ks : List Handle) (h : Heap) :
    (ks.foldl release h).cells.size = h.cells.size ∧ (ks.foldl release h).allocs = h.allocs := by
  induction ks generalizing h with
  | nil => exact ⟨rfl, rfl⟩
  | cons k ks ih =>
    rw [List.foldl_cons, (ih _).1, (ih _).2]
    unfold release
    split <;> simp

theorem allocs_collect (h : Heap) (roots : List Value) : (h.collect roots).allocs = h.allocs :=
  (cells_size_foldl_release _ _).2

theorem Sound.collect {h : Heap} (hs : h.Sound) (roots : List Value) : (h.collect roots).Sound := by
  have hfree : (h.collect roots).FreeOk := by
    apply FreeOk.foldl_release
    exact ⟨hs.free_lt, hs.free_pos, hs.free_dead, hs.free_nodup, hs.nil_dead⟩
  obtain ⟨hsize, -⟩ := cells_size_foldl_release (h.garbage (h.reached roots))
    { h with collections := h.collections + 1 }
  refine ⟨hfree.nil_dead, ?_, hfree.lt, hfree.pos, hfree.dead, hfree.nodup, ?_, ?_⟩
  · unfold Heap.collect
    rw [hsize]
    exact hs.cells_pos
  · rintro k c hc v hv j rfl
    obtain ⟨hc, hreach⟩ := (get?_collect h roots k c).mp hc
    rcases hs.elems_live k c hc _ hv j rfl with hj | hj
    · exact Or.inl hj
    · exact Or.inr (isSome_get?_collect hj (reached_of_elem hreach hc hv hj))
  · intro k c hc
    rw [allocs_collect]
    exact hs.serial_lt k c ((get?_collect h roots k c).mp hc).1

theorem liveIn_collect {h : Heap} {roots : List Value} {v : Value} (hv : v.LiveIn h)
    (hmem : v ∈ roots) : v.LiveIn (h.collect roots) := by
  rintro k rfl
  rcases hv k rfl with hk | hk
  · exact Or.inl hk
  · exact Or.inr (isSome_get?_collect hk (reached_of_root hmem hk))

end Pascaline.Heap
