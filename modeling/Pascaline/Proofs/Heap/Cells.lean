import Mathlib.Data.List.Basic
import Pascaline.Heap

/-!
# Cells by handle

What each operation of the heap does to the cells that handles denote, and the invariant of the
heap: handles to be used again denote nothing, and no live cell holds a dangling reference.
-/

namespace Pascaline

/-- Nil, or the handle of a live cell. -/
def Heap.Denotes (h : Heap) (k : Handle) : Prop := k = 0 ∨ (h.get? k).isSome

/-- If the value is a reference, it is nil or denotes a live cell. -/
def Value.LiveIn (h : Heap) (v : Value) : Prop := ∀ k, v = .ref k → h.Denotes k

/-- No handle waits to be used again while it is in use, and live cells hold no dangling
reference. -/
structure Heap.Sound (h : Heap) : Prop where
  nil_dead : h.get? 0 = none
  cells_pos : 0 < h.cells.size
  free_lt : ∀ k ∈ h.free, k < h.cells.size
  free_pos : ∀ k ∈ h.free, k ≠ 0
  free_dead : ∀ k ∈ h.free, h.get? k = none
  free_nodup : h.free.Nodup
  elems_live : ∀ k c, h.get? k = some c → ∀ v ∈ c.elems, v.LiveIn h
  serial_lt : ∀ k c, h.get? k = some c → c.serial < h.allocs

namespace Heap

/-! ## Single operations -/

theorem get?_eq_some_iff {h : Heap} {k : Handle} {c : Cell} :
    h.get? k = some c ↔ h.cells[k]? = some (some c) := by
  simp [get?, Option.join_eq_some_iff]

theorem lt_of_get? {h : Heap} {k : Handle} {c : Cell} (hc : h.get? k = some c) :
    k < h.cells.size := by
  rw [get?_eq_some_iff] at hc
  exact (Array.getElem?_eq_some_iff.mp hc).1

theorem get?_of_le {h : Heap} {k : Handle} (hk : h.cells.size ≤ k) : h.get? k = none := by
  simp [get?, Array.getElem?_eq_none hk]

theorem get?_ofBudget (b : Int) (k : Handle) : (ofBudget b).get? k = none := by
  match k with
  | 0 => rfl
  | k + 1 => exact get?_of_le (by simp [ofBudget])

@[simp]
theorem get?_update (h : Heap) (k j : Handle) (f : Cell → Cell) :
    (h.update k f).get? j = if j = k then (h.get? j).map f else h.get? j := by
  simp only [get?, update, Array.getElem?_modify]
  by_cases hj : j = k
  · subst hj
    rw [if_pos rfl, if_pos rfl]
    cases h.cells[j]? with
    | none => rfl
    | some c => rfl
  · rw [if_neg (Ne.symm hj), if_neg hj]

@[simp]
theorem free_update (h : Heap) (k : Handle) (f : Cell → Cell) : (h.update k f).free = h.free := rfl

@[simp]
theorem allocs_update (h : Heap) (k : Handle) (f : Cell → Cell) :
    (h.update k f).allocs = h.allocs := rfl

@[simp]
theorem size_cells_update (h : Heap) (k : Handle) (f : Cell → Cell) :
    (h.update k f).cells.size = h.cells.size := by
  simp [update]

@[simp]
theorem allocs_alloc (h : Heap) (kind : CellKind) (elems : Array Value) :
    (h.alloc kind elems).2.allocs = h.allocs + 1 := by
  unfold alloc
  split <;> rfl

theorem get?_alloc_of_lt {h : Heap} (hlt : ∀ k ∈ h.free, k < h.cells.size) (kind : CellKind)
    (elems : Array Value) (j : Handle) :
    (h.alloc kind elems).2.get? j =
      if j = (h.alloc kind elems).1 then some { kind, elems, serial := h.allocs }
      else h.get? j := by
  unfold alloc
  split
  case h_1 k rest hfree =>
    have hk : k < h.cells.size := hlt k (by simp [hfree])
    simp only [get?]
    by_cases hj : j = k
    · subst hj
      simp [hk]
    · simp [hj, Ne.symm hj]
  case h_2 hfree =>
    simp only [get?, Array.getElem?_push]
    by_cases hj : j = h.cells.size
    · simp [hj]
    · simp [hj]

theorem get?_alloc {h : Heap} (hs : h.Sound) (kind : CellKind) (elems : Array Value)
    (j : Handle) :
    (h.alloc kind elems).2.get? j =
      if j = (h.alloc kind elems).1 then some { kind, elems, serial := h.allocs }
      else h.get? j :=
  get?_alloc_of_lt hs.free_lt kind elems j

theorem get?_alloc_fst {h : Heap} (hdead : ∀ k ∈ h.free, h.get? k = none) (kind : CellKind)
    (elems : Array Value) : h.get? (h.alloc kind elems).1 = none := by
  unfold alloc
  split
  case h_1 k rest hfree => exact hdead k (by simp [hfree])
  case h_2 hfree => exact get?_of_le (Nat.le_refl _)

theorem alloc_fst_dead {h : Heap} (hs : h.Sound) (kind : CellKind) (elems : Array Value) :
    h.get? (h.alloc kind elems).1 = none :=
  get?_alloc_fst hs.free_dead kind elems

theorem alloc_fst_pos {h : Heap} (hpos : ∀ k ∈ h.free, k ≠ 0) (hcells : 0 < h.cells.size)
    (kind : CellKind) (elems : Array Value) : (h.alloc kind elems).1 ≠ 0 := by
  unfold alloc
  split
  case h_1 k rest hfree => exact hpos k (by simp [hfree])
  case h_2 hfree => exact Nat.ne_of_gt hcells

theorem alloc_fst_ne_zero {h : Heap} (hs : h.Sound) (kind : CellKind) (elems : Array Value) :
    (h.alloc kind elems).1 ≠ 0 :=
  alloc_fst_pos hs.free_pos hs.cells_pos kind elems

/-! ## References that stay alive -/

theorem Denotes.mono {h h' : Heap} {k : Handle} (hk : h.Denotes k)
    (hle : ∀ c, h.get? k = some c → (h'.get? k).isSome) : h'.Denotes k := by
  rcases hk with hk | hk
  · exact Or.inl hk
  · obtain ⟨c, hc⟩ := Option.isSome_iff_exists.mp hk
    exact Or.inr (hle c hc)

end Heap

theorem Value.LiveIn.mono {h h' : Heap} {v : Value} (hv : v.LiveIn h)
    (hle : ∀ k c, h.get? k = some c → (h'.get? k).isSome) : v.LiveIn h' :=
  fun k hk => (hv k hk).mono (hle k)

theorem Value.liveIn_of_kind_ne {h : Heap} {v : Value} (hv : v.kind ≠ .ref) : v.LiveIn h := by
  rintro k rfl
  exact absurd rfl hv

theorem Value.nil_liveIn (h : Heap) : Value.nil.LiveIn h := by
  intro k hk
  injection hk with hk
  exact Or.inl hk.symm

theorem Value.ref_liveIn_iff {h : Heap} {k : Handle} : (Value.ref k).LiveIn h ↔ h.Denotes k :=
  ⟨fun hv => hv k rfl, fun hk j hj => by injection hj with hj; exact hj ▸ hk⟩

namespace Heap

/-- `h'` has all the cells of `h`, each still the same object, and its other cells are objects that
were made since. -/
structure Grows (h h' : Heap) : Prop where
  keeps : ∀ k c, h.get? k = some c → ∃ c', h'.get? k = some c' ∧ c'.serial = c.serial
  fresh : ∀ k c', h'.get? k = some c' →
    (∃ c, h.get? k = some c ∧ c'.serial = c.serial) ∨ h.allocs ≤ c'.serial
  allocs : h.allocs ≤ h'.allocs

theorem Grows.refl (h : Heap) : h.Grows h :=
  ⟨fun _ c hc => ⟨c, hc, rfl⟩, fun _ c hc => Or.inl ⟨c, hc, rfl⟩, Nat.le_refl _⟩

theorem Grows.trans {h₁ h₂ h₃ : Heap} (h12 : h₁.Grows h₂) (h23 : h₂.Grows h₃) : h₁.Grows h₃ := by
  refine ⟨?_, ?_, Nat.le_trans h12.allocs h23.allocs⟩
  · intro k c hc
    obtain ⟨c', hc', hserial'⟩ := h12.keeps k c hc
    obtain ⟨c'', hc'', hserial''⟩ := h23.keeps k c' hc'
    exact ⟨c'', hc'', hserial''.trans hserial'⟩
  · intro k c'' hc''
    rcases h23.fresh k c'' hc'' with ⟨c', hc', hserial''⟩ | hnew
    · rcases h12.fresh k c' hc' with ⟨c, hc, hserial'⟩ | hnew
      · exact Or.inl ⟨c, hc, hserial''.trans hserial'⟩
      · exact Or.inr (hserial'' ▸ hnew)
    · exact Or.inr (Nat.le_trans h12.allocs hnew)

theorem Grows.isSome {h h' : Heap} (hg : h.Grows h') (k : Handle) (c : Cell)
    (hc : h.get? k = some c) : (h'.get? k).isSome := by
  obtain ⟨c', hc', -⟩ := hg.keeps k c hc
  simp [hc']

theorem Grows.liveIn {h h' : Heap} (hg : h.Grows h') {v : Value} (hv : v.LiveIn h) : v.LiveIn h' :=
  hv.mono hg.isSome

theorem grows_alloc {h : Heap} (hs : h.Sound) (kind : CellKind) (elems : Array Value) :
    h.Grows (h.alloc kind elems).2 := by
  refine ⟨?_, ?_, by simp⟩
  · intro k c hc
    refine ⟨c, ?_, rfl⟩
    rw [get?_alloc hs, if_neg, hc]
    rintro rfl
    simp [alloc_fst_dead hs] at hc
  · intro k c hc
    rw [get?_alloc hs] at hc
    split at hc
    · injection hc with hc
      exact Or.inr (Nat.le_of_eq (congrArg Cell.serial hc))
    · exact Or.inl ⟨c, hc, rfl⟩

theorem grows_update (h : Heap) (k : Handle) {f : Cell → Cell}
    (hf : ∀ c, (f c).serial = c.serial) : h.Grows (h.update k f) := by
  refine ⟨?_, ?_, by simp⟩
  · intro j c hc
    by_cases hj : j = k
    · subst hj
      exact ⟨f c, by simp [hc], hf c⟩
    · exact ⟨c, by simp [hj, hc], rfl⟩
  · intro j c hc
    rw [get?_update] at hc
    split at hc
    · obtain ⟨d, hd, rfl⟩ := Option.map_eq_some_iff.mp hc
      exact Or.inl ⟨d, hd, hf d⟩
    · exact Or.inl ⟨c, hc, rfl⟩

/-! ## The invariant -/

theorem sound_ofBudget (b : Int) : (ofBudget b).Sound where
  nil_dead := get?_ofBudget b 0
  cells_pos := by simp [ofBudget]
  free_lt := by simp [ofBudget]
  free_pos := by simp [ofBudget]
  free_dead := by simp [ofBudget]
  free_nodup := by simp [ofBudget]
  elems_live := by simp [get?_ofBudget]
  serial_lt := by simp [get?_ofBudget]

theorem Sound.update {h : Heap} (hs : h.Sound) (k : Handle) {f : Cell → Cell}
    (hserial : ∀ c, (f c).serial = c.serial)
    (helems : ∀ c, h.get? k = some c → ∀ v ∈ (f c).elems, v.LiveIn h) : (h.update k f).Sound := by
  have hgrows := grows_update h k hserial
  refine ⟨?_, by simpa using hs.cells_pos, by simpa using hs.free_lt, hs.free_pos, ?_,
    hs.free_nodup, ?_, ?_⟩
  · rw [get?_update]
    split <;> simp [hs.nil_dead]
  · intro j hj
    rw [get?_update]
    split <;> simp [hs.free_dead j hj]
  · intro j c hc v hv
    rw [get?_update] at hc
    apply hgrows.liveIn
    split at hc
    · obtain ⟨d, hd, rfl⟩ := Option.map_eq_some_iff.mp hc
      subst j
      exact helems d hd v hv
    · exact hs.elems_live j c hc v hv
  · intro j c hc
    rw [get?_update] at hc
    rw [allocs_update]
    split at hc
    · obtain ⟨d, hd, rfl⟩ := Option.map_eq_some_iff.mp hc
      rw [hserial d]
      exact hs.serial_lt j d hd
    · exact hs.serial_lt j c hc

theorem free_alloc_subset {h : Heap} {kind : CellKind} {elems : Array Value} {k : Handle}
    (hk : k ∈ (h.alloc kind elems).2.free) : k ∈ h.free := by
  unfold alloc at hk
  split at hk
  case h_1 hfree => simp [hfree, show k ∈ _ from hk]
  case h_2 hfree => exact hk

theorem size_cells_le_alloc (h : Heap) (kind : CellKind) (elems : Array Value) :
    h.cells.size ≤ (h.alloc kind elems).2.cells.size := by
  unfold alloc
  split <;> simp

theorem ne_alloc_fst_of_mem_free {h : Heap} (hs : h.Sound) {kind : CellKind} {elems : Array Value}
    {k : Handle} (hk : k ∈ (h.alloc kind elems).2.free) : k ≠ (h.alloc kind elems).1 := by
  have hnodup := hs.free_nodup
  unfold alloc at hk ⊢
  split at hk
  case h_1 j rest hfree =>
    rw [hfree, List.nodup_cons] at hnodup
    rintro rfl
    exact hnodup.1 hk
  case h_2 hfree =>
    rw [show _ = h.free from rfl, hfree] at hk
    simp at hk

theorem nodup_free_alloc {h : Heap} (hs : h.Sound) (kind : CellKind) (elems : Array Value) :
    (h.alloc kind elems).2.free.Nodup := by
  have hnodup := hs.free_nodup
  unfold alloc
  split
  case h_1 j rest hfree =>
    rw [hfree, List.nodup_cons] at hnodup
    exact hnodup.2
  case h_2 hfree => exact hnodup

theorem Sound.alloc {h : Heap} (hs : h.Sound) (kind : CellKind) {elems : Array Value}
    (helems : ∀ v ∈ elems, v.LiveIn h) : (h.alloc kind elems).2.Sound := by
  have hgrows := grows_alloc hs kind elems
  have hle := size_cells_le_alloc h kind elems
  refine ⟨?_, Nat.lt_of_lt_of_le hs.cells_pos hle, ?_, ?_, ?_, nodup_free_alloc hs kind elems, ?_, ?_⟩
  · rw [get?_alloc hs, if_neg (Ne.symm (alloc_fst_ne_zero hs kind elems)), hs.nil_dead]
  · intro k hk
    exact Nat.lt_of_lt_of_le (hs.free_lt k (free_alloc_subset hk)) hle
  · intro k hk
    exact hs.free_pos k (free_alloc_subset hk)
  · intro k hk
    rw [get?_alloc hs, if_neg (ne_alloc_fst_of_mem_free hs hk)]
    exact hs.free_dead k (free_alloc_subset hk)
  · intro k c hc v hv
    apply hgrows.liveIn
    rw [get?_alloc hs] at hc
    split at hc
    · injection hc with hc
      subst hc
      exact helems v hv
    · exact hs.elems_live k c hc v hv
  · intro k c hc
    rw [get?_alloc hs] at hc
    rw [allocs_alloc]
    split at hc
    · injection hc with hc
      subst hc
      exact Nat.lt_succ_self _
    · exact Nat.lt_succ_of_lt (hs.serial_lt k c hc)

end Heap

end Pascaline
