import Pascaline.Proofs.Heap.Accounts

/-!
# Marks and collections

Whatever is done to a heap, in whatever order, its accounts stay right. The marks of a collection
may be kept with the cells: none is left when it ends, so the next one finds what it would find if
all marks were made anew.

Marking looks into cells until none waits any more. Whatever the cells refer to, this comes to an
end, and what is marked then is what roots and pinned cells lead to, neither less nor more.
-/

namespace Pascaline.Heap

/-! ## What is marked is in use -/

/-- Marks for the cells of `h`, on live cells only. -/
structure Marking.OfLive (h : Heap) (s : Marking) : Prop where
  size : s.marked.size = h.cells.size
  isSome : ∀ k, s.Has k → (h.get? k).isSome

variable {h : Heap}

theorem mark_ofLive {s : Marking} (hs : s.OfLive h) (v : Value) : (h.mark s v).OfLive h := by
  refine ⟨(mark_extends h hs.size v).size.trans hs.size, ?_⟩
  intro k hk
  unfold mark at hk
  split at hk
  case h_2 => exact hs.isSome k hk
  case h_1 j =>
    split at hk
    case isFalse => exact hs.isSome k hk
    case isTrue hcond =>
      rw [Bool.and_eq_true] at hcond
      obtain ⟨c, hc⟩ := Option.isSome_iff_exists.mp hcond.1
      rcases (has_set_iff (hs.size ▸ lt_of_get? hc)).mp hk with rfl | hk
      · exact hcond.1
      · exact hs.isSome k hk

theorem markAll_ofLive {s : Marking} (hs : s.OfLive h) (vs : List Value) :
    (h.markAll s vs).OfLive h := by
  unfold markAll
  induction vs generalizing s with
  | nil => exact hs
  | cons v vs ih => exact ih (mark_ofLive hs v)

theorem spread_ofLive (rounds : Nat) {s : Marking} (hs : s.OfLive h) :
    (h.spread rounds s).OfLive h := by
  induction rounds generalizing s with
  | zero => exact hs
  | succ rounds ih =>
    unfold spread
    split
    · exact hs
    · have hwork : ∀ work, Marking.OfLive h { s with work } := fun _ => ⟨hs.size, hs.isSome⟩
      exact ih (markAll_ofLive (hwork _) _)

theorem getD_replicate_false (n k : Nat) : (Array.replicate n false).getD k false = false := by
  rw [Array.getD_eq_getD_getElem?, Array.getElem?_replicate]
  split <;> rfl

theorem reached_ofLive (h : Heap) (roots : List Value) :
    Marking.OfLive h ⟨h.reached roots, []⟩ := by
  have hstart : Marking.OfLive h ⟨Array.replicate h.cells.size false, []⟩ := by
    refine ⟨by simp, ?_⟩
    intro k hk
    rw [Marking.Has, getD_replicate_false] at hk
    cases hk
  have hend := spread_ofLive h.cells.size (markAll_ofLive hstart (roots ++ h.pinned))
  exact ⟨hend.size, hend.isSome⟩

/-! ## Marks kept with the cells -/

/-- A heap and the marks of its cells, by handle. -/
structure Marked where
  heap : Heap
  marks : Array Bool

namespace Marked

/-- An unmarked heap. -/
def unmarked (h : Heap) : Marked := ⟨h, Array.replicate h.cells.size false⟩

def alloc (s : Marked) (kind : CellKind) (elems : Array Value) : Marked :=
  let k := (s.heap.alloc kind elems).1
  ⟨(s.heap.alloc kind elems).2,
    if k < s.marks.size then s.marks.set! k false else s.marks.push false⟩

/-- Frees a live cell that is not marked. A mark has done its duty then. -/
def sweepCell (s : Marked) (k : Handle) : Marked :=
  if (s.heap.get? k).isSome then
    ⟨if s.marks.getD k false then s.heap else s.heap.release k, s.marks.set! k false⟩
  else s

def sweep (s : Marked) : Marked := (List.range s.heap.cells.size).foldl sweepCell s

/-- A collection that starts with the marks that are there. -/
def collect (s : Marked) (roots : List Value) : Marked :=
  let start := s.heap.markAll ⟨s.marks, []⟩ (roots ++ s.heap.pinned)
  let found := s.heap.spread s.heap.cells.size start
  sweep ⟨{ s.heap with collections := s.heap.collections + 1 }, found.marked⟩

theorem getD_set_false (marks : Array Bool) (k j : Nat) :
    (marks.set! k false).getD j false = if j = k then false else marks.getD j false := by
  rw [Array.set!_eq_setIfInBounds, Array.getD_eq_getD_getElem?, Array.getElem?_setIfInBounds,
    Array.getD_eq_getD_getElem?]
  by_cases hj : j = k
  · subst hj
    simp only [if_true]
    split <;> rfl
  · simp [hj, Ne.symm hj]

/-- After the first `n` handles, those of them that are not marked are free and the marks of the
others are gone. -/
theorem foldl_sweepCell (h : Heap) (marks : Array Bool) (n : Nat) :
    let s := (List.range n).foldl sweepCell ⟨h, marks⟩
    s.heap = ((List.range n).filter fun i =>
        (h.get? i).isSome && !marks.getD i false).foldl release h ∧
      s.marks.size = marks.size ∧
      ∀ k, s.marks.getD k false =
        if k < n ∧ (h.get? k).isSome then false else marks.getD k false := by
  induction n with
  | zero => simp
  | succ n ih =>
    obtain ⟨hheap, hsize, hmarks⟩ := ih
    simp only [List.range_succ, List.foldl_append, List.filter_append, List.foldl_cons,
      List.foldl_nil]
    generalize (List.range n).foldl sweepCell ⟨h, marks⟩ = s at hheap hsize hmarks ⊢
    have hget : s.heap.get? n = h.get? n := by
      rw [hheap, get?_foldl_release, if_neg]
      simp
    have hmark : s.marks.getD n false = marks.getD n false := by simp [hmarks]
    rw [sweepCell, hget, hmark]
    cases hlive : (h.get? n).isSome with
    | false =>
      refine ⟨by simpa [hlive] using hheap, hsize, ?_⟩
      intro k
      rw [if_neg (by simp), hmarks]
      by_cases hk : k = n
      · simp [hk, hlive]
      · simp [show k < n + 1 ↔ k < n by omega]
    | true =>
      refine ⟨?_, by simpa using hsize, ?_⟩
      · rw [← hheap, List.filter_singleton, hlive]
        cases marks.getD n false <;> rfl
      · intro k
        rw [if_pos rfl, getD_set_false, hmarks]
        by_cases hk : k = n
        · simp [hk, hlive]
        · simp [hk, show k < n + 1 ↔ k < n by omega]

theorem sweep_eq {marks : Array Bool} (hmarks : Marking.OfLive h ⟨marks, []⟩) :
    sweep ⟨h, marks⟩ = unmarked ((h.garbage marks).foldl release h) := by
  obtain ⟨hheap, hsize, hclear⟩ := foldl_sweepCell h marks h.cells.size
  have hnone : (sweep ⟨h, marks⟩).marks = Array.replicate h.cells.size false := by
    have hsize : (sweep ⟨h, marks⟩).marks.size = h.cells.size := hsize.trans hmarks.size
    apply Array.ext
    · rw [hsize, Array.size_replicate]
    · intro k hk _
      have hfalse : (sweep ⟨h, marks⟩).marks.getD k false = false := by
        refine (hclear k).trans ?_
        split
        · rfl
        case isFalse hdead =>
          by_contra hmarked
          rw [Bool.not_eq_false] at hmarked
          exact hdead ⟨hsize ▸ hk, hmarks.isSome k hmarked⟩
      simpa [Array.getD, hk] using hfalse
  rw [unmarked, (cells_size_foldl_release _ h).1, ← hnone]
  exact congrArg (Marked.mk · _) hheap

/-- Without marks from before, a collection is the one that makes its own, and leaves none. -/
theorem collect_unmarked (h : Heap) (roots : List Value) :
    (unmarked h).collect roots = unmarked (h.collect roots) := by
  have hlive := reached_ofLive h roots
  exact sweep_eq (h := { h with collections := h.collections + 1 }) ⟨hlive.size, hlive.isSome⟩

theorem alloc_unmarked (hh : h.Consistent) (kind : CellKind) (elems : Array Value) :
    (unmarked h).alloc kind elems = unmarked (h.alloc kind elems).2 := by
  suffices hmarks : (if (h.alloc kind elems).1 < h.cells.size
      then (Array.replicate h.cells.size false).set! (h.alloc kind elems).1 false
      else (Array.replicate h.cells.size false).push false) =
        Array.replicate (h.alloc kind elems).2.cells.size false by
    simpa [Marked.alloc, unmarked] using hmarks
  unfold Heap.alloc
  split
  case h_1 k rest hfree =>
    have hk := hh.free_lt (k := k) (by simp [hfree])
    simp [hk]
  case h_2 => simp [Array.replicate_succ]

end Marked

/-! ## Operations in sequence -/

/-- What can be done to a heap. A collection starts from roots that the user of the heap holds. -/
inductive Operation where
  | alloc (kind : CellKind) (elems : Array Value)
  | reserve (words : Int) (roots : List Value)
  | collect (roots : List Value)
  | pin (k : Handle)
  | unpin (k : Handle)
  | write (k : Handle) (i : Nat) (v : Value)

def Operation.apply (h : Heap) : Operation → Heap
  | alloc kind elems => (h.alloc kind elems).2
  | reserve words roots => h.makeRoom words roots
  | collect roots => h.collect roots
  | pin k => h.pin k
  | unpin k => h.unpin k
  | write k i v => h.write k i v

/-- The same where the cells keep their marks. -/
def Operation.applyMarked (s : Marked) : Operation → Marked
  | alloc kind elems => s.alloc kind elems
  | reserve words roots => if s.heap.fits words then s else s.collect roots
  | collect roots => s.collect roots
  | pin k => { s with heap := s.heap.pin k }
  | unpin k => { s with heap := s.heap.unpin k }
  | write k i v => { s with heap := s.heap.write k i v }

theorem Consistent.apply (hh : h.Consistent) (op : Operation) : (op.apply h).Consistent := by
  cases op with
  | alloc kind elems => exact hh.alloc kind elems
  | reserve words roots => exact hh.makeRoom words roots
  | collect roots => exact hh.collect roots
  | pin k => exact hh.update k fun _ _ => rfl
  | unpin k => exact hh.update k fun _ _ => rfl
  | write k i v => exact hh.write k i v

theorem Marked.unmarked_update (h : Heap) (k : Handle) (f : Cell → Cell) :
    unmarked (h.update k f) = { unmarked h with heap := h.update k f } := by
  rw [unmarked, size_cells_update]
  rfl

theorem Consistent.applyMarked (hh : h.Consistent) (op : Operation) :
    op.applyMarked (.unmarked h) = .unmarked (op.apply h) := by
  cases op with
  | alloc kind elems => exact Marked.alloc_unmarked hh kind elems
  | reserve words roots =>
    simp only [Operation.applyMarked, Operation.apply, makeRoom, Marked.collect_unmarked]
    exact (apply_ite Marked.unmarked _ _ _).symm
  | collect roots => exact Marked.collect_unmarked h roots
  | pin k => exact (Marked.unmarked_update h k _).symm
  | unpin k => exact (Marked.unmarked_update h k _).symm
  | write k i v => exact (Marked.unmarked_update h k _).symm

theorem Consistent.foldl_apply (ops : List Operation) (hh : h.Consistent) :
    (ops.foldl Operation.apply h).Consistent ∧
      ops.foldl Operation.applyMarked (.unmarked h) = .unmarked (ops.foldl Operation.apply h) := by
  induction ops generalizing h with
  | nil => exact ⟨hh, rfl⟩
  | cons op ops ih =>
    rw [List.foldl_cons, List.foldl_cons, hh.applyMarked]
    exact ih (hh.apply op)

/-- After any operations on an empty heap, the list of free handles and the counters agree with the
cells, no cell is left marked, and the next cell takes a handle that is neither nil nor in use. -/
theorem accounts_stay_right (budget : Int) (ops : List Operation) :
    let h := ops.foldl Operation.apply (ofBudget budget)
    h.Consistent ∧
      ops.foldl Operation.applyMarked (.unmarked (ofBudget budget)) = .unmarked h ∧
      ∀ kind elems, (h.alloc kind elems).1 ≠ 0 ∧ h.get? (h.alloc kind elems).1 = none := by
  obtain ⟨hh, hmarks⟩ := (Consistent.ofBudget budget).foldl_apply ops
  exact ⟨hh, hmarks, hh.alloc_fst⟩

/-! ## What a collection is to keep -/

variable {roots : List Value}

/-- Handles that a root or a pinned cell leads to, over the references in live cells. -/
inductive Reachable (h : Heap) (roots : List Value) : Handle → Prop
  | root {k : Handle} (hk : .ref k ∈ roots) : Reachable h roots k
  | pinned {k : Handle} {c : Cell} (hc : h.get? k = some c) (hpins : 0 < c.pins) :
      Reachable h roots k
  | elem {j k : Handle} {c : Cell} (hj : Reachable h roots j) (hc : h.get? j = some c)
      (hk : .ref k ∈ c.elems) : Reachable h roots k

theorem mem_pinned {k : Handle} :
    .ref k ∈ h.pinned ↔ ∃ c, h.get? k = some c ∧ 0 < c.pins := by
  unfold pinned
  simp only [List.mem_filterMap, Prod.exists, List.mem_zipIdx_iff_getElem?, Array.getElem?_toList]
  constructor
  · rintro ⟨c?, i, hi, hk⟩
    cases c? with
    | none => simp at hk
    | some c =>
      simp only [Option.any_some, decide_eq_true_eq, Option.ite_none_right_eq_some,
        Option.some.injEq, Value.ref.injEq] at hk
      obtain ⟨hpins, rfl⟩ := hk
      exact ⟨c, get?_eq_some_iff.mpr hi, hpins⟩
  · rintro ⟨c, hc, hpins⟩
    exact ⟨some c, k, get?_eq_some_iff.mp hc, by simp [hpins]⟩

/-! ## Nothing else is marked -/

/-- Only what is reachable is marked or waits. -/
structure Marking.Justified (h : Heap) (roots : List Value) (s : Marking) : Prop where
  marked : ∀ k, s.Has k → h.Reachable roots k
  work : ∀ k ∈ s.work, h.Reachable roots k

theorem mark_justified {s : Marking} (hlive : s.OfLive h) (hs : s.Justified h roots) {v : Value}
    (hv : ∀ k, v = .ref k → h.Reachable roots k) : (h.mark s v).Justified h roots := by
  unfold mark
  split
  case h_2 => exact hs
  case h_1 k =>
    split
    case isFalse => exact hs
    case isTrue hcond =>
      rw [Bool.and_eq_true] at hcond
      obtain ⟨c, hc⟩ := Option.isSome_iff_exists.mp hcond.1
      constructor
      · intro j hj
        rcases (has_set_iff (hlive.size ▸ lt_of_get? hc)).mp hj with rfl | hj
        · exact hv j rfl
        · exact hs.marked j hj
      · intro j hj
        rcases List.mem_cons.mp hj with rfl | hj
        · exact hv j rfl
        · exact hs.work j hj

theorem markAll_justified {s : Marking} (hlive : s.OfLive h) (hs : s.Justified h roots)
    {vs : List Value} (hvs : ∀ k, .ref k ∈ vs → h.Reachable roots k) :
    (h.markAll s vs).Justified h roots := by
  unfold markAll
  induction vs generalizing s with
  | nil => exact hs
  | cons v vs ih =>
    apply ih (mark_ofLive hlive v)
    · apply mark_justified hlive hs
      rintro k rfl
      exact hvs k List.mem_cons_self
    · intro k hk
      exact hvs k (List.mem_cons_of_mem v hk)

theorem spread_justified (rounds : Nat) {s : Marking} (hlive : s.OfLive h)
    (hs : s.Justified h roots) : (h.spread rounds s).Justified h roots := by
  induction rounds generalizing s with
  | zero => exact hs
  | succ rounds ih =>
    unfold spread
    split
    case h_1 => exact hs
    case h_2 j work hwork =>
      have hlive' : Marking.OfLive h { s with work } := ⟨hlive.size, hlive.isSome⟩
      have hs' : Marking.Justified h roots { s with work } := by
        refine ⟨hs.marked, fun k hk => ?_⟩
        apply hs.work
        simp [hwork, show k ∈ work from hk]
      apply ih (markAll_ofLive hlive' _)
      apply markAll_justified hlive' hs'
      -- `j` was on the list, so what its cell refers to is reachable over it.
      intro k hk
      cases hc : h.get? j with
      | none => simp [hc] at hk
      | some c =>
        apply Reachable.elem (hs.work j (by simp [hwork])) hc
        simpa [hc] using hk

/-- The marks that a collection starts with: none, and then those of the roots and pinned cells. -/
def markingStart (h : Heap) (roots : List Value) : Marking :=
  h.markAll ⟨Array.replicate h.cells.size false, []⟩ (roots ++ h.pinned)

theorem not_has_blank (n : Nat) (k : Handle) : ¬ Marking.Has ⟨Array.replicate n false, []⟩ k := by
  unfold Marking.Has
  rw [getD_replicate_false]
  simp

theorem blank_ofLive (h : Heap) : Marking.OfLive h ⟨Array.replicate h.cells.size false, []⟩ :=
  ⟨by simp, fun k hk => absurd hk (not_has_blank _ k)⟩

theorem markingStart_ofLive (h : Heap) (roots : List Value) : (h.markingStart roots).OfLive h :=
  markAll_ofLive (blank_ofLive h) _

theorem markingStart_justified (h : Heap) (roots : List Value) :
    (h.markingStart roots).Justified h roots := by
  apply markAll_justified (blank_ofLive h)
  · exact ⟨fun k hk => absurd hk (not_has_blank _ k), by simp⟩
  · intro k hk
    rcases List.mem_append.mp hk with hk | hk
    · exact .root hk
    · obtain ⟨c, hc, hpins⟩ := mem_pinned.mp hk
      exact .pinned hc hpins

theorem debt_markingStart (h : Heap) (roots : List Value) :
    (h.markingStart roots).debt = h.cells.size := by
  rw [markingStart, (markAll_extends h (by simp) _).debt]
  simp [Marking.debt]

theorem reached_of_pinned {k : Handle} {c : Cell} (hc : h.get? k = some c) (hpins : 0 < c.pins) :
    h.Reached roots k := by
  apply spread_has h _ (markingStart_ofLive h roots).size
  apply markAll_has (blank_ofLive h).size
  · exact List.mem_append_right _ (mem_pinned.mpr ⟨c, hc, hpins⟩)
  · simp [hc]

/-- What is marked in the end is what was live and is reachable. -/
theorem reached_iff {k : Handle} :
    h.Reached roots k ↔ (h.get? k).isSome ∧ h.Reachable roots k := by
  constructor
  · intro hk
    refine ⟨(reached_ofLive h roots).isSome k hk, ?_⟩
    exact (spread_justified _ (markingStart_ofLive h roots)
      (markingStart_justified h roots)).marked k hk
  · rintro ⟨hlive, hk⟩
    induction hk with
    | root hmem => exact reached_of_root hmem hlive
    | pinned hc hpins => exact reached_of_pinned hc hpins
    | elem _ hc hmem ih => exact reached_of_elem (ih (by simp [hc])) hc hmem hlive

/-! ## Marking comes to an end -/

/-- Marking as it runs, with no bound on its rounds: as long as a cell waits, all that it refers to
is noted. -/
inductive Marks (h : Heap) : Marking → Marking → Prop
  | done {s : Marking} (hwork : s.work = []) : Marks h s s
  | look {s t : Marking} {k : Handle} {work : List Handle} (hwork : s.work = k :: work)
      (hrest : Marks h (h.markAll { s with work } (((h.get? k).map (·.elems.toList)).getD [])) t) :
      Marks h s t

/-- Each round takes a handle off the list, and a handle comes onto it at most once. -/
theorem marks_spread {rounds : Nat} {s : Marking} (hsize : s.marked.size = h.cells.size)
    (hdebt : s.debt ≤ rounds) : h.Marks s (h.spread rounds s) := by
  induction rounds generalizing s with
  | zero =>
    apply Marks.done
    apply List.eq_nil_of_length_eq_zero
    unfold Marking.debt at hdebt
    omega
  | succ rounds ih =>
    unfold spread
    split
    case h_1 hwork => exact .done hwork
    case h_2 k work hwork =>
      have hext := markAll_extends h (s := { s with work }) hsize
        (((h.get? k).map (·.elems.toList)).getD [])
      apply Marks.look hwork
      apply ih (hext.size.trans hsize)
      rw [hext.debt]
      simp only [Marking.debt, hwork, List.length_cons] at hdebt ⊢
      omega

/-! ## The collection -/

/-- A collection of an unmarked heap: its marking comes to an end, the cells that were live and are
reachable from a root or a pinned cell stay as they are under their handles, all others are gone,
and no mark is left. -/
theorem collection_is_exact (h : Heap) (roots : List Value) :
    let after := (Marked.unmarked h).collect roots
    (∃ found, h.Marks (h.markingStart roots) found ∧
      after = Marked.sweep ⟨{ h with collections := h.collections + 1 }, found.marked⟩) ∧
    (∀ k, (after.heap.get? k).isSome ↔ (h.get? k).isSome ∧ h.Reachable roots k) ∧
    (∀ k c, after.heap.get? k = some c → h.get? k = some c) ∧
    ∀ k, after.marks.getD k false = false := by
  have hafter := Marked.collect_unmarked h roots
  have hget : ∀ k c, ((Marked.unmarked h).collect roots).heap.get? k = some c ↔
      h.get? k = some c ∧ h.Reachable roots k := by
    intro k c
    rw [hafter, Marked.unmarked, get?_collect, reached_iff]
    constructor
    · exact fun hk => ⟨hk.1, hk.2.2⟩
    · exact fun hk => ⟨hk.1, by simp [hk.1], hk.2⟩
  refine ⟨⟨h.spread h.cells.size (h.markingStart roots), ?_, rfl⟩, ?_, ?_, ?_⟩
  · exact marks_spread (markingStart_ofLive h roots).size (Nat.le_of_eq (debt_markingStart h roots))
  · intro k
    simp only [Option.isSome_iff_exists, hget, exists_and_right]
  · exact fun k c hc => ((hget k c).mp hc).1
  · intro k
    rw [hafter]
    exact getD_replicate_false _ k

end Pascaline.Heap
