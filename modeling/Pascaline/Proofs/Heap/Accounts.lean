import Mathlib.Algebra.Ring.Int.Defs
import Mathlib.Algebra.Ring.Nat
import Mathlib.Data.List.ReduceOption
import Pascaline.Machine
import Pascaline.Proofs.Heap.Collection

/-!
# The accounts of the heap and its room

The counters and the list of free handles say the same as the cells, and every operation keeps it
so.

How many words the slots of a frame, a unit or an object take, counted without a limit, and what a
heap looks like while words that were reserved are spent. A cell that no free handle is left for
makes the heap longer, but then all handles are in use, so there are no more of them than words.
-/

namespace Pascaline

namespace Heap

/-! ## Sums over cells -/

/-- The cells in use, by handle. -/
def liveCells (h : Heap) : List Cell := h.cells.toList.reduceOption

/-- What a place of the heap adds to a sum over the cells in use. -/
def share (f : Cell → Nat) (c : Option Cell) : Nat := (c.map f).getD 0

theorem sum_reduceOption (f : Cell → Nat) (cs : List (Option Cell)) :
    (cs.reduceOption.map f).sum = (cs.map (share f)).sum := by
  induction cs with
  | nil => rfl
  | cons c cs ih =>
    cases c with
    | none => simpa [share] using ih
    | some c => simp [share, ih]

theorem sum_set (f : Cell → Nat) {cs : List (Option Cell)} {k : Nat} {old : Option Cell}
    (hk : cs[k]? = some old) (new : Option Cell) :
    ((cs.set k new).reduceOption.map f).sum + share f old =
      (cs.reduceOption.map f).sum + share f new := by
  rw [sum_reduceOption, sum_reduceOption]
  induction cs generalizing k with
  | nil => simp at hk
  | cons c cs ih =>
    cases k with
    | zero =>
      obtain rfl : c = old := by simpa using hk
      simp only [List.set_cons_zero, List.map_cons, List.sum_cons]
      omega
    | succ k =>
      have := ih (by simpa using hk)
      simp only [List.set_cons_succ, List.map_cons, List.sum_cons]
      omega

/-- The sum of something over all cells in use. -/
def total (f : Cell → Nat) (cells : Array (Option Cell)) : Nat :=
  (cells.toList.reduceOption.map f).sum

theorem length_liveCells (h : Heap) : h.liveCells.length = total (fun _ => 1) h.cells := by
  simp [total, liveCells]

theorem total_set (f : Cell → Nat) {cells : Array (Option Cell)} {k : Handle} {old : Option Cell}
    (hk : cells[k]? = some old) (new : Option Cell) :
    total f (cells.set! k new) + share f old = total f cells + share f new := by
  rw [total, total, Array.set!_eq_setIfInBounds, Array.toList_setIfInBounds]
  exact sum_set f (by simpa using hk) new

theorem total_fill (f : Cell → Nat) {cells : Array (Option Cell)} {k : Handle}
    (hk : cells[k]? = some none) (c : Cell) :
    total f (cells.set! k (some c)) = total f cells + f c := by
  simpa [share] using total_set f hk (some c)

theorem total_clear (f : Cell → Nat) {cells : Array (Option Cell)} {k : Handle} {c : Cell}
    (hk : cells[k]? = some (some c)) :
    total f (cells.set! k none) + f c = total f cells := by
  simpa [share] using total_set f hk none

theorem total_push (f : Cell → Nat) (cells : Array (Option Cell)) (c : Cell) :
    total f (cells.push (some c)) = total f cells + f c := by
  simp [total, List.reduceOption_append]

theorem total_modify (f : Cell → Nat) {cells : Array (Option Cell)} {k : Handle} {g : Cell → Cell}
    (hg : ∀ c, cells[k]? = some (some c) → f (g c) = f c) :
    total f (cells.modify k (·.map g)) = total f cells := by
  rw [total, total, sum_reduceOption, sum_reduceOption]
  congr 1
  apply List.ext_getElem?
  intro j
  simp only [List.getElem?_map, Array.getElem?_toList, Array.getElem?_modify]
  split
  case isFalse => rfl
  case isTrue hj =>
    subst hj
    cases hk : cells[k]? with
    | none => rfl
    | some c =>
      cases c with
      | none => rfl
      | some c => simp [share, hg c hk]

/-! ## The invariant -/

/-- The list of free handles and the counters say what the cells say. -/
structure Consistent (h : Heap) : Prop where
  nil_dead : h.cells[0]? = some none
  free_nodup : h.free.Nodup
  mem_free : ∀ k, k ∈ h.free ↔ k ≠ 0 ∧ h.cells[k]? = some none
  live : h.live = h.liveCells.length
  liveWords : h.liveWords = (h.liveCells.map Cell.words).sum
  allocs : h.allocs = h.frees + h.live
  /-- Every place but that of nil is in use or waits to be used again. -/
  places : h.cells.size = 1 + h.live + h.free.length

/-- Makes room for so many words if they do not fit. -/
def makeRoom (h : Heap) (words : Int) (roots : List Value) : Heap :=
  if h.fits words then h else h.collect roots

theorem get?_of_empty {h : Heap} {k : Handle} (hk : h.cells[k]? = some none) : h.get? k = none := by
  simp [get?, hk]

namespace Consistent

variable {h : Heap}

theorem cells_pos (hh : h.Consistent) : 0 < h.cells.size :=
  (Array.getElem?_eq_some_iff.mp hh.nil_dead).1

theorem free_lt (hh : h.Consistent) {k : Handle} (hk : k ∈ h.free) : k < h.cells.size :=
  (Array.getElem?_eq_some_iff.mp ((hh.mem_free k).mp hk).2).1

theorem free_dead (hh : h.Consistent) {k : Handle} (hk : k ∈ h.free) : h.get? k = none :=
  get?_of_empty ((hh.mem_free k).mp hk).2

theorem live_eq (hh : h.Consistent) : h.live = total (fun _ => 1) h.cells :=
  hh.live.trans (length_liveCells h)

/-- A new cell takes a handle other than nil that denoted nothing. -/
theorem alloc_fst (hh : h.Consistent) (kind : CellKind) (elems : Array Value) :
    (h.alloc kind elems).1 ≠ 0 ∧ h.get? (h.alloc kind elems).1 = none :=
  ⟨alloc_fst_pos (fun k hk => ((hh.mem_free k).mp hk).1) hh.cells_pos kind elems,
    get?_alloc_fst (fun _ hk => hh.free_dead hk) kind elems⟩

theorem get?_alloc (hh : h.Consistent) (kind : CellKind) (elems : Array Value) (j : Handle) :
    (h.alloc kind elems).2.get? j =
      if j = (h.alloc kind elems).1 then some { kind, elems, serial := h.allocs } else h.get? j :=
  get?_alloc_of_lt (fun _ hk => hh.free_lt hk) kind elems j

protected theorem ofBudget (b : Int) : (ofBudget b).Consistent := by
  refine ⟨rfl, by simp [Heap.ofBudget], ?_, rfl, rfl, rfl, rfl⟩
  intro k
  cases k with
  | zero => simp [Heap.ofBudget]
  | succ k => simp [Heap.ofBudget]

protected theorem alloc (hh : h.Consistent) (kind : CellKind) (elems : Array Value) :
    (h.alloc kind elems).2.Consistent := by
  have hplaces := hh.places
  have hallocs := hh.allocs
  unfold Heap.alloc
  split
  case h_1 k rest hfree =>
    have hk := (hh.mem_free k).mp (by simp [hfree])
    have hnodup := hh.free_nodup
    rw [hfree, List.nodup_cons] at hnodup
    refine ⟨?_, hnodup.2, ?_, ?_, ?_, ?_, ?_⟩
    · simpa [hk.1] using hh.nil_dead
    · intro j
      have hj := hh.mem_free j
      rw [hfree, List.mem_cons] at hj
      simp only [Array.set!_eq_setIfInBounds, Array.getElem?_setIfInBounds]
      by_cases hjk : j = k
      · subst hjk
        have hlt := (Array.getElem?_eq_some_iff.mp hk.2).1
        simp [hnodup.1, hlt]
      · simpa [hjk, Ne.symm hjk] using hj
    · rw [length_liveCells, total_fill _ hk.2, hh.live_eq]
    · rw [hh.liveWords]
      exact (total_fill Cell.words hk.2 _).symm
    · dsimp only
      omega
    · simp only [hfree, List.length_cons] at hplaces
      simp only [Array.set!_eq_setIfInBounds, Array.size_setIfInBounds]
      omega
  case h_2 hfree =>
    refine ⟨?_, by simp [hfree], ?_, ?_, ?_, ?_, ?_⟩
    · rw [Array.getElem?_push, if_neg (Nat.ne_of_lt hh.cells_pos)]
      exact hh.nil_dead
    · intro j
      have hj := hh.mem_free j
      simp only [Array.getElem?_push]
      by_cases hjs : j = h.cells.size
      · simp [hjs, hfree]
      · simpa [hjs] using hj
    · rw [length_liveCells, total_push, hh.live_eq]
    · rw [hh.liveWords]
      exact (total_push Cell.words h.cells _).symm
    · dsimp only
      omega
    · simp only [Array.size_push, hfree, List.length_nil] at hplaces ⊢
      omega

protected theorem update (hh : h.Consistent) (k : Handle) {f : Cell → Cell}
    (hf : ∀ c, h.get? k = some c → (f c).words = c.words) : (h.update k f).Consistent := by
  have hempty : ∀ j : Nat, (h.update k f).cells[j]? = some none ↔ h.cells[j]? = some none := by
    intro j
    rw [Heap.update, Array.getElem?_modify]
    split
    · simp
    · rfl
  refine ⟨(hempty 0).mpr hh.nil_dead, hh.free_nodup, ?_, ?_, ?_, hh.allocs, ?_⟩
  · intro j
    rw [hempty, ← hh.mem_free]
    rfl
  · rw [length_liveCells]
    exact hh.live_eq.trans (total_modify (fun _ => 1) fun _ _ => rfl).symm
  · have hwords := total_modify Cell.words fun c hc => hf c (get?_eq_some_iff.mpr hc)
    exact hh.liveWords.trans hwords.symm
  · rw [size_cells_update]
    exact hh.places

protected theorem release (hh : h.Consistent) (k : Handle) : (h.release k).Consistent := by
  unfold Heap.release
  split
  case h_1 => exact hh
  case h_2 c hc =>
    have hcell := get?_eq_some_iff.mp hc
    have hk : k ≠ 0 := by
      rintro rfl
      rw [hh.nil_dead] at hcell
      cases hcell
    have hfree : k ∉ h.free := fun hmem => by simp [hh.free_dead hmem] at hc
    have hlt := lt_of_get? hc
    have hone := total_clear (fun _ => 1) hcell
    have hwords : total Cell.words (h.cells.set! k none) + c.words = h.liveWords :=
      (total_clear Cell.words hcell).trans hh.liveWords.symm
    have hlive := hh.live_eq
    have hallocs := hh.allocs
    have hplaces := hh.places
    refine ⟨?_, List.nodup_cons.mpr ⟨hfree, hh.free_nodup⟩, ?_, ?_, ?_, ?_, ?_⟩
    · simpa [hk] using hh.nil_dead
    · intro j
      simp only [List.mem_cons, Array.set!_eq_setIfInBounds, Array.getElem?_setIfInBounds]
      by_cases hjk : j = k
      · simp [hjk, hk, hlt]
      · simpa [hjk, Ne.symm hjk] using hh.mem_free j
    · rw [length_liveCells]
      dsimp only
      omega
    · show h.liveWords - c.words = total Cell.words (h.cells.set! k none)
      omega
    · dsimp only
      omega
    · simp only [Array.set!_eq_setIfInBounds, Array.size_setIfInBounds, List.length_cons]
      omega

theorem foldl_release (ks : List Handle) (hh : h.Consistent) :
    (ks.foldl Heap.release h).Consistent := by
  induction ks generalizing h with
  | nil => exact hh
  | cons k ks ih => exact ih (hh.release k)

protected theorem collect (hh : h.Consistent) (roots : List Value) :
    (h.collect roots).Consistent := by
  apply foldl_release
  exact ⟨hh.nil_dead, hh.free_nodup, hh.mem_free, hh.live, hh.liveWords, hh.allocs, hh.places⟩

protected theorem makeRoom (hh : h.Consistent) (words : Int) (roots : List Value) :
    (h.makeRoom words roots).Consistent := by
  unfold Heap.makeRoom
  split
  · exact hh
  · exact hh.collect roots

protected theorem write (hh : h.Consistent) (k : Handle) (i : Nat) (v : Value) :
    (h.write k i v).Consistent :=
  hh.update k fun c _ => by simp [Cell.words]

end Consistent

end Heap

/-! ## Words of shapes -/

namespace Shape

/-- No array in the shape has a negative length. -/
def Sized : Shape → Prop
  | .array n e => 0 ≤ n ∧ e.Sized
  | .hollow n => 0 ≤ n
  | _ => True

/-- The heap words that a new slot takes, counted without a limit. -/
def room : Shape → Nat
  | .array n e => 1 + n.toNat + n.toNat * e.room
  | .hollow n => 1 + n.toNat
  | _ => 0

/-- The heap words that a list of new slots takes. -/
def roomOf (shapes : List Shape) : Nat := (shapes.map room).sum

theorem words_eq_bmod {s : Shape} (hs : s.Sized) :
    s.words = (s.room : Int).bmod 0x10000000000000000 := by
  induction s with
  | array n e ih =>
    obtain ⟨hn, he⟩ := hs
    have hcast : (((array n e).room : Nat) : Int) = 1 + n + n * e.room := by
      simp only [room]
      push_cast
      rw [Int.toNat_of_nonneg hn]
    rw [words, hcast, ih he, ← Int.add_bmod_bmod, Int.mul_bmod_bmod, Int.add_bmod_bmod]
  | hollow n =>
    have hn : 0 ≤ n := hs
    have hcast : (((hollow n).room : Nat) : Int) = 1 + n := by
      simp only [room]
      push_cast
      rw [Int.toNat_of_nonneg hn]
    rw [words, hcast]
  | _ => simp [words, room]

theorem bmod_of_lt {n : Nat} (h : n < 2 ^ 63) : (n : Int).bmod 0x10000000000000000 = n := by
  have : (n : Int) < 2 ^ 63 := by exact_mod_cast h
  rw [Int.bmod_eq_of_le_mul_two] <;> omega

theorem words_eq_room {s : Shape} (hs : s.Sized) (hlt : s.room < 2 ^ 63) : s.words = s.room := by
  rw [words_eq_bmod hs, bmod_of_lt hlt]

theorem foldl_words {ss : List Shape} (hs : ∀ s ∈ ss, s.Sized) (n : Nat) :
    ss.foldl (fun n s => (n + s.words).bmod 0x10000000000000000)
        ((n : Int).bmod 0x10000000000000000) =
      ((n + roomOf ss : Nat) : Int).bmod 0x10000000000000000 := by
  induction ss generalizing n with
  | nil => rw [List.foldl_nil, roomOf, List.map_nil, List.sum_nil, Nat.add_zero]
  | cons s ss ih =>
    have hrest := ih (fun x hx => hs x (List.mem_cons_of_mem s hx)) (n + s.room)
    have hsum : n + roomOf (s :: ss) = n + s.room + roomOf ss := by
      simp [roomOf, Nat.add_assoc]
    rw [List.foldl_cons, words_eq_bmod (hs s List.mem_cons_self), Int.add_bmod_bmod,
      Int.bmod_add_bmod, hsum, ← hrest, Int.natCast_add]

theorem slotWords_eq_bmod {ss : List Shape} (hs : ∀ s ∈ ss, s.Sized) :
    slotWords ss = (roomOf ss : Int).bmod 0x10000000000000000 := by
  have hfold := foldl_words hs 0
  rw [Int.natCast_zero, Int.zero_bmod, Nat.zero_add] at hfold
  rw [slotWords, hfold]

theorem slotWords_eq_roomOf {ss : List Shape} (hs : ∀ s ∈ ss, s.Sized)
    (hlt : roomOf ss < 2 ^ 63) : slotWords ss = roomOf ss := by
  rw [slotWords_eq_bmod hs, bmod_of_lt hlt]

end Shape

/-- The heap words that an object takes, with the arrays in its fields. -/
def ClassDesc.room (d : ClassDesc) : Nat := 1 + d.shapes.length + Shape.roomOf d.shapes

/-- The heap words that the variables of a unit take. -/
def CompiledUnit.globalRoom (u : CompiledUnit) : Nat := Shape.roomOf (u.globals.map (·.shape))

/-! ## Heaps within their budget -/

namespace Heap

variable {h : Heap} {b : Int}

/-- The accounts are right, and neither the words in use nor the handles are more than the budget. -/
structure Within (b : Int) (h : Heap) : Prop where
  consistent : h.Consistent
  budget : h.budget = b
  liveWords : (h.liveWords : Int) ≤ b
  capacity : (h.capacity : Int) ≤ b

/-- Of `total` words, which fit, all but `rest` are in use. The cells in `kept` have so many
elements. -/
structure Room (b : Int) (total : Nat) (kept : List (Handle × Nat)) (rest : Nat) (h : Heap) :
    Prop where
  consistent : h.Consistent
  budget : h.budget = b
  words : h.liveWords + rest = total
  total_le : (total : Int) ≤ b
  capacity : (h.capacity : Int) ≤ b
  kept : ∀ k n, (k, n) ∈ kept → ∃ c, h.get? k = some c ∧ c.elems.size = n

theorem Consistent.live_le (hh : h.Consistent) : h.live ≤ h.liveWords := by
  rw [hh.live, hh.liveWords]
  induction h.liveCells with
  | nil => simp
  | cons c cs ih =>
    simp only [List.length_cons, List.map_cons, List.sum_cons, Cell.words]
    omega

theorem Room.within {total rest : Nat} {kept : List (Handle × Nat)}
    (hr : h.Room b total kept rest) : h.Within b := by
  have hwords := hr.words
  have htotal := hr.total_le
  exact ⟨hr.consistent, hr.budget, by omega, hr.capacity⟩

theorem Room.mono {total rest : Nat} {kept kept' : List (Handle × Nat)}
    (hr : h.Room b total kept rest) (hsub : kept' ⊆ kept) : h.Room b total kept' rest :=
  ⟨hr.consistent, hr.budget, hr.words, hr.total_le, hr.capacity,
    fun k n hk => hr.kept k n (hsub hk)⟩

theorem Within.room (hw : h.Within b) {rest : Nat} (hfits : (h.liveWords : Int) + rest ≤ b) :
    h.Room b (h.liveWords + rest) [] rest :=
  ⟨hw.consistent, hw.budget, rfl, by push_cast; exact hfits, hw.capacity, by simp⟩

@[simp]
theorem liveWords_alloc (h : Heap) (kind : CellKind) (elems : Array Value) :
    (h.alloc kind elems).2.liveWords = h.liveWords + (1 + elems.size) := by
  unfold alloc
  split <;> rfl

@[simp]
theorem budget_alloc (h : Heap) (kind : CellKind) (elems : Array Value) :
    (h.alloc kind elems).2.budget = h.budget := by
  unfold alloc
  split <;> rfl

theorem capacity_alloc (hh : h.Consistent) (kind : CellKind) (elems : Array Value) :
    (h.alloc kind elems).2.capacity ≤ max h.capacity (h.alloc kind elems).2.live := by
  have hplaces := hh.places
  unfold alloc
  split
  case h_1 =>
    simp only [capacity, Array.set!_eq_setIfInBounds, Array.size_setIfInBounds]
    omega
  case h_2 hfree =>
    simp only [hfree, List.length_nil] at hplaces
    simp only [capacity, Array.size_push]
    omega

theorem Room.alloc {total n rest : Nat} {kept : List (Handle × Nat)}
    (hr : h.Room b total kept (1 + n + rest)) (kind : CellKind) {elems : Array Value}
    (hn : elems.size = n) :
    (h.alloc kind elems).2.Room b total (((h.alloc kind elems).1, n) :: kept) rest := by
  have hcons := hr.consistent.alloc kind elems
  have hwords := hr.words
  have htotal := hr.total_le
  refine ⟨hcons, by simp [hr.budget], by simp [hn]; omega, htotal, ?_, ?_⟩
  · have hlive := hcons.live_le
    have hcap := capacity_alloc hr.consistent kind elems
    have hbound := hr.capacity
    rw [liveWords_alloc] at hlive
    omega
  · intro k m hk
    rw [hr.consistent.get?_alloc]
    rcases List.mem_cons.mp hk with hk | hk
    · obtain ⟨rfl, rfl⟩ := Prod.mk.inj hk
      exact ⟨_, if_pos rfl, hn⟩
    · obtain ⟨c, hc, hm⟩ := hr.kept k m hk
      refine ⟨c, ?_, hm⟩
      rw [if_neg, hc]
      rintro rfl
      simp [(hr.consistent.alloc_fst kind elems).2] at hc

theorem capacity_update (h : Heap) (k : Handle) (f : Cell → Cell) :
    (h.update k f).capacity = h.capacity := by
  simp [capacity]

theorem Room.update {total rest : Nat} {kept : List (Handle × Nat)}
    (hr : h.Room b total kept rest) (k : Handle) {f : Cell → Cell}
    (hf : ∀ c, h.get? k = some c → (f c).elems.size = c.elems.size) :
    (h.update k f).Room b total kept rest := by
  refine ⟨hr.consistent.update k ?_, hr.budget, hr.words, hr.total_le, ?_, ?_⟩
  · intro c hc
    rw [Cell.words, Cell.words, hf c hc]
  · rw [capacity_update]
    exact hr.capacity
  · intro j n hj
    obtain ⟨c, hc, hn⟩ := hr.kept j n hj
    rw [get?_update]
    split
    case isTrue hjk =>
      subst hjk
      exact ⟨f c, by simp [hc], (hf c hc).trans hn⟩
    case isFalse => exact ⟨c, hc, hn⟩

theorem Room.setElems {total rest n : Nat} {kept : List (Handle × Nat)} {k : Handle}
    (hr : h.Room b total kept rest) (hk : (k, n) ∈ kept) {elems : Array Value}
    (hn : elems.size = n) : (h.setElems k elems).Room b total kept rest := by
  apply hr.update
  intro c hc
  obtain ⟨c', hc', hn'⟩ := hr.kept k n hk
  rw [hc, Option.some.injEq] at hc'
  rw [hc', hn', hn]

theorem Within.update (hw : h.Within b) (k : Handle) {f : Cell → Cell}
    (hf : ∀ c, h.get? k = some c → (f c).elems.size = c.elems.size) : (h.update k f).Within b := by
  have hroom : h.Room b _ [] 0 := hw.room (by simpa using hw.liveWords)
  exact (hroom.update k hf).within

theorem foldl_release_liveWords_le (ks : List Handle) (h : Heap) :
    (ks.foldl release h).liveWords ≤ h.liveWords ∧ (ks.foldl release h).budget = h.budget := by
  induction ks generalizing h with
  | nil => exact ⟨Nat.le_refl _, rfl⟩
  | cons k ks ih =>
    have hrelease : (h.release k).liveWords ≤ h.liveWords ∧ (h.release k).budget = h.budget := by
      unfold release
      split
      · exact ⟨Nat.le_refl _, rfl⟩
      · exact ⟨Nat.sub_le _ _, rfl⟩
    obtain ⟨hwords, hbudget⟩ := ih (h.release k)
    exact ⟨Nat.le_trans hwords hrelease.1, hbudget.trans hrelease.2⟩

theorem liveWords_collect_le (h : Heap) (roots : List Value) :
    (h.collect roots).liveWords ≤ h.liveWords :=
  (foldl_release_liveWords_le _ _).1

theorem Within.collect (hw : h.Within b) (roots : List Value) : (h.collect roots).Within b := by
  have hle := liveWords_collect_le h roots
  have hwords := hw.liveWords
  refine ⟨hw.consistent.collect roots, ?_, by omega, ?_⟩
  · exact (foldl_release_liveWords_le _ _).2.trans hw.budget
  · rw [Heap.capacity, Heap.collect, (cells_size_foldl_release _ _).1]
    exact hw.capacity

theorem Within.fits_iff (hw : h.Within b) {w : Nat} (hlt : h.liveWords + w < 2 ^ 63) :
    h.fits w = true ↔ (h.liveWords : Int) + w ≤ b := by
  have hexact := Shape.bmod_of_lt hlt
  push_cast at hexact
  rw [fits, hexact, hw.budget, decide_eq_true_iff]

theorem Within.ofBudget (budget : Int) :
    (ofBudget budget).Within (Heap.ofBudget budget).budget := by
  have hpos : 0 ≤ (Heap.ofBudget budget).budget := by
    simp only [Heap.ofBudget, defaultBudget]
    split <;> omega
  exact ⟨.ofBudget budget, rfl, hpos, hpos⟩

end Heap

end Pascaline
