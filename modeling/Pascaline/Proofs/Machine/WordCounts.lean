import Pascaline.Lowering
import Pascaline.Proofs.Machine.Spending
import Pascaline.Proofs.Storage.Behaviour

/-!
# Counting words

Room is made for the words that a slot takes before any of them is used. They are counted in 64-bit
words: the count of an array type is the exact number reduced to a word, so it is right for just
the types whose slots take fewer than `2 ^ 63` words. Where it is right, an allocation that the
budget does not hold is refused. Lengths are checked one at a time, so their product may be more.
-/

namespace Pascaline

/-! ## Shapes of types -/

theorem TypeTable.sized_of_slotShape {t : TypeTable} {id : TypeId} {s : Shape}
    (h : t.slotShape id = .ok s) : s.Sized := by
  unfold slotShape at h
  generalize t.shapes.size + 1 = fuel at h
  induction fuel generalizing id s with
  | zero => cases h
  | succ fuel ih =>
    unfold slotShapeFrom at h
    split at h
    case h_1 => cases h
    case h_8 =>
      obtain ⟨e, he, h⟩ := except_bind_ok h
      cases h
      exact ⟨Int.natCast_nonneg _, ih he⟩
    all_goals
      cases h
      trivial

theorem TypeTable.sized_of_mapM {t : TypeTable} {ids : List TypeId} {shapes : List Shape}
    (h : ids.mapM t.slotShape = .ok shapes) : ∀ s ∈ shapes, s.Sized := by
  intro s hs
  obtain ⟨id, -, hid⟩ := forall₂_exists_mem (mapM_eq_ok h).flip hs
  exact sized_of_slotShape hid

namespace Shape

/-- A number reduced to a signed word is the number exactly if it is below the half of the words. -/
theorem bmod_eq_iff {n : Nat} :
    (0 ≤ (n : Int).bmod 0x10000000000000000 ∧ (n : Int).bmod 0x10000000000000000 = n) ↔
      n < 2 ^ 63 := by
  constructor
  · rintro ⟨-, h⟩
    have hlt := Int.bmod_lt (x := (n : Int)) (m := 0x10000000000000000) (by decide)
    omega
  · intro h
    rw [bmod_of_lt h]
    exact ⟨Int.natCast_nonneg n, rfl⟩

end Shape

namespace Exec

variable {m m' : Machine}

/-! ## Zeroing -/

theorem alloc_liveWords (kind : CellKind) (n : Int) (w : Nat) :
    Triple (·.heap.liveWords = w) (alloc kind n) (fun _ m => m.heap.liveWords = w + (1 + n.toNat))
      fun _ _ => True := by
  unfold alloc
  refine Triple.unlessBroken (fun _ _ _ => trivial) fun _ => ?_
  refine Triple.bind (R := fun _ m => m.heap.liveWords = w + (1 + n.toNat)) ?_ fun h => ?_
  · exact Triple.modifyGet fun m hm => by simp [hm]
  · refine Triple.bind ?_ fun _ => Triple.pure fun m hm => hm
    exact ((quiet_log _).keeps (·.liveWords = w + (1 + n.toNat))).halting fun _ _ _ => trivial

theorem fill_liveWords {x : Exec Value} {cost : Nat}
    (hx : ∀ w, Triple (·.heap.liveWords = w) x (fun _ m => m.heap.liveWords = w + cost)
      fun _ _ => True) (n w : Nat) (vs : Array Value) :
    Triple (·.heap.liveWords = w) (fill x n vs) (fun _ m => m.heap.liveWords = w + n * cost)
      fun _ _ => True := by
  induction n generalizing w vs with
  | zero => exact Triple.pure fun m hm => by simpa using hm
  | succ n ih =>
    refine Triple.bind (hx w) fun v => (ih (w + cost) (vs.push v)).post fun _ m hm => ?_
    rw [hm, Nat.succ_mul]
    omega

theorem zero_liveWords (s : Shape) (w : Nat) :
    Triple (·.heap.liveWords = w) (zero s) (fun _ m => m.heap.liveWords = w + s.room)
      fun _ _ => True := by
  induction s generalizing w with
  | array n e ih =>
    refine Triple.bind (alloc_liveWords .array n w) fun h => ?_
    refine Triple.bind (fill_liveWords ih n.toNat _ #[]) fun elems => ?_
    refine Triple.bind (R := fun _ m => m.heap.liveWords = w + (Shape.array n e).room) ?_
      fun _ => Triple.pure fun m hm => hm
    refine Triple.modify fun m hm => ?_
    rw [Heap.setElems, Heap.update, hm, Shape.room]
    omega
  | hollow n => exact Triple.raise fun m hm => trivial
  | _ => exact Triple.pure fun m hm => hm

theorem zeroAll_liveWords (shapes : List Shape) (w : Nat) :
    Triple (·.heap.liveWords = w) (zeroAll shapes)
      (fun _ m => m.heap.liveWords = w + Shape.roomOf shapes) fun _ _ => True := by
  induction shapes generalizing w with
  | nil => exact Triple.pure fun m hm => hm
  | cons s ss ih =>
    refine Triple.bind (zero_liveWords s w) fun v => ?_
    refine Triple.bind (ih (w + s.room)) fun vs => Triple.pure fun m hm => ?_
    rw [hm, Shape.roomOf, Shape.roomOf, List.map_cons, List.sum_cons, Nat.add_assoc]

/-! ## Reserving too much -/

theorem Triple.stops {α : Type} {x : Exec α} {E : Stop → Machine → Prop}
    (h : Triple (· = m) x (fun _ _ => False) E) : ∃ e m', x m = .error e m' ∧ E e m' := by
  have hm := h m rfl
  cases hx : x m with
  | ok a m' =>
    rw [hx] at hm
    exact hm.elim
  | error e m' =>
    rw [hx] at hm
    exact ⟨e, m', rfl, hm⟩

/-- The heap is exhausted, as `m` asked for so many words, and nothing has come into use. -/
structure Exhausted (m : Machine) (words : Int) (e : Stop) (m' : Machine) : Prop where
  fault : e = .fault (m'.faultOf (.heapExhausted words m.heap.budget))
  words : m'.heap.liveWords ≤ m.heap.liveWords

theorem reserve_exhausted {w : Nat} (hpos : 0 < m.heap.budget)
    (hw : m.heap.liveWords + w < 2 ^ 63) (hbudget : m.heap.budget < w) :
    Triple (· = m) (reserve w) (fun _ _ => False) (Exhausted m w) := by
  have hfull : ∀ h : Heap, h.budget = m.heap.budget → h.liveWords ≤ m.heap.liveWords →
      ¬h.fits w := by
    intro h hb hle
    have hexact := Shape.bmod_of_lt (n := h.liveWords + w) (by omega)
    push_cast at hexact
    rw [Heap.fits, hexact, hb, decide_eq_true_iff]
    omega
  unfold reserve
  refine Triple.ite (fun hzero => by omega) fun _ => ?_
  refine Triple.bind Triple.get fun m₁ => ?_
  refine Triple.ite (fun hfits => Triple.pure ?_) fun _ => ?_
  · rintro m ⟨rfl, rfl⟩
    exact hfull _ rfl (Nat.le_refl _) hfits
  let Less := fun h : Heap => h.budget = m.heap.budget ∧ h.liveWords ≤ m.heap.liveWords
  have hcollect : Triple (· = m) collect (fun _ m' => Less m'.heap) (Exhausted m w) := by
    refine Triple.bind Triple.get fun m₂ => ?_
    refine Triple.bind (R := fun _ m' => Less m'.heap) (Triple.modify ?_) fun _ => ?_
    · rintro m' ⟨-, rfl⟩
      exact ⟨(Heap.foldl_release_liveWords_le _ _).2, Heap.liveWords_collect_le _ _⟩
    · refine Triple.modify fun m' hm => ?_
      unfold Machine.log
      split
      · split <;> exact hm
      · exact hm
  refine Triple.bind (hcollect.pre fun m' hm => hm.2) fun _ => ?_
  refine Triple.bind Triple.get fun m₂ => Triple.ite (fun _ => ?_) fun hfits => Triple.pure ?_
  · refine Triple.bind Triple.get fun m₃ => Triple.raise ?_
    rintro m' ⟨rfl, -, hb, hle⟩
    exact ⟨by rw [hb], hle⟩
  · rintro m' ⟨rfl, hb, hle⟩
    exact hfull _ hb hle (by simpa using hfits)

/-! ## Allocating instructions -/

variable {p : Program} {u : LinkedUnit} {i : Instr} {f : Frame} {s : Shape} {k : Nat}

/-- The instruction takes an array of `n` elements, of a shape of the unit. -/
structure Asks (u : LinkedUnit) (i : Instr) (m : Machine) (n : Int64) (s : Shape) : Prop where
  index : 0 ≤ i.a
  shape : u.unit.pool.shapes[i.a.toNat]? = some s
  count : (i.op = .newArray ∧ ∃ f vs, m.frames.head? = some f ∧ f.operands = .int n :: vs) ∨
    i.op = .newCell ∧ n = 1

theorem entry_bind {α β : Type} {xs : Array α} {k : Int} {x : α} (hk : 0 ≤ k)
    (hx : xs[k.toNat]? = some x) (g : α → Exec β) : (entry xs k >>= g) = g x := by
  have hk : ¬k < 0 := by omega
  simp [entry, expect, hk, hx]

theorem peek_triple {β : Type} {v : Value} {vs : List Value} {g : Value → Exec β}
    {Q : β → Machine → Prop} {E : Stop → Machine → Prop} (hf : m.frames.head? = some f)
    (hv : f.operands = v :: vs) (hg : Triple (· = m) (g v) Q E) :
    Triple (· = m) (peek >>= g) Q E := by
  rintro m rfl
  have hpeek : peek m = .ok v m := by
    show (expect m.frames.head? >>= fun f => expect f.operands.head?) m = .ok v m
    rw [hf]
    show expect f.operands.head? m = .ok v m
    rw [hv]
    rfl
  rw [bind_of_ok hpeek]
  exact hg m rfl

/-- An array that the budget does not hold is refused. A length that is by itself more than the
budget is not counted: one word more than the budget is named. -/
theorem allocate_exhausted {n : Int64} (hn : 0 ≤ n) (hs : s.Sized) (hasks : Asks u i m n s)
    (hpos : 0 < m.heap.budget)
    (hw : m.heap.liveWords + (Shape.array n.toInt s).room < 2 ^ 63)
    (hbudget : m.heap.budget < (Shape.array n.toInt s).room) :
    Triple (· = m) (allocate p u i) (fun _ _ => False)
      (Exhausted m (if m.heap.budget < n.toInt then m.heap.budget + 1
        else (Shape.array n.toInt s).room)) := by
  have hn' : 0 ≤ n.toInt := by simpa using Int64.le_iff_toInt_le.mp hn
  have hwords := Shape.words_eq_room (s := .array n.toInt s) ⟨hn', hs⟩ (by omega)
  have hreserve := reserve_exhausted hpos hw hbudget
  obtain ⟨hop, f, vs, hf, hv⟩ | ⟨hop, rfl⟩ := hasks.count
  · unfold allocate
    simp only [hop]
    rw [entry_bind hasks.index hasks.shape]
    refine peek_triple hf hv ?_
    refine Triple.unless (fun hneg => ?_) fun _ => ?_
    · rw [Int64.lt_iff_toInt_lt] at hneg
      exact absurd hn' (by simpa using hneg)
    refine Triple.bind Triple.get fun m₁ => ?_
    refine Triple.fact (p := m₁ = m) (fun m' hm => hm.1.trans hm.2) ?_
    rintro rfl
    refine Triple.unless (fun hlarge => ?_) fun hle => ?_
    · rintro m' ⟨-, rfl⟩
      rw [if_pos hlarge]
      exact ⟨rfl, Nat.le_refl _⟩
    · rw [if_neg hle, hwords]
      exact (Triple.bind hreserve fun _ _ h => h.elim).pre fun m' hm => hm.2
  · unfold allocate
    simp only [hop]
    have hone : ¬m.heap.budget < (1 : Int64).toInt := by
      show ¬m.heap.budget < 1
      omega
    rw [entry_bind hasks.index hasks.shape, if_neg hone]
    show Triple (· = m) (reserve (Shape.array (1 : Int64).toInt s).words >>= fun _ => _) _ _
    rw [hwords]
    exact Triple.bind hreserve fun _ _ h => h.elim

theorem zeroAll_takes {shapes : List Shape} {vs : List Value}
    (h : zeroAll shapes m = .ok vs m') :
    m'.heap.liveWords = m.heap.liveWords + Shape.roomOf shapes := by
  have hzero := zeroAll_liveWords shapes m.heap.liveWords m rfl
  rwa [h] at hzero

theorem zero_takes {v : Value} (h : zero s m = .ok v m') :
    m'.heap.liveWords = m.heap.liveWords + s.room := by
  have hzero := zero_liveWords s m.heap.liveWords m rfl
  rwa [h] at hzero

end Exec

open Exec

/-- The words of slots whose types the table has are counted right exactly if there are fewer than
`2 ^ 63`, and these are the words that zeroing the slots brings into use. With the words in use
below that limit, a reservation beyond the budget is refused. The same is true of an array of any
length of such slots, which a program takes with one instruction. -/
theorem words_counted_right {t : TypeTable} {ids : List TypeId} {shapes : List Shape}
    (h : ids.mapM t.slotShape = .ok shapes) :
    ((0 ≤ slotWords shapes ∧ slotWords shapes = Shape.roomOf shapes) ↔
      Shape.roomOf shapes < 2 ^ 63) ∧
    (∀ m vs m', zeroAll shapes m = .ok vs m' →
      m'.heap.liveWords = m.heap.liveWords + Shape.roomOf shapes) ∧
    (∀ m : Machine, 0 < m.heap.budget → m.heap.liveWords + Shape.roomOf shapes < 2 ^ 63 →
      m.heap.budget < Shape.roomOf shapes →
      ∃ e m', reserve (slotWords shapes) m = .error e m' ∧
        Exhausted m (Shape.roomOf shapes) e m') ∧
    ∀ s ∈ shapes, ∀ n : Int64, 0 ≤ n →
      ((0 ≤ (Shape.array n.toInt s).words ∧
          (Shape.array n.toInt s).words = (Shape.array n.toInt s).room) ↔
        (Shape.array n.toInt s).room < 2 ^ 63) ∧
      (∀ m v m', zero (.array n.toInt s) m = .ok v m' →
        m'.heap.liveWords = m.heap.liveWords + (Shape.array n.toInt s).room) ∧
      ∀ p u i m, Asks u i m n s → 0 < m.heap.budget →
        m.heap.liveWords + (Shape.array n.toInt s).room < 2 ^ 63 →
        m.heap.budget < (Shape.array n.toInt s).room →
        ∃ e m', allocate p u i m = .error e m' ∧
          Exhausted m (if m.heap.budget < n.toInt then m.heap.budget + 1
            else (Shape.array n.toInt s).room) e m' := by
  have hsized := TypeTable.sized_of_mapM h
  refine ⟨?_, fun m vs m' => zeroAll_takes, ?_, ?_⟩
  · rw [Shape.slotWords_eq_bmod hsized]
    exact Shape.bmod_eq_iff
  · intro m hpos hw hbudget
    rw [Shape.slotWords_eq_roomOf hsized (by omega)]
    exact (reserve_exhausted hpos hw hbudget).stops
  intro s hs n hn
  have harray : (Shape.array n.toInt s).Sized :=
    ⟨by simpa using Int64.le_iff_toInt_le.mp hn, hsized s hs⟩
  refine ⟨?_, fun m v m' => zero_takes, ?_⟩
  · rw [Shape.words_eq_bmod harray]
    exact Shape.bmod_eq_iff
  · intro p u i m hasks hpos hw hbudget
    exact (allocate_exhausted hn (hsized s hs) hasks hpos hw hbudget).stops

/-- Types with three rows of four integers, the ninth. -/
def rowTypes : TypeTable := ((TypeTable.empty.array TypeTable.integer 4).2.array 8 3).2

/-- Three rows of four are nineteen words, which a budget of ten does not hold. -/
theorem words_counted_right_rows :
    [9].mapM rowTypes.slotShape = .ok [.array 3 (.array 4 .int)] ∧
      slotWords [.array 3 (.array 4 .int)] = 19 ∧
      ∃ e m', reserve (slotWords [.array 3 (.array 4 .int)])
          (Machine.blank { heapBudget := 10 }) = .error e m' ∧
        Exhausted (Machine.blank { heapBudget := 10 }) 19 e m' := by
  have hshapes : [9].mapM rowTypes.slotShape = .ok [.array 3 (.array 4 .int)] := by cbv
  have hcounted := words_counted_right hshapes
  exact ⟨hshapes, (hcounted.1.mpr (by decide)).2,
    hcounted.2.2.1 _ (by decide) (by decide) (by decide)⟩

/-- The machine broke down. -/
def Ending.brokeDown : Ending → Bool
  | .ran ⟨_, some .breakdown⟩ => true
  | _ => false

/-- A program that takes more rows than there is memory for. -/
def countlessRows : List (String × Bytes) :=
  [("main.pas", utf8 ("program p; type row = array[4] of integer; var a: array of row; " ++
    "begin a := new row[4611686018427387904] end."))]

/-- A program with a variable of more words than 64 bits count. -/
def boundlessTable : List (String × Bytes) :=
  [("main.pas", utf8 ("program p; var a: array[2147483649] of array[4294967294] of integer; " ++
    "begin end."))]

/-- The words of an array, reduced to a negative number, fit into a budget that is smaller than the
array, and the machine breaks down where the heap should be exhausted. A fixed array passes the
check under the least budget, too. -/
theorem words_counted_wrong :
    ∃ rows table, Compilation.ofSources countlessRows = .ok rows ∧
      rows.units.flatMap (·.pool.shapes.toList) = [.array 4 .int] ∧
      (2 : Int) ^ 62 < (Shape.array (2 ^ 62) (.array 4 .int)).room ∧
      (Ending.ofUnits rows.units { heapBudget := 2 ^ 62 } none 40).brokeDown ∧
      Compilation.ofSources boundlessTable = .ok table ∧
      table.units.flatMap (·.globals.map (·.shape)) =
        [.array 2147483649 (.array 4294967294 .int)] ∧
      slotWords [.array 2147483649 (.array 4294967294 .int)] < 0 ∧
      (Heap.ofBudget 1).fits (slotWords [.array 2147483649 (.array 4294967294 .int)]) := by
  let rows := (Compilation.ofSources countlessRows).toOption.getD {}
  let table := (Compilation.ofSources boundlessTable).toOption.getD {}
  have hrows : (Compilation.ofSources countlessRows).toOption.isSome = true ∧
      rows.units.flatMap (·.pool.shapes.toList) = [.array 4 .int] ∧
      (Ending.ofUnits rows.units { heapBudget := 2 ^ 62 } none 40).brokeDown := by
    decide +kernel
  have htable : (Compilation.ofSources boundlessTable).toOption.isSome = true ∧
      table.units.flatMap (·.globals.map (·.shape)) =
        [.array 2147483649 (.array 4294967294 .int)] := by
    decide +kernel
  exact ⟨rows, table, eq_ok_of_isSome hrows.1, hrows.2.1, by decide +kernel, hrows.2.2,
    eq_ok_of_isSome htable.1, htable.2, by decide +kernel, by decide +kernel⟩

end Pascaline
