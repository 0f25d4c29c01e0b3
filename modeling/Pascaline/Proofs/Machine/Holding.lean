import Pascaline.Proofs.Heap.Collection
import Pascaline.Proofs.Machine.Triple

/-!
# No dangling references

Collections happen in the middle of instructions. A step has two phases: until it has made room for
what it allocates, the heap is the one it started with and all references are still rooted; after
that nothing is freed, so the values in its hands stay alive.
-/

namespace Pascaline

/-- The handle denotes the same object in both heaps. -/
def Heap.SameObject (h h' : Heap) (k : Handle) : Prop :=
  ∃ c c', h.get? k = some c ∧ h'.get? k = some c' ∧ c'.serial = c.serial

namespace Machine

/-- Every reference in a variable, on an operand stack or in a live cell is nil or denotes a live
cell. -/
structure Safe (m : Machine) : Prop where
  heap : m.heap.Sound
  roots : ∀ v ∈ m.roots, v.LiveIn m.heap

theorem mem_roots {m : Machine} {v : Value} :
    v ∈ m.roots ↔ (∃ g ∈ m.globals, v ∈ g) ∨ ∃ f ∈ m.frames, v ∈ f.locals ∨ v ∈ f.operands := by
  simp [roots]

/-- A set of handles that holds the roots of a machine and, with a cell, all it refers to. -/
structure Support (m : Machine) (S : Handle → Prop) : Prop where
  roots : ∀ k, k ≠ 0 → .ref k ∈ m.roots → S k
  elems : ∀ j c k, S j → m.heap.get? j = some c → .ref k ∈ c.elems → k ≠ 0 → S k

/-- `h` comes from the heap of `m`: the cells of a support are still the same objects, and all
others were made since. -/
def Tracks (m : Machine) (h : Heap) : Prop :=
  ∃ S, m.Support S ∧ (∀ k, S k → m.heap.SameObject h k) ∧
    (∀ k c, h.get? k = some c → S k ∨ m.heap.allocs ≤ c.serial) ∧ m.heap.allocs ≤ h.allocs

theorem Tracks.grow {m : Machine} {h h' : Heap} (ht : m.Tracks h) (hg : h.Grows h') :
    m.Tracks h' := by
  obtain ⟨S, hS, hsame, hnew, hle⟩ := ht
  refine ⟨S, hS, ?_, ?_, Nat.le_trans hle hg.allocs⟩
  · intro k hk
    obtain ⟨c, c', hc, hc', hserial⟩ := hsame k hk
    obtain ⟨c'', hc'', hserial'⟩ := hg.keeps k c' hc'
    exact ⟨c, c'', hc, hc'', hserial'.trans hserial⟩
  · intro k c' hc'
    rcases hg.fresh k c' hc' with ⟨c, hc, hserial⟩ | hfresh
    · rw [hserial]
      exact hnew k c hc
    · exact Or.inr (Nat.le_trans hle hfresh)

theorem Safe.tracks {m : Machine} (hm : m.Safe) : m.Tracks m.heap := by
  refine ⟨fun k => (m.heap.get? k).isSome, ⟨?_, ?_⟩, ?_, ?_, Nat.le_refl _⟩
  · intro k hk hmem
    exact (hm.roots _ hmem k rfl).resolve_left hk
  · intro j c k _ hc hmem hk
    exact (hm.heap.elems_live j c hc _ hmem k rfl).resolve_left hk
  · intro k hk
    obtain ⟨c, hc⟩ := Option.isSome_iff_exists.mp hk
    exact ⟨c, c, hc, hc, rfl⟩
  · intro k c hc
    exact Or.inl (by simp [hc])

/-- The first phase of a step from `m₀`: the heap is the same and all references are rooted. -/
structure Calm (m₀ m : Machine) : Prop where
  safe : m.Safe
  heap : m.heap = m₀.heap
  roots : ∀ k, .ref k ∈ m₀.roots → .ref k ∈ m.roots

/-- The second phase of a step from `m₀`, with the values `vs` in its hands. -/
structure Holding (m₀ : Machine) (vs : List Value) (m : Machine) : Prop where
  safe : m.Safe
  tracks : m₀.Tracks m.heap
  hands : ∀ v ∈ vs, v.LiveIn m.heap

variable {m₀ m : Machine} {vs : List Value}

theorem Calm.tracks (hm : Calm m₀ m) : m₀.Tracks m.heap := by
  have hsafe : m₀.Safe := by
    refine ⟨hm.heap ▸ hm.safe.heap, ?_⟩
    rintro v hv k rfl
    rw [← hm.heap]
    exact hm.safe.roots _ (hm.roots k hv) k rfl
  rw [hm.heap]
  exact hsafe.tracks

theorem Calm.holding (hm : Calm m₀ m) : Holding m₀ [] m := ⟨hm.safe, hm.tracks, by simp⟩

theorem Holding.mono {ws : List Value} (hm : Holding m₀ vs m) (hsub : ∀ v ∈ ws, v ∈ vs) :
    Holding m₀ ws m :=
  ⟨hm.safe, hm.tracks, fun v hv => hm.hands v (hsub v hv)⟩

theorem Holding.take {v : Value} (hm : Holding m₀ vs m) (hv : v.LiveIn m.heap) :
    Holding m₀ (v :: vs) m :=
  ⟨hm.safe, hm.tracks, List.forall_mem_cons.mpr ⟨hv, hm.hands⟩⟩

theorem Holding.halts (hm : Holding m₀ vs m) : Holding m₀ [] m := hm.mono (by simp)

/-- Every value of the new roots was a root or in hand, and the heap is as before. -/
theorem Holding.reroot {m' : Machine} (hm : Holding m₀ vs m) (hheap : m'.heap = m.heap)
    (hroots : ∀ v ∈ m'.roots, v ∈ m.roots ∨ v ∈ vs) : Holding m₀ vs m' := by
  refine ⟨⟨hheap ▸ hm.safe.heap, ?_⟩, hheap ▸ hm.tracks, hheap ▸ hm.hands⟩
  intro v hv
  rw [hheap]
  rcases hroots v hv with hv | hv
  · exact hm.safe.roots v hv
  · exact hm.hands v hv

theorem Holding.grow {m' : Machine} (hm : Holding m₀ vs m) (hg : m.heap.Grows m'.heap)
    (hs : m'.heap.Sound) (hroots : m'.roots = m.roots) : Holding m₀ vs m' := by
  refine ⟨⟨hs, ?_⟩, hm.tracks.grow hg, fun v hv => hg.liveIn (hm.hands v hv)⟩
  rw [hroots]
  exact fun v hv => hg.liveIn (hm.safe.roots v hv)

theorem Holding.of_frames {f : Frame} {v : Value} (hm : Holding m₀ vs m)
    (hf : m.frames.head? = some f) (hv : v ∈ f.locals ∨ v ∈ f.operands) : v.LiveIn m.heap :=
  hm.safe.roots v (mem_roots.mpr (Or.inr ⟨f, List.mem_of_head? hf, hv⟩))

end Machine

namespace Exec

open Machine

variable {α : Type} {m₀ : Machine} {vs : List Value}

/-- Where a step from `m₀` may stop. -/
def Halts (m₀ : Machine) : Stop → Machine → Prop := fun _ => Holding m₀ []

theorem holding_halts {e : Machine → Stop} : ∀ m, Holding m₀ vs m → Halts m₀ (e m) m :=
  fun _ hm => hm.halts

theorem calm_halts {e : Machine → Stop} : ∀ m, Calm m₀ m → Halts m₀ (e m) m :=
  fun _ hm => hm.holding

/-! ## Parts of instructions -/

theorem log_holding (e : Machine → TraceEvent) :
    Triple (Holding m₀ vs) (log e) (fun _ => Holding m₀ vs) (Halts m₀) := by
  refine Triple.modify ?_
  intro m hm
  unfold Machine.log
  split
  · split
    · exact hm
    · exact hm.reroot rfl fun v hv => Or.inl hv
  · exact hm

theorem modifyTop_holding {f : Frame → Frame}
    (hlocals : ∀ fr, ∀ v ∈ (f fr).locals, v ∈ fr.locals ∨ v ∈ vs)
    (hoperands : ∀ fr, ∀ v ∈ (f fr).operands, v ∈ fr.operands ∨ v ∈ vs) :
    Triple (Holding m₀ vs) (modifyTop f) (fun _ => Holding m₀ vs) (Halts m₀) := by
  refine Triple.modify ?_
  intro m hm
  split
  case h_2 => exact hm
  case h_1 fr rest hframes =>
    refine hm.reroot rfl ?_
    intro v hv
    rw [mem_roots] at hv ⊢
    rw [hframes]
    rcases hv with hv | ⟨g, hg, hv⟩
    · exact Or.inl (Or.inl hv)
    · rcases List.mem_cons.mp hg with rfl | hg
      · rcases hv with hv | hv
        · rcases hlocals fr v hv with hv | hv
          · exact Or.inl (Or.inr ⟨fr, List.mem_cons_self, Or.inl hv⟩)
          · exact Or.inr hv
        · rcases hoperands fr v hv with hv | hv
          · exact Or.inl (Or.inr ⟨fr, List.mem_cons_self, Or.inr hv⟩)
          · exact Or.inr hv
      · exact Or.inl (Or.inr ⟨g, List.mem_cons_of_mem _ hg, hv⟩)

theorem push_holding {v : Value} (hv : v ∈ vs) :
    Triple (Holding m₀ vs) (push v) (fun _ => Holding m₀ vs) (Halts m₀) := by
  refine modifyTop_holding (fun fr w hw => Or.inl hw) ?_
  intro fr w hw
  rcases List.mem_cons.mp hw with rfl | hw
  · exact Or.inr hv
  · exact Or.inl hw

theorem pop_holding :
    Triple (Holding m₀ vs) pop (fun v => Holding m₀ (v :: vs)) (Halts m₀) := by
  intro m hm
  cases hframes : m.frames with
  | nil =>
    simp only [pop, hframes]
    exact hm.halts
  | cons f rest =>
    cases hops : f.operands with
    | nil =>
      simp only [pop, hframes, hops]
      exact hm.halts
    | cons v ws =>
      simp only [pop, hframes, hops]
      refine (hm.take (hm.of_frames (f := f) (by simp [hframes]) (by simp [hops]))).reroot rfl ?_
      intro w hw
      rw [mem_roots] at hw ⊢
      left
      rw [hframes]
      rcases hw with hw | ⟨g, hg, hw⟩
      · exact Or.inl hw
      · rcases List.mem_cons.mp hg with rfl | hg
        · refine Or.inr ⟨f, List.mem_cons_self, hw.imp id ?_⟩
          exact fun hw => hops ▸ List.mem_cons_of_mem v hw
        · exact Or.inr ⟨g, List.mem_cons_of_mem _ hg, hw⟩

theorem peek_holding :
    Triple (Holding m₀ vs) peek (fun v => Holding m₀ (v :: vs)) (Halts m₀) := by
  refine Triple.bind (Triple.top holding_halts) ?_
  intro f
  refine (Triple.expect fun m hm => hm.1.halts).post ?_
  rintro v m ⟨⟨hm, hf⟩, hv⟩
  exact hm.take (hm.of_frames hf (Or.inr (List.mem_of_head? hv)))

theorem popMany_holding (n : Int) :
    Triple (Holding m₀ vs) (popMany n) (fun ws => Holding m₀ (ws ++ vs)) (Halts m₀) := by
  refine Triple.bind (Triple.top holding_halts) ?_
  intro f
  refine Triple.ite (fun _ => Triple.breakdown fun m hm => hm.1.halts) fun _ => ?_
  -- The values are in hand before they leave the stack.
  have htake : ∀ m, Holding m₀ vs m ∧ m.frames.head? = some f →
      Holding m₀ ((f.operands.take n.toNat).reverse ++ vs) m := by
    rintro m ⟨hm, hf⟩
    refine ⟨hm.safe, hm.tracks, ?_⟩
    intro v hv
    rcases List.mem_append.mp hv with hv | hv
    · exact hm.of_frames hf (Or.inr (List.mem_of_mem_take (List.mem_reverse.mp hv)))
    · exact hm.hands v hv
  refine Triple.bind (Triple.pre (modifyTop_holding ?_ ?_) htake) ?_
  · exact fun fr v hv => Or.inl hv
  · exact fun fr v hv => Or.inl (List.mem_of_mem_drop hv)
  · exact fun _ => Triple.pure fun m hm => hm

/-! ## Room and cells -/

theorem collect_holding :
    Triple (Calm m₀) collect (fun _ => Holding m₀ []) (Halts m₀) := by
  refine Triple.bind (Triple.get) ?_
  intro m₁
  refine Triple.bind (R := fun _ => Holding m₀ []) ?_ (fun _ => log_holding _)
  refine Triple.modify ?_
  rintro m ⟨-, hm⟩
  have hsound := hm.safe.heap
  refine ⟨⟨hsound.collect _, ?_⟩, ?_, by simp⟩
  · exact fun v hv => Heap.liveIn_collect (hm.safe.roots v hv) hv
  · -- The support is what the collection reaches.
    obtain ⟨hsafe, hheap, hroots⟩ := hm
    refine ⟨fun k => (m.heap.get? k).isSome ∧ m.heap.Reached m.roots k, ⟨?_, ?_⟩, ?_, ?_, ?_⟩
    · intro k hk hmem
      have hlive := (hsafe.roots _ (hroots k hmem) k rfl).resolve_left hk
      exact ⟨hlive, Heap.reached_of_root (hroots k hmem) hlive⟩
    · rintro j c k ⟨-, hj⟩ hc hmem hk
      rw [← hheap] at hc
      have hlive := (hsound.elems_live j c hc _ hmem k rfl).resolve_left hk
      exact ⟨hlive, Heap.reached_of_elem hj hc hmem hlive⟩
    · rintro k ⟨hk, hreach⟩
      obtain ⟨c, hc⟩ := Option.isSome_iff_exists.mp hk
      exact ⟨c, c, hheap ▸ hc, (Heap.get?_collect _ _ k c).mpr ⟨hc, hreach⟩, rfl⟩
    · intro k c hc
      obtain ⟨hc, hreach⟩ := (Heap.get?_collect _ _ k c).mp hc
      exact Or.inl ⟨by simp [hc], hreach⟩
    · rw [← hheap]
      exact Nat.le_of_eq (Heap.allocs_collect m.heap m.roots).symm

theorem reserve_holding (words : Int) :
    Triple (Calm m₀) (reserve words) (fun _ => Holding m₀ []) (Halts m₀) := by
  unfold reserve
  refine Triple.ite (fun _ => Triple.pure fun m hm => hm.holding) fun _ => ?_
  refine Triple.bind Triple.get ?_
  intro m₁
  refine Triple.ite (fun _ => Triple.pure fun m hm => hm.2.holding) fun _ => ?_
  refine Triple.bind (collect_holding.pre fun m hm => hm.2) ?_
  intro _
  refine Triple.bind Triple.get ?_
  intro m₂
  refine Triple.ite (fun _ => ?_) (fun _ => Triple.pure fun m hm => hm.2)
  refine Triple.bind Triple.get ?_
  intro m₃
  exact Triple.raise fun m hm => hm.2.2

theorem alloc_holding (kind : CellKind) (n : Int) :
    Triple (Holding m₀ vs) (alloc kind n) (fun h => Holding m₀ (.ref h :: vs)) (Halts m₀) := by
  unfold alloc
  refine Triple.unlessBroken (fun _ => holding_halts) fun _ => ?_
  refine Triple.bind (R := fun h => Holding m₀ (.ref h :: vs)) ?_ ?_
  · refine Triple.modifyGet ?_
    intro m hm
    have hsound := hm.safe.heap
    have hinvalid : ∀ v ∈ Array.replicate n.toNat Value.invalid, v.LiveIn m.heap := by
      intro v hv
      rw [(Array.mem_replicate.mp hv).2]
      exact Value.liveIn_of_kind_ne (by simp [Value.kind])
    have hgrown : Holding m₀ vs
        { m with heap := (m.heap.alloc kind (Array.replicate n.toNat .invalid)).2 } :=
      hm.grow (Heap.grows_alloc hsound kind _) (hsound.alloc kind hinvalid) rfl
    refine hgrown.take (Value.ref_liveIn_iff.mpr (Or.inr ?_))
    simp [Heap.get?_alloc hsound]
  · intro h
    exact Triple.bind (log_holding _) fun _ => Triple.pure fun m hm => hm

theorem setElems_holding {h : Handle} {elems : Array Value} (helems : ∀ v ∈ elems, v ∈ vs) {m : Machine}
    (hm : Holding m₀ vs m) : Holding m₀ vs { m with heap := m.heap.setElems h elems } := by
  refine hm.grow (Heap.grows_update _ h fun _ => rfl) (hm.safe.heap.update h (fun _ => rfl) ?_) rfl
  exact fun c _ v hv => hm.hands v (helems v hv)

theorem fill_holding {x : Exec Value}
    (hx : ∀ vs, Triple (Holding m₀ vs) x (fun v => Holding m₀ (v :: vs)) (Halts m₀)) (n : Nat)
    (acc : Array Value) :
    Triple (Holding m₀ (acc.toList ++ vs)) (fill x n acc)
      (fun elems => Holding m₀ (elems.toList ++ vs)) (Halts m₀) := by
  induction n generalizing acc with
  | zero => exact Triple.pure fun m hm => hm
  | succ n ih =>
    refine Triple.bind (hx _) ?_
    intro v
    refine (ih (acc.push v)).pre ?_
    intro m hm
    refine hm.mono ?_
    grind

theorem zero_holding (s : Shape) :
    ∀ vs, Triple (Holding m₀ vs) (zero s) (fun v => Holding m₀ (v :: vs)) (Halts m₀) := by
  induction s with
  | array n e ih =>
    intro vs
    refine Triple.bind (alloc_holding .array n) ?_
    intro h
    refine Triple.bind ((fill_holding ih n.toNat #[]).pre fun m hm => hm) ?_
    intro elems
    refine Triple.bind (R := fun _ => Holding m₀ (elems.toList ++ .ref h :: vs)) ?_ ?_
    · exact Triple.modify fun m hm => setElems_holding (by simp +contextual) hm
    · intro _
      exact Triple.pure fun m hm => hm.mono (by simp +contextual)
  | hollow n => exact fun vs => Triple.raise fun m hm => hm.halts
  | _ =>
    intro vs
    refine Triple.pure ?_
    intro m hm
    refine hm.take ?_
    first
      | exact Value.nil_liveIn _
      | exact Value.liveIn_of_kind_ne (by simp [Shape.initial, Value.kind, Value.ofBool, Value.nilRoutine])

theorem zeroAll_holding (ss : List Shape) :
    Triple (Holding m₀ vs) (zeroAll ss) (fun ws => Holding m₀ (ws ++ vs)) (Halts m₀) := by
  induction ss generalizing vs with
  | nil => exact Triple.pure fun m hm => hm
  | cons s ss ih =>
    refine Triple.bind (zero_holding s vs) ?_
    intro v
    refine Triple.bind ih ?_
    intro ws
    exact Triple.pure fun m hm => hm.mono (by grind)

end Exec

end Pascaline
