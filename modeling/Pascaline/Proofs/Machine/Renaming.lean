import Pascaline.Proofs.Heap.Collection
import Pascaline.Proofs.Machine.Triple
import Pascaline.Proofs.Pairwise

/-!
# Machines that differ in their handles

Two runs of a program under different budgets recycle handles at different times. Their states are
the same up to a renaming of handles, which pairs the objects that both can still use. The renaming
loses a pair when a collection frees an object, and gains one when both allocate.
-/

namespace Pascaline

/-! ## Values -/

/-- A renaming of handles pairs objects of one heap with objects of another. -/
abbrev Renaming := Handle → Handle → Prop

/-- The same value, but for the renaming of a handle. -/
inductive Value.Like (ρ : Renaming) : Value → Value → Prop where
  | same {v : Value} (hv : v.kind ≠ .ref) : Like ρ v v
  | nil : Like ρ (.ref 0) (.ref 0)
  | ref {k j : Handle} (h : ρ k j) : Like ρ (.ref k) (.ref j)

namespace Value.Like

variable {ρ : Renaming} {v w : Value}

theorem kind_eq (h : Like ρ v w) : v.kind = w.kind := by cases h <;> rfl

theorem number_eq (h : Like ρ v w) : v.number = w.number := by cases h <;> rfl

theorem asReal_eq (h : Like ρ v w) : v.asReal = w.asReal := by cases h <;> rfl

theorem isTrue_eq (h : Like ρ v w) : v.isTrue = w.isTrue := by
  rw [Value.isTrue, Value.isTrue, h.number_eq]

/-- A value that is no reference, or nil, is not renamed. -/
theorem eq_of_nil (h : Like ρ v w) (hv : ∀ k, v = .ref k → k = 0) (hρ : ∀ k j, ρ k j → k ≠ 0) :
    w = v := by
  cases h with
  | same => rfl
  | nil => rfl
  | ref h => exact absurd (hv _ rfl) (hρ _ _ h)

theorem mono {σ : Renaming} (h : Like ρ v w) (hle : ∀ k j, v = .ref k → ρ k j → σ k j) :
    Like σ v w := by
  cases h with
  | same hv => exact .same hv
  | nil => exact .nil
  | ref h => exact .ref (hle _ _ rfl h)

theorem symm (h : Like ρ v w) : Like (fun j k => ρ k j) w v := by
  cases h with
  | same hv => exact .same hv
  | nil => exact .nil
  | ref h => exact .ref h

end Value.Like

/-! ## Lists of values -/

/-- Arrays of the same values, but for a renaming. -/
def LikeAll (ρ : Renaming) (xs ys : Array Value) : Prop :=
  List.Forall₂ (Value.Like ρ) xs.toList ys.toList

theorem LikeAll.size_eq {ρ : Renaming} {xs ys : Array Value} (h : LikeAll ρ xs ys) :
    xs.size = ys.size := by
  simpa using h.length_eq

theorem LikeAll.getElem? {ρ : Renaming} {xs ys : Array Value} (h : LikeAll ρ xs ys) (i : Nat) :
    Option.Rel (Value.Like ρ) xs[i]? ys[i]? := by
  simpa using forall₂_getElem? h i

theorem LikeAll.set {ρ : Renaming} {xs ys : Array Value} (h : LikeAll ρ xs ys) (i : Nat)
    {x y : Value} (hxy : x.Like ρ y) : LikeAll ρ (xs.set! i x) (ys.set! i y) := by
  unfold LikeAll
  simpa using forall₂_set h i hxy

theorem LikeAll.mono {ρ σ : Renaming} {xs ys : Array Value} (h : LikeAll ρ xs ys)
    (hle : ∀ k j, .ref k ∈ xs → ρ k j → σ k j) : LikeAll σ xs ys :=
  forall₂_mono_mem h fun _ hx _ hxy =>
    hxy.mono fun k j hk => hle k j (hk ▸ Array.mem_toList_iff.mp hx)

theorem LikeAll.symm {ρ : Renaming} {xs ys : Array Value} (h : LikeAll ρ xs ys) :
    LikeAll (fun j k => ρ k j) ys xs :=
  (List.Forall₂.imp (fun _ _ hxy => Value.Like.symm hxy) h).flip

/-! ## Heaps -/

/-- The objects that a renaming pairs are live and alike, and no object has two partners. -/
structure Heap.Alike (ρ : Renaming) (h h' : Heap) : Prop where
  sound : h.Sound
  sound' : h'.Sound
  functional : ∀ k j j', ρ k j → ρ k j' → j = j'
  injective : ∀ k k' j, ρ k j → ρ k' j → k = k'
  cells : ∀ k j, ρ k j → ∃ c c', h.get? k = some c ∧ h'.get? j = some c' ∧ c.kind = c'.kind ∧
    LikeAll ρ c.elems c'.elems

namespace Heap.Alike

variable {ρ : Renaming} {h h' : Heap}

theorem symm (ha : Heap.Alike ρ h h') : Heap.Alike (fun j k => ρ k j) h' h := by
  refine ⟨ha.sound', ha.sound, fun j k k' => ha.injective k k' j,
    fun j j' k => ha.functional k j j', ?_⟩
  intro j k hρ
  obtain ⟨c, c', hc, hc', hkind, helems⟩ := ha.cells k j hρ
  exact ⟨c', c, hc', hc, hkind.symm, helems.symm⟩

theorem ne_zero (ha : Heap.Alike ρ h h') {k j : Handle} (hρ : ρ k j) : k ≠ 0 := by
  rintro rfl
  obtain ⟨c, c', hc, -⟩ := ha.cells 0 j hρ
  simp [ha.sound.nil_dead] at hc

theorem live (ha : Heap.Alike ρ h h') {v w : Value} (hvw : v.Like ρ w) : v.LiveIn h := by
  rintro k rfl
  cases hvw with
  | same hv => exact absurd rfl hv
  | nil => exact Or.inl rfl
  | ref hρ =>
    obtain ⟨c, c', hc, -⟩ := ha.cells _ _ hρ
    exact Or.inr (by simp [hc])

theorem live_of_mem (ha : Heap.Alike ρ h h') {xs ys : Array Value} (hxs : LikeAll ρ xs ys)
    {v : Value} (hv : v ∈ xs) : v.LiveIn h := by
  obtain ⟨w, hvw⟩ := forall₂_mem hxs (Array.mem_toList_iff.mpr hv)
  exact ha.live hvw

theorem update_left (ha : Heap.Alike ρ h h') (k : Handle) {f : Cell → Cell}
    (hserial : ∀ c, (f c).serial = c.serial) (hkind : ∀ c, (f c).kind = c.kind)
    (helems : ∀ c, (f c).elems = c.elems) : Heap.Alike ρ (h.update k f) h' := by
  refine ⟨?_, ha.sound', ha.functional, ha.injective, ?_⟩
  · refine ha.sound.update k hserial ?_
    intro c hc v hv
    rw [helems] at hv
    exact ha.sound.elems_live k c hc v hv
  · intro i j hρ
    obtain ⟨c, c', hc, hc', hk, he⟩ := ha.cells i j hρ
    by_cases hi : i = k
    · subst hi
      exact ⟨f c, c', by simp [hc], hc', (hkind c).trans hk, helems c ▸ he⟩
    · exact ⟨c, c', by simp [hi, hc], hc', hk, he⟩

theorem update_right (ha : Heap.Alike ρ h h') (k : Handle) {f : Cell → Cell}
    (hserial : ∀ c, (f c).serial = c.serial) (hkind : ∀ c, (f c).kind = c.kind)
    (helems : ∀ c, (f c).elems = c.elems) : Heap.Alike ρ h (h'.update k f) :=
  (ha.symm.update_left k hserial hkind helems).symm

theorem updateElems (ha : Heap.Alike ρ h h') {k j : Handle} (hρ : ρ k j) {f g : Cell → Cell}
    (hf : ∀ c, (f c).serial = c.serial ∧ (f c).kind = c.kind)
    (hg : ∀ c, (g c).serial = c.serial ∧ (g c).kind = c.kind)
    (hfg : ∀ c c', LikeAll ρ c.elems c'.elems → LikeAll ρ (f c).elems (g c').elems) :
    Heap.Alike ρ (h.update k f) (h'.update j g) := by
  obtain ⟨d, d', hd, hd', hkind, helems⟩ := ha.cells k j hρ
  have hnew := hfg d d' helems
  refine ⟨?_, ?_, ha.functional, ha.injective, ?_⟩
  · refine ha.sound.update k (fun c => (hf c).1) ?_
    intro c hc v hv
    rw [hd] at hc
    injection hc with hc
    subst hc
    exact ha.live_of_mem hnew hv
  · refine ha.sound'.update j (fun c => (hg c).1) ?_
    intro c hc v hv
    rw [hd'] at hc
    injection hc with hc
    subst hc
    exact ha.symm.live_of_mem hnew.symm hv
  · intro i i' hi
    by_cases hik : i = k
    · subst hik
      obtain rfl := ha.functional _ _ _ hi hρ
      refine ⟨f d, g d', by simp [hd], by simp [hd'], ?_, hnew⟩
      rw [(hf d).2, (hg d').2, hkind]
    · have hi'j : i' ≠ j := by
        rintro rfl
        exact hik (ha.injective _ _ _ hi hρ)
      obtain ⟨c, c', hc, hc', hk, he⟩ := ha.cells i i' hi
      exact ⟨c, c', by simp [hik, hc], by simp [hi'j, hc'], hk, he⟩

theorem alloc (ha : Heap.Alike ρ h h') (kind : CellKind) {elems elems' : Array Value}
    (helems : LikeAll ρ elems elems') :
    ∃ σ, (∀ k j, ρ k j → σ k j) ∧ σ (h.alloc kind elems).1 (h'.alloc kind elems').1 ∧
      Heap.Alike σ (h.alloc kind elems).2 (h'.alloc kind elems').2 := by
  have hdead := alloc_fst_dead ha.sound kind elems
  have hdead' := alloc_fst_dead ha.sound' kind elems'
  have hlive : ∀ k j, ρ k j → k ≠ (h.alloc kind elems).1 ∧ j ≠ (h'.alloc kind elems').1 := by
    intro k j hρ
    obtain ⟨c, c', hc, hc', -⟩ := ha.cells k j hρ
    constructor
    · rintro rfl
      simp [hdead] at hc
    · rintro rfl
      simp [hdead'] at hc'
  refine ⟨fun k j => ρ k j ∨ (k = (h.alloc kind elems).1 ∧ j = (h'.alloc kind elems').1),
    fun k j hρ => Or.inl hρ, Or.inr ⟨rfl, rfl⟩, ?_, ?_, ?_, ?_, ?_⟩
  · exact ha.sound.alloc kind fun v hv => ha.live_of_mem helems hv
  · exact ha.sound'.alloc kind fun v hv => ha.symm.live_of_mem helems.symm hv
  · rintro k j j' (hρ | ⟨rfl, rfl⟩) (hρ' | ⟨hk, rfl⟩)
    · exact ha.functional k j j' hρ hρ'
    · exact absurd hk (hlive k j hρ).1
    · exact absurd rfl (hlive _ j' hρ').1
    · rfl
  · rintro k k' j (hρ | ⟨rfl, rfl⟩) (hρ' | ⟨rfl, hj⟩)
    · exact ha.injective k k' j hρ hρ'
    · exact absurd hj (hlive k j hρ).2
    · exact absurd rfl (hlive k' _ hρ').2
    · rfl
  · have hmono : ∀ {xs ys}, LikeAll ρ xs ys → LikeAll (fun k j =>
        ρ k j ∨ (k = (h.alloc kind elems).1 ∧ j = (h'.alloc kind elems').1)) xs ys :=
      fun hxs => hxs.mono fun k j _ hρ => Or.inl hρ
    rintro k j (hρ | ⟨rfl, rfl⟩)
    · obtain ⟨c, c', hc, hc', hk, he⟩ := ha.cells k j hρ
      refine ⟨c, c', ?_, ?_, hk, hmono he⟩
      · rw [get?_alloc ha.sound, if_neg (hlive k j hρ).1, hc]
      · rw [get?_alloc ha.sound', if_neg (hlive k j hρ).2, hc']
    · refine ⟨{ kind, elems, serial := h.allocs }, { kind, elems := elems', serial := h'.allocs },
        ?_, ?_, rfl, hmono helems⟩
      · rw [get?_alloc ha.sound, if_pos rfl]
      · rw [get?_alloc ha.sound', if_pos rfl]

/-- One side collects. Pairs whose object is freed are lost, but none that the roots use. -/
theorem collect_left (ha : Heap.Alike ρ h h') (roots : List Value) :
    Heap.Alike (fun k j => ρ k j ∧ ((h.collect roots).get? k).isSome) (h.collect roots) h' := by
  refine ⟨ha.sound.collect roots, ha.sound', fun k j j' hρ hρ' => ha.functional k j j' hρ.1 hρ'.1,
    fun k k' j hρ hρ' => ha.injective k k' j hρ.1 hρ'.1, ?_⟩
  rintro k j ⟨hρ, hlive⟩
  obtain ⟨d, hd⟩ := Option.isSome_iff_exists.mp hlive
  obtain ⟨hd₀, -⟩ := (get?_collect h roots k d).mp hd
  obtain ⟨c, c', hc, hc', hk, he⟩ := ha.cells k j hρ
  rw [hd₀] at hc
  injection hc with hc
  subst hc
  refine ⟨d, c', hd, hc', hk, he.mono ?_⟩
  intro i i' hmem hi
  refine ⟨hi, ?_⟩
  rcases (ha.sound.collect roots).elems_live k d hd _ hmem i rfl with rfl | hsome
  · exact absurd rfl (ha.ne_zero hi)
  · exact hsome

end Heap.Alike

end Pascaline
