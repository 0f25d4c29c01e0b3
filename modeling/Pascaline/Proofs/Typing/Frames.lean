import Pascaline.Proofs.Machine.Holding
import Pascaline.Proofs.Typing.Code
import Pascaline.Proofs.Typing.Programs

/-!
# Typed heaps and frames

Cells are numbered in the order in which they are allocated, and a list of tags gives the type of the
elements of each. Room is made only while every value in use is rooted; values that are made
afterwards are in the hands of the instruction.

A frame stands at a place of typed code, with slots and operands of the types that the chart tells
there. The frames below wait for the result of the one above.
-/

namespace Pascaline

open TypeTable

/-! ## Shapes -/

/-- What the shape of a slot is, by the type of its values. -/
def Shape.Stores (t : TypeTable) : TypeShape → Shape → Prop
  | .boolean, s => s = .bool
  | .integer, s => s = .int
  | .real, s => s = .real
  | .char, s => s = .char
  | .string, s => s = .string
  | .routine _, s => s = .routine
  | .array e (some n), s => ∃ se, s = .array n se ∧ t.Stored e se
  | .nil, s | .pointer _, s | .array _ none, s => s = .ref
  | .void, _ | .classRef _, _ => False

namespace TypeTable

variable {t : TypeTable} {a : TypeId} {s s' : Shape} {sh : TypeShape} {S : Referents} {v : Value}

theorem Stored.stores (h : t.Stored a s) (ht : t.Plain) (hsh : t.shape? a = some sh) :
    s.Stores t sh := by
  obtain ⟨sh', hsh', hvoid⟩ := h.storable
  obtain rfl : sh = sh' := Option.some.inj (hsh.symm.trans hsh')
  obtain ⟨-, fuel, hs⟩ := id h
  cases fuel with
  | zero => cases hs
  | succ fuel =>
    rw [slotShapeFrom, hsh] at hs
    cases sh with
    | array e n =>
      cases n with
      | some n => exact h.elem ht hsh
      | none => exact (Except.ok.inj hs).symm
    | void => exact absurd rfl hvoid
    | classRef i => exact absurd hsh (ht.shape?_ne_classRef _ _)
    | _ => exact (Except.ok.inj hs).symm

theorem Stored.unique (h : t.Stored a s) (h' : t.Stored a s') (ht : t.Plain) : s = s' := by
  induction s generalizing a s' with
  | array n e ih =>
    obtain ⟨sh, hsh, -⟩ := h.storable
    match sh, h.stores ht hsh, h'.stores ht hsh with
    | .array e' (some m), ⟨se, hse, he⟩, ⟨se', hse', he'⟩ =>
      cases hse
      rw [hse', ih he he']
  | _ =>
    obtain ⟨sh, hsh, -⟩ := h.storable
    match sh, h.stores ht hsh, h'.stores ht hsh with
    | .boolean, hs, hs' | .integer, hs, hs' | .real, hs, hs' | .char, hs, hs' | .string, hs, hs'
    | .routine _, hs, hs' | .nil, hs, hs' | .pointer _, hs, hs' | .array _ none, hs, hs' =>
      exact hs.trans hs'.symm

theorem Stored.starts (h : t.Stored a s) (ht : t.Plain) :
    (∃ e n se, t.shape? a = some (.array e (some n)) ∧ s = .array n se ∧ t.Stored e se) ∨
      (∀ n e, s ≠ .array n e) ∧ (∀ n, s ≠ .hollow n) ∧ ∀ S, t.Has S a s.initial := by
  obtain ⟨sh, hsh, -⟩ := h.storable
  have hs := h.stores ht hsh
  match sh, hs with
  | .array e (some n), ⟨se, hse, helem⟩ => exact .inl ⟨e, n, se, hsh, hse, helem⟩
  | .boolean, rfl => exact .inr ⟨nofun, nofun, fun S => ⟨_, hsh, .boolean _⟩⟩
  | .integer, rfl => exact .inr ⟨nofun, nofun, fun S => ⟨_, hsh, .integer _⟩⟩
  | .real, rfl => exact .inr ⟨nofun, nofun, fun S => ⟨_, hsh, .real _⟩⟩
  | .char, rfl => exact .inr ⟨nofun, nofun, fun S => ⟨_, hsh, .char _⟩⟩
  | .string, rfl => exact .inr ⟨nofun, nofun, fun S => ⟨_, hsh, .string _⟩⟩
  | .routine sig, rfl => exact .inr ⟨nofun, nofun, fun S => ⟨_, hsh, .noRoutine sig _⟩⟩
  | .nil, rfl | .pointer _, rfl | .array _ none, rfl =>
    exact .inr ⟨nofun, nofun, fun S => ⟨_, hsh, .nil rfl⟩⟩

end TypeTable

/-! ## Cells -/

variable {W : World} {tags tags' : List TypeId} {S S' : Referents} {a b e : TypeId} {v : Value}
  {h h' : Heap} {k : Handle} {c : Cell} {unfilled : List Handle}

theorem TypeTable.Refers.cell {t : TypeTable} (ha : t.Refers a e) (hv : t.Has S a (.ref k))
    (hk : k ≠ 0) : S.cell k e := by
  rcases ha with ⟨n, ha⟩ | ha
  · cases (has_iff ha).mp hv with
    | nil => exact absurd rfl hk
    | array _ hc => exact hc
  · cases (has_iff ha).mp hv with
    | nil => exact absurd rfl hk
    | pointer hc => exact hc

theorem TypeTable.Refers.exists_ref {t : TypeTable} (ha : t.Refers a e) (hv : t.Has S a v) :
    ∃ k, v = .ref k := by
  rcases ha with ⟨n, ha⟩ | ha
  · cases (has_iff ha).mp hv with
    | nil => exact ⟨0, rfl⟩
    | array => exact ⟨_, rfl⟩
  · cases (has_iff ha).mp hv with
    | nil => exact ⟨0, rfl⟩
    | pointer => exact ⟨_, rfl⟩

/-- The value has every type under `S'` that it has under `S`. -/
def Referents.Spares (t : TypeTable) (S S' : Referents) (v : Value) : Prop :=
  ∀ a, t.Has S a v → t.Has S' a v

/-- What references into the heap and routine values stand for, by the tags of the cells. -/
def Heap.referents (W : World) (tags : List TypeId) (h : Heap) : Referents where
  cell k e := ∃ c, h.get? k = some c ∧ tags[c.serial]? = some e
  code u i sig := W.routine ⟨u, i.toInt⟩ sig

/-- All cells are arrays whose elements have the type of their tag, but for some that are still to be
filled. -/
structure Heap.Typed (W : World) (tags : List TypeId) (unfilled : List Handle) (h : Heap) : Prop where
  sound : h.Sound
  length : tags.length = h.allocs
  stored : ∀ e ∈ tags, ∃ s, W.types.Stored e s
  array : ∀ k c, h.get? k = some c → c.kind = .array
  elems : ∀ k c e, h.get? k = some c → tags[c.serial]? = some e → k ∉ unfilled →
    ∀ v ∈ c.elems, W.types.Has (h.referents W tags) e v

namespace Heap

theorem referents_le (htags : tags <+: tags') (hgrows : h.Grows h') :
    (h.referents W tags).Le (h'.referents W tags') := by
  refine ⟨?_, fun _ _ _ hr => hr⟩
  rintro k e ⟨c, hc, he⟩
  obtain ⟨c', hc', hserial⟩ := hgrows.keeps k c hc
  exact ⟨c', hc', hserial ▸ getElem?_of_listPrefix htags he⟩

/-- A value of a type refers to a live cell, if to any. -/
theorem liveIn_of_has (hv : W.types.Has (h.referents W tags) a v) : v.LiveIn h := by
  rintro k rfl
  obtain ⟨s, -, hs⟩ := hv
  cases hs with
  | nil => exact .inl rfl
  | pointer hc | array _ hc =>
    obtain ⟨c, hc, -⟩ := hc
    exact .inr (by simp [hc])

namespace Typed

theorem exists_tag (hh : h.Typed W tags unfilled) (hc : h.get? k = some c) :
    ∃ e, tags[c.serial]? = some e := by
  have hlt := hh.sound.serial_lt k c hc
  rw [← hh.length] at hlt
  exact ⟨_, List.getElem?_eq_getElem hlt⟩

theorem alloc (hh : h.Typed W tags unfilled) {s : Shape} (he : W.types.Stored e s) (n : Nat) :
    ((h.alloc .array (Array.replicate n .invalid)).2).Typed W (tags ++ [e])
      ((h.alloc .array (Array.replicate n .invalid)).1 :: unfilled) ∧
    (((h.alloc .array (Array.replicate n .invalid)).2).referents W (tags ++ [e])).cell
      (h.alloc .array (Array.replicate n .invalid)).1 e := by
  have hgrows := grows_alloc hh.sound .array (Array.replicate n .invalid)
  have hget := get?_alloc hh.sound .array (Array.replicate n .invalid)
  have hle := referents_le (W := W) (List.prefix_append tags [e]) hgrows
  refine ⟨⟨hh.sound.alloc .array ?_, by simp [hh.length], ?_, ?_, ?_⟩, ?_⟩
  · intro v hv
    rw [(Array.mem_replicate.mp hv).2]
    exact Value.liveIn_of_kind_ne (by simp [Value.kind])
  · intro e' he'
    rcases List.mem_append.mp he' with he' | he'
    · exact hh.stored e' he'
    · exact ⟨s, List.mem_singleton.mp he' ▸ he⟩
  · intro k c hc
    rw [hget] at hc
    split at hc
    · cases hc
      rfl
    · exact hh.array k c hc
  · intro k c e' hc he' hk v hv
    rw [List.mem_cons, not_or] at hk
    rw [hget, if_neg hk.1] at hc
    rw [List.getElem?_append_left (hh.length ▸ hh.sound.serial_lt k c hc)] at he'
    exact (hh.elems k c e' hc he' hk.2 v hv).mono (.refl _) hle
  · refine ⟨_, by rw [hget, if_pos rfl], ?_⟩
    simp [← hh.length]

theorem update (hh : h.Typed W tags (k :: unfilled)) {f : Cell → Cell}
    (hkind : ∀ c, (f c).kind = c.kind) (hserial : ∀ c, (f c).serial = c.serial)
    (helems : ∀ c e, h.get? k = some c → tags[c.serial]? = some e →
      ∀ v ∈ (f c).elems, W.types.Has (h.referents W tags) e v) :
    (h.update k f).Typed W tags unfilled := by
  have hle := referents_le (W := W) (List.prefix_refl tags) (grows_update h k hserial)
  refine ⟨hh.sound.update k hserial fun c hc v hv => ?_, hh.length, hh.stored, ?_, ?_⟩
  · obtain ⟨e, he⟩ := hh.exists_tag hc
    exact liveIn_of_has (helems c e hc he v hv)
  · intro j c hc
    rw [get?_update] at hc
    split at hc
    · obtain ⟨d, hd, rfl⟩ := Option.map_eq_some_iff.mp hc
      exact (hkind d).trans (hh.array j d hd)
    · exact hh.array j c hc
  · intro j c e hc he hj v hv
    rw [get?_update] at hc
    split at hc
    · rename_i hjk
      obtain ⟨d, hd, rfl⟩ := Option.map_eq_some_iff.mp hc
      rw [hserial] at he
      exact (helems d e (hjk ▸ hd) he v hv).mono (.refl _) hle
    · rename_i hjk
      exact (hh.elems j c e hc he (by simp [hjk, hj]) v hv).mono (.refl _) hle

theorem weaken (hh : h.Typed W tags unfilled) (k : Handle) : h.Typed W tags (k :: unfilled) :=
  ⟨hh.sound, hh.length, hh.stored, hh.array, fun j c e hc he hj =>
    hh.elems j c e hc he fun hmem => hj (List.mem_cons_of_mem _ hmem)⟩

end Typed

/-! ### Collection -/

theorem spares_collect {roots : List Value}
    (hv : ∀ j, v = .ref j → (h.get? j).isSome → h.Reached roots j) :
    Referents.Spares W.types (h.referents W tags) ((h.collect roots).referents W tags) v := by
  rintro a ⟨s, hs, hof⟩
  refine ⟨s, hs, ?_⟩
  have hcell : ∀ j e, v = .ref j → (h.referents W tags).cell j e →
      ((h.collect roots).referents W tags).cell j e := by
    rintro j e rfl ⟨c, hc, he⟩
    exact ⟨c, (get?_collect h roots j c).mpr ⟨hc, hv j rfl (by simp [hc])⟩, he⟩
  cases hof with
  | boolean n => exact .boolean n
  | integer n => exact .integer n
  | real x => exact .real x
  | char n => exact .char n
  | string s => exact .string s
  | nil hs => exact .nil hs
  | pointer hc => exact .pointer (hcell _ _ rfl hc)
  | array n hc => exact .array n (hcell _ _ rfl hc)
  | noRoutine sig i => exact .noRoutine sig i
  | routine hc => exact .routine hc

theorem Typed.collect (hh : h.Typed W tags []) (roots : List Value) :
    (h.collect roots).Typed W tags [] := by
  refine ⟨hh.sound.collect roots, (allocs_collect h roots).symm ▸ hh.length, hh.stored, ?_, ?_⟩
  · intro k c hc
    exact hh.array k c ((get?_collect h roots k c).mp hc).1
  · intro k c e hc he hk v hv
    obtain ⟨hc, hreach⟩ := (get?_collect h roots k c).mp hc
    refine spares_collect (fun j hj hlive => ?_) e (hh.elems k c e hc he hk v hv)
    exact reached_of_elem hreach hc (hj ▸ hv) hlive

end Heap

/-! ## Room -/

namespace FaultCause

/-- An operand of the wrong kind, or code that no compiler makes. -/
def isMistyped : FaultCause → Bool
  | typeMismatch _ | invalidCode _ => true
  | _ => false

end FaultCause

namespace Exec

/-- If this is a fault, then one that well-typed code may have. -/
def Harmless (e : Stop) (_ : Machine) : Prop := ∀ f, e = .fault f → f.cause.isMistyped = false

theorem harmless_breakdown (m : Machine) : Harmless .breakdown m := nofun

theorem harmless_raise {cause : FaultCause} (h : cause.isMistyped = false) (m m' : Machine) :
    Harmless (.fault (m.faultOf cause)) m' := by
  rintro f ⟨⟩
  exact h

end Exec

namespace Machine

/-- A property of the frames and variables of a machine that holds as long as the values in them keep
their types. -/
structure Lasting (W : World) (Q : Referents → Machine → Prop) : Prop where
  same : ∀ {S m m'}, Q S m → m'.frames = m.frames → m'.globals = m.globals →
    m'.pending = m.pending → Q S m'
  spares : ∀ {S S' m}, Q S m → (∀ v ∈ m.roots, S.Spares W.types S' v) → Q S' m

/-- The property holds and the heap is typed, with these tags and maybe more, and values of these
types are in hand. -/
def Keeps (W : World) (Q : Referents → Machine → Prop) (tags : List TypeId) (unfilled : List Handle)
    (as : List TypeId) (vs : List Value) (m : Machine) : Prop :=
  ∃ tags', tags <+: tags' ∧ m.heap.Typed W tags' unfilled ∧ Q (m.heap.referents W tags') m ∧
    List.Forall₂ (W.types.Has (m.heap.referents W tags')) as vs

variable {Q : Referents → Machine → Prop} {as : List TypeId} {vs : List Value} {m m' : Machine}

theorem Keeps.same (hQ : Lasting W Q) (hm : Keeps W Q tags unfilled as vs m) (hheap : m'.heap = m.heap)
    (hframes : m'.frames = m.frames) (hglobals : m'.globals = m.globals)
    (hpending : m'.pending = m.pending) : Keeps W Q tags unfilled as vs m' := by
  obtain ⟨tags', htags, hh, hq, hvs⟩ := hm
  exact ⟨tags', htags, hheap ▸ hh, hheap ▸ hQ.same hq hframes hglobals hpending, hheap ▸ hvs⟩

end Machine

namespace Exec

open Machine

variable {Q : Referents → Machine → Prop} {as : List TypeId} {vs : List Value} {s : Shape}

theorem log_keeps (hQ : Lasting W Q) (e : Machine → TraceEvent) :
    Triple (Keeps W Q tags unfilled as vs) (log e) (fun _ => Keeps W Q tags unfilled as vs)
      Harmless := by
  refine Triple.modify fun m hm => ?_
  split
  · unfold Machine.log
    split
    · exact hm
    · exact hm.same hQ rfl rfl rfl rfl
  · exact hm

theorem collect_keeps (hQ : Lasting W Q) :
    Triple (Keeps W Q tags [] [] []) collect (fun _ => Keeps W Q tags [] [] []) Harmless := by
  refine Triple.bind Triple.get fun _ => Triple.bind (Triple.modify fun m hm => ?_)
    fun _ => log_keeps hQ _
  obtain ⟨-, tags', htags, hh, hq, -⟩ := hm
  refine ⟨tags', htags, hh.collect _, hQ.same (m := m) (hQ.spares hq fun v hv => ?_) rfl rfl rfl,
    .nil⟩
  exact Heap.spares_collect fun j hj hlive => Heap.reached_of_root (hj ▸ hv) hlive

theorem reserve_keeps (hQ : Lasting W Q) (words : Int) :
    Triple (Keeps W Q tags [] [] []) (reserve words) (fun _ => Keeps W Q tags [] [] []) Harmless := by
  unfold reserve
  refine Triple.ite (fun _ => Triple.pure fun m hm => hm) fun _ => ?_
  refine Triple.bind Triple.get fun _ => ?_
  refine Triple.ite (fun _ => Triple.pure fun m hm => hm.2) fun _ => ?_
  refine Triple.bind ((collect_keeps hQ).pre fun m hm => hm.2) fun _ => ?_
  refine Triple.bind Triple.get fun _ => ?_
  refine Triple.ite (fun _ => ?_) fun _ => Triple.pure fun m hm => hm.2
  exact Triple.bind Triple.get fun _ => Triple.raise fun m _ => harmless_raise rfl m m

theorem fill_keeps {x : Exec Value} (hx : ∀ as vs, Triple (Keeps W Q tags unfilled as vs) x
      (fun v => Keeps W Q tags unfilled (e :: as) (v :: vs)) Harmless) (n : Nat) (elems : Array Value) :
    Triple (Keeps W Q tags unfilled (List.replicate elems.size e ++ as) (elems.toList.reverse ++ vs))
      (fill x n elems) (fun elems' => Keeps W Q tags unfilled
        (List.replicate elems'.size e ++ as) (elems'.toList.reverse ++ vs)) Harmless := by
  induction n generalizing elems with
  | zero => exact Triple.pure fun m hm => hm
  | succ n ih =>
    refine Triple.bind (hx _ _) fun v => (ih (elems.push v)).pre fun m hm => ?_
    simpa [List.replicate_succ] using hm

theorem alloc_keeps (hQ : Lasting W Q) (he : W.types.Stored e s) (ha : W.types.Refers a e) (n : Int) :
    Triple (Keeps W Q tags unfilled as vs) (alloc .array n)
      (fun k m => Keeps W Q tags (k :: unfilled) (a :: as) (.ref k :: vs) m ∧ k ≠ 0) Harmless := by
  unfold alloc
  refine Triple.unlessBroken (fun _ m _ => harmless_breakdown m) fun _ => ?_
  refine Triple.bind (R := fun k m =>
    Keeps W Q tags (k :: unfilled) (a :: as) (.ref k :: vs) m ∧ k ≠ 0) (Triple.modifyGet ?_) ?_
  · rintro m ⟨tags', htags, hh, hq, hvs⟩
    obtain ⟨hh', hcell⟩ := hh.alloc he n.toNat
    have hle := Heap.referents_le (W := W) (List.prefix_append tags' [e])
      (Heap.grows_alloc hh.sound .array (Array.replicate n.toNat .invalid))
    refine ⟨⟨tags' ++ [e], htags.trans (List.prefix_append _ _), hh', ?_, .cons ?_ ?_⟩,
      Heap.alloc_fst_ne_zero hh.sound _ _⟩
    · exact hQ.spares (hQ.same hq rfl rfl rfl) fun v _ a hv => hv.mono (.refl _) hle
    · rcases ha with ⟨n, ha⟩ | ha
      · exact ⟨_, ha, .array n hcell⟩
      · exact ⟨_, ha, .pointer hcell⟩
    · exact hvs.imp fun _ _ hv => hv.mono (.refl _) hle
  · refine fun k => Triple.fact (fun m hm => hm.2) fun hk => ?_
    exact Triple.bind ((log_keeps hQ _).pre fun m hm => hm.1) fun _ => Triple.pure fun m hm => ⟨hm, hk⟩

theorem setElems_keeps (hQ : Lasting W Q) (ha : W.types.Refers a e) (hk : k ≠ 0) {elems : Array Value} :
    Triple (Keeps W Q tags (k :: unfilled) (List.replicate elems.size e ++ a :: as)
        (elems.toList.reverse ++ .ref k :: vs))
      (modify fun m => { m with heap := m.heap.setElems k elems })
      (fun _ => Keeps W Q tags unfilled (a :: as) (.ref k :: vs)) Harmless := by
  refine Triple.modify ?_
  rintro m ⟨tags', htags, hh, hq, hvs⟩
  obtain ⟨helems, hrest⟩ := (forall₂_append_iff (by simp)).mp hvs
  have hle := Heap.referents_le (W := W) (List.prefix_refl tags')
    (Heap.grows_update m.heap k (f := fun c => { c with elems }) fun _ => rfl)
  have hall : ∀ v ∈ elems, W.types.Has (m.heap.referents W tags') e v := by
    intro v hv
    obtain ⟨e', he', hv⟩ := forall₂_exists_mem helems.flip
      (List.mem_reverse.mpr (Array.mem_toList_iff.mpr hv))
    exact (List.mem_replicate.mp he').2 ▸ hv
  refine ⟨tags', htags, hh.update (fun _ => rfl) (fun _ => rfl) fun c e' hc he' v hv => ?_,
    hQ.spares (hQ.same hq rfl rfl rfl) fun v _ a hv => hv.mono (.refl _) hle,
    hrest.imp fun _ _ hv => hv.mono (.refl _) hle⟩
  obtain ⟨c', hc', hcell⟩ := ha.cell (List.forall₂_cons.mp hrest).1 hk
  cases hc.symm.trans hc'
  cases he'.symm.trans hcell
  exact hall v hv

theorem zero_array_keeps {n : Int} (hQ : Lasting W Q) (he : W.types.Stored e s)
    (ha : W.types.Refers a e)
    (hzero : ∀ unfilled as vs, Triple (Keeps W Q tags unfilled as vs) (zero s)
      (fun v => Keeps W Q tags unfilled (e :: as) (v :: vs)) Harmless) :
    Triple (Keeps W Q tags unfilled as vs) (zero (.array n s))
      (fun v m => Keeps W Q tags unfilled (a :: as) (v :: vs) m ∧ v ≠ .nil) Harmless := by
  refine Triple.bind (alloc_keeps hQ he ha n) fun k => Triple.fact (fun m hm => hm.2) fun hk => ?_
  refine Triple.bind ((fill_keeps (hzero _) n.toNat #[]).pre fun m hm => hm.1) fun elems => ?_
  refine Triple.bind (setElems_keeps hQ ha hk) fun _ => Triple.pure fun m hm => ⟨hm, ?_⟩
  rintro ⟨⟩
  exact hk rfl

theorem zero_keeps (hW : W.types.Plain) (hQ : Lasting W Q) (ha : W.types.Stored a s) :
    Triple (Keeps W Q tags unfilled as vs) (zero s)
      (fun v => Keeps W Q tags unfilled (a :: as) (v :: vs)) Harmless := by
  induction s generalizing a unfilled as vs with
  | array n s ih =>
    rcases ha.starts hW with ⟨e, m, se, hsh, heq, he⟩ | ⟨hne, -, -⟩
    · cases heq
      exact (zero_array_keeps hQ he (.inl ⟨_, hsh⟩) fun _ _ _ => ih he).post fun v m hm => hm.1
    · exact absurd rfl (hne _ _)
  | hollow n =>
    rcases ha.starts hW with ⟨_, _, _, -, heq, -⟩ | ⟨-, hne, -⟩
    · cases heq
    · exact absurd rfl (hne n)
  | _ =>
    rcases ha.starts hW with ⟨_, _, _, -, heq, -⟩ | ⟨-, -, hinitial⟩
    · cases heq
    · refine Triple.pure ?_
      rintro m ⟨tags', htags, hh, hq, hvs⟩
      exact ⟨tags', htags, hh, hq, .cons (hinitial _) hvs⟩

theorem zeroAll_keeps (hW : W.types.Plain) (hQ : Lasting W Q) {bs : List TypeId} {ss : List Shape}
    (hss : List.Forall₂ W.types.Stored bs ss) :
    Triple (Keeps W Q tags unfilled as vs) (zeroAll ss)
      (fun ws m => Keeps W Q tags unfilled (bs ++ as) (ws ++ vs) m ∧ bs.length = ws.length)
      Harmless := by
  induction hss generalizing as vs with
  | nil => exact Triple.pure fun m hm => ⟨hm, rfl⟩
  | @cons b s bs ss hs _ ih =>
    refine Triple.bind (zero_keeps hW hQ hs) fun v => Triple.bind ih fun ws => ?_
    refine Triple.pure ?_
    rintro m ⟨⟨tags', htags, hh, hq, hvs⟩, hlength⟩
    obtain ⟨hws, hvs⟩ := (forall₂_append_iff hlength).mp hvs
    obtain ⟨hv, hvs⟩ := List.forall₂_cons.mp hvs
    refine ⟨⟨tags', htags, hh, hq, .cons hv (List.rel_append hws hvs)⟩, ?_⟩
    rw [List.length_cons, List.length_cons, hlength]

end Exec

/-! ## Places of instructions -/

/-- Where an instruction is executed, with what is known of the code. -/
structure Stance where
  unit : LinkedUnit
  routine : Routine
  sig : Signature
  chart : Chart
  stack : Nat → Nat → List TypeId
  block : Nat
  ip : Nat

/-- The types of the operands here. -/
def Stance.here (x : Stance) : List TypeId := x.stack x.block x.ip

/-- There is an instruction here. -/
def Stance.Ready (x : Stance) : Prop := (x.routine.blocks.instr? x.block x.ip).isSome = true

variable {p : Program} {vars : List (List TypeId)} {x : Stance} {ts as : List TypeId}
  {vs : List Value} {f : Frame} {rest fs : List Frame} {sig : Signature} {m m' : Machine}

/-- The frame stands here, and its operands have these types. -/
structure Frame.At (W : World) (p : Program) (S : Referents) (x : Stance) (ts : List TypeId) (f : Frame) :
    Prop where
  follows : x.routine.Follows W x.unit.unit.pool x.sig x.chart x.stack
  unit : p.units[f.unit]? = some x.unit
  routine : f.routine = x.routine
  block : f.block = x.block
  ip : f.ip = x.ip
  locals : List.Forall₂ (W.types.Has S) x.chart.slots f.locals.toList
  operands : List.Forall₂ (W.types.Has S) ts f.operands

/-- The innermost of the frames waits for the result of a routine of this signature, and so on. -/
inductive Waits (W : World) (p : Program) (S : Referents) : Signature → List Frame → Prop
  | nil {sig : Signature} : Waits W p S sig []
  | cons {sig : Signature} {x : Stance} {ts : List TypeId} {f : Frame} {rest : List Frame}
      (hf : f.At W p S x ts) (hresult : x.here = leftBy (Bound.Bind.callType sig) ++ ts)
      (hready : x.Ready) (hrest : Waits W p S x.sig rest) : Waits W p S sig (f :: rest)

namespace Machine

/-- The top of the operand stack of the innermost frame. -/
def top? (m : Machine) : Option Value := m.frames.head?.bind (·.operands.head?)

/-- The variables of the units have their types, and only entry routines are still to be run. -/
structure Stores (W : World) (p : Program) (vars : List (List TypeId)) (S : Referents) (m : Machine) :
    Prop where
  globals : List.Forall₂ (fun as (g : Array Value) => List.Forall₂ (W.types.Has S) as g.toList) vars
    m.globals.toList
  pending : ∀ e ∈ m.pending, e ∈ p.entries

/-- The innermost frame stands here, in the middle of an instruction. -/
def Busy (W : World) (p : Program) (vars : List (List TypeId)) (x : Stance) (ts : List TypeId)
    (S : Referents) (m : Machine) : Prop :=
  m.Stores W p vars S ∧ ∃ f rest, m.frames = f :: rest ∧ f.At W p S x ts ∧ Waits W p S x.sig rest

/-- A routine of this signature is about to be entered, or has been left. -/
def Calling (W : World) (p : Program) (vars : List (List TypeId)) (sig : Signature) (S : Referents)
    (m : Machine) : Prop :=
  m.Stores W p vars S ∧ Waits W p S sig m.frames

/-- The innermost frame, if there is one, stands before an instruction. -/
def Running (W : World) (p : Program) (vars : List (List TypeId)) (S : Referents) (m : Machine) : Prop :=
  m.Stores W p vars S ∧ ∀ f rest, m.frames = f :: rest →
    ∃ x, f.At W p S x x.here ∧ x.Ready ∧ Waits W p S x.sig rest

end Machine

/-! ## Values that are kept -/

theorem Frame.At.spares (h : f.At W p S x ts)
    (hS : ∀ v, v ∈ f.locals ∨ v ∈ f.operands → S.Spares W.types S' v) : f.At W p S' x ts := by
  refine ⟨h.follows, h.unit, h.routine, h.block, h.ip, ?_, ?_⟩
  · exact (forall₂_mono_mem h.locals.flip fun v hv a ha =>
      hS v (.inl (Array.mem_toList_iff.mp hv)) a ha).flip
  · exact (forall₂_mono_mem h.operands.flip fun v hv a ha => hS v (.inr hv) a ha).flip

theorem Waits.spares (h : Waits W p S sig fs)
    (hS : ∀ f ∈ fs, ∀ v, v ∈ f.locals ∨ v ∈ f.operands → S.Spares W.types S' v) :
    Waits W p S' sig fs := by
  induction h with
  | nil => exact .nil
  | cons hf hresult hready _ ih =>
    exact .cons (hf.spares (hS _ List.mem_cons_self)) hresult hready
      (ih fun f hf => hS f (List.mem_cons_of_mem _ hf))

namespace Machine

theorem Stores.spares (h : m.Stores W p vars S) (hS : ∀ v ∈ m.roots, S.Spares W.types S' v) :
    m.Stores W p vars S' := by
  refine ⟨?_, h.pending⟩
  refine (forall₂_mono_mem h.globals.flip fun g hg as has => ?_).flip
  refine (forall₂_mono_mem has.flip fun v hv a ha => hS v ?_ a ha).flip
  exact mem_roots.mpr (.inl ⟨g, Array.mem_toList_iff.mp hg, Array.mem_toList_iff.mp hv⟩)

theorem Stores.same (h : m.Stores W p vars S) (hglobals : m'.globals = m.globals)
    (hpending : m'.pending = m.pending) : m'.Stores W p vars S :=
  ⟨hglobals ▸ h.globals, hpending ▸ h.pending⟩

theorem spares_frame (hS : ∀ v ∈ m.roots, S.Spares W.types S' v) (hf : f ∈ m.frames) :
    ∀ v, v ∈ f.locals ∨ v ∈ f.operands → S.Spares W.types S' v :=
  fun v hv => hS v (mem_roots.mpr (.inr ⟨f, hf, hv⟩))

theorem lasting_busy : Lasting W (Busy W p vars x ts) := by
  refine ⟨fun h hframes hglobals hpending => ?_, fun h hS => ?_⟩
  · obtain ⟨hst, f, rest, hfr, hf, hrest⟩ := h
    exact ⟨hst.same hglobals hpending, f, rest, hframes.trans hfr, hf, hrest⟩
  · obtain ⟨hst, f, rest, hfr, hf, hrest⟩ := h
    have hall := fun g hg => spares_frame hS (f := g) (hfr ▸ hg)
    exact ⟨hst.spares hS, f, rest, hfr, hf.spares (hall f List.mem_cons_self),
      hrest.spares fun g hg => hall g (List.mem_cons_of_mem _ hg)⟩

theorem lasting_calling : Lasting W (Calling W p vars sig) :=
  ⟨fun h hframes hglobals hpending => ⟨h.1.same hglobals hpending, hframes ▸ h.2⟩,
    fun h hS => ⟨h.1.spares hS, h.2.spares fun _ hf => spares_frame hS hf⟩⟩

theorem Busy.running (h : Busy W p vars x ts S m) (hts : x.here = ts) (hready : x.Ready) :
    Running W p vars S m := by
  obtain ⟨hst, f, rest, hframes, hf, hrest⟩ := h
  refine ⟨hst, fun g rest' hg => ?_⟩
  cases hframes.symm.trans hg
  exact ⟨x, hts ▸ hf, hready, hrest⟩

theorem Busy.calling (h : Busy W p vars x ts S m)
    (hhere : x.here = leftBy (Bound.Bind.callType sig) ++ ts) (hready : x.Ready) :
    Calling W p vars sig S m := by
  obtain ⟨hst, f, rest, hframes, hf, hrest⟩ := h
  rw [Calling, hframes]
  exact ⟨hst, .cons hf hhere hready hrest⟩

theorem Calling.running (h : Calling W p vars sig S m)
    (hleft : leftBy (Bound.Bind.callType sig) = []) : Running W p vars S m := by
  obtain ⟨hst, hwaits⟩ := h
  refine ⟨hst, fun f rest hframes => ?_⟩
  rw [hframes] at hwaits
  cases hwaits with
  | @cons _ x _ _ _ hf hhere hready hrest =>
    rw [hleft, List.nil_append] at hhere
    exact ⟨x, hhere ▸ hf, hready, hrest⟩

theorem lasting_running : Lasting W (Running W p vars) := by
  refine ⟨fun h hframes hglobals hpending => ⟨h.1.same hglobals hpending, hframes ▸ h.2⟩,
    fun h hS => ⟨h.1.spares hS, fun f rest hframes => ?_⟩⟩
  obtain ⟨x, hf, hready, hrest⟩ := h.2 f rest hframes
  have hall := fun g hg => spares_frame hS (f := g) (hframes ▸ hg)
  exact ⟨x, hf.spares (hall f List.mem_cons_self), hready,
    hrest.spares fun g hg => hall g (List.mem_cons_of_mem _ hg)⟩

/-! ## Hands -/

variable {Q Q' : Referents → Machine → Prop} {bs : List TypeId} {ws : List Value}

theorem Keeps.imp (h : Keeps W Q tags unfilled as vs m)
    (hQ : ∀ S, Q S m → List.Forall₂ (W.types.Has S) as vs → Q' S m) :
    Keeps W Q' tags unfilled as vs m := by
  obtain ⟨tags', htags, hh, hq, hvs⟩ := h
  exact ⟨tags', htags, hh, hQ _ hq hvs, hvs⟩

/-- The values in hand are replaced by others that have their types wherever these do. -/
theorem Keeps.hands (h : Keeps W Q tags unfilled as vs m)
    (hws : ∀ S, Q S m → List.Forall₂ (W.types.Has S) as vs → List.Forall₂ (W.types.Has S) bs ws) :
    Keeps W Q tags unfilled bs ws m := by
  obtain ⟨tags', htags, hh, hq, hvs⟩ := h
  exact ⟨tags', htags, hh, hq, hws _ hq hvs⟩

theorem Keeps.drop (h : Keeps W Q tags unfilled (a :: as) (v :: vs) m) :
    Keeps W Q tags unfilled as vs m :=
  h.hands fun _ _ hvs => (List.forall₂_cons.mp hvs).2

theorem Keeps.only (h : Keeps W Q tags unfilled (a :: as) (v :: vs) m) :
    Keeps W Q tags unfilled [a] [v] m :=
  h.hands fun _ _ hvs => .cons (List.forall₂_cons.mp hvs).1 .nil

theorem Keeps.swap {w : Value} (h : Keeps W Q tags unfilled (a :: as) (v :: vs) m)
    (hw : ∀ S, W.types.Has S a v → W.types.Has S b w) :
    Keeps W Q tags unfilled (b :: as) (w :: vs) m :=
  h.hands fun S _ hvs => .cons (hw S (List.forall₂_cons.mp hvs).1) (List.forall₂_cons.mp hvs).2

theorem Keeps.take {w : Value} (h : Keeps W Q tags unfilled as vs m)
    (hw : ∀ tags', Q (m.heap.referents W tags') m → W.types.Has (m.heap.referents W tags') b w) :
    Keeps W Q tags unfilled (b :: as) (w :: vs) m := by
  obtain ⟨tags', htags, hh, hq, hvs⟩ := h
  exact ⟨tags', htags, hh, hq, .cons (hw tags' hq) hvs⟩

theorem Keeps.stands (h : Keeps W (Busy W p vars x ts) tags unfilled as vs m) :
    x.routine.Follows W x.unit.unit.pool x.sig x.chart x.stack ∧ x.unit ∈ p.units := by
  obtain ⟨_, -, -, ⟨-, f, rest, -, hf, -⟩, -⟩ := h
  exact ⟨hf.follows, Array.mem_of_getElem? hf.unit⟩

theorem Keeps.has (h : Keeps W Q tags unfilled (a :: as) (v :: vs) m) :
    ∃ tags' h, W.types.Has (Heap.referents W tags' h) a v := by
  obtain ⟨tags', -, -, -, hvs⟩ := h
  exact ⟨tags', m.heap, (List.forall₂_cons.mp hvs).1⟩

end Machine

/-! ## The innermost frame -/

theorem Frame.At.operate (h : f.At W p S x ts) {us : List TypeId} {ops : List Value}
    (hops : List.Forall₂ (W.types.Has S) us ops) : Frame.At W p S x us { f with operands := ops } :=
  ⟨h.follows, h.unit, h.routine, h.block, h.ip, h.locals, hops⟩

namespace Exec

open Machine

variable {us : List TypeId} {y : Stance}

theorem modifyTop_busy {g : Frame → Frame} (hsig : y.sig = x.sig)
    (hg : ∀ S f, f.At W p S x ts → List.Forall₂ (W.types.Has S) as vs → (g f).At W p S y us) :
    Triple (Keeps W (Busy W p vars x ts) tags [] as vs) (modifyTop g)
      (fun _ => Keeps W (Busy W p vars y us) tags [] as vs) Harmless := by
  refine Triple.modify ?_
  rintro m ⟨tags', htags, hh, ⟨hst, f, rest, hframes, hf, hrest⟩, hvs⟩
  rw [hframes]
  exact ⟨tags', htags, hh, ⟨hst.same rfl rfl, _, rest, rfl, hg _ f hf hvs, hsig ▸ hrest⟩, hvs⟩

theorem setState_busy (state : FrameState) :
    Triple (Keeps W (Busy W p vars x ts) tags [] as vs) (modifyTop ({ · with state }))
      (fun _ => Keeps W (Busy W p vars x ts) tags [] as vs) Harmless :=
  modifyTop_busy rfl fun _ _ hf _ =>
    ⟨hf.follows, hf.unit, hf.routine, hf.block, hf.ip, hf.locals, hf.operands⟩

theorem top_busy : Triple (Keeps W (Busy W p vars x ts) tags [] as vs) top
    (fun f => Keeps W (fun S m => Busy W p vars x ts S m ∧ f.At W p S x ts) tags [] as vs)
    Harmless := by
  refine (Triple.top fun m _ => harmless_breakdown m).post ?_
  rintro g m ⟨hm, hg⟩
  refine hm.imp fun S hq _ => ⟨hq, ?_⟩
  obtain ⟨-, f, rest, hframes, hf, -⟩ := hq
  rw [hframes] at hg
  cases hg
  exact hf

theorem push_top : Triple (Keeps W (Busy W p vars x ts) tags [] (a :: as) (v :: vs)) (push v)
    (fun _ => Keeps W (fun S m => Busy W p vars x (a :: ts) S m ∧ m.top? = some v) tags []
      (a :: as) (v :: vs)) Harmless := by
  refine Triple.modify ?_
  rintro m ⟨tags', htags, hh, ⟨hst, f, rest, hframes, hf, hrest⟩, hvs⟩
  rw [hframes]
  exact ⟨tags', htags, hh, ⟨⟨hst.same rfl rfl, _, rest, rfl,
    hf.operate (.cons (List.forall₂_cons.mp hvs).1 hf.operands), hrest⟩, rfl⟩, hvs⟩

theorem push_busy : Triple (Keeps W (Busy W p vars x ts) tags [] (a :: as) (v :: vs)) (push v)
    (fun _ => Keeps W (Busy W p vars x (a :: ts)) tags [] as vs) Harmless :=
  push_top.post fun _ _ hm => (hm.imp fun _ hq _ => hq.1).drop

theorem pop_busy : Triple (Keeps W (Busy W p vars x (a :: ts)) tags [] as vs) pop
    (fun v => Keeps W (Busy W p vars x ts) tags [] (a :: as) (v :: vs)) Harmless := by
  rintro m ⟨tags', htags, hh, ⟨hst, f, rest, hframes, hf, hrest⟩, hvs⟩
  have hoperands := hf.operands
  obtain ⟨v, ops, hv, htail, hops⟩ := List.forall₂_cons_left_iff.mp hoperands
  simp only [pop, hframes, hops]
  exact ⟨tags', htags, hh, ⟨hst.same rfl rfl, _, rest, rfl, hf.operate htail, hrest⟩, .cons hv hvs⟩

theorem peek_busy : Triple (Keeps W (Busy W p vars x (a :: ts)) tags [] as vs) peek
    (fun v => Keeps W (Busy W p vars x (a :: ts)) tags [] (a :: as) (v :: vs)) Harmless := by
  refine Triple.bind top_busy fun f => (Triple.expect fun m _ => harmless_breakdown m).post ?_
  rintro v m ⟨hm, hv⟩
  refine (hm.take fun _ hq => ?_).imp fun _ hq _ => hq.1
  obtain ⟨w, ops, hw, -, hops⟩ := List.forall₂_cons_left_iff.mp hq.2.operands
  rw [hops] at hv
  cases hv
  exact hw

theorem popMany_busy {args : List TypeId} {n : Int} (hn : n = args.length) :
    Triple (Keeps W (Busy W p vars x (args.reverse ++ ts)) tags [] as vs) (popMany n)
      (fun ws m => Keeps W (Busy W p vars x ts) tags [] (args ++ as) (ws ++ vs) m ∧
        args.length = ws.length) Harmless := by
  subst hn
  refine Triple.bind top_busy fun f =>
    Triple.ite (fun _ => Triple.breakdown fun m _ => harmless_breakdown m) fun hlength => ?_
  simp only [Bool.or_eq_true, decide_eq_true_eq, not_or, not_lt] at hlength
  have hsplit : ∀ {S : Referents} {g : Frame}, g.At W p S x (args.reverse ++ ts) →
      List.Forall₂ (W.types.Has S) args.reverse (g.operands.take args.length) ∧
      List.Forall₂ (W.types.Has S) ts (g.operands.drop args.length) := by
    intro S g hg
    have htake := List.forall₂_take args.length hg.operands
    have hdrop := List.forall₂_drop args.length hg.operands
    rw [← List.length_reverse, List.take_left] at htake
    rw [← List.length_reverse, List.drop_left] at hdrop
    rw [List.length_reverse] at htake hdrop
    exact ⟨htake, hdrop⟩
  -- The values are in hand before they leave the stack.
  refine Triple.bind (R := fun _ => Keeps W (Busy W p vars x ts) tags [] (args ++ as)
    ((f.operands.take args.length).reverse ++ vs)) ((modifyTop_busy rfl fun S g hg _ =>
      hg.operate (hsplit hg).2).pre fun m hm => ?_) fun _ => Triple.pure fun m hm => ⟨hm, ?_⟩
  · refine (hm.hands fun S hq hvs => List.rel_append ?_ hvs).imp fun S hq _ => hq.1
    exact List.forall₂_reverse_iff.mp ((List.reverse_reverse _).symm ▸ (hsplit hq.2).1)
  · simpa using hlength.2

theorem has_of_listed {xs : Array Value} {i : Int} (hi : Listed us i a)
    (hxs : List.Forall₂ (W.types.Has S) us xs.toList) (hv : xs[i.toNat]? = some v) :
    W.types.Has S a v := by
  obtain ⟨k, rfl, ha⟩ := hi
  have hrel := forall₂_getElem? hxs k
  rw [ha, Array.getElem?_toList, ← Int.toNat_natCast k, hv] at hrel
  cases hrel with
  | some hv => exact hv

theorem entry_keeps {Q : Referents → Machine → Prop} {xs : Array Value} {i : Int}
    (hi : Listed us i a) (hxs : ∀ S m, Q S m → List.Forall₂ (W.types.Has S) us xs.toList) :
    Triple (Keeps W Q tags [] as vs) (entry xs i) (fun v => Keeps W Q tags [] (a :: as) (v :: vs))
      Harmless :=
  (Triple.entry fun m _ => harmless_breakdown m).post fun _ m ⟨hm, _, hv⟩ =>
    hm.take fun _ hq => has_of_listed hi (hxs _ m hq) hv

theorem entry_hands {Q : Referents → Machine → Prop} {xs : Array Value} {i : Int}
    (hi : Listed us i a) :
    Triple (Keeps W Q tags [] us xs.toList) (entry xs i) (fun v => Keeps W Q tags [] [a] [v])
      Harmless :=
  (Triple.entry fun m _ => harmless_breakdown m).post fun _ _ ⟨hm, _, hv⟩ =>
    hm.hands fun _ _ hvs => .cons (has_of_listed hi hvs hv) .nil

end Exec

end Pascaline
