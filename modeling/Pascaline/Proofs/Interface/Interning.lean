import Pascaline.Proofs.Interface.Tables

/-!
# Entering types

A table answers requests for types one after the other. Requests for structural types get the same
handle just if they ask for the same type, a class gets a handle of its own, and what stands behind
a handle stays as it is.
-/

namespace Pascaline

/-- A request to a table of types. The greatest count asks for an array without a fixed length. -/
inductive TypeRequest where
  | pointer (elem : TypeId)
  | array (elem : TypeId) (count : UInt32)
  | routine (sig : Signature)
  | newClass (key : ClassKey)
deriving DecidableEq

namespace TypeRequest

/-- Everything but a class is entered once only. -/
def isStructural : TypeRequest → Bool
  | newClass _ => false
  | _ => true

/-- The type asked for, in a table with so many classes. -/
def shape (classes : Nat) : TypeRequest → TypeShape
  | pointer e => .pointer e
  | array e n => .array e (if n.toNat = TypeTable.dynamicLength then none else some n.toNat)
  | routine sig => .routine sig
  | newClass _ => .classRef classes

theorem shape_ne_classRef {r : TypeRequest} (hr : r.isStructural) (n i : Nat) :
    r.shape n ≠ .classRef i := by
  cases r with
  | newClass key => cases hr
  | _ => simp [shape]

/-- A structural request is read off the type that it asks for. -/
theorem shape_inj {r s : TypeRequest} (hr : r.isStructural) (hs : s.isStructural) {m n : Nat}
    (h : r.shape m = s.shape n) : r = s := by
  cases r <;> cases s <;> simp [shape, isStructural] at h hr hs ⊢
  case pointer.pointer => exact h
  case routine.routine => exact h
  case array.array e k e' k' =>
    refine ⟨h.1, UInt32.toNat_inj.mp ?_⟩
    obtain ⟨-, h⟩ := h
    split at h <;> split at h <;> simp_all

theorem shape_eq_of_structural {r : TypeRequest} (hr : r.isStructural) (m n : Nat) :
    r.shape m = r.shape n := by
  cases r with
  | newClass key => cases hr
  | _ => rfl

end TypeRequest

namespace TypeTable

variable {t t' t₁ : TypeTable} {id : TypeId} {r s : TypeRequest} {rs : List TypeRequest} {i j : Nat}

/-- The handle that a request gets, and the table after it. -/
def answer (t : TypeTable) : TypeRequest → TypeId × TypeTable
  | .pointer e => t.pointer e
  | .array e n => t.array e n.toNat
  | .routine sig => t.routine sig
  | .newClass key => t.newClass key

/-- The table after requests made one after the other. -/
def after (t : TypeTable) (rs : List TypeRequest) : TypeTable :=
  rs.foldl (fun t r => (t.answer r).2) t

/-- The handles that the requests get. -/
def handles (t : TypeTable) : List TypeRequest → List TypeId
  | [] => []
  | r :: rs => (t.answer r).1 :: (t.answer r).2.handles rs

/-! ## What stays -/

/-- The types and classes of `t` are in `t'` as they were. -/
structure Extends (t t' : TypeTable) : Prop where
  shapes : t.shapes.toList <+: t'.shapes.toList
  classes : t.classes.toList <+: t'.classes.toList

namespace Extends

theorem refl (t : TypeTable) : t.Extends t := ⟨List.prefix_refl _, List.prefix_refl _⟩

theorem trans (h : t.Extends t₁) (h' : t₁.Extends t') : t.Extends t' :=
  ⟨h.shapes.trans h'.shapes, h.classes.trans h'.classes⟩

theorem class? (h : t.Extends t') {c : ClassInfo} (hc : t.classes[i]? = some c) :
    t'.classes[i]? = some c :=
  getElem?_of_isPrefix h.classes hc

theorem grows (h : t.Extends t') : t.Grows t' :=
  ⟨h.shapes, fun _ c hc => ⟨c, h.class? hc, rfl, rfl⟩⟩

theorem shape?_eq (h : t.Extends t') (hid : t.shape? id ≠ none) : t'.shape? id = t.shape? id := by
  obtain ⟨s, hs⟩ := Option.ne_none_iff_exists'.mp hid
  rw [hs, h.grows.shape? hs]

theorem signature?_eq (h : t.Extends t') (hid : t.shape? id ≠ none) :
    t'.signature? id = t.signature? id := by
  unfold signature?
  rw [h.shape?_eq hid]

theorem size_le (h : t.Extends t') : t.classes.size ≤ t'.classes.size := by
  simpa using h.classes.length_le

end Extends

/-! ## Requests -/

/-- No type is entered twice, and a class that a handle stands for is there. -/
structure Distinct (t : TypeTable) : Prop where
  once : ∀ (a b : Nat) s, t.shape? a = some s → t.shape? b = some s → a = b
  indexed : ∀ (id i : Nat), t.shape? id = some (.classRef i) → i < t.classes.size

theorem distinct_empty : empty.Distinct := ⟨sound_empty.distinct, sound_empty.indexed⟩

/-- What a request does to a table: the handle stands for the type asked for, and that of a class is
a new one. -/
structure Answers (t : TypeTable) (r : TypeRequest) (id : TypeId) (t' : TypeTable) : Prop where
  grown : t.Extends t'
  distinct : t'.Distinct
  shape : t'.shape? id = some (r.shape t.classes.size)
  entered : ∀ key, r = .newClass key →
    t'.classes[t.classes.size]? = some { key, type := id } ∧ t'.classes.size = t.classes.size + 1

namespace Distinct

theorem classInfo?_eq (ht : t.Distinct) (h : t.Extends t') (hid : t.shape? id ≠ none) :
    t'.classInfo? id = t.classInfo? id := by
  unfold classInfo? classIndex?
  rw [h.shape?_eq hid]
  split
  case h_1 i hi =>
    have hlt := ht.indexed id i hi
    rw [Option.bind_some, Option.bind_some, Array.getElem?_eq_getElem hlt]
    exact h.class? (Array.getElem?_eq_getElem hlt)
  case h_2 => rfl

theorem push (ht : t.Distinct) {s : TypeShape} {cs : Array ClassInfo} (hnew : ∀ id, t.shape? id ≠ some s)
    (hcs : t.classes.toList <+: cs.toList) (hclass : ∀ i, s = .classRef i → i < cs.size) :
    Distinct ⟨t.shapes.push s, cs⟩ := by
  have hsize : t.classes.size ≤ cs.size := by simpa using hcs.length_le
  constructor
  · intro a b s' ha hb
    rw [shape?_push] at ha hb
    split at ha <;> split at hb
    · rw [‹a = _›, ‹b = _›]
    · cases ha
      exact absurd hb (hnew b)
    · cases hb
      exact absurd ha (hnew a)
    · exact ht.once a b s' ha hb
  · intro id i hs
    rw [shape?_push] at hs
    split at hs
    · exact hclass i (Option.some.inj hs)
    · exact Nat.lt_of_lt_of_le (ht.indexed id i hs) hsize

theorem intern (ht : t.Distinct) {s : TypeShape} (hs : ∀ i, s ≠ .classRef i) :
    t.Extends (t.intern s).2 ∧ (t.intern s).2.Distinct ∧
      (t.intern s).2.shape? (t.intern s).1 = some s := by
  by_cases h : ∃ id, t.shape? id = some s
  · obtain ⟨id, hid⟩ := h
    rw [intern_of_shape? hid fun b hb => ht.once b id s hb hid]
    exact ⟨.refl t, ht, hid⟩
  · have hnew : ∀ id, t.shape? id ≠ some s := by simpa using h
    rw [intern_eq_push hnew]
    refine ⟨⟨by simp, List.prefix_refl _⟩, ?_, by rw [shape?_push, if_pos rfl]⟩
    exact ht.push hnew (List.prefix_refl _) fun i hi => absurd hi (hs i)

theorem newClass (ht : t.Distinct) (key : ClassKey) :
    Answers t (.newClass key) (t.newClass key).1 (t.newClass key).2 := by
  have hfresh : ∀ id, t.shape? id ≠ some (.classRef t.classes.size) :=
    fun id h => Nat.lt_irrefl _ (ht.indexed id _ h)
  refine ⟨⟨by simp [TypeTable.newClass], by simp [TypeTable.newClass]⟩, ?_, ?_, ?_⟩
  · refine ht.push hfresh (by simp) fun i hi => ?_
    obtain rfl := TypeShape.classRef.inj hi
    simp
  · exact (shape?_push _).trans (if_pos rfl)
  · rintro key' heq
    obtain rfl := TypeRequest.newClass.inj heq
    simp [TypeTable.newClass]

theorem answer (ht : t.Distinct) (r : TypeRequest) : Answers t r (t.answer r).1 (t.answer r).2 := by
  have hstructural : ∀ {r : TypeRequest} (n : Nat), r.isStructural →
      Answers t r (t.intern (r.shape n)).1 (t.intern (r.shape n)).2 := by
    intro r n hr
    obtain ⟨hgrown, hdistinct, hshape⟩ := ht.intern (r.shape_ne_classRef hr n)
    refine ⟨hgrown, hdistinct, ?_, ?_⟩
    · rw [hshape, TypeRequest.shape_eq_of_structural hr]
    · rintro key rfl
      cases hr
  cases r with
  | newClass key => exact ht.newClass key
  | _ => exact hstructural 0 rfl

theorem after (ht : t.Distinct) (rs : List TypeRequest) :
    t.Extends (t.after rs) ∧ (t.after rs).Distinct := by
  induction rs generalizing t with
  | nil => exact ⟨.refl t, ht⟩
  | cons r rs ih =>
    have hr := ht.answer r
    obtain ⟨hgrown, hdistinct⟩ := ih hr.distinct
    exact ⟨hr.grown.trans hgrown, hdistinct⟩

end Distinct

theorem after_append (t : TypeTable) (rs ss : List TypeRequest) :
    t.after (rs ++ ss) = (t.after rs).after ss :=
  List.foldl_append

theorem length_handles (t : TypeTable) (rs : List TypeRequest) :
    (t.handles rs).length = rs.length := by
  induction rs generalizing t with
  | nil => rfl
  | cons r rs ih => exact congrArg (· + 1) (ih _)

theorem getElem?_handles (t : TypeTable) (h : rs[i]? = some r) :
    (t.handles rs)[i]? = some ((t.after (rs.take i)).answer r).1 := by
  induction rs generalizing t i with
  | nil => simp at h
  | cons r' rs ih =>
    cases i with
    | zero =>
      obtain rfl : r' = r := by simpa using h
      rfl
    | succ i => exact ih _ (by simpa using h)

theorem after_take_succ (t : TypeTable) (h : rs[i]? = some r) :
    t.after (rs.take (i + 1)) = ((t.after (rs.take i)).answer r).2 := by
  rw [List.take_add_one, h, after_append]
  rfl

namespace Distinct

theorem after_take (ht : t.Distinct) (rs : List TypeRequest) (h : i ≤ j) :
    (t.after (rs.take i)).Extends (t.after (rs.take j)) := by
  obtain ⟨k, rfl⟩ := Nat.exists_eq_add_of_le h
  rw [List.take_add, after_append]
  exact ((ht.after _).2.after _).1

theorem after_take_all (ht : t.Distinct) (rs : List TypeRequest) (i : Nat) :
    (t.after (rs.take i)).Extends (t.after rs) := by
  have happend := after_append t (rs.take i) (rs.drop i)
  rw [List.take_append_drop] at happend
  rw [happend]
  exact ((ht.after _).2.after _).1

theorem answered (ht : t.Distinct) (hr : rs[i]? = some r) (hid : (t.handles rs)[i]? = some id) :
    (t.after rs).shape? id = some (r.shape (t.after (rs.take i)).classes.size) ∧
    ∀ key, r = .newClass key →
      (t.after rs).classInfo? id = some { key, type := id } ∧
      (t.after (rs.take i)).classes.size < (t.after (rs.take (i + 1))).classes.size := by
  rw [getElem?_handles t hr] at hid
  obtain rfl := Option.some.inj hid
  have hanswer := (ht.after (rs.take i)).2.answer r
  have hlater := ht.after_take_all rs (i + 1)
  rw [after_take_succ t hr] at hlater ⊢
  have hshape := hlater.grows.shape? hanswer.shape
  refine ⟨hshape, ?_⟩
  rintro key rfl
  obtain ⟨hclass, hsize⟩ := hanswer.entered key rfl
  exact ⟨classInfo?_eq_some.mpr ⟨_, hshape, hlater.class? hclass⟩, by omega⟩

/-- Of two requests the later one does not get the handle of a class that either asked for. -/
theorem handle_ne (ht : t.Distinct) (hij : i < j) (hr : rs[i]? = some r) (hs : rs[j]? = some s)
    {a b : TypeId} (ha : (t.handles rs)[i]? = some a) (hb : (t.handles rs)[j]? = some b)
    (hclass : r.isStructural = false ∨ s.isStructural = false) : a ≠ b := by
  rintro rfl
  obtain ⟨hshape, hnew⟩ := ht.answered hr ha
  have hsame := Option.some.inj (hshape.symm.trans (ht.answered hs hb).1)
  cases r with
  | newClass key =>
    have hlt := (hnew key rfl).2
    have hle := (ht.after_take rs (show i + 1 ≤ j from hij)).size_le
    cases s with
    | newClass key' =>
      have := TypeShape.classRef.inj hsame
      omega
    | _ => exact TypeRequest.shape_ne_classRef rfl _ _ hsame.symm
  | _ =>
    cases s with
    | newClass key' => exact TypeRequest.shape_ne_classRef rfl _ _ hsame
    | _ => simp [TypeRequest.isStructural] at hclass

end Distinct

end TypeTable

open TypeTable in
/-- However requests follow on one another, every handle stands for the type that was asked for, and
goes on to do so: what is known of a handle after some of the requests is known after all of them.
Two structural requests have one handle just if they ask for the same type, and the handle of a
class is that of no other request and of no primitive type. -/
theorem interning_is_faithful (rs : List TypeRequest) :
    (empty.handles rs).length = rs.length ∧
    (∀ (i j : Nat) (r s : TypeRequest) (a b : TypeId),
      rs[i]? = some r → (empty.handles rs)[i]? = some a →
      rs[j]? = some s → (empty.handles rs)[j]? = some b →
      (r.isStructural → s.isStructural → (a = b ↔ r = s)) ∧
      (r.isStructural = false → i ≠ j → a ≠ b)) ∧
    (∀ (i : Nat) (r : TypeRequest) (a : TypeId), rs[i]? = some r → (empty.handles rs)[i]? = some a →
      (∀ n, r.isStructural → (empty.after rs).shape? a = some (r.shape n)) ∧
      (∀ sig, r = .routine sig → (empty.after rs).signature? a = some sig) ∧
      ∀ key, r = .newClass key →
        (empty.after rs).classInfo? a = some { key, type := a } ∧ string < a) ∧
    ∀ (before after : List TypeRequest) (id : TypeId), rs = before ++ after →
      (empty.after before).shape? id ≠ none →
      (empty.after rs).shape? id = (empty.after before).shape? id ∧
      (empty.after rs).signature? id = (empty.after before).signature? id ∧
      (empty.after rs).classInfo? id = (empty.after before).classInfo? id := by
  have hempty := distinct_empty
  refine ⟨length_handles _ _, fun i j r s a b hr ha hs hb => ⟨fun hr' hs' => ?_, fun hr' hij => ?_⟩,
    fun i r a hr ha => ⟨fun n hr' => ?_, ?_, ?_⟩, fun before after id hsplit hid => ?_⟩
  · have hrshape := (hempty.answered hr ha).1
    have hsshape := (hempty.answered hs hb).1
    constructor
    · rintro rfl
      exact TypeRequest.shape_inj hr' hs' (Option.some.inj (hrshape.symm.trans hsshape))
    · rintro rfl
      refine (hempty.after rs).2.once a b _ hrshape ?_
      rw [hsshape, TypeRequest.shape_eq_of_structural hr']
  · rcases Nat.lt_or_gt_of_ne hij with hij | hij
    · exact hempty.handle_ne hij hr hs ha hb (.inl hr')
    · exact (hempty.handle_ne hij hs hr hb ha (.inr hr')).symm
  · rw [(hempty.answered hr ha).1, TypeRequest.shape_eq_of_structural hr']
  · rintro sig rfl
    unfold signature?
    rw [(hempty.answered hr ha).1]
    rfl
  · rintro key rfl
    obtain ⟨hshape, hclass⟩ := hempty.answered hr ha
    refine ⟨(hclass key rfl).1, ?_⟩
    -- the first seven handles stand for the primitive types
    by_contra hle
    have hsome : empty.shape? a ≠ none := by
      have hne := ne_zero_of_shape? hshape
      have hall : ∀ a ≤ string, a ≠ 0 → empty.shape? a ≠ none := by decide
      exact hall a (Nat.not_lt.mp hle) hne
    have hkept := (hempty.after rs).1.shape?_eq hsome
    rw [hshape] at hkept
    exact Nat.not_lt_zero _ (hempty.indexed a _ hkept.symm)
  · subst hsplit
    have hbefore := (hempty.after before).2
    have hgrown := (hbefore.after after).1
    rw [after_append]
    exact ⟨hgrown.shape?_eq hid, hgrown.signature?_eq hid, hbefore.classInfo?_eq hgrown hid⟩

/-- Lists of parameters whose texts would run together without the commas. -/
example : (TypeTable.empty.handles
    [.routine ⟨[1, 12], 0⟩, .routine ⟨[11, 2], 0⟩, .routine ⟨[1, 1, 2], 0⟩, .newClass ⟨"zoo", "animal"⟩,
     .routine ⟨[11, 2], 0⟩, .newClass ⟨"zoo", "animal"⟩]) = [8, 9, 10, 11, 9, 12] := by
  decide +kernel

end Pascaline
