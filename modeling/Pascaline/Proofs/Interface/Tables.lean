import Mathlib.Data.List.Basic
import Pascaline.Proofs.Pairwise
import Pascaline.CompiledUnit.Interface

/-!
# Tables of types

What holds of every table that types are entered into: it starts with the basic types, a type stands
behind the types it is made of, no type is entered twice, and classes have keys of their own. Such
a table only grows, and a type that is made of the classes of some units stays so.
-/

namespace Pascaline

namespace TypeShape

/-- The types that a type is made of; a routine without a result has the result 0. -/
def parts : TypeShape → List TypeId
  | .pointer e | .array e _ => [e]
  | .routine sig => sig.result :: sig.params
  | _ => []

/-- The types that every table starts with. -/
def isBasic : TypeShape → Bool
  | .void | .nil | .boolean | .integer | .real | .char | .string => true
  | _ => false

end TypeShape

/-! ## Types that are entered as one -/

theorem toList_decimal (n : Nat) : (decimal n).toList = Nat.toDigits 10 n := by
  rw [decimal, String.toList_ofList]

theorem decimal_inj {m n : Nat} (h : Nat.toDigits 10 m = Nat.toDigits 10 n) : m = n := by
  simpa using congrArg (Nat.ofDigitChars 10 · 0) h

theorem not_mem_digits {c : Char} (hc : c.isDigit = false) (n : Nat) : c ∉ Nat.toDigits 10 n := by
  intro h
  have hdigit := Nat.isDigit_of_mem_toDigits (b := 10) (by decide) (by decide) h
  rw [hdigit] at hc
  cases hc

theorem cut_inj {c d : Char} {xs ys as bs : List Char} (hx : d ∉ xs) (hy : c ∉ ys)
    (h : xs ++ c :: as = ys ++ d :: bs) : xs = ys ∧ c = d ∧ as = bs := by
  induction xs generalizing ys with
  | nil =>
    cases ys with
    | nil => simpa using h
    | cons y ys =>
      obtain ⟨rfl, -⟩ := List.cons_eq_cons.mp h
      exact absurd List.mem_cons_self hy
  | cons x xs ih =>
    cases ys with
    | nil =>
      obtain ⟨rfl, -⟩ := List.cons_eq_cons.mp h
      exact absurd List.mem_cons_self hx
    | cons y ys =>
      obtain ⟨rfl, htail⟩ := List.cons_eq_cons.mp h
      obtain ⟨rfl, hrest⟩ :=
        ih (List.not_mem_of_not_mem_cons hx) (List.not_mem_of_not_mem_cons hy) htail
      exact ⟨rfl, hrest⟩

theorem params_inj {ps qs : List TypeId} {r r' : TypeId}
    (h : (ps.flatMap fun p => Nat.toDigits 10 p ++ [',']) ++ ':' :: Nat.toDigits 10 r =
      (qs.flatMap fun p => Nat.toDigits 10 p ++ [',']) ++ ':' :: Nat.toDigits 10 r') :
    ps = qs ∧ r = r' := by
  have hcomma : ∀ n, ',' ∉ Nat.toDigits 10 n := not_mem_digits rfl
  have hcolon : ∀ n, ':' ∉ Nat.toDigits 10 n := not_mem_digits rfl
  induction ps generalizing qs with
  | nil =>
    cases qs with
    | nil => exact ⟨rfl, decimal_inj (List.cons_eq_cons.mp h).2⟩
    | cons q qs =>
      rw [List.flatMap_cons, List.append_assoc, List.append_assoc] at h
      have hmark : ':' = ',' := (cut_inj List.not_mem_nil (hcolon q) h).2.1
      exact absurd hmark (by decide)
  | cons p ps ih =>
    rw [List.flatMap_cons, List.append_assoc, List.append_assoc] at h
    cases qs with
    | nil =>
      have hmark : ',' = ':' := (cut_inj (hcolon p) List.not_mem_nil h).2.1
      exact absurd hmark (by decide)
    | cons q qs =>
      rw [List.flatMap_cons, List.append_assoc, List.append_assoc] at h
      obtain ⟨hpq, -, hrest⟩ := cut_inj (hcomma p) (hcomma q) h
      obtain ⟨hparams, hresult⟩ := ih hrest
      exact ⟨by rw [decimal_inj hpq, hparams], hresult⟩

theorem Signature.text_inj {a b : Signature} : a.text = b.text ↔ a = b := by
  refine ⟨fun h => ?_, congrArg Signature.text⟩
  have hlist := congrArg String.toList h
  simp only [Signature.text, String.toList_append, String.toList_join, List.flatMap_map,
    toList_decimal, List.append_assoc] at hlist
  obtain ⟨hparams, hresult⟩ := params_inj hlist
  cases a
  cases b
  rw [Signature.mk.injEq]
  exact ⟨hparams, hresult⟩

@[simp] theorem TypeShape.isSame_iff {s s' : TypeShape} : s.isSame s' = true ↔ s = s' := by
  unfold TypeShape.isSame
  split
  · rw [beq_iff_eq, Signature.text_inj, TypeShape.routine.injEq]
  · exact beq_iff_eq

namespace TypeTable

variable {t t' t₁ : TypeTable} {a b id : Nat} {s : TypeShape} {c c' : ClassInfo} {key : ClassKey}

/-- Types stand behind their parts, none twice, and the classes are in their places. -/
structure Formed (t : TypeTable) : Prop where
  basic : empty.shapes.toList <+: t.shapes.toList
  distinct : ∀ (a b : Nat) s, t.shape? a = some s → t.shape? b = some s → a = b
  earlier : ∀ (id : Nat) s, t.shape? id = some s → ∀ p ∈ s.parts, p < id
  indexed : ∀ (id i : Nat), t.shape? id = some (.classRef i) → i < t.classes.size
  owned : ∀ (i : Nat) c, t.classes[i]? = some c → t.shape? c.type = some (.classRef i)

structure Sound (t : TypeTable) : Prop extends t.Formed where
  keys : ∀ (i j : Nat) c d, t.classes[i]? = some c → t.classes[j]? = some d → c.key = d.key → i = j

/-! ## Looking up -/

theorem shape?_eq_some : t.shape? id = some s ↔ id ≠ 0 ∧ t.shapes[id - 1]? = some s := by
  unfold shape?
  split <;> simp_all

theorem shape?_le (h : t.shape? id = some s) : id ≤ t.shapes.size := by
  obtain ⟨hid, hs⟩ := shape?_eq_some.mp h
  have hlt := (Array.getElem?_eq_some_iff.mp hs).1
  omega

theorem ne_zero_of_shape? (h : t.shape? id = some s) : id ≠ 0 := (shape?_eq_some.mp h).1

theorem shape?_of_getElem? {i : Nat} (h : t.shapes[i]? = some s) : t.shape? (i + 1) = some s :=
  shape?_eq_some.mpr ⟨Nat.succ_ne_zero i, h⟩

theorem kind_of_shape? (h : t.shape? id = some s) : t.kind id = s.kind := by
  unfold kind
  rw [h]

theorem exists_shape_of_kind {k : TypeKind} (h : t.kind id = k) (hk : k ≠ .invalid) :
    ∃ s, t.shape? id = some s ∧ s.kind = k := by
  unfold kind at h
  split at h
  · exact ⟨_, ‹_›, h⟩
  · exact absurd h.symm hk

theorem classInfo?_eq_some :
    t.classInfo? id = some c ↔ ∃ i : Nat, t.shape? id = some (.classRef i) ∧ t.classes[i]? = some c := by
  unfold classInfo? classIndex?
  rw [Option.bind_eq_some_iff]
  constructor
  · rintro ⟨i, hi, hc⟩
    split at hi
    · cases hi
      exact ⟨i, ‹_›, hc⟩
    · cases hi
  · rintro ⟨i, hi, hc⟩
    exact ⟨i, by rw [hi], hc⟩

theorem keyOf?_eq_some : t.keyOf? id = some key ↔ ∃ c, t.classInfo? id = some c ∧ c.key = key :=
  Option.map_eq_some_iff

namespace Formed

theorem classInfo?_type (ht : t.Formed) (hc : c ∈ t.classes) : t.classInfo? c.type = some c := by
  obtain ⟨i, hi, rfl⟩ := Array.mem_iff_getElem.mp hc
  exact classInfo?_eq_some.mpr ⟨i, ht.owned i _ (Array.getElem?_eq_getElem hi),
    Array.getElem?_eq_getElem hi⟩

theorem mem_classes (_ : t.Formed) (h : t.classInfo? id = some c) : c ∈ t.classes := by
  obtain ⟨i, -, hc⟩ := classInfo?_eq_some.mp h
  exact Array.mem_of_getElem? hc

theorem type_eq (ht : t.Formed) (h : t.classInfo? id = some c) : c.type = id := by
  obtain ⟨i, hi, hc⟩ := classInfo?_eq_some.mp h
  exact ht.distinct _ _ _ (ht.owned i c hc) hi

theorem type_le (ht : t.Formed) (hc : c ∈ t.classes) : c.type ≤ t.shapes.size := by
  obtain ⟨i, hi, -⟩ := classInfo?_eq_some.mp (ht.classInfo?_type hc)
  exact shape?_le hi

theorem exists_class (ht : t.Formed) {i : Nat} (h : t.shape? id = some (.classRef i)) :
    ∃ c, t.classes[i]? = some c ∧ t.classInfo? id = some c := by
  have hlt := ht.indexed id i h
  exact ⟨t.classes[i], Array.getElem?_eq_getElem hlt,
    classInfo?_eq_some.mpr ⟨i, h, Array.getElem?_eq_getElem hlt⟩⟩

theorem shape?_basic (ht : t.Formed) {i : Nat} (h : empty.shapes[i]? = some s) :
    t.shape? (i + 1) = some s := by
  refine shape?_of_getElem? ?_
  rw [← Array.getElem?_toList] at h ⊢
  obtain ⟨rest, hrest⟩ := ht.basic
  rw [← hrest]
  exact List.getElem?_append_left (List.getElem?_eq_some_iff.mp h).1 ▸ h

end Formed

namespace Sound

theorem eq_of_key (ht : t.Sound) (h : t.classInfo? a = some c) (h' : t.classInfo? b = some c')
    (hkey : c.key = c'.key) : a = b := by
  obtain ⟨i, hi, hc⟩ := classInfo?_eq_some.mp h
  obtain ⟨j, hj, hc'⟩ := classInfo?_eq_some.mp h'
  obtain rfl := ht.keys i j c c' hc hc' hkey
  exact ht.distinct _ _ _ hi hj

theorem classByKey?_eq_some (ht : t.Sound) :
    t.classByKey? key = some id ↔ t.keyOf? id = some key := by
  rw [keyOf?_eq_some]
  unfold classByKey?
  constructor
  · intro h
    obtain ⟨c, hc, rfl⟩ := Option.map_eq_some_iff.mp h
    have hmem : c ∈ t.classes := by simpa using List.mem_of_find?_eq_some hc
    exact ⟨c, ht.classInfo?_type hmem, eq_of_beq (List.find?_some (p := fun c : ClassInfo => c.key == key) hc)⟩
  · rintro ⟨c, hc, rfl⟩
    have hmem : c ∈ t.classes.toList.reverse := by simpa using ht.mem_classes hc
    obtain ⟨d, hd⟩ := Option.isSome_iff_exists.mp
      (List.find?_isSome (p := fun d : ClassInfo => d.key == c.key).mpr ⟨c, hmem, by simp⟩)
    have hd' : t.classInfo? d.type = some d :=
      ht.classInfo?_type (by simpa using List.mem_of_find?_eq_some hd)
    have hkey : d.key = c.key := eq_of_beq (List.find?_some (p := fun d : ClassInfo => d.key == c.key) hd)
    rw [hd, Option.map_some, ht.eq_of_key hd' hc hkey]

end Sound

theorem sound_empty : empty.Sound := by
  have hmem : ∀ {id s}, empty.shape? id = some s → s ∈ empty.shapes.toList := by
    intro id s h
    exact Array.mem_toList_iff.mpr (Array.mem_of_getElem? (shape?_eq_some.mp h).2)
  refine ⟨⟨List.prefix_refl _, ?_, ?_, ?_, ?_⟩, ?_⟩
  · intro a b s ha hb
    obtain ⟨ha₀, ha⟩ := shape?_eq_some.mp ha
    obtain ⟨hb₀, hb⟩ := shape?_eq_some.mp hb
    have hlt : a - 1 < 7 := (Array.getElem?_eq_some_iff.mp ha).1
    have hlt' : b - 1 < 7 := (Array.getElem?_eq_some_iff.mp hb).1
    have hall : ∀ i < 7, ∀ j < 7, empty.shapes[i]? = empty.shapes[j]? → i = j := by decide
    have hsame := hall _ hlt _ hlt' (ha.trans hb.symm)
    omega
  · intro id s h p hp
    have hall : ∀ s ∈ empty.shapes.toList, s.parts = [] := by decide
    rw [hall s (hmem h)] at hp
    cases hp
  · intro id i h
    have hall : TypeShape.classRef i ∉ empty.shapes.toList := by simp [empty]
    exact absurd (hmem h) hall
  · intro i c h
    simp [empty] at h
  · intro i j c d h
    simp [empty] at h

/-! ## Growth -/

/-- Nothing of `t` is lost in `t'`, though its classes may have been laid out. -/
structure Grows (t t' : TypeTable) : Prop where
  shapes : t.shapes.toList <+: t'.shapes.toList
  classes : ∀ (i : Nat) c, t.classes[i]? = some c →
    ∃ c', t'.classes[i]? = some c' ∧ c'.key = c.key ∧ c'.type = c.type

namespace Grows

theorem refl (t : TypeTable) : t.Grows t := ⟨List.prefix_refl _, fun _ c h => ⟨c, h, rfl, rfl⟩⟩

theorem trans (h : t.Grows t₁) (h' : t₁.Grows t') : t.Grows t' := by
  refine ⟨h.shapes.trans h'.shapes, ?_⟩
  intro i c hc
  obtain ⟨c₁, hc₁, hkey, htype⟩ := h.classes i c hc
  obtain ⟨c₂, hc₂, hkey', htype'⟩ := h'.classes i c₁ hc₁
  exact ⟨c₂, hc₂, hkey'.trans hkey, htype'.trans htype⟩

theorem shape? (h : t.Grows t') (hs : t.shape? id = some s) : t'.shape? id = some s := by
  obtain ⟨hid, hs⟩ := shape?_eq_some.mp hs
  refine shape?_eq_some.mpr ⟨hid, ?_⟩
  rw [← Array.getElem?_toList] at hs ⊢
  obtain ⟨rest, hrest⟩ := h.shapes
  rw [← hrest]
  exact List.getElem?_append_left (List.getElem?_eq_some_iff.mp hs).1 ▸ hs

theorem classInfo? (h : t.Grows t') (hc : t.classInfo? id = some c) :
    ∃ c', t'.classInfo? id = some c' ∧ c'.key = c.key ∧ c'.type = c.type := by
  obtain ⟨i, hi, hc⟩ := classInfo?_eq_some.mp hc
  obtain ⟨c', hc', hsame⟩ := h.classes i c hc
  exact ⟨c', classInfo?_eq_some.mpr ⟨i, h.shape? hi, hc'⟩, hsame⟩

theorem keyOf? (h : t.Grows t') (hk : t.keyOf? id = some key) : t'.keyOf? id = some key := by
  obtain ⟨c, hc, rfl⟩ := keyOf?_eq_some.mp hk
  obtain ⟨c', hc', hkey, -⟩ := h.classInfo? hc
  exact keyOf?_eq_some.mpr ⟨c', hc', hkey⟩

theorem keyOf?_of_le (h : t.Grows t') (ht : t.Formed) (hid : id ≤ t.shapes.size)
    (hk : t'.keyOf? id = some key) : t.keyOf? id = some key := by
  obtain ⟨c', hc', rfl⟩ := keyOf?_eq_some.mp hk
  obtain ⟨i, hi, -⟩ := classInfo?_eq_some.mp hc'
  have hzero := ne_zero_of_shape? hi
  have hlt : id - 1 < t.shapes.size := by omega
  have hs : t.shape? id = some t.shapes[id - 1] :=
    shape?_eq_some.mpr ⟨hzero, Array.getElem?_eq_getElem hlt⟩
  rw [Option.some.inj ((h.shape? hs).symm.trans hi)] at hs
  obtain ⟨c, -, hc⟩ := ht.exists_class hs
  obtain ⟨d, hd, hkey, -⟩ := h.classInfo? hc
  obtain rfl := Option.some.inj (hd.symm.trans hc')
  exact keyOf?_eq_some.mpr ⟨c, hc, hkey.symm⟩

theorem kind (h : t.Grows t') (hs : t.shape? id = some s) : t'.kind id = t.kind id := by
  rw [kind_of_shape? hs, kind_of_shape? (h.shape? hs)]

end Grows

theorem shape?_push (cs : Array ClassInfo) :
    TypeTable.shape? ⟨t.shapes.push s, cs⟩ id =
      if id = t.shapes.size + 1 then some s else t.shape? id := by
  unfold TypeTable.shape?
  by_cases h₀ : id = 0
  · subst h₀
    simp
  · rw [if_neg h₀, if_neg h₀, Array.getElem?_push]
    have hiff : id - 1 = t.shapes.size ↔ id = t.shapes.size + 1 := by omega
    simp only [hiff]

theorem shape?_size : t.shape? (t.shapes.size + 1) = none := by
  unfold TypeTable.shape?
  simp

theorem intern_of_shape? (h : t.shape? id = some s) (honce : ∀ b, t.shape? b = some s → b = id) :
    t.intern s = (id, t) := by
  unfold TypeTable.intern
  split
  case h_1 i hi =>
    obtain ⟨hlt, heq, -⟩ := Array.findIdx?_eq_some_iff_getElem.mp hi
    have hs : t.shape? (i + 1) = some s :=
      shape?_of_getElem? (by rw [Array.getElem?_eq_getElem hlt, TypeShape.isSame_iff.mp heq])
    rw [honce _ hs]
  case h_2 hnone =>
    have := Array.findIdx?_eq_none_iff.mp hnone s (Array.mem_of_getElem? (shape?_eq_some.mp h).2)
    rw [TypeShape.isSame_iff.mpr rfl] at this
    cases this

theorem Formed.intern_of_shape? (ht : t.Formed) (h : t.shape? id = some s) : t.intern s = (id, t) :=
  TypeTable.intern_of_shape? h fun b hb => ht.distinct b id s hb h

theorem intern_eq_push (h : ∀ id, t.shape? id ≠ some s) :
    t.intern s = (t.shapes.size + 1, { t with shapes := t.shapes.push s }) := by
  unfold TypeTable.intern
  split
  case h_1 i hi =>
    obtain ⟨hlt, heq, -⟩ := Array.findIdx?_eq_some_iff_getElem.mp hi
    refine absurd (shape?_of_getElem? (i := i) ?_) (h (i + 1))
    rw [Array.getElem?_eq_getElem hlt, TypeShape.isSame_iff.mp heq]
  case h_2 => rfl

/-- What entering a type does to a table. -/
structure Interns (t : TypeTable) (s : TypeShape) (id : TypeId) (t' : TypeTable) : Prop where
  formed : t'.Formed
  grows : t.Grows t'
  classes : t'.classes = t.classes
  shape : t'.shape? id = some s

theorem Interns.sound (h : Interns t s id t') (ht : t.Sound) : t'.Sound :=
  ⟨h.formed, by rw [h.classes]; exact ht.keys⟩

theorem Formed.push (ht : t.Formed) (hnew : ∀ id, t.shape? id ≠ some s)
    (hparts : ∀ p ∈ s.parts, p ≤ t.shapes.size) (hclass : ∀ i, s ≠ .classRef i) :
    Interns t s (t.shapes.size + 1) { t with shapes := t.shapes.push s } := by
  have hshape : ∀ {id}, TypeTable.shape? ⟨t.shapes.push s, t.classes⟩ id =
      if id = t.shapes.size + 1 then some s else t.shape? id := shape?_push t.classes
  have hle : t.shapes.toList <+: (t.shapes.push s).toList := by simp
  refine ⟨⟨ht.basic.trans hle, ?_, ?_, ?_, ?_⟩, ⟨hle, fun _ c h => ⟨c, h, rfl, rfl⟩⟩, rfl,
    by rw [hshape, if_pos rfl]⟩
  · intro a b s' ha hb
    rw [hshape] at ha hb
    split at ha <;> split at hb
    · rw [‹a = _›, ‹b = _›]
    · cases ha
      exact absurd hb (hnew b)
    · cases hb
      exact absurd ha (hnew a)
    · exact ht.distinct a b s' ha hb
  · intro id s' hs p hp
    rw [hshape] at hs
    split at hs
    · cases hs
      rw [‹id = _›]
      exact Nat.lt_succ_of_le (hparts p hp)
    · exact ht.earlier id s' hs p hp
  · intro id i hs
    rw [hshape] at hs
    split at hs
    · exact absurd (Option.some.inj hs) (hclass i)
    · exact ht.indexed id i hs
  · intro i c hc
    rw [hshape, if_neg, ht.owned i c hc]
    rintro htype
    have := ht.owned i c hc
    rw [htype, shape?_size] at this
    cases this

theorem Formed.intern (ht : t.Formed) (hparts : ∀ p ∈ s.parts, p ≤ t.shapes.size)
    (hclass : ∀ i, s ≠ .classRef i) : Interns t s (t.intern s).1 (t.intern s).2 := by
  by_cases h : ∃ id, t.shape? id = some s
  · obtain ⟨id, hid⟩ := h
    rw [ht.intern_of_shape? hid]
    exact ⟨ht, .refl t, rfl, hid⟩
  · have hnew : ∀ id, t.shape? id ≠ some s := by simpa using h
    rw [intern_eq_push hnew]
    exact ht.push hnew hparts hclass

theorem getElem?_newClass {i : Nat} (h : (t.newClass key).2.classes[i]? = some c) :
    i = t.classes.size ∧ c = { key, type := t.shapes.size + 1 } ∨ t.classes[i]? = some c := by
  simp only [TypeTable.newClass, Array.getElem?_push] at h
  split at h
  · exact .inl ⟨‹_›, (Option.some.inj h).symm⟩
  · exact .inr h

theorem Formed.newClass (ht : t.Formed) (key : ClassKey) :
    (t.newClass key).2.Formed ∧ t.Grows (t.newClass key).2 := by
  have hshape : ∀ {id}, (t.newClass key).2.shape? id =
      if id = t.shapes.size + 1 then some (.classRef t.classes.size) else t.shape? id :=
    shape?_push _
  have hle : t.shapes.toList <+: (t.newClass key).2.shapes.toList := by simp [TypeTable.newClass]
  have hfresh : ∀ id, t.shape? id ≠ some (.classRef t.classes.size) :=
    fun id h => Nat.lt_irrefl _ (ht.indexed id _ h)
  refine ⟨⟨ht.basic.trans hle, ?_, ?_, ?_, ?_⟩, hle, ?_⟩
  · intro a b s' ha hb
    rw [hshape] at ha hb
    split at ha <;> split at hb
    · rw [‹a = _›, ‹b = _›]
    · cases ha
      exact absurd hb (hfresh b)
    · cases hb
      exact absurd ha (hfresh a)
    · exact ht.distinct a b s' ha hb
  · intro id s' hs p hp
    rw [hshape] at hs
    split at hs
    · cases hs
      cases hp
    · exact ht.earlier id s' hs p hp
  · intro id i hs
    rw [hshape] at hs
    have hsize : (t.newClass key).2.classes.size = t.classes.size + 1 := by
      simp [TypeTable.newClass]
    split at hs
    · cases hs
      omega
    · have := ht.indexed id i hs
      omega
  · intro i c hc
    rw [hshape]
    rcases getElem?_newClass hc with ⟨rfl, rfl⟩ | hc
    · rw [if_pos rfl]
    · rw [if_neg, ht.owned i c hc]
      intro htype
      have := ht.owned i c hc
      rw [htype, shape?_size] at this
      cases this
  · intro i c hc
    refine ⟨c, ?_, rfl, rfl⟩
    have hlt := (Array.getElem?_eq_some_iff.mp hc).1
    simp only [TypeTable.newClass, Array.getElem?_push]
    rw [if_neg (by omega), hc]

theorem Sound.newClass (ht : t.Sound) (hkey : ∀ c ∈ t.classes, c.key ≠ key) :
    (t.newClass key).2.Sound ∧ t.Grows (t.newClass key).2 := by
  obtain ⟨hformed, hgrows⟩ := ht.toFormed.newClass key
  refine ⟨⟨hformed, fun i j c d hc hd hsame => ?_⟩, hgrows⟩
  rcases getElem?_newClass hc with ⟨rfl, rfl⟩ | hc <;>
    rcases getElem?_newClass hd with ⟨rfl, rfl⟩ | hd
  · rfl
  · exact absurd hsame.symm (hkey d (Array.mem_of_getElem? hd))
  · exact absurd hsame (hkey c (Array.mem_of_getElem? hc))
  · exact ht.keys i j c d hc hd hsame

theorem Formed.classInfo?_newClass (ht : t.Formed) :
    (t.newClass key).2.classInfo? id =
      if id = (t.newClass key).1 then some { key, type := id } else t.classInfo? id := by
  have hshape : (t.newClass key).2.shape? id =
      if id = (t.newClass key).1 then some (.classRef t.classes.size) else t.shape? id :=
    shape?_push _
  split
  · rename_i hid
    refine classInfo?_eq_some.mpr ⟨t.classes.size, hshape.trans (if_pos hid), ?_⟩
    rw [hid]
    simp [TypeTable.newClass]
  · rename_i hid
    unfold classInfo? classIndex?
    rw [hshape, if_neg hid]
    split
    · rename_i i hi
      have hlt := ht.indexed id i hi
      simp [TypeTable.newClass, Array.getElem?_push, Nat.ne_of_lt hlt]
    · rfl

theorem setClass_eq {i : Nat} (hi : t.shape? id = some (.classRef i)) :
    t.setClass id c' = { t with classes := t.classes.set! i c' } := by
  unfold TypeTable.setClass classIndex?
  rw [hi]

theorem getElem?_setClass {j : Nat} {d : ClassInfo} (hc : t.classInfo? id = some c)
    (hkey : c'.key = c.key) (htype : c'.type = c.type) (hd : (t.setClass id c').classes[j]? = some d) :
    ∃ d', t.classes[j]? = some d' ∧ d.key = d'.key ∧ d.type = d'.type := by
  obtain ⟨i, hi, hget⟩ := classInfo?_eq_some.mp hc
  rw [setClass_eq hi, Array.set!_eq_setIfInBounds, Array.getElem?_setIfInBounds] at hd
  split at hd
  · subst j
    cases (Option.ite_none_right_eq_some.mp hd).2
    exact ⟨c, hget, hkey, htype⟩
  · exact ⟨d, hd, rfl, rfl⟩

theorem Formed.setClass (ht : t.Formed) (hc : t.classInfo? id = some c) (hkey : c'.key = c.key)
    (htype : c'.type = c.type) : (t.setClass id c').Formed ∧ t.Grows (t.setClass id c') := by
  obtain ⟨i, hi, hget⟩ := classInfo?_eq_some.mp hc
  have hlt := (Array.getElem?_eq_some_iff.mp hget).1
  have hsame := fun {j d} => getElem?_setClass (j := j) (d := d) hc hkey htype
  rw [setClass_eq hi] at hsame ⊢
  refine ⟨⟨ht.basic, ht.distinct, ht.earlier, ?_, ?_⟩, List.prefix_refl _, ?_⟩
  · intro id j h
    simpa using ht.indexed id j h
  · intro j d hd
    obtain ⟨d', hd', -, htype'⟩ := hsame hd
    exact htype' ▸ ht.owned j d' hd'
  · intro j d hd
    simp only [Array.set!_eq_setIfInBounds, Array.getElem?_setIfInBounds]
    split
    · subst j
      rw [hget] at hd
      cases hd
      exact ⟨c', by simp, hkey, htype⟩
    · exact ⟨d, hd, rfl, rfl⟩

theorem Sound.setClass (ht : t.Sound) (hc : t.classInfo? id = some c) (hkey : c'.key = c.key)
    (htype : c'.type = c.type) : (t.setClass id c').Sound ∧ t.Grows (t.setClass id c') := by
  obtain ⟨hformed, hgrows⟩ := ht.toFormed.setClass hc hkey htype
  refine ⟨⟨hformed, fun j k d e hd he hde => ?_⟩, hgrows⟩
  obtain ⟨d', hd', hkey', -⟩ := getElem?_setClass hc hkey htype hd
  obtain ⟨e', he', hkey'', -⟩ := getElem?_setClass hc hkey htype he
  exact ht.keys j k d' e' hd' he' (hkey'.symm.trans (hde.trans hkey''))

theorem Formed.classInfo?_setClass {k : Nat} (ht : t.Formed) (hc : t.classInfo? id = some c) :
    (t.setClass id c').classInfo? k = if k = id then some c' else t.classInfo? k := by
  obtain ⟨i, hi, hget⟩ := classInfo?_eq_some.mp hc
  have hlt := (Array.getElem?_eq_some_iff.mp hget).1
  have hset : t.setClass id c' = { t with classes := t.classes.set! i c' } := setClass_eq hi
  have hshape : (t.setClass id c').shape? k = t.shape? k := by
    rw [hset]
    rfl
  split
  · subst k
    exact classInfo?_eq_some.mpr ⟨i, hshape.trans hi, by simp [hset, hlt]⟩
  · rename_i hk
    unfold classInfo? classIndex?
    rw [hshape]
    split
    · rename_i j hj
      have hne : i ≠ j := by
        rintro rfl
        exact hk (ht.distinct _ _ _ hj hi)
      simp [hset, Array.getElem?_setIfInBounds, hne]
    · rfl

/-! ## The classes that a type depends on -/

/-- The classes that a type is made of are among `S`, by their handles and units. -/
inductive Within (t : TypeTable) (S : TypeId → String → Prop) : TypeId → Prop
  | basic {id : TypeId} {s : TypeShape} (hs : t.shape? id = some s) (hbasic : s.isBasic) :
      Within t S id
  | pointer {id e : TypeId} (hs : t.shape? id = some (.pointer e)) (he : Within t S e) :
      Within t S id
  | array {id e : TypeId} {n : Option Nat} (hs : t.shape? id = some (.array e n))
      (he : Within t S e) : Within t S id
  | classRef {id : TypeId} {c : ClassInfo} (hc : t.classInfo? id = some c) (hkey : S id c.key.module) :
      Within t S id
  | routine {id : TypeId} {sig : Signature} (hs : t.shape? id = some (.routine sig))
      (hparams : ∀ p ∈ sig.params, Within t S p) (hresult : sig.result ≠ 0 → Within t S sig.result) :
      Within t S id

variable {S S' : TypeId → String → Prop}

namespace Within

theorem mono (h : t.Within S id) (hle : t.Grows t') : t'.Within S id := by
  induction h with
  | basic hs hbasic => exact .basic (hle.shape? hs) hbasic
  | pointer hs _ he => exact .pointer (hle.shape? hs) he
  | array hs _ he => exact .array (hle.shape? hs) he
  | classRef hc hkey =>
    obtain ⟨c', hc', hsame, -⟩ := hle.classInfo? hc
    exact .classRef hc' (hsame ▸ hkey)
  | routine hs _ _ hparams hresult => exact .routine (hle.shape? hs) hparams hresult

theorem weaken (h : t.Within S id) (hS : ∀ i m, S i m → S' i m) : t.Within S' id := by
  induction h with
  | basic hs hbasic => exact .basic hs hbasic
  | pointer hs _ he => exact .pointer hs he
  | array hs _ he => exact .array hs he
  | classRef hc hkey => exact .classRef hc (hS _ _ hkey)
  | routine hs _ _ hparams hresult => exact .routine hs hparams hresult

theorem exists_shape (h : t.Within S id) : ∃ s, t.shape? id = some s := by
  cases h with
  | classRef hc _ =>
    obtain ⟨i, hi, -⟩ := classInfo?_eq_some.mp hc
    exact ⟨_, hi⟩
  | basic hs | pointer hs | array hs | routine hs => exact ⟨_, hs⟩

theorem ne_zero (h : t.Within S id) : id ≠ 0 := by
  obtain ⟨s, hs⟩ := h.exists_shape
  exact ne_zero_of_shape? hs

theorem le_size (h : t.Within S id) : id ≤ t.shapes.size := by
  obtain ⟨s, hs⟩ := h.exists_shape
  exact shape?_le hs

theorem elem {e : TypeId} (h : t.Within S id) (hs : t.shape? id = some (.pointer e)) :
    t.Within S e := by
  cases h with
  | basic hs' hbasic =>
    rw [hs] at hs'
    cases hs'
    cases hbasic
  | pointer hs' he =>
    rw [hs] at hs'
    cases hs'
    exact he
  | classRef hc =>
    obtain ⟨i, hi, -⟩ := classInfo?_eq_some.mp hc
    rw [hs] at hi
    cases hi
  | array hs' | routine hs' =>
    rw [hs] at hs'
    cases hs'

theorem arrayElem {e : TypeId} {n : Option Nat} (h : t.Within S id)
    (hs : t.shape? id = some (.array e n)) : t.Within S e := by
  cases h with
  | basic hs' hbasic =>
    rw [hs] at hs'
    cases hs'
    cases hbasic
  | array hs' he =>
    rw [hs] at hs'
    cases hs'
    exact he
  | classRef hc =>
    obtain ⟨i, hi, -⟩ := classInfo?_eq_some.mp hc
    rw [hs] at hi
    cases hi
  | pointer hs' | routine hs' =>
    rw [hs] at hs'
    cases hs'

theorem module (h : t.Within S id) (hc : t.classInfo? id = some c) : S id c.key.module := by
  obtain ⟨i, hi, -⟩ := classInfo?_eq_some.mp hc
  cases h with
  | basic hs' hbasic =>
    rw [hi] at hs'
    cases hs'
    cases hbasic
  | classRef hc' hkey =>
    rw [hc] at hc'
    cases hc'
    exact hkey
  | pointer hs' | array hs' | routine hs' =>
    rw [hi] at hs'
    cases hs'

end Within

theorem Formed.within_basic (ht : t.Formed) {i : Nat} (h : empty.shapes[i]? = some s) :
    t.Within S (i + 1) := by
  refine .basic (ht.shape?_basic h) ?_
  have hall : ∀ s ∈ empty.shapes.toList, s.isBasic := by decide
  exact hall s (Array.mem_toList_iff.mpr (Array.mem_of_getElem? h))

end TypeTable

/-- The parameters and the result of a routine are made of the classes `S`. -/
structure Signature.Within (sig : Signature) (t : TypeTable) (S : TypeId → String → Prop) : Prop where
  params : ∀ p ∈ sig.params, t.Within S p
  result : sig.result ≠ 0 → t.Within S sig.result

theorem TypeTable.Within.signature {sig : Signature} {t : TypeTable}
    {S : TypeId → String → Prop} {id : TypeId} (h : t.Within S id) (hs : t.shape? id = some (.routine sig)) :
    sig.Within t S := by
  cases h with
  | routine hs' hparams hresult =>
    rw [hs] at hs'
    cases hs'
    exact ⟨hparams, hresult⟩
  | basic hs' hbasic =>
    rw [hs] at hs'
    cases hs'
    cases hbasic
  | classRef hc =>
    obtain ⟨i, hi, -⟩ := TypeTable.classInfo?_eq_some.mp hc
    rw [hs] at hi
    cases hi
  | pointer hs' | array hs' =>
    rw [hs] at hs'
    cases hs'

theorem Signature.Within.mono {sig : Signature} {t t' : TypeTable} {S : TypeId → String → Prop}
    (h : sig.Within t S) (hle : t.Grows t') : sig.Within t' S :=
  ⟨fun p hp => (h.params p hp).mono hle, fun hr => (h.result hr).mono hle⟩

namespace TypeTable

variable {t : TypeTable} {S : TypeId → String → Prop} {id e : TypeId}

/-! ## Entering types -/

theorem Formed.intern_within (ht : t.Formed) {s : TypeShape}
    (hparts : ∀ p ∈ s.parts, p ≠ 0 → t.Within S p) (hclass : ∀ i, s ≠ .classRef i) :
    Interns t s (t.intern s).1 (t.intern s).2 := by
  refine ht.intern ?_ hclass
  intro p hp
  by_cases h : p = 0
  · exact h ▸ Nat.zero_le _
  · exact (hparts p hp h).le_size

theorem Sound.pointer (ht : t.Sound) (he : t.Within S e) :
    (t.pointer e).2.Sound ∧ t.Grows (t.pointer e).2 ∧ (t.pointer e).2.Within S (t.pointer e).1 := by
  have h := ht.intern_within (S := S) (s := .pointer e) (by simpa [TypeShape.parts] using fun _ => he)
    (by simp)
  exact ⟨h.sound ht, h.grows, .pointer h.shape (he.mono h.grows)⟩

theorem Sound.array (ht : t.Sound) (he : t.Within S e) (n : Option Nat) :
    (t.intern (.array e n)).2.Sound ∧ t.Grows (t.intern (.array e n)).2 ∧
      (t.intern (.array e n)).2.Within S (t.intern (.array e n)).1 := by
  have h := ht.intern_within (S := S) (s := .array e n)
    (by simpa [TypeShape.parts] using fun _ => he) (by simp)
  exact ⟨h.sound ht, h.grows, .array h.shape (he.mono h.grows)⟩

theorem Sound.routine (ht : t.Sound) {sig : Signature} (hsig : sig.Within t S) :
    (t.routine sig).2.Sound ∧ t.Grows (t.routine sig).2 ∧
      (t.routine sig).2.Within S (t.routine sig).1 := by
  have h := ht.intern_within (S := S) (s := .routine sig) ?_ (by simp)
  · have hsig' := hsig.mono h.grows
    exact ⟨h.sound ht, h.grows, .routine h.shape hsig'.params hsig'.result⟩
  · intro p hp hne
    rcases List.mem_cons.mp hp with rfl | hp
    · exact hsig.result hne
    · exact hsig.params p hp

end TypeTable

end Pascaline
