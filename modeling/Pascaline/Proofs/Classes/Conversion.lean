import Pascaline.Proofs.Classes.Overrides
import Pascaline.Proofs.Interface.Tables
import Pascaline.Types.Compat

/-!
# Conversions

A value of one type fits a place of another if it is converted on the way. The rules make a
preorder: a value that fits a place by way of a third type fits it at once.
-/

namespace Pascaline

namespace TypeTable

variable {t : TypeTable} {a b d x y : TypeId} {s : TypeShape} {c : ClassInfo}

/-- Values of the type refer to objects of a class: the type is the class, or a pointer to it. -/
inductive Denotes (t : TypeTable) : TypeId → TypeId → Prop
  | classRef {a : TypeId} (ha : t.kind a = .classRef) : Denotes t a a
  | pointer {a x : TypeId} (ha : t.shape? a = some (.pointer x)) (hx : t.kind x = .classRef) :
      Denotes t a x

/-- The ways in which a value of one type fits a place of another. -/
inductive Converts (t : TypeTable) : TypeId → TypeId → Prop
  | refl {a : TypeId} (ha : a ≠ 0) : Converts t a a
  | nil {a b : TypeId} {s : TypeShape} (ha : t.shape? a = some .nil) (hb : t.shape? b = some s)
      (hs : s.kind.isReference = true) : Converts t a b
  | real {a b : TypeId} (ha : t.shape? a = some .integer) (hb : t.shape? b = some .real) :
      Converts t a b
  | object {a b x y : TypeId} (ha : t.Denotes a x) (hb : t.Denotes b y)
      (hxy : Relation.ReflTransGen t.HasBase x y) : Converts t a b
  | array {a b e : TypeId} {n : Option Nat} (ha : t.shape? a = some (.array e n))
      (hb : t.shape? b = some (.array e none)) : Converts t a b

/-! ## Kinds and shapes -/

theorem kind_of_classInfo? (h : t.classInfo? a = some c) : t.kind a = .classRef := by
  obtain ⟨i, hi, -⟩ := classInfo?_eq_some.mp h
  exact kind_of_shape? hi

theorem shape?_of_kind_classRef (h : t.kind a = .classRef) :
    ∃ i, t.shape? a = some (.classRef i) := by
  unfold kind at h
  split at h
  · rename_i s hs
    cases s with
    | classRef i => exact ⟨i, hs⟩
    | routine sig =>
      simp only [TypeShape.kind] at h
      split at h <;> cases h
    | _ => cases h
  · cases h

theorem Rooted.kind_of_hasBase (ht : t.Rooted) (hx : t.kind x = .classRef)
    (hxy : Relation.ReflTransGen t.HasBase x y) : t.kind y = .classRef := by
  rcases Relation.ReflTransGen.cases_tail hxy with rfl | ⟨_, -, hstep⟩
  · exact hx
  · obtain ⟨c, hc⟩ := ht.exists_base hstep
    exact kind_of_classInfo? hc

theorem derivesFrom_iff (ht : t.Rooted) :
    t.derivesFrom a b = true ↔ t.kind a = .classRef ∧ Relation.ReflTransGen t.HasBase a b := by
  unfold derivesFrom
  rw [Bool.and_eq_true, decide_eq_true_eq, isSubclass_iff ht]
  constructor
  · rintro ⟨ha, -, hab⟩
    exact ⟨ha, hab⟩
  · rintro ⟨ha, hab⟩
    obtain ⟨i, hi⟩ := shape?_of_kind_classRef ha
    exact ⟨ha, ne_zero_of_shape? hi, hab⟩

theorem Denotes.ne_zero (h : t.Denotes a x) : a ≠ 0 := by
  cases h with
  | classRef ha =>
    obtain ⟨i, hi⟩ := shape?_of_kind_classRef ha
    exact ne_zero_of_shape? hi
  | pointer ha => exact ne_zero_of_shape? ha

theorem Denotes.isReference (h : t.Denotes a x) :
    ∃ s, t.shape? a = some s ∧ s.kind.isReference = true := by
  cases h with
  | classRef ha =>
    obtain ⟨i, hi⟩ := shape?_of_kind_classRef ha
    exact ⟨_, hi, rfl⟩
  | pointer ha => exact ⟨_, ha, rfl⟩

theorem Denotes.unique (h : t.Denotes a x) (h' : t.Denotes a y) : x = y := by
  cases h with
  | classRef ha =>
    cases h' with
    | classRef => rfl
    | pointer ha' =>
      rw [kind_of_shape? ha'] at ha
      cases ha
  | pointer ha =>
    cases h' with
    | classRef ha' =>
      rw [kind_of_shape? ha] at ha'
      cases ha'
    | pointer ha' =>
      rw [ha] at ha'
      cases ha'
      rfl

theorem Rooted.intern (ht : t.Rooted) (hs : ∀ i, s ≠ .classRef i) : (t.intern s).2.Rooted := by
  unfold TypeTable.intern
  split
  · exact ht
  · have hindex : ∀ a, classIndex? ⟨t.shapes.push s, t.classes⟩ a = t.classIndex? a := by
      intro a
      unfold classIndex?
      rw [shape?_push]
      by_cases hlast : a = t.shapes.size + 1
      · rw [if_pos hlast, hlast, shape?_size]
        cases s <;> first | rfl | exact absurd rfl (hs _)
      · rw [if_neg hlast]
    have hinfo : ∀ a, classInfo? ⟨t.shapes.push s, t.classes⟩ a = t.classInfo? a := by
      intro a
      unfold classInfo?
      rw [hindex]
    refine .of_lineage (fun a c hc => ht.owned a c (hinfo a ▸ hc)) fun a c hc => ?_
    obtain ⟨cs, hcs⟩ := ht.lineage (hinfo a ▸ hc)
    obtain ⟨cs', hcs', -⟩ := hcs.transfer (R := fun _ _ => True) fun d _ k hd =>
      ⟨d, (hinfo k).trans hd, rfl, trivial⟩
    exact ⟨cs', hcs'⟩

/-! ## The rules -/

theorem isAssignable_iff (ht : t.Rooted) : t.isAssignable a b = true ↔ t.Converts a b := by
  have hwidens : ∀ p : Bool, ((if p then Compat.widening else .incompatible) != .incompatible) = p :=
    by decide
  unfold isAssignable assignable
  constructor
  · intro h
    split at h
    · cases h
    rename_i hne
    rw [Bool.or_eq_true, decide_eq_true_eq, decide_eq_true_eq, not_or] at hne
    split at h
    · rename_i hab
      exact hab ▸ .refl hne.1
    split at h
    · rename_i s ha hb
      refine .nil ha hb ?_
      split at h
      · assumption
      · cases h
    · rename_i ha hb
      exact .real ha hb
    · rename_i ha hb
      rw [hwidens, isSubclass_iff ht] at h
      exact .object (.classRef (kind_of_shape? ha)) (.classRef (kind_of_shape? hb)) h.2
    · rename_i ha hb
      rw [hwidens, derivesFrom_iff ht] at h
      exact .object (.pointer ha h.1) (.pointer hb (ht.kind_of_hasBase h.1 h.2)) h.2
    · rename_i ha hb
      rw [hwidens, derivesFrom_iff ht] at h
      exact .object (.pointer ha h.1) (.classRef (kind_of_shape? hb)) h.2
    · rename_i ha hb
      rw [hwidens, Bool.and_eq_true, decide_eq_true_eq, isSubclass_iff ht] at h
      exact .object (.classRef (kind_of_shape? ha)) (.pointer hb h.1) h.2.2
    · rename_i ha hb
      rw [hwidens, decide_eq_true_eq] at h
      exact .array ha (h ▸ hb)
    · cases h
  · intro h
    by_cases hab : a = b
    · have ha : a ≠ 0 := by
        cases h with
        | refl ha => exact ha
        | nil ha | real ha | array ha => exact ne_zero_of_shape? ha
        | object ha => exact ha.ne_zero
      subst hab
      simp [ha]
    cases h with
    | refl => exact absurd rfl hab
    | nil ha hb hs => simp [ne_zero_of_shape? ha, ne_zero_of_shape? hb, hab, ha, hb, hs]
    | real ha hb => simp [ne_zero_of_shape? ha, ne_zero_of_shape? hb, hab, ha, hb]
    | array ha hb => simp [ne_zero_of_shape? ha, ne_zero_of_shape? hb, hab, ha, hb]
    | object ha hb hxy =>
      have ha₀ := ha.ne_zero
      have hb₀ := hb.ne_zero
      cases ha with
      | classRef ha =>
        obtain ⟨i, hi⟩ := shape?_of_kind_classRef ha
        have hsub := (isSubclass_iff ht).mpr ⟨ha₀, hxy⟩
        cases hb with
        | classRef hb =>
          obtain ⟨j, hj⟩ := shape?_of_kind_classRef hb
          simp [ha₀, hb₀, hab, hi, hj, hsub]
        | pointer hb hy => simp [ha₀, hb₀, hab, hi, hb, hy, hsub]
      | pointer ha hx =>
        have hsub := (derivesFrom_iff ht).mpr ⟨hx, hxy⟩
        cases hb with
        | classRef hb =>
          obtain ⟨j, hj⟩ := shape?_of_kind_classRef hb
          simp [ha₀, hb₀, hab, ha, hj, hsub]
        | pointer hb hy => simp [ha₀, hb₀, hab, ha, hb, hsub]

theorem Converts.isReference (h : t.Converts a b) (ha : t.shape? a = some s)
    (hs : s.kind.isReference = true) : ∃ s', t.shape? b = some s' ∧ s'.kind.isReference = true := by
  cases h with
  | refl => exact ⟨s, ha, hs⟩
  | nil _ hb hs' => exact ⟨_, hb, hs'⟩
  | real ha' =>
    rw [ha] at ha'
    cases ha'
    cases hs
  | object _ hb => exact hb.isReference
  | array _ hb => exact ⟨_, hb, rfl⟩

theorem Converts.trans (h : t.Converts a b) (h' : t.Converts b d) : t.Converts a d := by
  cases h with
  | refl => exact h'
  | nil ha hb hs =>
    obtain ⟨s', hd, hs'⟩ := h'.isReference hb hs
    exact .nil ha hd hs'
  | real ha hb =>
    cases h' with
    | refl => exact .real ha hb
    | nil hb' | real hb' | array hb' =>
      rw [hb] at hb'
      cases hb'
    | object hb' =>
      obtain ⟨s, hs, href⟩ := hb'.isReference
      rw [hb] at hs
      cases hs
      cases href
  | object ha hb hxy =>
    cases h' with
    | refl => exact .object ha hb hxy
    | object hb' hd hyz => exact .object ha hd (hxy.trans (hb.unique hb' ▸ hyz))
    | nil hb' | real hb' | array hb' =>
      cases hb with
      | classRef hb =>
        rw [kind_of_shape? hb'] at hb
        cases hb
      | pointer hb =>
        rw [hb] at hb'
        cases hb'
  | array ha hb =>
    cases h' with
    | refl => exact .array ha hb
    | array hb' hd =>
      rw [hb] at hb'
      cases hb'
      exact .array ha hd
    | nil hb' | real hb' =>
      rw [hb] at hb'
      cases hb'
    | object hb' =>
      cases hb' with
      | classRef hb' =>
        rw [kind_of_shape? hb] at hb'
        cases hb'
      | pointer hb' =>
        rw [hb] at hb'
        cases hb'

/-- Assignability is a preorder: every type is assignable to itself, and what is assignable in two
steps is so in one. -/
theorem assignable_is_preorder (ht : t.Rooted) :
    (∀ a s, t.shape? a = some s → t.isAssignable a a = true) ∧
    ∀ a b d, t.isAssignable a b = true → t.isAssignable b d = true → t.isAssignable a d = true := by
  constructor
  · intro a s ha
    exact (isAssignable_iff ht).mpr (.refl (ne_zero_of_shape? ha))
  · intro a b d hab hbd
    rw [isAssignable_iff ht] at hab hbd ⊢
    exact hab.trans hbd

/-- Classes of three generations, with pointers to the first and to the last. -/
def kennel : TypeTable := (((Layout.layoutAll breedDecls breeds [8, 9, 10]).1.pointer 8).2.pointer 10).2

theorem kennel_rooted : kennel.Rooted := by
  have h : (Layout.layoutAll breedDecls breeds [8, 9, 10]).2 = [] := by decide +kernel
  have hlaid := (Layout.layoutAll_completes (animals_arranged.newClass _) (Prod.ext rfl h)).1.rooted
  have hpointer : ∀ e i, TypeShape.pointer e ≠ .classRef i := by
    intro e i h
    cases h
  exact (hlaid.intern (hpointer 8)).intern (hpointer 10)

/-- A pointer to a puppy is a dog, a dog is a pointer to an animal. -/
theorem assignable_is_preorder_kennel :
    kennel.Rooted ∧ kennel.shape? 12 = some (.pointer 10) ∧ kennel.isAssignable 12 12 = true ∧
      kennel.isAssignable 12 9 = true ∧ kennel.isAssignable 9 11 = true ∧
      kennel.isAssignable 12 11 = true := by
  have hshape : kennel.shape? 12 = some (.pointer 10) := by decide +kernel
  have hdog : kennel.isAssignable 12 9 = true := by decide +kernel
  have hanimal : kennel.isAssignable 9 11 = true := by decide +kernel
  obtain ⟨hrefl, htrans⟩ := assignable_is_preorder kennel_rooted
  exact ⟨kennel_rooted, hshape, hrefl 12 _ hshape, hdog, hanimal, htrans 12 9 11 hdog hanimal⟩

end TypeTable

end Pascaline
