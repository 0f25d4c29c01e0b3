import Mathlib.Data.Fintype.Card
import Mathlib.Data.List.Perm.Subperm
import Mathlib.Logic.Relation
import Mathlib.Order.Interval.Finset.Nat
import Pascaline.Types

/-!
# Lines of bases

A class and its bases, one after the other, up to one without a base. Where every class has such a
line no class derives from itself, and a walk from base to base ends.
-/

namespace Pascaline

namespace TypeTable

variable {t t' : TypeTable} {id a b : TypeId} {c : ClassInfo} {cs cs' : List ClassInfo}

theorem classInfo?_zero : t.classInfo? 0 = none := rfl

theorem mem_of_classInfo? (h : t.classInfo? id = some c) : c ∈ t.classes.toList := by
  unfold classInfo? at h
  obtain ⟨i, -, hi⟩ := Option.bind_eq_some_iff.mp h
  exact Array.mem_toList_iff.mpr (Array.mem_of_getElem? hi)

/-- A class and its bases, the most derived first. -/
inductive Lineage (t : TypeTable) : TypeId → List ClassInfo → Prop
  | nil : Lineage t 0 []
  | cons {id : TypeId} {c : ClassInfo} {cs : List ClassInfo} (hc : t.classInfo? id = some c)
      (hcs : Lineage t c.base cs) : Lineage t id (c :: cs)

namespace Lineage

theorem unique (h : t.Lineage id cs) (h' : t.Lineage id cs') : cs = cs' := by
  induction h generalizing cs' with
  | nil =>
    cases h' with
    | nil => rfl
    | cons hc =>
      rw [classInfo?_zero] at hc
      cases hc
  | cons hc _ ih =>
    cases h' with
    | nil =>
      rw [classInfo?_zero] at hc
      cases hc
    | cons hc' hcs' =>
      rw [hc, Option.some.injEq] at hc'
      subst hc'
      rw [ih hcs']

theorem exists_head (h : t.Lineage id cs) (hid : id ≠ 0) : ∃ c, t.classInfo? id = some c := by
  cases h with
  | nil => exact absurd rfl hid
  | cons hc => exact ⟨_, hc⟩

theorem mem_classes (h : t.Lineage id cs) (hc : c ∈ cs) : c ∈ t.classes.toList := by
  induction h with
  | nil => cases hc
  | cons hinfo _ ih =>
    rcases List.mem_cons.mp hc with rfl | hc
    · exact mem_of_classInfo? hinfo
    · exact ih hc

theorem of_mem (h : t.Lineage id cs) (hc : c ∈ cs) :
    ∃ bs, t.Lineage c.base bs ∧ bs.length < cs.length := by
  induction h with
  | nil => cases hc
  | cons _ hcs ih =>
    rcases List.mem_cons.mp hc with rfl | hc
    · exact ⟨_, hcs, by simp⟩
    · obtain ⟨bs, hbs, hlt⟩ := ih hc
      exact ⟨bs, hbs, by simp; omega⟩

theorem not_mem (h : t.Lineage c.base cs) : c ∉ cs := by
  intro hmem
  obtain ⟨bs, hbs, hlt⟩ := h.of_mem hmem
  rw [h.unique hbs] at hlt
  omega

theorem nodup (h : t.Lineage id cs) : cs.Nodup := by
  induction h with
  | nil => exact List.nodup_nil
  | cons _ hcs ih => exact List.nodup_cons.mpr ⟨hcs.not_mem, ih⟩

theorem length_le (h : t.Lineage id cs) : cs.length ≤ t.classes.size := by
  have := (List.subperm_of_subset h.nodup fun c hc => h.mem_classes hc).length_le
  simpa using this

theorem chainFrom (h : t.Lineage id cs) {fuel : Nat} (hfuel : cs.length ≤ fuel) :
    t.chainFrom fuel id = cs := by
  induction h generalizing fuel with
  | nil => cases fuel <;> rfl
  | @cons _ c cs hc _ ih =>
    obtain ⟨fuel, rfl⟩ := Nat.exists_eq_add_of_le' (Nat.le_trans (Nat.succ_pos cs.length) hfuel)
    simp only [TypeTable.chainFrom, hc]
    rw [ih (by simpa using hfuel)]

theorem chain (h : t.Lineage id cs) : t.chain id = cs :=
  h.chainFrom (Nat.le_succ_of_le h.length_le)

theorem mono (h : t.Lineage id cs)
    (hle : ∀ id c, t.classInfo? id = some c → t'.classInfo? id = some c) : t'.Lineage id cs := by
  induction h with
  | nil => exact .nil
  | cons hc _ ih => exact .cons (hle _ _ hc) ih

theorem transfer {R : ClassInfo → ClassInfo → Prop} (h : t.Lineage id cs)
    (hR : ∀ c ∈ cs, ∀ k, t.classInfo? k = some c → ∃ c', t'.classInfo? k = some c' ∧
      c'.base = c.base ∧ R c c') :
    ∃ cs', t'.Lineage id cs' ∧ List.Forall₂ R cs cs' := by
  induction h with
  | nil => exact ⟨[], .nil, .nil⟩
  | cons hc _ ih =>
    obtain ⟨c', hc', hbase, hrel⟩ := hR _ List.mem_cons_self _ hc
    obtain ⟨cs', hcs', hall⟩ := ih fun b hb => hR b (List.mem_cons_of_mem _ hb)
    exact ⟨c' :: cs', .cons hc' (hbase ▸ hcs'), .cons hrel hall⟩

end Lineage

/-! ## Derived classes -/

/-- The class `a` was declared with the base `b`. -/
def HasBase (t : TypeTable) (a b : TypeId) : Prop :=
  ∃ c, t.classInfo? a = some c ∧ c.base = b ∧ b ≠ 0

/-- Every class stands under its own handle, a base is a class, and no class derives from itself. -/
structure Rooted (t : TypeTable) : Prop where
  owned : ∀ id c, t.classInfo? id = some c → c.type = id
  based : ∀ id c, t.classInfo? id = some c → c.base ≠ 0 → ∃ b, t.classInfo? c.base = some b
  acyclic : ∀ id, ¬Relation.TransGen t.HasBase id id

theorem Rooted.exists_base (ht : t.Rooted) (hab : t.HasBase a b) :
    ∃ c, t.classInfo? b = some c := by
  obtain ⟨c, hc, rfl, hne⟩ := hab
  exact ht.based a c hc hne

theorem finite_classes (t : TypeTable) : Finite {id // t.classInfo? id ≠ none} := by
  refine Set.Finite.subset (Set.finite_Iic t.shapes.size) fun id hid => ?_
  obtain ⟨c, hc⟩ := Option.ne_none_iff_exists'.mp hid
  unfold classInfo? at hc
  obtain ⟨i, hi, -⟩ := Option.bind_eq_some_iff.mp hc
  unfold classIndex? shape? at hi
  by_contra hlt
  have hout : t.shapes.size ≤ id - 1 := by
    have : t.shapes.size < id := by simpa using hlt
    omega
  simp [Array.getElem?_eq_none hout] at hi

/-- Where no class derives from itself, every class has a line of bases. -/
theorem Rooted.lineage (ht : t.Rooted) (hc : t.classInfo? id = some c) : ∃ cs, t.Lineage id cs := by
  have := t.finite_classes
  let below (b a : {id // t.classInfo? id ≠ none}) : Prop := Relation.TransGen t.HasBase a b
  have : IsTrans _ below := ⟨fun _ _ _ hxy hyz => hyz.trans hxy⟩
  have : Std.Irrefl below := ⟨fun a => ht.acyclic a⟩
  -- There are finitely many classes, so derivation is well-founded.
  have hwf : WellFounded below := Finite.wellFounded_of_trans_of_irrefl below
  have hall : ∀ a : {id // t.classInfo? id ≠ none}, ∃ cs, t.Lineage a cs := by
    intro a
    induction a using hwf.induction with
    | _ a ih =>
      obtain ⟨d, hd⟩ := Option.ne_none_iff_exists'.mp a.2
      by_cases hzero : d.base = 0
      · exact ⟨[d], .cons hd (hzero ▸ .nil)⟩
      · obtain ⟨b, hb⟩ := ht.based a d hd hzero
        obtain ⟨cs, hcs⟩ := ih ⟨d.base, by simp [hb]⟩ (.single ⟨d, hd, rfl, hzero⟩)
        exact ⟨d :: cs, .cons hd hcs⟩
  exact hall ⟨id, by simp [hc]⟩

theorem Lineage.shorter (h : t.Lineage a cs) (hab : t.HasBase a b) :
    ∃ bs, t.Lineage b bs ∧ bs.length < cs.length := by
  obtain ⟨c, hc, rfl, -⟩ := hab
  cases h with
  | nil =>
    rw [classInfo?_zero] at hc
    cases hc
  | cons hc' hcs =>
    rw [hc, Option.some.injEq] at hc'
    subst hc'
    exact ⟨_, hcs, by simp⟩

theorem Lineage.not_transGen (h : t.Lineage a cs) : ¬Relation.TransGen t.HasBase a a := by
  -- The lines get shorter from base to base.
  have hshorter : ∀ b, Relation.TransGen t.HasBase a b →
      ∃ bs, t.Lineage b bs ∧ bs.length < cs.length := by
    intro b hab
    induction hab with
    | single hstep => exact h.shorter hstep
    | tail _ hstep ih =>
      obtain ⟨bs, hbs, hlt⟩ := ih
      obtain ⟨bs', hbs', hlt'⟩ := hbs.shorter hstep
      exact ⟨bs', hbs', Nat.lt_trans hlt' hlt⟩
  intro hself
  obtain ⟨bs, hbs, hlt⟩ := hshorter a hself
  rw [h.unique hbs] at hlt
  omega

theorem Rooted.of_lineage (howned : ∀ id c, t.classInfo? id = some c → c.type = id)
    (hline : ∀ id c, t.classInfo? id = some c → ∃ cs, t.Lineage id cs) : t.Rooted := by
  refine ⟨howned, fun id c hc hbase => ?_, fun id hself => ?_⟩
  · obtain ⟨cs, hcs⟩ := hline id c hc
    obtain ⟨bs, hbs, -⟩ := hcs.shorter ⟨c, hc, rfl, hbase⟩
    exact hbs.exists_head hbase
  · obtain ⟨_, ⟨c, hc, -⟩, -⟩ := Relation.TransGen.head'_iff.mp hself
    obtain ⟨cs, hcs⟩ := hline id c hc
    exact hcs.not_transGen hself

theorem extends_of_mem_chainFrom (ht : t.Rooted) {fuel : Nat} (h : c ∈ t.chainFrom fuel id) :
    Relation.ReflTransGen t.HasBase id c.type ∧ t.classInfo? c.type = some c := by
  induction fuel generalizing id with
  | zero => cases h
  | succ fuel ih =>
    rw [TypeTable.chainFrom] at h
    split at h
    · rename_i d hd
      rcases List.mem_cons.mp h with rfl | h
      · rw [ht.owned id c hd]
        exact ⟨.refl, hd⟩
      · obtain ⟨hreach, hinfo⟩ := ih h
        refine ⟨.head ⟨d, hd, rfl, ?_⟩ hreach, hinfo⟩
        intro hzero
        rw [hzero] at h
        cases fuel <;> cases h
    · cases h

theorem Lineage.mem_of_hasBase (h : t.Lineage a cs) (hab : Relation.ReflTransGen t.HasBase a b)
    (hc : t.classInfo? b = some c) : c ∈ cs := by
  induction hab using Relation.ReflTransGen.head_induction_on generalizing cs with
  | refl =>
    cases h with
    | nil => cases hc
    | cons hc' =>
      rw [hc, Option.some.injEq] at hc'
      exact hc' ▸ List.mem_cons_self
  | head hstep _ ih =>
    obtain ⟨d, hd, rfl, -⟩ := hstep
    cases h with
    | nil => cases hd
    | cons hd' hcs =>
      rw [hd, Option.some.injEq] at hd'
      subst hd'
      exact List.mem_cons_of_mem _ (ih hcs)

theorem isSubclass_iff (ht : t.Rooted) :
    t.isSubclass a b = true ↔ a ≠ 0 ∧ Relation.ReflTransGen t.HasBase a b := by
  unfold isSubclass
  constructor
  · intro h
    rcases Bool.or_eq_true_iff.mp h with h | h
    · simp only [Bool.and_eq_true, beq_iff_eq, bne_iff_ne] at h
      obtain ⟨rfl, hne⟩ := h
      exact ⟨hne, .refl⟩
    · obtain ⟨c, hc, h⟩ := List.any_eq_true.mp h
      obtain ⟨hreach, hinfo⟩ := extends_of_mem_chainFrom ht hc
      refine ⟨?_, ?_⟩
      · rintro rfl
        cases hc
      · simp only [Bool.or_eq_true, Bool.and_eq_true, beq_iff_eq, bne_iff_ne] at h
        rcases h with rfl | ⟨rfl, hne⟩
        · exact hreach
        · exact hreach.tail ⟨c, hinfo, rfl, hne⟩
  · rintro ⟨hne, h⟩
    rcases Relation.ReflTransGen.cases_tail h with rfl | ⟨k, hreach, c, hc, rfl, hbase⟩
    · simp [hne]
    · -- The class that the last step left stands in the chain.
      obtain ⟨d, hd⟩ : ∃ d, t.classInfo? a = some d := by
        rcases Relation.ReflTransGen.cases_head hreach with rfl | ⟨_, ⟨d, hd, -⟩, -⟩
        · exact ⟨c, hc⟩
        · exact ⟨d, hd⟩
      obtain ⟨cs, hcs⟩ := ht.lineage hd
      rw [hcs.chain, Bool.or_eq_true_iff]
      exact .inr (List.any_eq_true.mpr ⟨c, hcs.mem_of_hasBase hreach hc, by simp [hbase]⟩)

end TypeTable

end Pascaline
