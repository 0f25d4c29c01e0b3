import Pascaline.Proofs.Classes.Lineage
import Pascaline.Proofs.Interface.Imports
import Pascaline.Types.Compat

/-!
# Compatibility of types that are alike

Where the classes of a table are reproduced in another one, their chains of bases are alike, and so
a value fits a place there if and only if it does here.
-/

namespace Pascaline.CompiledUnit

open TypeTable

variable {T t : TypeTable} {P : String → Prop} {a b a' b' id id' : TypeId} {c : ClassInfo}
  {cs : List ClassInfo}

/-- The classes of the units `P`, and no others, are there like those of `T`. -/
structure Reproduces (T : TypeTable) (P : String → Prop) (t : TypeTable) : Prop where
  sound : t.Sound
  only : ∀ id c, t.classInfo? id = some c → P c.key.module
  classes : ∀ c ∈ T.classes, P c.key.module → ∃ id c', t.classInfo? id = some c' ∧ c.Alike T t c'

theorem Reproduces.alike (hT : T.Sound) (h : Reproduces T P t) (hid : T.Alike t id id')
    (hc : T.classInfo? id = some c) : ∃ c', t.classInfo? id' = some c' ∧ c.Alike T t c' := by
  obtain ⟨i, hi, hget⟩ := classInfo?_eq_some.mp hc
  obtain ⟨c₁, d, hc₁, hd, hkey⟩ := hid.mirrors hi
  rw [hget] at hc₁
  cases hc₁
  have hP := h.only id' d hd
  rw [← hkey] at hP
  obtain ⟨id'', c', hc', halike⟩ := h.classes c (hT.mem_classes hc) hP
  rw [h.sound.eq_of_key hc' hd (halike.key.trans hkey)] at hc'
  exact ⟨c', hc', halike⟩

theorem Reproduces.chainFrom (hT : T.Sound) (h : Reproduces T P t) (hcs : T.Lineage id cs)
    (hid : T.Alike t id id') {fuel : Nat} (hfuel : cs.length ≤ fuel) :
    List.Forall₂ (ClassInfo.Alike T t) cs (t.chainFrom fuel id') := by
  induction hcs generalizing id' fuel with
  | nil =>
    rw [hid.zero_left, Lineage.nil.chainFrom (Nat.zero_le fuel)]
    exact .nil
  | @cons id c cs hc _ ih =>
    obtain ⟨fuel, rfl⟩ := Nat.exists_eq_add_of_le' (Nat.le_trans (Nat.succ_pos cs.length) hfuel)
    obtain ⟨c', hc', halike⟩ := h.alike hT hid hc
    simp only [TypeTable.chainFrom, hc']
    exact .cons halike (ih halike.base (by simpa using hfuel))

theorem Reproduces.length_le (hT : T.Sound) (h : Reproduces T P t) (hcs : T.Lineage id cs)
    (hid : T.Alike t id id') : cs.length ≤ t.classes.size := by
  have hchain := h.chainFrom hT hcs hid (Nat.le_refl _)
  have hmem : ∀ x ∈ cs, x ∈ T.classes := fun x hx => Array.mem_toList_iff.mp (hcs.mem_classes hx)
  -- Classes of different keys are like classes of different keys.
  have hkeys : (cs.map (·.key)).Nodup := by
    refine hcs.nodup.map_on ?_
    intro x hx y hy hxy
    have hx := hT.classInfo?_type (hmem x hx)
    have hy := hT.classInfo?_type (hmem y hy)
    rw [hT.eq_of_key hx hy hxy, hy] at hx
    exact (Option.some.inj hx).symm
  have hsub : cs.map (·.key) ⊆ t.classes.toList.map (·.key) := by
    intro key hkey
    obtain ⟨x, hx, rfl⟩ := List.mem_map.mp hkey
    obtain ⟨x', -, halike⟩ := forall₂_exists_mem hchain hx
    obtain ⟨y, hy, hlike⟩ := h.alike hT halike.type (hT.classInfo?_type (hmem x hx))
    exact List.mem_map.mpr ⟨y, by simpa using h.sound.mem_classes hy, hlike.key⟩
  simpa using (List.subperm_of_subset hkeys hsub).length_le

theorem Reproduces.chain (hT : T.Sound) (hR : T.Rooted) (h : Reproduces T P t)
    (hid : T.Alike t id id') :
    List.Forall₂ (ClassInfo.Alike T t) (T.chain id) (t.chain id') := by
  cases hc : T.classInfo? id with
  | some c =>
    obtain ⟨cs, hcs⟩ := hR.lineage hc
    rw [hcs.chain]
    exact h.chainFrom hT hcs hid (Nat.le_succ_of_le (h.length_le hT hcs hid))
  | none =>
    have hc' : t.classInfo? id' = none := by
      by_contra hne
      obtain ⟨c', hc'⟩ := Option.ne_none_iff_exists'.mp hne
      obtain ⟨i, hi, -⟩ := classInfo?_eq_some.mp hc'
      obtain ⟨-, d, -, hd, -⟩ := hid.symm.mirrors hi
      rw [hc] at hd
      cases hd
    simp [TypeTable.chain, TypeTable.chainFrom, hc, hc']

theorem Reproduces.isSubclass (hT : T.Sound) (hR : T.Rooted) (h : Reproduces T P t)
    (ha : T.Alike t a a') (hb : T.Alike t b b') : T.isSubclass a b = t.isSubclass a' b' := by
  have hzero : b = 0 ↔ b' = 0 := hb.eq_iff hT h.sound .none
  have hzero' : a = 0 ↔ a' = 0 := ha.eq_iff hT h.sound .none
  have hany : (T.chain a).any (fun c => c.type == b || c.base == b && b != 0) =
      (t.chain a').any (fun c => c.type == b' || c.base == b' && b' != 0) := by
    have hchain := h.chain hT hR ha
    generalize T.chain a = cs at hchain
    generalize t.chain a' = cs' at hchain
    induction hchain with
    | nil => rfl
    | cons hc _ ih =>
      have htype := hc.type.eq_iff hT h.sound hb
      have hbase := hc.base.eq_iff hT h.sound hb
      rw [List.any_cons, List.any_cons, ih]
      simp only [beq_eq_decide, bne, htype, hbase, hzero]
  unfold TypeTable.isSubclass
  rw [hany]
  simp only [beq_eq_decide, bne, ha.eq_iff hT h.sound hb, hzero']

theorem Reproduces.kind (hT : T.Sound) (h : Reproduces T P t) (ha : T.Alike t a a') :
    T.kind a = t.kind a' := by
  cases ha with
  | none => rfl
  | basic ha hb => rw [kind_of_shape? ha, kind_of_shape? hb]
  | pointer ha hb | array ha hb =>
    rw [kind_of_shape? ha, kind_of_shape? hb]
    rfl
  | classRef ha hb =>
    obtain ⟨i, hi, -⟩ := classInfo?_eq_some.mp ha
    obtain ⟨j, hj, -⟩ := classInfo?_eq_some.mp hb
    rw [kind_of_shape? hi, kind_of_shape? hj]
    rfl
  | routine ha hb _ _ hresult =>
    rw [kind_of_shape? ha, kind_of_shape? hb]
    simp only [TypeShape.kind, hresult.eq_iff hT h.sound .none]

theorem shapes_of_alike (h : T.Alike t a a') (hne : a ≠ 0) :
    ∃ s s', T.shape? a = some s ∧ t.shape? a' = some s' := by
  cases h with
  | none => exact absurd rfl hne
  | classRef ha hb =>
    obtain ⟨i, hi, -⟩ := classInfo?_eq_some.mp ha
    obtain ⟨j, hj, -⟩ := classInfo?_eq_some.mp hb
    exact ⟨_, _, hi, hj⟩
  | basic ha hb | pointer ha hb | array ha hb | routine ha hb => exact ⟨_, _, ha, hb⟩

theorem Reproduces.derivesFrom (hT : T.Sound) (hR : T.Rooted) (h : Reproduces T P t)
    (ha : T.Alike t a a') (hb : T.Alike t b b') : T.derivesFrom a b = t.derivesFrom a' b' := by
  unfold TypeTable.derivesFrom
  rw [h.kind hT ha, h.isSubclass hT hR ha hb]

theorem Reproduces.assignable (hT : T.Sound) (hR : T.Rooted) (h : Reproduces T P t)
    (ha : T.Alike t a a') (hb : T.Alike t b b') : T.assignable a b = t.assignable a' b' := by
  have hzero : a = 0 ↔ a' = 0 := ha.eq_iff hT h.sound .none
  have hzero' : b = 0 ↔ b' = 0 := hb.eq_iff hT h.sound .none
  have hsame := ha.eq_iff hT h.sound hb
  unfold TypeTable.assignable
  simp only [hzero, hzero', hsame]
  split
  · rfl
  rename_i hne
  split
  · rfl
  rw [Bool.or_eq_true, decide_eq_true_eq, decide_eq_true_eq, not_or, ← hzero, ← hzero'] at hne
  obtain ⟨s, s', hs, hs'⟩ := shapes_of_alike hb hne.2
  have hkind := h.kind hT hb
  rw [kind_of_shape? hs, kind_of_shape? hs'] at hkind
  cases ha with
  | none => exact absurd rfl hne.1
  | @basic _ _ r ha ha' hbasic =>
    rw [ha, ha']
    cases r with
    | nil =>
      rw [hs, hs']
      simp only [hkind]
    | integer =>
      cases hb with
      | none => exact absurd rfl hne.2
      | @basic _ _ r hb hb' _ =>
        rw [hb, hb']
        cases r <;> rfl
      | classRef hb hb' =>
        obtain ⟨i, hi, -⟩ := classInfo?_eq_some.mp hb
        obtain ⟨j, hj, -⟩ := classInfo?_eq_some.mp hb'
        rw [hi, hj]
      | pointer hb hb' | array hb hb' | routine hb hb' => rw [hb, hb']
    | classRef | pointer | array => cases hbasic
    | _ => rfl
  | pointer ha ha' helem =>
    rw [ha, ha']
    cases hb with
    | none => exact absurd rfl hne.2
    | @basic _ _ r hb hb' hbasic =>
      rw [hb, hb']
      cases r <;> first | rfl | cases hbasic
    | pointer hb hb' helem' =>
      rw [hb, hb']
      simp only [h.derivesFrom hT hR helem helem']
    | classRef hb hb' hkey =>
      obtain ⟨i, hi, -⟩ := classInfo?_eq_some.mp hb
      obtain ⟨j, hj, -⟩ := classInfo?_eq_some.mp hb'
      rw [hi, hj]
      simp only [h.derivesFrom hT hR helem (.classRef hb hb' hkey)]
    | array hb hb' | routine hb hb' =>
      rw [hb, hb']
  | array ha ha' helem =>
    rw [ha, ha']
    cases hb with
    | none => exact absurd rfl hne.2
    | @basic _ _ r hb hb' hbasic =>
      rw [hb, hb']
      cases r <;> first | rfl | cases hbasic
    | @array _ _ _ _ n hb hb' helem' =>
      rw [hb, hb']
      cases n with
      | none => simp only [helem.eq_iff hT h.sound helem']
      | some n => rfl
    | classRef hb hb' =>
      obtain ⟨i, hi, -⟩ := classInfo?_eq_some.mp hb
      obtain ⟨j, hj, -⟩ := classInfo?_eq_some.mp hb'
      rw [hi, hj]
    | pointer hb hb' | routine hb hb' =>
      rw [hb, hb']
  | classRef ha ha' hkey =>
    obtain ⟨i, hi, -⟩ := classInfo?_eq_some.mp ha
    obtain ⟨j, hj, -⟩ := classInfo?_eq_some.mp ha'
    have halike : T.Alike t a a' := .classRef ha ha' hkey
    rw [hi, hj]
    cases hb with
    | none => exact absurd rfl hne.2
    | @basic _ _ r hb hb' hbasic =>
      rw [hb, hb']
      cases r <;> first | rfl | cases hbasic
    | pointer hb hb' helem' =>
      rw [hb, hb']
      simp only [h.kind hT helem', h.isSubclass hT hR halike helem']
    | classRef hb hb' hkey' =>
      obtain ⟨k, hk, -⟩ := classInfo?_eq_some.mp hb
      obtain ⟨l, hl, -⟩ := classInfo?_eq_some.mp hb'
      rw [hk, hl]
      simp only [h.isSubclass hT hR halike (.classRef hb hb' hkey')]
    | array hb hb' | routine hb hb' => rw [hb, hb']
  | routine ha ha' =>
    rw [ha, ha', hs, hs']

end Pascaline.CompiledUnit
