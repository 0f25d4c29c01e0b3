import Pascaline.Proofs.Classes.Lineage
import Pascaline.Proofs.Classes.Members
import Mathlib.Data.List.Perm.Basic

/-!
# Class layout

Laying out classes leaves every class either untouched or laid out over its bases. From that follows
what calls and field accesses rely on: offsets are those of all fields along the chain of bases, and
a place of a dispatch table leads to the most derived method that was declared for it.
-/

namespace Pascaline

namespace TypeTable

variable {t t' : TypeTable} {id k : TypeId} {c c' b : ClassInfo} {bs : List ClassInfo}

/-! ## Classes and their bases -/

/-- The bases of a class, the nearest first, each of them laid out over the next. -/
inductive Descends (t : TypeTable) : ClassInfo → List ClassInfo → Prop
  | root {c : ClassInfo} (hbase : c.base = 0) (hc : c.LaidOut []) : Descends t c []
  | derived {c b : ClassInfo} {bs : List ClassInfo} (hb : t.classInfo? c.base = some b)
      (hdone : b.state = .done) (hbs : Descends t b bs) (hc : c.LaidOut (b :: bs)) :
      Descends t c (b :: bs)

/-- Every class is either untouched or laid out. -/
structure Arranged (t : TypeTable) : Prop where
  indexed : ∀ id i, t.classIndex? id = some i → i < t.classes.size
  owned : ∀ id c, t.classInfo? id = some c → c.type = id
  blank : ∀ id c, t.classInfo? id = some c → c.state ≠ .done → c.IsBlank
  lines : ∀ id c, t.classInfo? id = some c → ∃ bs, t.Descends c bs

theorem Descends.laidOut (h : t.Descends c bs) : c.LaidOut bs := by
  cases h with
  | root _ hc => exact hc
  | derived _ _ _ hc => exact hc

theorem Descends.lineage (h : t.Descends c bs) : t.Lineage c.base bs := by
  induction h with
  | root hbase _ => exact hbase ▸ .nil
  | derived hb _ _ _ ih => exact .cons hb ih

theorem Descends.unique {bs' : List ClassInfo} (h : t.Descends c bs) (h' : t.Descends c bs') :
    bs = bs' :=
  h.lineage.unique h'.lineage

theorem Descends.of_mem (h : t.Descends c bs) (hb : b ∈ bs) :
    ∃ bs', t.Descends b bs' ∧ bs'.length < bs.length := by
  induction h with
  | root => simp at hb
  | derived _ _ hbs _ ih =>
    rcases List.mem_cons.mp hb with rfl | hb
    · exact ⟨_, hbs, by simp⟩
    · obtain ⟨bs', hbs', hlt⟩ := ih hb
      exact ⟨bs', hbs', by simp; omega⟩

theorem Descends.nodup (h : t.Descends c bs) : (c :: bs).Nodup :=
  List.nodup_cons.mpr ⟨h.lineage.not_mem, h.lineage.nodup⟩

theorem Descends.chain (h : t.Descends c bs) (hc : t.classInfo? id = some c) :
    t.chain id = c :: bs :=
  (Lineage.cons hc h.lineage).chain

theorem Arranged.rooted (ht : t.Arranged) : t.Rooted := by
  refine .of_lineage ht.owned fun id c hc => ?_
  obtain ⟨bs, hbs⟩ := ht.lines id c hc
  exact ⟨c :: bs, .cons hc hbs.lineage⟩

theorem Descends.lookupField?_none {name : String} (h : t.Descends c bs)
    (hc : t.classInfo? id = some c) (hnone : t.lookupField? id name = none) :
    name ∉ ((c :: bs).flatMap (·.fields)).map (·.name) := by
  intro hmem
  obtain ⟨f, hf, rfl⟩ := List.mem_map.mp hmem
  obtain ⟨x, hx, hf⟩ := List.mem_flatMap.mp hf
  unfold lookupField? at hnone
  rw [h.chain hc] at hnone
  have := List.findSome?_eq_none_iff.mp hnone x hx
  have := List.find?_eq_none.mp this f hf
  simp at this

/-! ## Changing a class -/

theorem classIndex?_setClass : (t.setClass id c').classIndex? k = t.classIndex? k := by
  unfold setClass
  split <;> rfl

theorem size_classes_setClass : (t.setClass id c').classes.size = t.classes.size := by
  unfold setClass
  split <;> simp

theorem classInfo?_setClass (ht : ∀ id c, t.classInfo? id = some c → c.type = id)
    (hc : t.classInfo? id = some c) :
    (t.setClass id c').classInfo? k = if k = id then some c' else t.classInfo? k := by
  have hinfo := hc
  unfold classInfo? at hinfo
  obtain ⟨i, hi, hget⟩ := Option.bind_eq_some_iff.mp hinfo
  have hlt : i < t.classes.size := (Array.getElem?_eq_some_iff.mp hget).1
  have hset : t.setClass id c' = { t with classes := t.classes.set! i c' } := by
    unfold setClass
    rw [hi]
  split
  · rename_i hk
    subst hk
    unfold classInfo?
    rw [classIndex?_setClass, hi, hset]
    simp [hlt]
  · rename_i hk
    unfold classInfo?
    rw [classIndex?_setClass, hset]
    cases hj : t.classIndex? k with
    | none => rfl
    | some j =>
      -- Two handles of one class would be the same.
      have hne : i ≠ j := by
        rintro rfl
        have hc' : t.classInfo? k = some c := by
          unfold classInfo?
          rw [hj]
          exact hget
        exact hk ((ht k c hc').symm.trans (ht id c hc))
      simp [Array.getElem?_setIfInBounds, hne]

theorem Descends.setClass (h : t.Descends c bs) (ht : t.Arranged) {old : ClassInfo}
    (hid : t.classInfo? id = some old) (hstate : old.state ≠ .done) :
    (t.setClass id c').Descends c bs := by
  induction h with
  | root hbase hc => exact .root hbase hc
  | @derived c b bs hb hdone hbs hc ih =>
    refine .derived ?_ hdone ih hc
    rw [classInfo?_setClass ht.owned hid, if_neg, hb]
    rintro heq
    rw [heq, hid, Option.some.injEq] at hb
    subst hb
    exact hstate hdone

theorem Arranged.setClass (ht : t.Arranged) (hc : t.classInfo? id = some c)
    (hstate : c.state ≠ .done) (howned : c'.type = id) (hblank : c'.state ≠ .done → c'.IsBlank)
    (hline : t.Descends c' bs) : (t.setClass id c').Arranged := by
  have hinfo : ∀ {k x}, (t.setClass id c').classInfo? k = some x →
      k = id ∧ x = c' ∨ k ≠ id ∧ t.classInfo? k = some x := by
    intro k x hx
    rw [classInfo?_setClass ht.owned hc] at hx
    split at hx
    · exact .inl ⟨‹_›, (Option.some.inj hx).symm⟩
    · exact .inr ⟨‹_›, hx⟩
  refine ⟨?_, ?_, ?_, ?_⟩
  · intro k i hi
    rw [classIndex?_setClass] at hi
    rw [size_classes_setClass]
    exact ht.indexed k i hi
  · intro k x hx
    rcases hinfo hx with ⟨rfl, rfl⟩ | ⟨-, hx⟩
    · exact howned
    · exact ht.owned k x hx
  · intro k x hx hs
    rcases hinfo hx with ⟨rfl, rfl⟩ | ⟨-, hx⟩
    · exact hblank hs
    · exact ht.blank k x hx hs
  · intro k x hx
    rcases hinfo hx with ⟨rfl, rfl⟩ | ⟨-, hx⟩
    · exact ⟨bs, hline.setClass ht hc hstate⟩
    · obtain ⟨xs, hxs⟩ := ht.lines k x hx
      exact ⟨xs, hxs.setClass ht hc hstate⟩

theorem Descends.mono (h : t.Descends c bs)
    (hle : ∀ id c, t.classInfo? id = some c → t'.classInfo? id = some c) : t'.Descends c bs := by
  induction h with
  | root hbase hc => exact .root hbase hc
  | derived hb hdone _ hc ih => exact .derived (hle _ _ hb) hdone ih hc

theorem Arranged.empty : TypeTable.empty.Arranged := by
  have hnone : ∀ id, TypeTable.empty.classIndex? id = none := by
    intro id
    unfold classIndex? shape?
    split
    · rename_i i hi
      split at hi
      · simp at hi
      · have := Array.mem_of_getElem? hi
        simp [TypeTable.empty] at this
    · rfl
  refine ⟨?_, ?_, ?_, ?_⟩ <;> simp [classInfo?, hnone]

theorem classIndex?_newClass (t : TypeTable) (key : ClassKey) (k : TypeId) :
    (t.newClass key).2.classIndex? k =
      if k = t.shapes.size + 1 then some t.classes.size else t.classIndex? k := by
  revert k
  intro (k : Nat)
  unfold TypeTable.newClass classIndex? shape?
  by_cases hk : k = 0
  · simp [hk]
  · by_cases hnew : k = t.shapes.size + 1
    · simp [hnew]
    · have hne : k - 1 ≠ t.shapes.size := by omega
      simp [hk, hnew, Array.getElem?_push, hne]

theorem classInfo?_newClass (ht : t.Arranged) (key : ClassKey) (k : TypeId) :
    (t.newClass key).2.classInfo? k =
      if k = t.shapes.size + 1 then some { key, type := k } else t.classInfo? k := by
  unfold classInfo?
  rw [classIndex?_newClass]
  by_cases hnew : k = t.shapes.size + 1
  · simp [hnew, TypeTable.newClass]
  · cases hi : t.classIndex? k with
    | none => simp [hnew]
    | some i =>
      have := ht.indexed k i hi
      simp [hnew, TypeTable.newClass, Array.getElem?_push, Nat.ne_of_lt this]

theorem classInfo?_newClass_of_some (ht : t.Arranged) (key : ClassKey) (hc : t.classInfo? k = some c) :
    (t.newClass key).2.classInfo? k = some c := by
  rw [classInfo?_newClass ht, if_neg, hc]
  rintro rfl
  simp [classInfo?, classIndex?, shape?] at hc

theorem Arranged.newClass (ht : t.Arranged) (key : ClassKey) : (t.newClass key).2.Arranged := by
  have hindex := classIndex?_newClass t key
  have hinfo := classInfo?_newClass ht key
  have hblank : ClassInfo.IsBlank { key, type := t.shapes.size + 1 } := ⟨rfl, rfl, rfl, rfl, rfl⟩
  refine ⟨?_, ?_, ?_, ?_⟩
  · intro k i hi
    rw [hindex] at hi
    have hsize : (t.newClass key).2.classes.size = t.classes.size + 1 := by
      simp [TypeTable.newClass]
    split at hi
    · simp at hi
      omega
    · have := ht.indexed k i hi
      omega
  · intro k c hc
    rw [hinfo] at hc
    split at hc
    · cases hc
      rfl
    · exact ht.owned k c hc
  · intro k c hc hs
    rw [hinfo] at hc
    split at hc
    · rename_i hk
      subst hk
      cases hc
      exact hblank
    · exact ht.blank k c hc hs
  · intro k c hc
    rw [hinfo] at hc
    split at hc
    · rename_i hk
      subst hk
      cases hc
      exact ⟨[], .root rfl hblank.laidOut⟩
    · obtain ⟨bs, hbs⟩ := ht.lines k c hc
      exact ⟨bs, hbs.mono fun k' c' hc' => classInfo?_newClass_of_some ht key hc'⟩

/-! ## Classes under way -/

/-- How many classes wait for their layout. -/
def pendingCount (t : TypeTable) : Nat := t.classes.countP (·.state == .pending)

theorem pendingCount_le (t : TypeTable) : t.pendingCount ≤ t.classes.size :=
  Array.countP_le_size

theorem pendingCount_setClass (hc : t.classInfo? id = some c) (hc' : c'.state ≠ .pending) :
    (t.setClass id c').pendingCount + (if c.state = .pending then 1 else 0) = t.pendingCount := by
  unfold classInfo? at hc
  obtain ⟨i, hi, hget⟩ := Option.bind_eq_some_iff.mp hc
  obtain ⟨hlt, rfl⟩ := Array.getElem?_eq_some_iff.mp hget
  unfold setClass pendingCount
  simp only [hi, Array.set!_eq_setIfInBounds]
  rw [← Array.countP_toList, ← Array.countP_toList, Array.toList_setIfInBounds,
    List.countP_set (by simpa using hlt)]
  by_cases hp : t.classes[i].state = .pending
  · have hpos : 0 < t.classes.countP (·.state == .pending) :=
      Array.countP_pos_iff.mpr ⟨t.classes[i], by simp, by simp [hp]⟩
    simp [hp, hc']
    omega
  · simp [hp, hc']

end TypeTable

namespace Layout

open TypeTable

variable {t t' t₁ : TypeTable} {id : TypeId} {c : ClassInfo} {decls : List ClassDecl}

/-- The class is what its declaration says. -/
def Follows (decls : List ClassDecl) (id : TypeId) (c : ClassInfo) : Prop :=
  ∀ d, declOf? decls id = some d →
    c.Realizes d ∧ c.base = if d.baseName = "" then 0 else d.base

/-- Classes that wait may have been laid out; all others are the same. -/
structure Advances (decls : List ClassDecl) (t t' : TypeTable) : Prop where
  classes : ∀ id c, t.classInfo? id = some c → ∃ c', t'.classInfo? id = some c' ∧
    (c' = c ∨ c.state = .pending ∧ c'.state = .done ∧ Follows decls id c')
  pending : t'.pendingCount ≤ t.pendingCount

theorem Advances.refl (t : TypeTable) : Advances decls t t :=
  ⟨fun _ c hc => ⟨c, hc, .inl rfl⟩, Nat.le_refl _⟩

theorem Advances.trans (h : Advances decls t t₁) (h' : Advances decls t₁ t') :
    Advances decls t t' := by
  refine ⟨?_, Nat.le_trans h'.pending h.pending⟩
  intro id c hc
  obtain ⟨c₁, hc₁, hstep⟩ := h.classes id c hc
  obtain ⟨c₂, hc₂, hstep'⟩ := h'.classes id c₁ hc₁
  refine ⟨c₂, hc₂, ?_⟩
  rcases hstep with rfl | ⟨hpend, hdone, hfollows⟩
  · exact hstep'
  · rcases hstep' with rfl | ⟨hpend', -⟩
    · exact .inr ⟨hpend, hdone, hfollows⟩
    · rw [hdone] at hpend'
      cases hpend'

/-- The ways in which the layout of a class ends. While its base is laid out the class is marked,
and after that it is done, whether it failed or not. -/
inductive Lays (decls : List ClassDecl) (fuel : Nat) (stack : List TypeId) (t : TypeTable)
    (id : TypeId) : TypeTable → Option LayoutError → Prop
  | absent (hc : t.classInfo? id = none) : Lays decls fuel stack t id t none
  | done {c : ClassInfo} (hc : t.classInfo? id = some c) (hs : c.state = .done) :
      Lays decls fuel stack t id t none
  | cyclic {c : ClassInfo} {e : LayoutError} (hc : t.classInfo? id = some c)
      (hs : c.state = .inProgress) (he : e.fault = .cyclicInheritance (cycleFrom t stack id)) :
      Lays decls fuel stack t id t (some e)
  | imported {c : ClassInfo} (hc : t.classInfo? id = some c) (hs : c.state = .pending)
      (hd : declOf? decls id = none) :
      Lays decls fuel stack t id (t.setClass id (c.inState .done)) none
  | root {c c' : ClassInfo} {d : ClassDecl} {e : Option LayoutError}
      (hc : t.classInfo? id = some c) (hs : c.state = .pending) (hd : declOf? decls id = some d)
      (hname : d.baseName = "")
      (hfill : fill (t.setClass id (c.inState .inProgress)) c none d = (c', e)) :
      Lays decls fuel stack t id
        ((t.setClass id (c.inState .inProgress)).setClass id (c'.inState .done)) e
  | unknown {c : ClassInfo} {d : ClassDecl} (hc : t.classInfo? id = some c)
      (hs : c.state = .pending) (hd : declOf? decls id = some d) (hname : d.baseName ≠ "")
      (hbase : (t.setClass id (c.inState .inProgress)).classInfo? d.base = none) :
      Lays decls fuel stack t id
        ((t.setClass id (c.inState .inProgress)).setClass id (c.inState .done))
        (some ⟨.unknownBase d.baseName, c.key, d.span⟩)
  | failed {c : ClassInfo} {d : ClassDecl} {t₁ : TypeTable} {e : LayoutError}
      (hc : t.classInfo? id = some c) (hs : c.state = .pending) (hd : declOf? decls id = some d)
      (hname : d.baseName ≠ "")
      (hlay : layoutFrom decls fuel (id :: stack) (t.setClass id (c.inState .inProgress)) d.base =
        (t₁, some e)) :
      Lays decls fuel stack t id (t₁.setClass id (c.inState .done)) (some e)
  | derived {c c' b : ClassInfo} {d : ClassDecl} {t₁ : TypeTable} {e : Option LayoutError}
      (hc : t.classInfo? id = some c) (hs : c.state = .pending) (hd : declOf? decls id = some d)
      (hname : d.baseName ≠ "")
      (hbase : (t.setClass id (c.inState .inProgress)).classInfo? d.base = some b)
      (hlay : layoutFrom decls fuel (id :: stack) (t.setClass id (c.inState .inProgress)) d.base =
        (t₁, none))
      (hfill : fill t₁ { c with base := d.base } (t₁.classInfo? d.base) d = (c', e)) :
      Lays decls fuel stack t id (t₁.setClass id (c'.inState .done)) e

theorem layoutFrom_lays {fuel : Nat} {stack : List TypeId} {e : Option LayoutError}
    (h : layoutFrom decls (fuel + 1) stack t id = (t', e)) :
    Lays decls fuel stack t id t' e := by
  rw [layoutFrom] at h
  split at h
  · rename_i hc
    cases h
    exact .absent hc
  · rename_i c hc
    split at h
    · rename_i hs
      cases h
      exact .done hc hs
    · rename_i hs
      cases h
      exact .cyclic hc hs rfl
    · rename_i hs
      split at h
      · rename_i hd
        cases h
        exact .imported hc hs hd
      · rename_i d hd
        simp only at h
        split at h
        · rename_i hname
          cases h
          exact .root hc hs hd hname rfl
        · rename_i hname
          split at h
          · rename_i hbase
            cases h
            exact .unknown hc hs hd hname (Option.isNone_iff_eq_none.mp hbase)
          · rename_i hbase
            obtain ⟨b, hb⟩ := Option.ne_none_iff_exists'.mp (by simpa using hbase)
            split at h
            · rename_i hlay
              cases h
              exact .failed hc hs hd hname hlay
            · rename_i hlay
              cases h
              exact .derived hc hs hd hname hb hlay rfl

/-- What the layout of a class leaves behind: nothing half done, and this class done. -/
structure Completes (decls : List ClassDecl) (t t' : TypeTable) (id : TypeId) : Prop where
  arranged : t'.Arranged
  advances : Advances decls t t'
  done : ∀ c, t.classInfo? id = some c → ∃ c', t'.classInfo? id = some c' ∧ c'.state = .done

theorem completes_self (ht : t.Arranged) (hc : ∀ c, t.classInfo? id = some c → c.state = .done) :
    Completes decls t t id :=
  ⟨ht, .refl t, fun c h => ⟨c, h, hc c h⟩⟩

theorem completes_setClass {c₁ c' : ClassInfo} {bs : List ClassInfo}
    (hc : t.classInfo? id = some c) (hs : c.state = .pending) (ht₁ : t₁.Arranged)
    (hc₁ : t₁.classInfo? id = some c₁) (hs₁ : c₁.state ≠ .done) (htype : c'.type = id)
    (hline : t₁.Descends (c'.inState .done) bs) (hfollows : Follows decls id (c'.inState .done))
    (hothers : ∀ k ≠ id, ∀ x, t.classInfo? k = some x → ∃ x', t₁.classInfo? k = some x' ∧
      (x' = x ∨ x.state = .pending ∧ x'.state = .done ∧ Follows decls k x'))
    (hpending : t₁.pendingCount ≤ t.pendingCount) :
    Completes decls t (t₁.setClass id (c'.inState .done)) id := by
  have hinfo : ∀ k, (t₁.setClass id (c'.inState .done)).classInfo? k =
      if k = id then some (c'.inState .done) else t₁.classInfo? k :=
    fun k => classInfo?_setClass ht₁.owned hc₁
  refine ⟨ht₁.setClass hc₁ hs₁ htype (by simp) hline, ⟨?_, ?_⟩,
    fun _ _ => ⟨c'.inState .done, by simp [hinfo], rfl⟩⟩
  · intro k x hx
    rw [hinfo]
    by_cases hk : k = id
    · subst hk
      rw [hc, Option.some.injEq] at hx
      subst hx
      exact ⟨_, by simp, .inr ⟨hs, rfl, hfollows⟩⟩
    · rw [if_neg hk]
      exact hothers k hk x hx
  · have hmarked : (c'.inState .done).state ≠ .pending := by simp
    have := pendingCount_setClass hc₁ hmarked
    omega

theorem arranged_mark (ht : t.Arranged) (hc : t.classInfo? id = some c) (hs : c.state = .pending) :
    (t.setClass id (c.inState .inProgress)).Arranged := by
  have hblank := (ht.blank id c hc (by simp [hs])).inState .inProgress
  exact ht.setClass hc (by simp [hs]) (ht.owned id c hc) (fun _ => hblank)
    (.root hblank.base hblank.laidOut)

theorem completes_marked {c' : ClassInfo} {bs : List ClassInfo} (ht : t.Arranged)
    (hc : t.classInfo? id = some c) (hs : c.state = .pending) (ht₁ : t₁.Arranged)
    (hadv : Advances decls (t.setClass id (c.inState .inProgress)) t₁) (htype : c'.type = c.type)
    (hline : t₁.Descends (c'.inState .done) bs) (hfollows : Follows decls id (c'.inState .done)) :
    Completes decls t (t₁.setClass id (c'.inState .done)) id := by
  have hmark : ∀ k, (t.setClass id (c.inState .inProgress)).classInfo? k =
      if k = id then some (c.inState .inProgress) else t.classInfo? k :=
    fun k => classInfo?_setClass ht.owned hc
  obtain ⟨c₁, hc₁, hsame⟩ := hadv.classes id (c.inState .inProgress) (by simp [hmark])
  obtain rfl : c₁ = c.inState .inProgress := by simpa using hsame
  refine completes_setClass hc hs ht₁ hc₁ (by simp) (htype.trans (ht.owned id c hc)) hline hfollows
    ?_ ?_
  · intro k hk x hx
    exact hadv.classes k x (by rw [hmark, if_neg hk, hx])
  · have hmarked : (c.inState .inProgress).state ≠ .pending := by simp
    have hless := pendingCount_setClass hc hmarked
    have hle := hadv.pending
    omega

theorem Follows.of_realizes {c' : ClassInfo} {d : ClassDecl} (hd : declOf? decls id = some d)
    (hreal : c'.Realizes d) (hbase : c'.base = if d.baseName = "" then 0 else d.base) :
    Follows decls id (c'.inState .done) := by
  intro d' hd'
  rw [hd, Option.some.injEq] at hd'
  subst hd'
  exact ⟨hreal.inState .done, hbase⟩

theorem layoutFrom_completes {fuel : Nat} {stack : List TypeId} (ht : t.Arranged)
    (hfuel : t.pendingCount < fuel) (h : layoutFrom decls fuel stack t id = (t', none)) :
    Completes decls t t' id := by
  -- Each class on the way down is marked, so fewer are left to wait than there is fuel.
  induction fuel generalizing t t' id stack with
  | zero => omega
  | succ fuel ih =>
    cases layoutFrom_lays h with
    | absent hc => exact completes_self ht (by simp [hc])
    | done hc hs => exact completes_self ht (by simp [hc, hs])
    | @imported c hc hs hd =>
      have hblank := (ht.blank id c hc (by simp [hs])).inState .done
      exact completes_setClass hc hs ht hc (by simp [hs]) (ht.owned id c hc)
        (.root hblank.base hblank.laidOut) (fun d hd' => by simp [hd] at hd')
        (fun k _ x hx => ⟨x, hx, .inl rfl⟩) (Nat.le_refl _)
    | @root c c' d _ hc hs hd hname hfill =>
      have hblank := ht.blank id c hc (by simp [hs])
      obtain ⟨hlaid, hreal, -, htype, hbase⟩ :=
        fill_ok [] hblank.fields hblank.vmt (by simp) (by simp) hfill
      refine completes_marked ht hc hs (arranged_mark ht hc hs) (.refl _) htype
        (.root (hbase.trans hblank.base) (hlaid.inState .done)) (.of_realizes hd hreal ?_)
      simp [hname, hbase, hblank.base]
    | @derived c c' b₀ d t₁ _ hc hs hd hname hb₀ hlay hfill =>
      have hblank := ht.blank id c hc (by simp [hs])
      have hless : (t.setClass id (c.inState .inProgress)).pendingCount < fuel := by
        have hmarked : (c.inState .inProgress).state ≠ .pending := by simp
        have := pendingCount_setClass hc hmarked
        simp only [hs, if_true] at this
        omega
      obtain ⟨ht₁, hadv, hdone⟩ := ih (arranged_mark ht hc hs) hless hlay
      obtain ⟨b, hb, hbdone⟩ := hdone b₀ hb₀
      obtain ⟨bs, hbs⟩ := ht₁.lines d.base b hb
      rw [hb] at hfill
      obtain ⟨hlaid, hreal, -, htype, hbase'⟩ := fill_ok (b :: bs)
        (by exact hblank.fields) (by exact hblank.vmt) (by simpa using hbs.laidOut.names)
        (fun name hnone => hbs.lookupField?_none hb hnone) hfill
      refine completes_marked ht hc hs ht₁ hadv htype
        (.derived (by simpa [hbase'] using hb) hbdone hbs (hlaid.inState .done))
        (.of_realizes hd hreal ?_)
      simp [hname, hbase']

theorem layoutAll_cons {order : List TypeId} (h : layoutAll decls t (id :: order) = (t', [])) :
    ∃ t₁, layoutClass decls t id = (t₁, none) ∧ layoutAll decls t₁ order = (t', []) := by
  unfold layoutAll at h
  simp only [Prod.mk.injEq, List.append_eq_nil_iff] at h
  obtain ⟨rfl, hclass, hrest⟩ := h
  refine ⟨(layoutClass decls t id).1, Prod.ext rfl ?_, Prod.ext rfl hrest⟩
  simpa using hclass

theorem layoutAll_completes {order : List TypeId} (ht : t.Arranged)
    (h : layoutAll decls t order = (t', [])) :
    t'.Arranged ∧ Advances decls t t' ∧ ∀ id ∈ order, Completes decls t t' id := by
  induction order generalizing t with
  | nil =>
    obtain rfl : t = t' := congrArg Prod.fst h
    exact ⟨ht, .refl t, by simp⟩
  | cons id order ih =>
    obtain ⟨t₁, hclass, hrest⟩ := layoutAll_cons h
    have hfuel : t.pendingCount < t.classes.size + 2 := by
      have := t.pendingCount_le
      omega
    have hfirst := layoutFrom_completes ht hfuel hclass
    obtain ⟨ht', hadv, hothers⟩ := ih hfirst.arranged hrest
    have hadv' := hfirst.advances.trans hadv
    refine ⟨ht', hadv', ?_⟩
    intro k hk
    refine ⟨ht', hadv', ?_⟩
    intro c hc
    rcases List.mem_cons.mp hk with rfl | hk
    · obtain ⟨c₁, hc₁, hdone⟩ := hfirst.done c hc
      obtain ⟨c₂, hc₂, rfl | ⟨-, hdone', -⟩⟩ := hadv.classes k c₁ hc₁
      · exact ⟨_, hc₂, hdone⟩
      · exact ⟨c₂, hc₂, hdone'⟩
    · obtain ⟨c₁, hc₁, -⟩ := hfirst.advances.classes k c hc
      exact (hothers k hk).done c₁ hc₁

end Layout

end Pascaline
