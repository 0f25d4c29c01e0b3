import Pascaline.Proofs.Classes.Overrides

/-!
# The hierarchy of classes

Declarations may name any bases, also such that a class would derive from itself. However the
layout ends, no class then has a base that is not laid out itself, so the hierarchy is free of
cycles; and a cycle among the declarations is reported.
-/

namespace Pascaline.Layout

open TypeTable Relation

variable {decls : List ClassDecl} {t t' t₁ : TypeTable} {id a b : TypeId} {c c' : ClassInfo}
  {d : ClassDecl} {bs : List ClassInfo} {e : Option LayoutError} {S : ClassInfo → Prop}

/-- The class `a` is declared with the base `b`. -/
def Refers (decls : List ClassDecl) (a b : TypeId) : Prop :=
  ∃ d, declOf? decls a = some d ∧ d.baseName ≠ "" ∧ d.base = b

/-- The declared classes are new, and all others derive from others, none of them from itself. -/
structure Fresh (decls : List ClassDecl) (t : TypeTable) : Prop where
  rooted : t.Rooted
  pending : ∀ id d, declOf? decls id = some d →
    ∃ c, t.classInfo? id = some c ∧ c.state = .pending ∧ c.base = 0
  apart : ∀ id c, declOf? decls id = none → t.classInfo? id = some c →
    declOf? decls c.base = none

/-- Every class has a line of bases, and all of them may stand in one. -/
structure Standing (S : ClassInfo → Prop) (t : TypeTable) : Prop where
  owned : ∀ id c, t.classInfo? id = some c → c.type = id
  lines : ∀ id c, t.classInfo? id = some c → ∃ bs, t.Lineage c.base bs ∧ ∀ b ∈ bs, S b

theorem Standing.rooted (ht : Standing S t) : t.Rooted := by
  refine .of_lineage ht.owned fun id c hc => ?_
  obtain ⟨bs, hbs, -⟩ := ht.lines id c hc
  exact ⟨c :: bs, .cons hc hbs⟩

theorem Standing.grow (ht : Standing S t)
    (hle : ∀ id c, t.classInfo? id = some c → t'.classInfo? id = some c)
    (hnew : ∀ id c, t'.classInfo? id = some c →
      t.classInfo? id = some c ∨ c.type = id ∧ c.base = 0) : Standing S t' := by
  refine ⟨fun id c hc => ?_, fun id c hc => ?_⟩
  · rcases hnew id c hc with hold | ⟨htype, -⟩
    · exact ht.owned id c hold
    · exact htype
  · rcases hnew id c hc with hold | ⟨-, hbase⟩
    · obtain ⟨bs, hbs, hall⟩ := ht.lines id c hold
      exact ⟨bs, hbs.mono hle, hall⟩
    · exact ⟨[], hbase ▸ .nil, by simp⟩

/-- A class may stand in a line when it is done, but not while its declaration waits or is under
way. -/
structure Settles (decls : List ClassDecl) (S : ClassInfo → Prop) : Prop where
  done : ∀ c, c.state = .done → S c
  waits : ∀ c d, declOf? decls c.type = some d → c.state ≠ .done → ¬S c

/-- Nothing more is to come for the class. -/
def Settled (decls : List ClassDecl) (c : ClassInfo) : Prop :=
  declOf? decls c.type = none ∨ c.state = .done

theorem settles_settled (decls : List ClassDecl) : Settles decls (Settled decls) := by
  refine ⟨fun _ hdone => .inr hdone, fun c d hd hs => ?_⟩
  rintro (hnone | hdone)
  · rw [hd] at hnone
    cases hnone
  · exact hs hdone

theorem Fresh.undeclared (ht : Fresh decls t) {cs : List ClassInfo} (hcs : t.Lineage id cs)
    (hid : declOf? decls id = none) : ∀ c ∈ cs, declOf? decls c.type = none := by
  induction hcs with
  | nil => simp
  | cons hc _ ih =>
    refine List.forall_mem_cons.mpr ⟨?_, ih (ht.apart _ _ hid hc)⟩
    rw [ht.rooted.owned _ _ hc, hid]

theorem Fresh.standing (ht : Fresh decls t) : Standing (Settled decls) t := by
  refine ⟨ht.rooted.owned, fun id c hc => ?_⟩
  cases hd : declOf? decls id with
  | some d =>
    obtain ⟨c', hc', -, hbase⟩ := ht.pending id d hd
    obtain rfl : c = c' := Option.some.inj (hc.symm.trans hc')
    exact ⟨[], hbase ▸ .nil, by simp⟩
  | none =>
    obtain ⟨cs, hcs⟩ := ht.rooted.lineage hc
    cases hcs with
    | nil =>
      rw [classInfo?_zero] at hc
      cases hc
    | cons hc' hbs =>
      obtain rfl := Option.some.inj (hc.symm.trans hc')
      exact ⟨_, hbs, fun b hb => .inl (ht.undeclared hbs (ht.apart id c hd hc) b hb)⟩

/-! ## One class -/

theorem Standing.line_setClass (ht : Standing S t) (hc : t.classInfo? id = some c)
    (hkeep : S c → c'.base = c.base ∧ S c') {k : TypeId} (hbs : t.Lineage k bs)
    (hall : ∀ b ∈ bs, S b) : ∃ bs', (t.setClass id c').Lineage k bs' ∧ ∀ b ∈ bs', S b := by
  induction hbs with
  | nil => exact ⟨[], .nil, by simp⟩
  | @cons k x xs hx _ ih =>
    obtain ⟨hfirst, hrest⟩ := List.forall_mem_cons.mp hall
    obtain ⟨bs', hbs', hall'⟩ := ih hrest
    have hinfo : (t.setClass id c').classInfo? k =
        if k = id then some c' else t.classInfo? k := classInfo?_setClass ht.owned hc
    split at hinfo
    · rename_i hk
      obtain rfl : x = c := Option.some.inj (hx.symm.trans (hk ▸ hc))
      obtain ⟨hbase, hsettled⟩ := hkeep hfirst
      exact ⟨c' :: bs', .cons hinfo (hbase ▸ hbs'), List.forall_mem_cons.mpr ⟨hsettled, hall'⟩⟩
    · exact ⟨x :: bs', .cons (hinfo.trans hx) hbs', List.forall_mem_cons.mpr ⟨hfirst, hall'⟩⟩

theorem Standing.setClass (ht : Standing S t) (hc : t.classInfo? id = some c)
    (htype : c'.type = id) (hkeep : S c → c'.base = c.base ∧ S c') (hbs : t.Lineage c'.base bs)
    (hall : ∀ b ∈ bs, S b) : Standing S (t.setClass id c') := by
  have hinfo : ∀ k, (t.setClass id c').classInfo? k =
      if k = id then some c' else t.classInfo? k := fun k => classInfo?_setClass ht.owned hc
  refine ⟨fun k x hx => ?_, fun k x hx => ?_⟩
  · rw [hinfo] at hx
    split at hx
    · rename_i hk
      cases hx
      exact htype.trans hk.symm
    · exact ht.owned k x hx
  · rw [hinfo] at hx
    split at hx
    · cases hx
      exact ht.line_setClass hc hkeep hbs hall
    · obtain ⟨xs, hxs, hsettled⟩ := ht.lines k x hx
      exact ht.line_setClass hc hkeep hxs hsettled

/-- What laying out a class leaves as it was. -/
structure Keeps (S : ClassInfo → Prop) (t t' : TypeTable) : Prop where
  standing : Standing S t'
  pending : t'.pendingCount ≤ t.pendingCount
  others : ∀ k c, t.classInfo? k = some c → c.state ≠ .pending → t'.classInfo? k = some c
  there : ∀ k c, t.classInfo? k = some c → ∃ c', t'.classInfo? k = some c'

theorem Keeps.refl (ht : Standing S t) : Keeps S t t :=
  ⟨ht, Nat.le_refl _, fun _ _ h _ => h, fun _ c hc => ⟨c, hc⟩⟩

theorem Keeps.trans (h : Keeps S t t₁) (h' : Keeps S t₁ t') : Keeps S t t' := by
  refine ⟨h'.standing, Nat.le_trans h'.pending h.pending,
    fun k c hc hs => h'.others k c (h.others k c hc hs) hs, fun k c hc => ?_⟩
  obtain ⟨c₁, hc₁⟩ := h.there k c hc
  exact h'.there k c₁ hc₁

theorem Settles.open (hS : Settles decls S) (ht : Standing S t) (hc : t.classInfo? id = some c)
    (hs : c.state ≠ .done) (hd : declOf? decls id = some d) : ¬S c :=
  hS.waits c d (by rw [ht.owned id c hc, hd]) hs

theorem Standing.mark (ht : Standing S t) (hS : Settles decls S) (hc : t.classInfo? id = some c)
    (hs : c.state = .pending) (hd : declOf? decls id = some d) :
    Standing S (t.setClass id (c.inState .inProgress)) := by
  obtain ⟨bs, hbs, hall⟩ := ht.lines id c hc
  have hopen := hS.open ht hc (by simp [hs]) hd
  exact ht.setClass hc (ht.owned id c hc) (fun h => absurd h hopen) hbs hall

theorem exists_setClass (ht : Standing S t) (hc : t.classInfo? id = some c) (k : TypeId)
    {x : ClassInfo} (hx : t.classInfo? k = some x) :
    ∃ y, (t.setClass id c').classInfo? k = some y := by
  rw [classInfo?_setClass ht.owned hc]
  split
  · exact ⟨c', rfl⟩
  · exact ⟨x, hx⟩

theorem pendingCount_mark (hc : t.classInfo? id = some c) (hs : c.state = .pending) :
    (t.setClass id (c.inState .inProgress)).pendingCount + 1 = t.pendingCount := by
  have hmarked : (c.inState .inProgress).state ≠ .pending := by simp
  simpa [hs] using pendingCount_setClass hc hmarked

theorem Keeps.marked (h : Keeps S (t.setClass id (c.inState .inProgress)) t₁)
    (ht : Standing S t) (hc : t.classInfo? id = some c) :
    t₁.classInfo? id = some (c.inState .inProgress) :=
  h.others id _ (by simp [classInfo?_setClass ht.owned hc]) (by simp)

theorem Keeps.finish (h : Keeps S (t.setClass id (c.inState .inProgress)) t₁)
    (hS : Settles decls S) (ht : Standing S t) (hc : t.classInfo? id = some c)
    (hs : c.state = .pending) (hd : declOf? decls id = some d) (htype : c'.type = c.type)
    (hbs : t₁.Lineage c'.base bs) (hall : ∀ b ∈ bs, S b) :
    Keeps S t (t₁.setClass id (c'.inState .done)) ∧
      (t₁.setClass id (c'.inState .done)).classInfo? id = some (c'.inState .done) := by
  have hc₁ := h.marked ht hc
  have hinfo : ∀ k, (t₁.setClass id (c'.inState .done)).classInfo? k =
      if k = id then some (c'.inState .done) else t₁.classInfo? k :=
    fun k => classInfo?_setClass h.standing.owned hc₁
  have hopen := hS.open h.standing hc₁ (by simp) hd
  refine ⟨⟨?_, ?_, ?_, ?_⟩, by simp [hinfo]⟩
  · exact h.standing.setClass hc₁ (htype.trans (ht.owned id c hc)) (fun hself => absurd hself hopen)
      hbs hall
  · have hmarked : (c'.inState .done).state ≠ .pending := by simp
    have hfinal := pendingCount_setClass hc₁ hmarked
    have hless := pendingCount_mark hc hs
    have hle := h.pending
    omega
  · intro k x hx hstate
    have hk : k ≠ id := by
      rintro rfl
      rw [hc, Option.some.injEq] at hx
      exact hstate (hx ▸ hs)
    rw [hinfo, if_neg hk]
    refine h.others k x ?_ hstate
    rw [classInfo?_setClass ht.owned hc, if_neg hk, hx]
  · intro k x hx
    obtain ⟨y, hy⟩ := exists_setClass ht hc k hx
    obtain ⟨z, hz⟩ := h.there k y hy
    exact exists_setClass h.standing hc₁ k hz

/-- Laying out one class, and its bases before it, whether it succeeds or not. -/
theorem layoutFrom_keeps {fuel : Nat} {stack : List TypeId} (hS : Settles decls S)
    (ht : Standing S t) (hfuel : t.pendingCount < fuel)
    (h : layoutFrom decls fuel stack t id = (t', e)) :
    Keeps S t t' ∧ (e = none → ∀ c, t.classInfo? id = some c →
      ∃ c', t'.classInfo? id = some c' ∧ c'.state = .done) := by
  -- Each class on the way down is marked, so fewer are left to wait than there is fuel.
  induction fuel generalizing t t' e id stack with
  | zero => omega
  | succ fuel ih =>
    cases layoutFrom_lays h with
    | absent hc => exact ⟨.refl ht, by simp [hc]⟩
    | @done c hc hs =>
      refine ⟨.refl ht, fun _ c' hc' => ⟨c', hc', ?_⟩⟩
      rwa [← Option.some.inj (hc.symm.trans hc')]
    | cyclic => exact ⟨.refl ht, by simp⟩
    | @imported c hc hs hd =>
      obtain ⟨bs, hbs, hall⟩ := ht.lines id c hc
      have hinfo : ∀ k, (t.setClass id (c.inState .done)).classInfo? k =
          if k = id then some (c.inState .done) else t.classInfo? k :=
        fun k => classInfo?_setClass ht.owned hc
      have hdone : (c.inState .done).state ≠ .pending := by simp
      have hcount := pendingCount_setClass hc hdone
      refine ⟨⟨ht.setClass hc (ht.owned id c hc) (fun _ => ⟨rfl, hS.done _ rfl⟩) hbs hall, by omega,
        ?_, fun k _ hx => exists_setClass ht hc k hx⟩,
        fun _ _ _ => ⟨c.inState .done, by simp [hinfo], rfl⟩⟩
      intro k x hx hstate
      have hk : k ≠ id := by
        rintro rfl
        rw [hc, Option.some.injEq] at hx
        exact hstate (hx ▸ hs)
      rw [hinfo, if_neg hk, hx]
    | @root c c' d _ hc hs hd hname hfill =>
      have hmark := ht.mark hS hc hs hd
      have hsame := fill_sameHead hfill
      obtain ⟨bs, hbs, hall⟩ := hmark.lines id _ ((Keeps.refl hmark).marked ht hc)
      obtain ⟨hkeeps, hinfo⟩ := (Keeps.refl hmark).finish hS ht hc hs hd hsame.type
        (hsame.base.symm ▸ hbs) hall
      exact ⟨hkeeps, fun _ _ _ => ⟨_, hinfo, rfl⟩⟩
    | @unknown c d hc hs hd hname hbase =>
      have hmark := ht.mark hS hc hs hd
      obtain ⟨bs, hbs, hall⟩ := hmark.lines id _ ((Keeps.refl hmark).marked ht hc)
      exact ⟨((Keeps.refl hmark).finish hS ht hc hs hd rfl hbs hall).1, by simp⟩
    | @failed c d t₁ _ hc hs hd hname hlay =>
      have hless := pendingCount_mark hc hs
      obtain ⟨hkeeps, -⟩ := ih (ht.mark hS hc hs hd) (by omega) hlay
      obtain ⟨bs, hbs, hall⟩ := hkeeps.standing.lines id _ (hkeeps.marked ht hc)
      exact ⟨(hkeeps.finish hS ht hc hs hd rfl hbs hall).1, by simp⟩
    | @derived c c' b₀ d t₁ _ hc hs hd hname hb₀ hlay hfill =>
      have hless := pendingCount_mark hc hs
      obtain ⟨hkeeps, hdone⟩ := ih (ht.mark hS hc hs hd) (by omega) hlay
      obtain ⟨b, hb, hstate⟩ := hdone rfl b₀ hb₀
      obtain ⟨bs, hbs, hall⟩ := hkeeps.standing.lines d.base b hb
      have hsame := fill_sameHead hfill
      obtain ⟨hkeeps', hinfo⟩ := hkeeps.finish hS ht hc hs hd hsame.type
        (hsame.base.symm ▸ .cons hb hbs) (List.forall_mem_cons.mpr ⟨hS.done b hstate, hall⟩)
      exact ⟨hkeeps', fun _ _ _ => ⟨_, hinfo, rfl⟩⟩

/-! ## Cycles -/

/-- The error reports that a class inherits from itself. -/
def LayoutError.IsCyclic (e : LayoutError) : Prop := ∃ ks, e.fault = .cyclicInheritance ks

/-- The classes of a cycle are there, and none is done. -/
def Open (decls : List ClassDecl) (t : TypeTable) : Prop :=
  ∀ k, TransGen (Refers decls) k k → ∃ c, t.classInfo? k = some c ∧ c.state ≠ .done

theorem cycle_base (hd : declOf? decls id = some d) (h : TransGen (Refers decls) id id) :
    d.baseName ≠ "" ∧ TransGen (Refers decls) d.base d.base := by
  obtain ⟨b, ⟨d', hd', hname, hbase⟩, hback⟩ := TransGen.head'_iff.mp h
  obtain rfl : d = d' := Option.some.inj (hd.symm.trans hd')
  exact ⟨hname, hbase ▸ .tail' hback ⟨d, hd, hname, hbase⟩⟩

theorem cycle_declared (h : TransGen (Refers decls) id id) : ∃ d, declOf? decls id = some d := by
  obtain ⟨b, ⟨d, hd, -⟩, -⟩ := TransGen.head'_iff.mp h
  exact ⟨d, hd⟩

theorem Open.setClass (ho : Open decls t) (ht : Standing (Settled decls) t)
    (hc : t.classInfo? id = some c)
    (hid : TransGen (Refers decls) id id → c'.state ≠ .done) :
    Open decls (t.setClass id c') := by
  intro k hk
  rw [classInfo?_setClass ht.owned hc]
  split
  · rename_i heq
    exact ⟨c', rfl, hid (heq ▸ hk)⟩
  · exact ho k hk

theorem Open.mark (ho : Open decls t) (ht : Standing (Settled decls) t) (hc : t.classInfo? id = some c) :
    Open decls (t.setClass id (c.inState .inProgress)) :=
  ho.setClass ht hc fun _ => by simp

theorem Open.finish (ho : Open decls t₁)
    (h : Keeps (Settled decls) (t.setClass id (c.inState .inProgress)) t₁) (ht : Standing (Settled decls) t)
    (hc : t.classInfo? id = some c) (hout : ¬TransGen (Refers decls) id id) :
    Open decls (t₁.setClass id c') :=
  ho.setClass h.standing (h.marked ht hc) fun hself => absurd hself hout

theorem layoutFrom_open {fuel : Nat} {stack : List TypeId} (ht : Standing (Settled decls) t)
    (ho : Open decls t) (hfuel : t.pendingCount < fuel)
    (h : layoutFrom decls fuel stack t id = (t', e)) :
    (∃ x, e = some x ∧ LayoutError.IsCyclic x) ∨
      Open decls t' ∧ ¬TransGen (Refers decls) id id := by
  induction fuel generalizing t t' e id stack with
  | zero => omega
  | succ fuel ih =>
    cases layoutFrom_lays h with
    | absent hc =>
      refine .inr ⟨ho, fun hself => ?_⟩
      obtain ⟨c, hc', -⟩ := ho id hself
      rw [hc] at hc'
      cases hc'
    | @done c hc hs =>
      refine .inr ⟨ho, fun hself => ?_⟩
      obtain ⟨c', hc', hopen⟩ := ho id hself
      obtain rfl := Option.some.inj (hc.symm.trans hc')
      exact hopen hs
    | cyclic hc hs he => exact .inl ⟨_, rfl, _, he⟩
    | @imported c hc hs hd =>
      have hout : ¬TransGen (Refers decls) id id := fun hself => by
        obtain ⟨d, hd'⟩ := cycle_declared hself
        rw [hd] at hd'
        cases hd'
      exact .inr ⟨ho.setClass ht hc fun hself => absurd hself hout, hout⟩
    | @root c c' d _ hc hs hd hname hfill =>
      have hout : ¬TransGen (Refers decls) id id := fun hself => (cycle_base hd hself).1 hname
      exact .inr ⟨(ho.mark ht hc).finish (.refl (ht.mark (settles_settled decls) hc hs hd)) ht hc hout, hout⟩
    | @unknown c d hc hs hd hname hbase =>
      have hmark := ht.mark (settles_settled decls) hc hs hd
      have hopen := ho.mark ht hc
      have hout : ¬TransGen (Refers decls) id id := fun hself => by
        obtain ⟨b, hb, -⟩ := hopen d.base (cycle_base hd hself).2
        rw [hbase] at hb
        cases hb
      exact .inr ⟨hopen.finish (.refl hmark) ht hc hout, hout⟩
    | @failed c d t₁ _ hc hs hd hname hlay =>
      have hless := pendingCount_mark hc hs
      have hmark := ht.mark (settles_settled decls) hc hs hd
      obtain ⟨hkeeps, -⟩ := layoutFrom_keeps (settles_settled decls) hmark (by omega) hlay
      rcases ih hmark (ho.mark ht hc) (by omega) hlay with hcyclic | ⟨ho₁, hbase⟩
      · exact .inl hcyclic
      · have hout := fun hself => hbase (cycle_base hd hself).2
        exact .inr ⟨ho₁.finish hkeeps ht hc hout, hout⟩
    | @derived c c' b₀ d t₁ _ hc hs hd hname hb₀ hlay hfill =>
      have hless := pendingCount_mark hc hs
      have hmark := ht.mark (settles_settled decls) hc hs hd
      obtain ⟨hkeeps, -⟩ := layoutFrom_keeps (settles_settled decls) hmark (by omega) hlay
      rcases ih hmark (ho.mark ht hc) (by omega) hlay with ⟨x, hx, -⟩ | ⟨ho₁, hbase⟩
      · cases hx
      · have hout := fun hself => hbase (cycle_base hd hself).2
        exact .inr ⟨ho₁.finish hkeeps ht hc hout, hout⟩

/-! ## All classes -/

theorem layoutClass_keeps (hS : Settles decls S) (ht : Standing S t) (id : TypeId) :
    Keeps S t (layoutClass decls t id).1 :=
  (layoutFrom_keeps hS ht (Nat.lt_of_le_of_lt t.pendingCount_le (by omega)) (Prod.eta _).symm).1

theorem layoutAll_keeps (hS : Settles decls S) (ht : Standing S t) (order : List TypeId) :
    Keeps S t (layoutAll decls t order).1 := by
  induction order generalizing t with
  | nil => exact .refl ht
  | cons id order ih =>
    have hfirst := layoutClass_keeps hS ht id
    exact hfirst.trans (ih hfirst.standing)

/-- All bases of classes are laid out. -/
abbrev Grounded (t : TypeTable) : Prop := Standing (·.state = .done) t

theorem Grounded.empty : Grounded .empty := by
  have hnone : ∀ id c, TypeTable.empty.classInfo? id ≠ some c := by
    intro id c hc
    simpa [TypeTable.empty] using mem_of_classInfo? hc
  exact ⟨fun id c hc => absurd hc (hnone id c), fun id c hc => absurd hc (hnone id c)⟩

theorem Grounded.layoutAll (ht : Grounded t) (decls : List ClassDecl) (order : List TypeId) :
    Grounded (layoutAll decls t order).1 :=
  (layoutAll_keeps ⟨fun _ hdone => hdone, fun _ _ _ hs => hs⟩ ht order).standing

theorem layoutAll_open (ht : Standing (Settled decls) t) (ho : Open decls t) (order : List TypeId) :
    (∃ x ∈ (layoutAll decls t order).2, LayoutError.IsCyclic x) ∨
      ∀ id ∈ order, ¬TransGen (Refers decls) id id := by
  induction order generalizing t with
  | nil => exact .inr (by simp)
  | cons id order ih =>
    have hmem : ∀ x, x ∈ (layoutAll decls t (id :: order)).2 ↔ (layoutClass decls t id).2 = some x ∨
        x ∈ (layoutAll decls (layoutClass decls t id).1 order).2 := by
      intro x
      simp [layoutAll]
    have hfuel : t.pendingCount < t.classes.size + 2 := by
      have := t.pendingCount_le
      omega
    rcases layoutFrom_open ht ho hfuel (Prod.eta _).symm with ⟨x, hx, hcyclic⟩ | ⟨ho₁, hout⟩
    · exact .inl ⟨x, (hmem x).mpr (.inl hx), hcyclic⟩
    · rcases ih (layoutClass_keeps (settles_settled decls) ht id).standing ho₁ with ⟨x, hx, hcyclic⟩ | hrest
      · exact .inl ⟨x, (hmem x).mpr (.inr hx), hcyclic⟩
      · exact .inr (List.forall_mem_cons.mpr ⟨hout, hrest⟩)

/-- Whatever bases the declarations name, and in whatever order the classes are laid out, no class
then derives from itself. The walk along the bases reaches an end from every class, so the test for
a derived class is about derivation and not cut off; and a cycle among the declarations is
reported. -/
theorem hierarchy_is_acyclic (ht : Fresh decls t) (order : List TypeId) :
    (∀ id, ¬TransGen (layoutAll decls t order).1.HasBase id id) ∧
    (∀ id c, (layoutAll decls t order).1.classInfo? id = some c →
      (layoutAll decls t order).1.Lineage id ((layoutAll decls t order).1.chain id)) ∧
    (∀ a b, (layoutAll decls t order).1.isSubclass a b = true ↔
      a ≠ 0 ∧ ReflTransGen (layoutAll decls t order).1.HasBase a b) ∧
    ((∃ id ∈ order, TransGen (Refers decls) id id) →
      ∃ x ∈ (layoutAll decls t order).2, LayoutError.IsCyclic x) := by
  have hrooted := (layoutAll_keeps (settles_settled decls) ht.standing order).standing.rooted
  refine ⟨hrooted.acyclic, ?_, fun a b => isSubclass_iff hrooted, ?_⟩
  · intro id c hc
    obtain ⟨cs, hcs⟩ := hrooted.lineage hc
    exact hcs.chain.symm ▸ hcs
  · rintro ⟨id, hid, hself⟩
    have hopen : Open decls t := by
      intro k hk
      obtain ⟨d, hd⟩ := cycle_declared hk
      obtain ⟨c, hc, hpending, -⟩ := ht.pending k d hd
      exact ⟨c, hc, by simp [hpending]⟩
    exact (layoutAll_open ht.standing hopen order).resolve_right fun h => h id hid hself

theorem mem_of_declOf? (h : declOf? decls id = some d) : d ∈ decls ∧ d.id = id :=
  ⟨by simpa using List.mem_of_find?_eq_some h, by simpa using List.find?_some h⟩

theorem fresh_breeds (hids : ∀ d ∈ decls, d.id = 8 ∨ d.id = 9 ∨ d.id = 10) : Fresh decls breeds := by
  have hbase : ∀ c ∈ breeds.classes.toList, c.base = 0 := by decide
  have hzero : declOf? decls 0 = none := by
    refine Option.eq_none_iff_forall_ne_some.mpr fun d hd => ?_
    obtain ⟨hmem, hid⟩ := mem_of_declOf? hd
    rcases hids d hmem with h | h | h <;> exact absurd (h.symm.trans hid) (by decide)
  refine ⟨(animals_arranged.newClass _).rooted, fun id d hd => ?_, fun id c _ hc => ?_⟩
  · obtain ⟨hmem, rfl⟩ := mem_of_declOf? hd
    rcases hids d hmem with h | h | h <;> exact h ▸ ⟨_, rfl, rfl, rfl⟩
  · rwa [hbase c (mem_of_classInfo? hc)]

/-- A dog that is a puppy, and a puppy that is a dog. -/
def circularDecls : List ClassDecl :=
  [{ id := 9, baseName := "puppy", base := 10, fields := [], methods := [], span := {} },
   { id := 10, baseName := "dog", base := 9, fields := [], methods := [], span := {} }]

theorem hierarchy_is_acyclic_breeds :
    Fresh circularDecls breeds ∧ TransGen (Refers circularDecls) 9 9 ∧
      (∃ x ∈ (layoutAll circularDecls breeds [9, 10]).2, LayoutError.IsCyclic x) ∧
      ¬TransGen (layoutAll circularDecls breeds [9, 10]).1.HasBase 10 10 := by
  have hfresh : Fresh circularDecls breeds := fresh_breeds (by simp [circularDecls])
  have hdog : Refers circularDecls 9 10 := ⟨_, rfl, by decide, rfl⟩
  have hpuppy : Refers circularDecls 10 9 := ⟨_, rfl, by decide, rfl⟩
  have hcycle := (TransGen.single hdog).tail hpuppy
  obtain ⟨hacyclic, -, -, hreport⟩ := hierarchy_is_acyclic hfresh [9, 10]
  exact ⟨hfresh, hcycle, hreport ⟨9, by simp, hcycle⟩, hacyclic 10⟩

end Pascaline.Layout
