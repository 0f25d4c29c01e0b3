import Pascaline.Proofs.Classes.Hierarchy

/-!
# The order of declarations

What a class becomes is settled by its declaration and by its bases, and not by when it is laid out.
So where the layout succeeds in one order it succeeds in every order, with the same classes.
-/

namespace Pascaline

/-! ## Names -/

namespace TypeTable

/-- The tables hold the same types, with classes of the same names. -/
structure SameNames (t s : TypeTable) : Prop where
  shapes : s.shapes = t.shapes
  keys : ∀ i : Nat, s.classes[i]?.map (·.key) = t.classes[i]?.map (·.key)

variable {t s s' : TypeTable} {id : TypeId} {c c' : ClassInfo}

theorem SameNames.refl (t : TypeTable) : SameNames t t := ⟨rfl, fun _ => rfl⟩

theorem SameNames.setClass (h : SameNames t s) (hc : s.classInfo? id = some c)
    (hkey : c'.key = c.key) : SameNames t (s.setClass id c') := by
  unfold classInfo? at hc
  obtain ⟨i, hi, hget⟩ := Option.bind_eq_some_iff.mp hc
  unfold TypeTable.setClass
  rw [hi]
  refine ⟨h.shapes, fun j => ?_⟩
  rw [← h.keys j]
  obtain ⟨hlt, rfl⟩ := Array.getElem?_eq_some_iff.mp hget
  by_cases hij : i = j
  · subst hij
    simp [hlt, hkey]
  · simp [hij]

theorem SameNames.renderFrom (h : SameNames t s) (fuel : Nat) (id : TypeId) :
    s.renderFrom fuel id = t.renderFrom fuel id := by
  induction fuel generalizing id with
  | zero => rfl
  | succ fuel ih =>
    have hshape : s.shape? id = t.shape? id := by
      unfold shape?
      rw [h.shapes]
    have hall : s.renderFrom fuel = t.renderFrom fuel := funext ih
    rw [TypeTable.renderFrom, TypeTable.renderFrom, hshape, hall]
    split
    case h_5 i _ =>
      have hkey := h.keys i
      cases hs : s.classes[i]? with
      | none =>
        rw [hs] at hkey
        rw [Option.map_eq_none_iff.mp hkey.symm]
      | some x =>
        rw [hs] at hkey
        obtain ⟨y, hy, hname⟩ := Option.map_eq_some_iff.mp hkey.symm
        simp only [hy, hname]
    all_goals rfl

theorem SameNames.selector (h : SameNames t s) : s.selector = t.selector := by
  funext name params
  unfold TypeTable.selector
  have hrender : s.render = t.render := by
    funext id
    unfold TypeTable.render
    rw [h.shapes, h.renderFrom]
  rw [hrender]

end TypeTable

/-- The class is the same, however far its layout has come. -/
def ClassInfo.SameMembers (c c' : ClassInfo) : Prop := ∃ st, c' = c.inState st

theorem ClassInfo.SameMembers.refl (c : ClassInfo) : c.SameMembers c := ⟨c.state, rfl⟩

namespace Layout

open TypeTable ClassInfo

variable {decls : List ClassDecl} {t s s' T : TypeTable} {id : TypeId} {c c' b : ClassInfo}
  {d : ClassDecl} {bs bs' cs cs' : List ClassInfo} {e : Option LayoutError}

/-! ## Members over a line of bases -/

/-- The members of a class over the bases that its fields are looked up in. -/
def fillOver (t : TypeTable) (c : ClassInfo) (bases : List ClassInfo) (d : ClassDecl) :
    ClassInfo × Option LayoutError :=
  match addFields (fun name => bases.any fun b => b.fields.any (·.name == name))
      { c with vmt := (bases.head?.map (·.vmt)).getD c.vmt, fields := [] } (slotsAbove bases)
      d.fields with
  | (c, _, some e) => (c, some e)
  | (c, slots, none) => addMethods t (!bases.isEmpty) { c with slots, methods := [] } d.methods

theorem addMethods_congr (h : s.selector = t.selector) (hasBase : Bool) (c : ClassInfo)
    (ms : List MethodSpec) : addMethods s hasBase c ms = addMethods t hasBase c ms := by
  induction ms generalizing c with
  | nil => rfl
  | cons m ms ih => simp only [addMethods, h, ih]

theorem fill_root (h : SameNames t s) (c : ClassInfo) (d : ClassDecl) :
    fill s c none d = fillOver t c [] d := by
  simp only [fill, fillOver, addMethods_congr h.selector]
  rfl

theorem lookupField?_isSome (hline : s.Lineage id cs') (hall : List.Forall₂ SameMembers cs cs')
    (name : String) :
    (s.lookupField? id name).isSome = cs.any fun b => b.fields.any (·.name == name) := by
  unfold lookupField?
  rw [hline.chain]
  clear hline
  induction hall with
  | nil => rfl
  | @cons x y _ _ hsame _ ih =>
    obtain ⟨st, rfl⟩ := hsame
    have hany : x.fields.any (·.name == name) = (x.fields.find? (·.name == name)).isSome := by
      rw [Bool.eq_iff_iff, List.any_eq_true, List.find?_isSome]
    have hfields : (x.inState st).fields = x.fields := rfl
    rw [List.findSome?_cons, List.any_cons, ← ih, hany, hfields]
    cases x.fields.find? (·.name == name) <;> rfl

theorem fill_derived (h : SameNames t s) (hb : s.classInfo? d.base = some b)
    (hline : s.Lineage d.base cs') (hall : List.Forall₂ SameMembers (b :: bs) cs')
    (c : ClassInfo) : fill s c (s.classInfo? d.base) d = fillOver t c (b :: bs) d := by
  simp only [fill, fillOver, hb, addMethods_congr h.selector, lookupField?_isSome hline hall]
  rfl

theorem fillOver_sameHead (h : fillOver t c bs d = (c', e)) : c.SameHead c' := by
  obtain rfl : (fillOver t c bs d).1 = c' := congrArg Prod.fst h
  unfold fillOver
  refine .trans ?_ (members_sameHead _ _ _ _ d)
  exact ⟨rfl, rfl, rfl⟩

/-! ## What a class becomes -/

/-- The line of a class after the layout of its bases and its own, as the declarations say. -/
inductive Yields (decls : List ClassDecl) (t : TypeTable) : TypeId → List ClassInfo → Prop
  | settled {id : TypeId} {c : ClassInfo} {bs : List ClassInfo} (hd : declOf? decls id = none)
      (hc : t.classInfo? id = some c) (hs : c.state ≠ .inProgress) (hbs : t.Lineage c.base bs) :
      Yields decls t id (c.inState .done :: bs)
  | root {id : TypeId} {c c' : ClassInfo} {d : ClassDecl} (hd : declOf? decls id = some d)
      (hname : d.baseName = "") (hc : t.classInfo? id = some c)
      (hfill : fillOver t c [] d = (c', none)) : Yields decls t id [c'.inState .done]
  | derived {id : TypeId} {c c' : ClassInfo} {d : ClassDecl} {bs : List ClassInfo}
      (hd : declOf? decls id = some d) (hname : d.baseName ≠ "") (hc : t.classInfo? id = some c)
      (hbase : Yields decls t d.base bs)
      (hfill : fillOver t { c with base := d.base } bs d = (c', none)) :
      Yields decls t id (c'.inState .done :: bs)

theorem Yields.settled_inv (h : Yields decls t id cs) (hd : declOf? decls id = none) :
    ∃ c bs, cs = c.inState .done :: bs ∧ t.classInfo? id = some c ∧ c.state ≠ .inProgress ∧
      t.Lineage c.base bs := by
  cases h with
  | settled _ hc hs hbs => exact ⟨_, _, rfl, hc, hs, hbs⟩
  | root hd' | derived hd' =>
    rw [hd] at hd'
    cases hd'

theorem Yields.root_inv (h : Yields decls t id cs) (hd : declOf? decls id = some d)
    (hname : d.baseName = "") :
    ∃ c c', cs = [c'.inState .done] ∧ t.classInfo? id = some c ∧
      fillOver t c [] d = (c', none) := by
  cases h with
  | settled hd' =>
    rw [hd] at hd'
    cases hd'
  | root hd' _ hc hfill =>
    obtain rfl := Option.some.inj (hd.symm.trans hd')
    exact ⟨_, _, rfl, hc, hfill⟩
  | derived hd' hname' =>
    obtain rfl := Option.some.inj (hd.symm.trans hd')
    exact absurd hname hname'

theorem Yields.derived_inv (h : Yields decls t id cs) (hd : declOf? decls id = some d)
    (hname : d.baseName ≠ "") :
    ∃ c c' bs, cs = c'.inState .done :: bs ∧ t.classInfo? id = some c ∧
      Yields decls t d.base bs ∧ fillOver t { c with base := d.base } bs d = (c', none) := by
  cases h with
  | settled hd' =>
    rw [hd] at hd'
    cases hd'
  | root hd' hname' =>
    obtain rfl := Option.some.inj (hd.symm.trans hd')
    exact absurd hname' hname
  | derived hd' _ hc hbase hfill =>
    obtain rfl := Option.some.inj (hd.symm.trans hd')
    exact ⟨_, _, _, rfl, hc, hbase, hfill⟩

/-- The declarations leave no choice. -/
theorem Yields.unique (h : Yields decls t id cs) (h' : Yields decls t id cs') : cs = cs' := by
  induction h generalizing cs' with
  | settled hd hc _ hbs =>
    obtain ⟨c', bs', rfl, hc', -, hbs'⟩ := h'.settled_inv hd
    obtain rfl := Option.some.inj (hc.symm.trans hc')
    rw [hbs.unique hbs']
  | root hd hname hc hfill =>
    obtain ⟨c₁, c', rfl, hc', hfill'⟩ := h'.root_inv hd hname
    obtain rfl := Option.some.inj (hc.symm.trans hc')
    rw [hfill, Prod.mk.injEq] at hfill'
    rw [hfill'.1]
  | derived hd hname hc _ hfill ih =>
    obtain ⟨c₁, c', bs', rfl, hc', hbase', hfill'⟩ := h'.derived_inv hd hname
    obtain rfl := Option.some.inj (hc.symm.trans hc')
    obtain rfl := ih hbase'
    rw [hfill, Prod.mk.injEq] at hfill'
    rw [hfill'.1]

theorem Yields.exists_class (h : Yields decls t id cs) : ∃ c, t.classInfo? id = some c := by
  cases h with
  | settled _ hc => exact ⟨_, hc⟩
  | root _ _ hc => exact ⟨_, hc⟩
  | derived _ _ hc => exact ⟨_, hc⟩

theorem Yields.done (h : Yields decls t id (c :: bs)) : c.state = .done := by
  cases h <;> rfl

/-! ## Classes under way -/

/-- How a class stands while others are laid out. -/
inductive Form (decls : List ClassDecl) (t : TypeTable) (id : TypeId) : ClassInfo → Prop
  | initial {c : ClassInfo} (hc : t.classInfo? id = some c) : Form decls t id c
  | marked {c : ClassInfo} {d : ClassDecl} (hd : declOf? decls id = some d)
      (hc : t.classInfo? id = some c) : Form decls t id (c.inState .inProgress)
  | laid {c : ClassInfo} {bs : List ClassInfo} (h : Yields decls t id (c :: bs)) :
      Form decls t id c

/-- The table `s` comes about while the classes of `t` are laid out. -/
structure Stage (decls : List ClassDecl) (t s : TypeTable) : Prop where
  standing : Standing (Settled decls) s
  names : SameNames t s
  kept : ∀ id c, t.classInfo? id = some c → ∃ c', s.classInfo? id = some c'
  forms : ∀ id c, s.classInfo? id = some c → Form decls t id c
  closed : ∀ id d c, declOf? decls id = some d → d.baseName ≠ "" → s.classInfo? id = some c →
    c.state = .done → ∃ b, s.classInfo? d.base = some b ∧ b.state = .done

theorem Form.exists_class (h : Form decls t id c) : ∃ c, t.classInfo? id = some c := by
  cases h with
  | initial hc => exact ⟨_, hc⟩
  | marked _ hc => exact ⟨_, hc⟩
  | laid h => exact h.exists_class

theorem Form.yields (h : Form decls t id c) (ht : Fresh decls t) (hdone : c.state = .done) :
    ∃ bs, Yields decls t id (c :: bs) := by
  cases h with
  | initial hc =>
    cases hd : declOf? decls id with
    | none =>
      obtain ⟨bs, hbs, -⟩ := ht.standing.lines id c hc
      have hsame : c.inState .done = c := by
        rw [← hdone]
        rfl
      exact ⟨bs, hsame ▸ .settled hd hc (by simp [hdone]) hbs⟩
    | some d =>
      obtain ⟨c', hc', hpending, -⟩ := ht.pending id d hd
      obtain rfl := Option.some.inj (hc.symm.trans hc')
      rw [hpending] at hdone
      cases hdone
  | marked => cases hdone
  | laid h => exact ⟨_, h⟩

theorem Form.of_pending (h : Form decls t id c) (hs : c.state = .pending) :
    t.classInfo? id = some c := by
  cases h with
  | initial hc => exact hc
  | marked => cases hs
  | laid h =>
    rw [h.done] at hs
    cases hs

theorem Form.sameMembers (h : Form decls t id c') (hd : declOf? decls id = none)
    (hc : t.classInfo? id = some c) : c.SameMembers c' := by
  cases h with
  | initial hc' =>
    obtain rfl := Option.some.inj (hc.symm.trans hc')
    exact .refl c
  | marked hd' =>
    rw [hd] at hd'
    cases hd'
  | laid h =>
    obtain ⟨c₁, bs, heq, hc', -, -⟩ := h.settled_inv hd
    obtain rfl := Option.some.inj (hc.symm.trans hc')
    exact ⟨_, (List.cons.inj heq).1⟩

theorem Fresh.stage (ht : Fresh decls t) : Stage decls t t := by
  refine ⟨ht.standing, .refl t, fun _ c hc => ⟨c, hc⟩, fun _ _ hc => .initial hc, ?_⟩
  intro id d c hd _ hc hdone
  obtain ⟨c', hc', hpending, -⟩ := ht.pending id d hd
  obtain rfl := Option.some.inj (hc.symm.trans hc')
  rw [hpending] at hdone
  cases hdone

theorem Stage.line (h : Stage decls t s) (ht : Fresh decls t) (hy : Yields decls t id cs)
    (hc : s.classInfo? id = some c) (hdone : c.state = .done) :
    ∃ cs', s.Lineage id cs' ∧ List.Forall₂ SameMembers cs cs' := by
  induction hy generalizing c with
  | @settled id c₀ bs hd hc₀ hs hbs =>
    obtain ⟨st, rfl⟩ := (h.forms id c hc).sameMembers hd hc₀
    obtain ⟨bs', hbs', hall⟩ := hbs.transfer (R := SameMembers) fun x hx k hk => by
      have hout := ht.undeclared hbs (ht.apart id c₀ hd hc₀) x hx
      rw [ht.rooted.owned k x hk] at hout
      obtain ⟨x', hx'⟩ := h.kept k x hk
      have hsame := (h.forms k x' hx').sameMembers hout hk
      have hbase : x'.base = x.base := by
        obtain ⟨st', rfl⟩ := hsame
        rfl
      exact ⟨_, hx', hbase, hsame⟩
    exact ⟨_, .cons hc hbs', .cons ⟨st, rfl⟩ hall⟩
  | @root id c₀ c' d hd hname hc₀ hfill =>
    obtain ⟨bs, hbs⟩ := (h.forms id c hc).yields ht hdone
    obtain ⟨rfl, -⟩ := List.cons.inj (hbs.unique (.root hd hname hc₀ hfill))
    obtain ⟨c₁, hc₁, -, hzero⟩ := ht.pending id d hd
    obtain rfl := Option.some.inj (hc₀.symm.trans hc₁)
    have hbase : (c'.inState .done).base = 0 := (fillOver_sameHead hfill).base.trans hzero
    exact ⟨_, .cons hc (hbase.symm ▸ .nil), .cons (.refl _) .nil⟩
  | @derived id c₀ c' d bs hd hname hc₀ hbase hfill ih =>
    obtain ⟨bs', hbs'⟩ := (h.forms id c hc).yields ht hdone
    obtain ⟨rfl, -⟩ := List.cons.inj (hbs'.unique (.derived hd hname hc₀ hbase hfill))
    obtain ⟨b, hb, hbdone⟩ := h.closed id d _ hd hname hc hdone
    obtain ⟨cs', hcs', hall⟩ := ih hb hbdone
    have hlink : (c'.inState .done).base = d.base := (fillOver_sameHead hfill).base
    exact ⟨_, .cons hc (hlink.symm ▸ hcs'), .cons (.refl _) hall⟩

/-! ## One class -/

theorem Stage.setClass (h : Stage decls t s) (hc : s.classInfo? id = some c)
    (hstate : c.state ≠ .done) (hs' : Standing (Settled decls) (s.setClass id c'))
    (hkey : c'.key = c.key) (hform : Form decls t id c')
    (hbase : ∀ d, declOf? decls id = some d → d.baseName ≠ "" → c'.state = .done →
      ∃ b, s.classInfo? d.base = some b ∧ b.state = .done) : Stage decls t (s.setClass id c') := by
  have hinfo : ∀ k, (s.setClass id c').classInfo? k =
      if k = id then some c' else s.classInfo? k :=
    fun k => classInfo?_setClass h.standing.owned hc
  have hkeep : ∀ k b, s.classInfo? k = some b → b.state = .done →
      (s.setClass id c').classInfo? k = some b := by
    intro k b hb hdone
    rw [hinfo, if_neg, hb]
    rintro rfl
    obtain rfl := Option.some.inj (hb.symm.trans hc)
    exact hstate hdone
  refine ⟨hs', h.names.setClass hc hkey, fun k x hx => ?_, fun k x hx => ?_,
    fun k d x hd hname hx hdone => ?_⟩
  · rw [hinfo]
    split
    · exact ⟨c', rfl⟩
    · exact h.kept k x hx
  · rw [hinfo] at hx
    split at hx
    · rename_i hk
      cases hx
      exact hk ▸ hform
    · exact h.forms k x hx
  · rw [hinfo] at hx
    split at hx
    · rename_i hk
      cases hx
      obtain ⟨b, hb, hbdone⟩ := hbase d (hk ▸ hd) hname hdone
      exact ⟨b, hkeep _ b hb hbdone, hbdone⟩
    · obtain ⟨b, hb, hbdone⟩ := h.closed k d x hd hname hx hdone
      exact ⟨b, hkeep _ b hb hbdone, hbdone⟩

theorem Stage.mark (h : Stage decls t s) (hc : s.classInfo? id = some c)
    (hs : c.state = .pending) (hd : declOf? decls id = some d) :
    Stage decls t (s.setClass id (c.inState .inProgress)) :=
  h.setClass hc (by simp [hs]) (h.standing.mark (settles_settled decls) hc hs hd) rfl
    (.marked hd ((h.forms id c hc).of_pending hs)) (by simp)

theorem layoutFrom_stage {fuel : Nat} {stack : List TypeId} (ht : Fresh decls t)
    (h : Stage decls t s) (hfuel : s.pendingCount < fuel)
    (hrun : layoutFrom decls fuel stack s id = (s', none)) : Stage decls t s' := by
  induction fuel generalizing s s' id stack with
  | zero => omega
  | succ fuel ih =>
    have hs' := (layoutFrom_keeps (settles_settled decls) h.standing hfuel hrun).1.standing
    cases layoutFrom_lays hrun with
    | absent | done => exact h
    | @imported c hc hs hd =>
      have hc₀ := (h.forms id c hc).of_pending hs
      obtain ⟨bs, hbs, -⟩ := ht.standing.lines id c hc₀
      exact h.setClass hc (by simp [hs]) hs' rfl (.laid (.settled hd hc₀ (by simp [hs]) hbs))
        (by simp [hd])
    | @root c c' d _ hc hs hd hname hfill =>
      have hc₀ := (h.forms id c hc).of_pending hs
      have hmark := h.mark hc hs hd
      rw [fill_root hmark.names] at hfill
      refine hmark.setClass ((Keeps.refl hmark.standing).marked h.standing hc) (by simp) hs'
        (fillOver_sameHead hfill).key (.laid (.root hd hname hc₀ hfill)) fun d' hd' hname' => ?_
      obtain rfl := Option.some.inj (hd.symm.trans hd')
      exact absurd hname hname'
    | @derived c c' b₀ d s₁ _ hc hs hd hname hb₀ hlay hfill =>
      have hc₀ := (h.forms id c hc).of_pending hs
      have hless := pendingCount_mark hc hs
      have hmark := h.mark hc hs hd
      have h₁ := ih hmark (by omega) hlay
      obtain ⟨hkeeps, hdone⟩ := layoutFrom_keeps (settles_settled decls) hmark.standing (by omega) hlay
      obtain ⟨b, hb, hbdone⟩ := hdone rfl b₀ hb₀
      obtain ⟨bs, hbs⟩ := (h₁.forms _ b hb).yields ht hbdone
      obtain ⟨cs', hcs', hall⟩ := h₁.line ht hbs hb hbdone
      rw [fill_derived h₁.names hb hcs' hall] at hfill
      refine h₁.setClass (hkeeps.marked h.standing hc) (by simp) hs' (fillOver_sameHead hfill).key
        (.laid (.derived hd hname hc₀ hbs hfill)) fun d' hd' _ _ => ?_
      obtain rfl := Option.some.inj (hd.symm.trans hd')
      exact ⟨b, hb, hbdone⟩

/-! ## Another order -/

theorem Yields.not_inProgress (h : Yields decls t id cs) (ht : Fresh decls t)
    (hc : t.classInfo? id = some c) : c.state ≠ .inProgress := by
  cases hd : declOf? decls id with
  | none =>
    obtain ⟨c', bs, -, hc', hs, -⟩ := h.settled_inv hd
    obtain rfl := Option.some.inj (hc.symm.trans hc')
    exact hs
  | some d =>
    obtain ⟨c', hc', hs, -⟩ := ht.pending id d hd
    obtain rfl := Option.some.inj (hc.symm.trans hc')
    simp [hs]

/-- From `s` to `s'` only classes are laid out that are done in `T`. -/
def Reaches (T s s' : TypeTable) : Prop :=
  ∀ k x, s'.classInfo? k = some x → s.classInfo? k = some x ∨
    x.state = .done ∧ ∃ y, T.classInfo? k = some y ∧ y.state = .done

theorem Reaches.refl (T s : TypeTable) : Reaches T s s := fun _ _ hx => .inl hx

theorem Reaches.trans {s₁ : TypeTable} (h : Reaches T s s₁) (h' : Reaches T s₁ s') :
    Reaches T s s' := fun k x hx => (h' k x hx).elim (h k x) .inr

theorem Reaches.setClass (howned : ∀ id c, s.classInfo? id = some c → c.type = id)
    (hc : s.classInfo? id = some c) (hdone : c'.state = .done)
    (hT : ∃ y, T.classInfo? id = some y ∧ y.state = .done) :
    Reaches T s (s.setClass id c') := by
  intro k x hx
  rw [classInfo?_setClass howned hc] at hx
  split at hx
  · rename_i hk
    cases hx
    exact .inr ⟨hdone, hk ▸ hT⟩
  · exact .inl hx

theorem Reaches.finish {s₁ : TypeTable} (h : Reaches T (s.setClass id (c.inState .inProgress)) s₁)
    (hk : Keeps (Settled decls) (s.setClass id (c.inState .inProgress)) s₁) (hs : Standing (Settled decls) s)
    (hc : s.classInfo? id = some c) (hdone : c'.state = .done)
    (hT : ∃ y, T.classInfo? id = some y ∧ y.state = .done) :
    Reaches T s (s₁.setClass id c') := by
  intro k x hx
  rw [classInfo?_setClass hk.standing.owned (hk.marked hs hc)] at hx
  split at hx
  · rename_i heq
    cases hx
    exact .inr ⟨hdone, heq ▸ hT⟩
  · rename_i hne
    rcases h k x hx with hx | hx
    · rw [classInfo?_setClass hs.owned hc, if_neg hne] at hx
      exact .inl hx
    · exact .inr hx

/-- A class that was laid out in one run is laid out in every run. The classes under way derive from
it, so it is never met a second time. -/
theorem layoutFrom_replays {fuel : Nat} {stack : List TypeId} (ht : Fresh decls t)
    (hT : Stage decls t T) (h : Stage decls t s) (hfuel : s.pendingCount < fuel)
    (hid : ∃ y, T.classInfo? id = some y ∧ y.state = .done) (hy : Yields decls t id cs)
    (hmarks : ∀ k d x ks, declOf? decls k = some d → s.classInfo? k = some x →
      x.state = .inProgress → Yields decls t k ks → cs.length < ks.length)
    (hrun : layoutFrom decls fuel stack s id = (s', e)) : e = none ∧ Reaches T s s' := by
  induction fuel generalizing s s' e id stack cs with
  | zero => omega
  | succ fuel ih =>
    -- The base of a class that is laid out in `T` is so too.
    have hbelow : ∀ {c d} (stack : List TypeId), s.classInfo? id = some c → c.state = .pending →
        declOf? decls id = some d → d.baseName ≠ "" → ∀ {s₁ e}, layoutFrom decls fuel stack
          (s.setClass id (c.inState .inProgress)) d.base = (s₁, e) →
        e = none ∧ Reaches T (s.setClass id (c.inState .inProgress)) s₁ := by
      intro c d stack hc hs hd hname s₁ e hlay
      have hless := pendingCount_mark hc hs
      obtain ⟨c₀, c', bs, hcs, -, hbs, -⟩ := hy.derived_inv hd hname
      obtain ⟨y, hy', hydone⟩ := hid
      refine ih (h.mark hc hs hd) (by omega) (hT.closed id d y hd hname hy' hydone) hbs ?_ hlay
      intro k d' x ks hd' hx hstate hks
      have hlen : bs.length < cs.length := by simp [hcs]
      rw [classInfo?_setClass h.standing.owned hc] at hx
      split at hx
      · rename_i hk
        rw [hk] at hks
        rwa [hks.unique hy]
      · exact Nat.lt_trans hlen (hmarks k d' x ks hd' hx hstate hks)
    cases layoutFrom_lays hrun with
    | absent | done => exact ⟨rfl, .refl T s⟩
    | @cyclic c _ hc hs =>
      exfalso
      cases h.forms id c hc with
      | initial hc₀ => exact hy.not_inProgress ht hc₀ hs
      | marked hd hc₀ => exact Nat.lt_irrefl _ (hmarks id _ _ cs hd hc hs hy)
      | laid hy' =>
        rw [hy'.done] at hs
        cases hs
    | imported hc hs hd => exact ⟨rfl, .setClass h.standing.owned hc rfl hid⟩
    | @root c c' d _ hc hs hd hname hfill =>
      have hmark := h.mark hc hs hd
      obtain ⟨c₀, c₁, -, hc₀, hfill'⟩ := hy.root_inv hd hname
      obtain rfl := Option.some.inj (((h.forms id c hc).of_pending hs).symm.trans hc₀)
      rw [fill_root hmark.names, hfill', Prod.mk.injEq] at hfill
      exact ⟨hfill.2.symm, (Reaches.refl T _).finish (.refl hmark.standing) h.standing hc rfl hid⟩
    | @unknown c d hc hs hd hname hbase =>
      exfalso
      obtain ⟨c₀, c₁, bs, -, -, hbs, -⟩ := hy.derived_inv hd hname
      obtain ⟨b, hb⟩ := hbs.exists_class
      obtain ⟨b', hb'⟩ := (h.mark hc hs hd).kept _ b hb
      rw [hbase] at hb'
      cases hb'
    | failed hc hs hd hname hlay => exact absurd (hbelow _ hc hs hd hname hlay).1 (by simp)
    | @derived c c' b₀ d s₁ _ hc hs hd hname hb₀ hlay hfill =>
      have hless := pendingCount_mark hc hs
      have hmark := h.mark hc hs hd
      have h₁ := layoutFrom_stage ht hmark (by omega) hlay
      obtain ⟨hkeeps, hdone⟩ := layoutFrom_keeps (settles_settled decls) hmark.standing (by omega) hlay
      obtain ⟨b, hb, hbdone⟩ := hdone rfl b₀ hb₀
      obtain ⟨bs, hbs⟩ := (h₁.forms _ b hb).yields ht hbdone
      obtain ⟨cs', hcs', hall⟩ := h₁.line ht hbs hb hbdone
      obtain ⟨c₀, c₁, bs', -, hc₀, hbs', hfill'⟩ := hy.derived_inv hd hname
      obtain rfl := hbs.unique hbs'
      obtain rfl := Option.some.inj (((h.forms id c hc).of_pending hs).symm.trans hc₀)
      rw [fill_derived h₁.names hb hcs' hall, hfill', Prod.mk.injEq] at hfill
      exact ⟨hfill.2.symm,
        (hbelow _ hc hs hd hname hlay).2.finish hkeeps h.standing hc rfl hid⟩

/-! ## All classes -/

theorem layoutAll_stage {order : List TypeId} (ht : Fresh decls t) (h : Stage decls t s)
    (hrun : layoutAll decls s order = (s', [])) :
    Stage decls t s' ∧ ∀ id ∈ order, ∀ c, s.classInfo? id = some c →
      ∃ c', s'.classInfo? id = some c' ∧ c'.state = .done := by
  induction order generalizing s with
  | nil =>
    obtain rfl : s = s' := congrArg Prod.fst hrun
    exact ⟨h, by simp⟩
  | cons id order ih =>
    obtain ⟨s₁, hclass, hrest⟩ := layoutAll_cons hrun
    have hfuel : s.pendingCount < s.classes.size + 2 := by
      have := s.pendingCount_le
      omega
    obtain ⟨hkeeps, hdone⟩ := layoutFrom_keeps (settles_settled decls) h.standing hfuel hclass
    have h₁ := layoutFrom_stage ht h hfuel hclass
    obtain ⟨h', hothers⟩ := ih h₁ hrest
    refine ⟨h', List.forall_mem_cons.mpr ⟨fun c hc => ?_, fun k hk c hc => ?_⟩⟩
    · obtain ⟨c₁, hc₁, hdone₁⟩ := hdone rfl c hc
      have hkept := (layoutAll_keeps (settles_settled decls) h₁.standing order).others id c₁ hc₁ (by simp [hdone₁])
      rw [hrest] at hkept
      exact ⟨c₁, hkept, hdone₁⟩
    · obtain ⟨c₀, hc₀⟩ := (h.forms k c hc).exists_class
      obtain ⟨c₁, hc₁⟩ := h₁.kept k c₀ hc₀
      exact hothers k hk c₁ hc₁

theorem layoutAll_replays {order : List TypeId} (ht : Fresh decls t) (hT : Stage decls t T)
    (h : Stage decls t s)
    (hopen : ∀ k d x, declOf? decls k = some d → s.classInfo? k = some x → x.state ≠ .inProgress)
    (horder : ∀ id ∈ order, ∀ c, t.classInfo? id = some c →
      ∃ y, T.classInfo? id = some y ∧ y.state = .done) :
    (layoutAll decls s order).2 = [] ∧ Reaches T s (layoutAll decls s order).1 := by
  induction order generalizing s with
  | nil => exact ⟨rfl, .refl T s⟩
  | cons id order ih =>
    obtain ⟨hid, hrest⟩ := List.forall_mem_cons.mp horder
    have hfuel : s.pendingCount < s.classes.size + 2 := by
      have := s.pendingCount_le
      omega
    obtain ⟨s₁, hclass, h₁, hreach⟩ : ∃ s₁, layoutClass decls s id = (s₁, none) ∧
        Stage decls t s₁ ∧ Reaches T s s₁ := by
      cases hc : s.classInfo? id with
      | none => exact ⟨s, by simp [layoutClass, layoutFrom, hc], h, .refl T s⟩
      | some c =>
        obtain ⟨c₀, hc₀⟩ := (h.forms id c hc).exists_class
        obtain ⟨y, hy, hdone⟩ := hid c₀ hc₀
        obtain ⟨bs, hbs⟩ := (hT.forms id y hy).yields ht hdone
        obtain ⟨herr, hreach⟩ := layoutFrom_replays ht hT h hfuel ⟨y, hy, hdone⟩ hbs
          (fun k d x _ hd hx hs => absurd hs (hopen k d x hd hx)) (Prod.eta _).symm
        have hclass : layoutClass decls s id = ((layoutClass decls s id).1, none) :=
          Prod.ext rfl herr
        exact ⟨_, hclass, layoutFrom_stage ht h hfuel hclass, hreach⟩
    have hopen₁ : ∀ k d x, declOf? decls k = some d → s₁.classInfo? k = some x →
        x.state ≠ .inProgress := by
      intro k d x hd hx
      rcases hreach k x hx with hx | ⟨hdone, -⟩
      · exact hopen k d x hd hx
      · simp [hdone]
    obtain ⟨hnone, hreach'⟩ := ih h₁ hopen₁ hrest
    simp only [layoutAll, hclass]
    exact ⟨hnone, hreach.trans hreach'⟩

/-- One order that succeeds is enough for another that has no other classes. -/
theorem layoutAll_order {order order' : List TypeId} (ht : Fresh decls t)
    (hsub : ∀ id ∈ order', id ∈ order) (h : layoutAll decls t order = (T, [])) :
    (layoutAll decls t order').2 = [] ∧ Reaches T t (layoutAll decls t order').1 := by
  obtain ⟨hT, hdone⟩ := layoutAll_stage ht ht.stage h
  refine layoutAll_replays ht hT ht.stage (fun k d x hd hx => ?_)
    fun id hid c hc => hdone id (hsub id hid) c hc
  obtain ⟨x', hx', hpending, -⟩ := ht.pending k d hd
  obtain rfl := Option.some.inj (hx.symm.trans hx')
  simp [hpending]

theorem Stage.classInfo?_eq {T' : TypeTable} (hT : Stage decls t T) (ht : Fresh decls t)
    (hT' : Stage decls t T') (hreach : Reaches T t T') (hreach' : Reaches T' t T) (id : TypeId) :
    T.classInfo? id = T'.classInfo? id := by
  cases hx : T.classInfo? id with
  | none =>
    refine (Option.eq_none_iff_forall_ne_some.mpr fun x' hx' => ?_).symm
    obtain ⟨c, hc⟩ := (hT'.forms id x' hx').exists_class
    obtain ⟨x, hx''⟩ := hT.kept id c hc
    rw [hx] at hx''
    cases hx''
  | some x =>
    obtain ⟨c, hc⟩ := (hT.forms id x hx).exists_class
    obtain ⟨x', hx'⟩ := hT'.kept id c hc
    rw [hx', Option.some.injEq]
    -- A class that is done in both is what its declaration says.
    have hdone : x.state = .done → x'.state = .done → x = x' := by
      intro hd hd'
      obtain ⟨bs, hbs⟩ := (hT.forms id x hx).yields ht hd
      obtain ⟨bs', hbs'⟩ := (hT'.forms id x' hx').yields ht hd'
      exact (List.cons.inj (hbs.unique hbs')).1
    rcases hreach' id x hx with hold | ⟨hd, y, hy, hd'⟩
    · rcases hreach id x' hx' with hold' | ⟨hd', y, hy, hd⟩
      · exact Option.some.inj (hold.symm.trans hold')
      · rw [hx, Option.some.injEq] at hy
        exact hdone (hy ▸ hd) hd'
    · rw [hx', Option.some.injEq] at hy
      exact hdone hd (hy ▸ hd')

/-- The layout does not depend on the order of the classes: it succeeds in one order if it does in
the other, and then all classes are the same. -/
theorem layout_ignores_order {order order' : List TypeId} (ht : Fresh decls t)
    (hsame : ∀ id, id ∈ order ↔ id ∈ order') :
    ((layoutAll decls t order).2 = [] ↔ (layoutAll decls t order').2 = []) ∧
    ((layoutAll decls t order).2 = [] → ∀ id, (layoutAll decls t order).1.classInfo? id =
      (layoutAll decls t order').1.classInfo? id) := by
  have hsub := fun id hid => (hsame id).mp hid
  have hsub' := fun id hid => (hsame id).mpr hid
  refine ⟨⟨fun h => (layoutAll_order ht hsub' (Prod.ext rfl h)).1,
    fun h => (layoutAll_order ht hsub (Prod.ext rfl h)).1⟩, fun h id => ?_⟩
  obtain ⟨h', hreach⟩ := layoutAll_order ht hsub' (Prod.ext rfl h)
  obtain ⟨-, hreach'⟩ := layoutAll_order ht hsub (Prod.ext rfl h')
  obtain ⟨hT, -⟩ := layoutAll_stage ht ht.stage (Prod.ext rfl h)
  obtain ⟨hT', -⟩ := layoutAll_stage ht ht.stage (Prod.ext rfl h')
  exact hT.classInfo?_eq ht hT' hreach hreach' id

/-- Animals, dogs and puppies may come in any order. -/
theorem layout_ignores_order_breeds :
    Fresh breedDecls breeds ∧ (∀ id : TypeId, id ∈ [8, 9, 10] ↔ id ∈ [10, 8, 9]) ∧
      (layoutAll breedDecls breeds [10, 8, 9]).2 = [] ∧
      ∀ id, (layoutAll breedDecls breeds [8, 9, 10]).1.classInfo? id =
        (layoutAll breedDecls breeds [10, 8, 9]).1.classInfo? id := by
  have hfresh : Fresh breedDecls breeds := fresh_breeds (by simp [breedDecls])
  have hsame : ∀ id : TypeId, id ∈ [8, 9, 10] ↔ id ∈ [10, 8, 9] := by
    intro id
    simp only [List.mem_cons, List.not_mem_nil, or_false]
    tauto
  have h : (layoutAll breedDecls breeds [8, 9, 10]).2 = [] := by decide +kernel
  obtain ⟨hiff, hclasses⟩ := layout_ignores_order hfresh hsame
  exact ⟨hfresh, hsame, hiff.mp h, hclasses h⟩

end Layout

end Pascaline
