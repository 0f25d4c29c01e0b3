import Pascaline.Proofs.Classes.Layout

/-!
# Dispatch and overrides

What the code of field accesses and virtual calls relies on. The offsets of all fields along a chain
of classes fill the slots of its objects, a dispatch table starts like that of the base, and each of
its places leads to the most derived of the methods declared for it, all of which have one selector.
They need not have one signature, because a selector says nothing of the result.

An override takes the first place that the base has for its selector. A call through the base goes
by the place of the method that the base shows, which is the most derived one. The two are the same
place unless a class in between has introduced the selector again.
-/

namespace Pascaline

namespace TypeTable

variable {t t' : TypeTable} {id : TypeId} {c : ClassInfo} {bs : List ClassInfo}

/-- The first class of a chain that declares a method for a place, and that method. -/
inductive Declares (i : Nat) : List ClassInfo → ClassInfo → Method → Prop
  | here {d : ClassInfo} {ds : List ClassInfo} {m : Method} (hm : m ∈ d.methods)
      (hslot : m.slot = i) : Declares i (d :: ds) d m
  | above {c d : ClassInfo} {ds : List ClassInfo} {m : Method} (hc : ∀ n ∈ c.methods, n.slot ≠ i)
      (h : Declares i ds d m) : Declares i (c :: ds) d m

/-- What may be relied on about a class. -/
structure WellLaid (t : TypeTable) (id : TypeId) (c : ClassInfo) : Prop where
  /-- The offsets of the fields along the chain are the numbers below the slot count, each once. -/
  offsets : (((t.chain id).flatMap (·.fields)).map (·.offset)).Perm (List.range c.slots)
  names : (((t.chain id).flatMap (·.fields)).map (·.name)).Nodup
  inherits : ∀ b, t.classInfo? c.base = some b →
    b.vmt.map (·.selector) <+: c.vmt.map (·.selector)
  /-- Every place has a method, and it is that of the most derived class that declares one. -/
  declared : ∀ (i : Nat) (e : VmtEntry), c.vmt[i]? = some e → ∃ d m, Declares i (t.chain id) d m
  entries : ∀ (i : Nat) (d : ClassInfo) (m : Method), Declares i (t.chain id) d m →
    c.vmt[i]? = some ⟨m.selector, m.routine, d.type⟩

theorem Descends.offsets (h : t.Descends c bs) :
    (((c :: bs).flatMap (·.fields)).map (·.offset)).Perm (List.range c.slots) := by
  induction h with
  | root _ hc =>
    simp [hc.offsets, hc.slots, ClassInfo.slotsAbove, List.range_eq_range']
  | @derived c b bs _ _ _ hc ih =>
    rw [List.flatMap_cons, List.map_append, hc.offsets, hc.slots]
    have habove : ClassInfo.slotsAbove (b :: bs) = b.slots := rfl
    rw [habove, List.range_eq_range', ← List.range'_append_1, ← List.range_eq_range', Nat.zero_add]
    exact List.perm_append_comm.trans (ih.append_right _)

theorem Descends.declared (h : t.Descends c bs) {i : Nat} {e : VmtEntry}
    (he : c.vmt[i]? = some e) : ∃ d m, Declares i (c :: bs) d m := by
  induction h with
  | @root c _ hc =>
    by_cases hown : ∃ m ∈ c.methods, m.slot = i
    · obtain ⟨m, hm, hslot⟩ := hown
      exact ⟨c, m, .here hm hslot⟩
    · rw [hc.tabled.inherited i (by simpa using hown)] at he
      simp [ClassInfo.vmtAbove] at he
  | @derived c b bs _ _ _ hc ih =>
    by_cases hown : ∃ m ∈ c.methods, m.slot = i
    · obtain ⟨m, hm, hslot⟩ := hown
      exact ⟨c, m, .here hm hslot⟩
    · have hnone : ∀ m ∈ c.methods, m.slot ≠ i := by simpa using hown
      rw [hc.tabled.inherited i hnone] at he
      obtain ⟨d, m, hd⟩ := ih he
      exact ⟨d, m, .above hnone hd⟩

theorem entry_of_placed {above : List VmtEntry} (hc : c.Tabled above) {m : Method}
    (hm : m ∈ c.methods) {i : Nat} (hslot : m.slot = i) :
    c.vmt[i]? = some ⟨m.selector, m.routine, c.type⟩ := by
  rcases hc.placed m hm with hstatic | ⟨j, hj, hentry⟩
  · omega
  · obtain rfl : i = j := by omega
    exact hentry

theorem Descends.entries (h : t.Descends c bs) {i : Nat} {d : ClassInfo} {m : Method}
    (hd : Declares i (c :: bs) d m) : c.vmt[i]? = some ⟨m.selector, m.routine, d.type⟩ := by
  induction h with
  | root _ hc =>
    cases hd with
    | here hm hslot => exact entry_of_placed hc.tabled hm hslot
    | above _ hrest => cases hrest
  | derived _ _ _ hc ih =>
    cases hd with
    | here hm hslot => exact entry_of_placed hc.tabled hm hslot
    | above hnone hrest =>
      rw [hc.tabled.inherited i hnone]
      exact ih hrest

theorem Arranged.wellLaid (ht : t.Arranged) (hc : t.classInfo? id = some c) : t.WellLaid id c := by
  obtain ⟨bs, hbs⟩ := ht.lines id c hc
  refine ⟨?_, ?_, ?_, ?_, ?_⟩
  · rw [hbs.chain hc]
    exact hbs.offsets
  · rw [hbs.chain hc]
    exact hbs.laidOut.names
  · intro b hb
    cases hbs with
    | root hbase =>
      rw [hbase, classInfo?_zero] at hb
      cases hb
    | derived hb' _ _ hlaid =>
      rw [hb', Option.some.injEq] at hb
      subst hb
      exact hlaid.tabled.selectors
  · intro i e he
    rw [hbs.chain hc]
    exact hbs.declared he
  · intro i d m hd
    rw [hbs.chain hc] at hd
    exact hbs.entries hd

theorem Descends.selector (h : t.Descends c bs) {d : ClassInfo} (hd : d ∈ c :: bs) {m : Method}
    (hm : m ∈ d.methods) {i : Nat} (hslot : m.slot = i) :
    (c.vmt.map (·.selector))[i]? = some m.selector := by
  induction h with
  | root _ hc =>
    obtain rfl := List.mem_singleton.mp hd
    simp [entry_of_placed hc.tabled hm hslot]
  | derived _ _ _ hc ih =>
    rcases List.mem_cons.mp hd with rfl | hd
    · simp [entry_of_placed hc.tabled hm hslot]
    · have hbase := ih hd
      have hlt := (List.getElem?_eq_some_iff.mp hbase).1
      obtain ⟨rest, hrest⟩ := hc.tabled.selectors
      rw [← hrest]
      exact (List.getElem?_append_left hlt).trans hbase

theorem Descends.eq_of_place (h : t.Descends c bs) {m n : Method} (hm : m ∈ c.methods)
    (hn : n ∈ c.methods) {i : Nat} (hmi : m.slot = i) (hni : n.slot = i) : m = n := by
  have hsel : m.selector = n.selector := by
    have hm' := h.selector List.mem_cons_self hm hmi
    rw [h.selector List.mem_cons_self hn hni, Option.some.injEq] at hm'
    exact hm'.symm
  exact List.inj_on_of_nodup_map h.laidOut.tabled.distinct hm hn hsel

/-- Each override has the signature of the method whose place it takes. -/
def KeepsSignatures (ds : List ClassInfo) : Prop :=
  ∀ c bs, c :: bs <:+ ds → ∀ m ∈ c.methods, m.isOverride = true →
    ∀ (i : Nat) (d : ClassInfo) (n : Method), m.slot = i → Declares i bs d n → m.sig = n.sig

theorem Descends.signature (h : t.Descends c bs) (hkeep : KeepsSignatures (c :: bs)) {i : Nat}
    {d₁ d₂ : ClassInfo} {m₁ m₂ : Method} (hd : Declares i (c :: bs) d₁ m₁) (hd₂ : d₂ ∈ c :: bs)
    (hm₂ : m₂ ∈ d₂.methods) (hi₂ : m₂.slot = i) : m₁.sig = m₂.sig := by
  induction h generalizing d₁ m₁ d₂ m₂ with
  | root hbase hc =>
    obtain rfl := List.mem_singleton.mp hd₂
    cases hd with
    | here hm hslot => rw [(Descends.root hbase hc : t.Descends _ _).eq_of_place hm hm₂ hslot hi₂]
    | above _ hrest => cases hrest
  | @derived c b bs hb hdone hbs hc ih =>
    have hkeep' : KeepsSignatures (b :: bs) := fun c' bs' hsuffix =>
      hkeep c' bs' (hsuffix.trans (List.suffix_cons _ _))
    cases hd with
    | above hnone hrest =>
      rcases List.mem_cons.mp hd₂ with rfl | hd₂
      · exact absurd hi₂ (hnone m₂ hm₂)
      · exact ih hkeep' hrest hd₂ hm₂ hi₂
    | here hm hslot =>
      rcases List.mem_cons.mp hd₂ with rfl | hd₂
      · rw [(Descends.derived hb hdone hbs hc).eq_of_place hm hm₂ hslot hi₂]
      · -- The place comes from the base, so that the method of the class must be an override.
        have hplace : i < b.vmt.length := by
          have := (List.getElem?_eq_some_iff.mp (hbs.selector hd₂ hm₂ hi₂)).1
          simpa using this
        have hover : m₁.isOverride = true := by
          by_contra hnot
          have hslot' := hc.tabled.introduced m₁ hm (by simpa using hnot)
          have habove : ClassInfo.vmtAbove (b :: bs) = b.vmt := rfl
          rw [habove] at hslot'
          omega
        obtain ⟨d, n, hn⟩ := hbs.declared (List.getElem?_eq_getElem hplace)
        rw [hkeep c (b :: bs) (List.suffix_refl _) m₁ hm hover i d n hslot hn]
        exact ih hkeep' hn hd₂ hm₂ hi₂

theorem exists_class_of_mem_chain {d : ClassInfo} (h : d ∈ t.chain id) :
    ∃ c, t.classInfo? id = some c := by
  unfold chain chainFrom at h
  split at h
  · exact ⟨_, ‹_›⟩
  · simp at h

end TypeTable

section

open TypeTable Layout

variable {t t' : TypeTable} {decls : List ClassDecl} {order : List TypeId}

/-- Classes that were laid out without an error: all may be relied on, and those that waited have
the members they were declared with. -/
theorem classes_are_well_laid (ht : t.Arranged) (h : layoutAll decls t order = (t', [])) :
    (∀ id c, t'.classInfo? id = some c → t'.WellLaid id c) ∧
    (∀ id ∈ order, ∀ c, t.classInfo? id = some c → ∃ c', t'.classInfo? id = some c' ∧
      c'.state = .done ∧ (c.state = .pending → Follows decls id c')) := by
  obtain ⟨ht', -, hcomplete⟩ := layoutAll_completes ht h
  refine ⟨fun id c hc => ht'.wellLaid hc, ?_⟩
  intro id hid c hc
  obtain ⟨c', hc', hdone⟩ := (hcomplete id hid).done c hc
  refine ⟨c', hc', hdone, ?_⟩
  intro hpending
  obtain ⟨c'', hc'', hstep⟩ := (hcomplete id hid).advances.classes id c hc
  rw [hc', Option.some.injEq] at hc''
  subst hc''
  rcases hstep with rfl | ⟨-, -, hfollows⟩
  · rw [hpending] at hdone
    cases hdone
  · exact hfollows

/-- Two classes that are not laid out. -/
def animals : TypeTable :=
  ((TypeTable.empty.newClass ⟨"zoo", "animal"⟩).2.newClass ⟨"zoo", "dog"⟩).2

/-- A dog overrides how an animal speaks, with a result of its own. -/
def animalDecls (result : TypeId) : List ClassDecl :=
  let speak := fun (result : TypeId) (isOverride : Bool) (index : Int) =>
    ({ name := "speak", kind := .function, sig := ⟨[], result⟩, isVirtual := !isOverride,
       isOverride, routine := ⟨"zoo", index⟩, span := {} } : MethodSpec)
  [{ id := 8, baseName := "", base := 0, fields := [⟨"name", TypeTable.string, {}⟩],
     methods := [speak TypeTable.string false 0], span := {} },
   { id := 9, baseName := "animal", base := 8, fields := [⟨"age", TypeTable.integer, {}⟩],
     methods := [speak result true 1], span := {} }]

theorem animals_arranged : animals.Arranged := (Arranged.empty.newClass _).newClass _

theorem classes_are_well_laid_animals :
    ∃ t' c, layoutAll (animalDecls TypeTable.string) animals [9, 8] = (t', []) ∧
      t'.classInfo? 9 = some c ∧ c.slots = 2 ∧ c.vmt = [⟨"speak()", ⟨"zoo", 1⟩, 9⟩] ∧
      t'.WellLaid 9 c := by
  have h : (layoutAll (animalDecls TypeTable.string) animals [9, 8]).2 = [] := by decide +kernel
  have hlaid := classes_are_well_laid animals_arranged (Prod.ext rfl h)
  refine ⟨_, _, Prod.ext rfl h, rfl, ?_, ?_, hlaid.1 9 _ rfl⟩
  · decide +kernel
  · decide +kernel

/-- All methods of one place have the same selector, and the same signature if each override has
that of the method it takes the place of. -/
theorem methods_of_place_agree (ht : t.Arranged) (h : layoutAll decls t order = (t', []))
    {id : TypeId} {d₁ d₂ : ClassInfo} (hd₁ : d₁ ∈ t'.chain id) (hd₂ : d₂ ∈ t'.chain id)
    {m₁ m₂ : Method} (hm₁ : m₁ ∈ d₁.methods) (hm₂ : m₂ ∈ d₂.methods) {i : Nat}
    (hi₁ : m₁.slot = i) (hi₂ : m₂.slot = i) :
    m₁.selector = m₂.selector ∧ (KeepsSignatures (t'.chain id) → m₁.sig = m₂.sig) := by
  obtain ⟨ht', -, -⟩ := layoutAll_completes ht h
  obtain ⟨c, hc⟩ := exists_class_of_mem_chain hd₁
  obtain ⟨bs, hbs⟩ := ht'.lines id c hc
  rw [hbs.chain hc] at hd₁ hd₂ ⊢
  have hsel₁ := hbs.selector hd₁ hm₁ hi₁
  have hsel₂ := hbs.selector hd₂ hm₂ hi₂
  constructor
  · rw [hsel₁, Option.some.injEq] at hsel₂
    exact hsel₂
  · intro hkeep
    have hplace : i < c.vmt.length := by
      have := (List.getElem?_eq_some_iff.mp hsel₁).1
      simpa using this
    obtain ⟨d, m, hd⟩ := hbs.declared (List.getElem?_eq_getElem hplace)
    rw [← hbs.signature hkeep hd hd₁ hm₁ hi₁, hbs.signature hkeep hd hd₂ hm₂ hi₂]

theorem methods_of_place_agree_animals :
    ∃ t' d₁ d₂ m₁ m₂, layoutAll (animalDecls TypeTable.string) animals [9, 8] = (t', []) ∧
      t'.chain 9 = [d₁, d₂] ∧ m₁ ∈ d₁.methods ∧ m₂ ∈ d₂.methods ∧ m₁.slot = 0 ∧ m₂.slot = 0 ∧
      m₁.routine ≠ m₂.routine ∧ m₁.selector = m₂.selector := by
  have h : (layoutAll (animalDecls TypeTable.string) animals [9, 8]).2 = [] := by decide +kernel
  have hchain : ∃ d₁ d₂ m₁ m₂,
      (layoutAll (animalDecls TypeTable.string) animals [9, 8]).1.chain 9 = [d₁, d₂] ∧
      m₁ ∈ d₁.methods ∧ m₂ ∈ d₂.methods ∧ m₁.slot = 0 ∧ m₂.slot = 0 ∧ m₁.routine ≠ m₂.routine := by
    refine ⟨_, _, _, _, rfl, List.mem_cons_self, List.mem_cons_self, ?_, ?_, ?_⟩
    · decide +kernel
    · decide +kernel
    · decide
  obtain ⟨d₁, d₂, m₁, m₂, hds, hm₁, hm₂, hi₁, hi₂, hne⟩ := hchain
  have hd₁ : d₁ ∈ (layoutAll (animalDecls TypeTable.string) animals [9, 8]).1.chain 9 := by
    simp [hds]
  have hd₂ : d₂ ∈ (layoutAll (animalDecls TypeTable.string) animals [9, 8]).1.chain 9 := by
    simp [hds]
  have hagree := methods_of_place_agree animals_arranged (Prod.ext rfl h) hd₁ hd₂ hm₁ hm₂ hi₁ hi₂
  exact ⟨_, d₁, d₂, m₁, m₂, Prod.ext rfl h, hds, hm₁, hm₂, hi₁, hi₂, hne, hagree.1⟩

/-- The result of a method is no part of its selector: an override may have another one. -/
theorem override_changes_result :
    ∃ t' d₁ d₂ m₁ m₂, layoutAll (animalDecls TypeTable.integer) animals [9, 8] = (t', []) ∧
      t'.chain 9 = [d₁, d₂] ∧ m₁ ∈ d₁.methods ∧ m₂ ∈ d₂.methods ∧ m₁.slot = 0 ∧ m₂.slot = 0 ∧
      m₁.sig.result ≠ m₂.sig.result := by
  have h : (layoutAll (animalDecls TypeTable.integer) animals [9, 8]).2 = [] := by decide +kernel
  refine ⟨_, _, _, _, _, Prod.ext rfl h, rfl, List.mem_cons_self, List.mem_cons_self, ?_, ?_, ?_⟩
  · decide +kernel
  · decide +kernel
  · decide

end

/-! ## Overrides and the methods they hide -/

namespace ClassInfo

/-- Overrides take the first place of their selector in the table that the class started with. -/
def TakesFirst (above : List VmtEntry) (c : ClassInfo) : Prop :=
  ∀ m ∈ c.methods, m.isOverride = true →
    ∃ i : Nat, m.slot = i ∧ above.findIdx? (·.selector == m.selector) = some i

theorem IsBlank.takesFirst {c : ClassInfo} (hc : c.IsBlank) (above : List VmtEntry) :
    c.TakesFirst above := by
  simp [TakesFirst, hc.methods]

theorem TakesFirst.inState {above : List VmtEntry} {c : ClassInfo} (h : c.TakesFirst above)
    (s : LayoutState) : (c.inState s).TakesFirst above := h

/-- The class makes a place of its own for a selector. -/
def Introduces (c : ClassInfo) (selector : String) : Prop :=
  ∃ m ∈ c.methods, m.selector = selector ∧ m.slot ≠ -1 ∧ m.isOverride = false

end ClassInfo

namespace Layout

variable {t : TypeTable} {c c' : ClassInfo} {above : List VmtEntry}

theorem findIdx?_selectors (vmt : List VmtEntry) (sel : String) :
    vmt.findIdx? (·.selector == sel) = (vmt.map (·.selector)).findIdx? (· == sel) := by
  rw [List.findIdx?_map]
  rfl

/-- The first place of a selector that no method of the class has comes from above. -/
theorem findIdx?_above {sel : String} {k : Nat} (hc : c.Tabled above)
    (hfresh : sel ∉ c.methods.map (·.selector))
    (hk : c.vmt.findIdx? (·.selector == sel) = some k) :
    above.findIdx? (·.selector == sel) = some k := by
  obtain ⟨e, he, hsel⟩ := findIdx?_selector hk
  have hnone : ∀ m ∈ c.methods, m.slot ≠ k := by
    intro m hm hslot
    have hentry := TypeTable.entry_of_placed hc hm hslot
    rw [he, Option.some.injEq] at hentry
    exact hfresh (List.mem_map.mpr ⟨m, hm, by rw [← hsel, hentry]⟩)
  have hlt : k < above.length := by
    rw [hc.inherited k hnone] at he
    exact (List.getElem?_eq_some_iff.mp he).1
  obtain ⟨rest, hrest⟩ := hc.selectors
  rw [findIdx?_selectors, ← hrest, List.findIdx?_append] at hk
  rw [findIdx?_selectors]
  cases hfirst : (above.map (·.selector)).findIdx? (· == sel) with
  | some i => simpa [hfirst] using hk
  | none =>
    obtain ⟨i, -, hi⟩ : ∃ i, _ ∧ i + above.length = k := by simpa [hfirst] using hk
    omega

theorem addMethods_takesFirst {hasBase : Bool} {ms : List MethodSpec} (hc : c.Tabled above)
    (hfirst : c.TakesFirst above) (h : addMethods t hasBase c ms = (c', none)) :
    c'.TakesFirst above := by
  induction ms generalizing c with
  | nil =>
    simp only [addMethods, Prod.mk.injEq, and_true] at h
    exact h ▸ hfirst
  | cons m ms ih =>
    obtain ⟨slot, vmt, hfresh, hp, hrest⟩ := addMethods_cons h
    refine ih (tabled_placing hc hfresh hp) ?_ hrest
    intro n hn hover
    rcases List.mem_append.mp hn with hn | hn
    · exact hfirst n hn hover
    · obtain rfl := List.mem_singleton.mp hn
      cases hp with
      | override _ hk => exact ⟨_, rfl, findIdx?_above hc hfresh hk⟩
      | introduce hm => simp [methodOf, hm] at hover
      | static hm => simp [methodOf, hm] at hover

theorem fill_takesFirst (bases : List ClassInfo) {d : ClassDecl} (hfields : c.fields = [])
    (hvmt : c.vmt = []) (h : fill t c bases.head? d = (c', none)) :
    c'.TakesFirst (ClassInfo.vmtAbove bases) := by
  rw [fill_eq hfields hvmt] at h
  split at h
  · simp at h
  · rename_i c₁ slots hadd
    obtain ⟨new, rfl, -⟩ := addFields_ok hadd
    refine addMethods_takesFirst ?_ ?_ h
    · exact ⟨List.prefix_refl _, by simp, by simp, by simp, by simp, by simp⟩
    · simp [ClassInfo.TakesFirst]

end Layout

namespace TypeTable

variable {t : TypeTable} {id : TypeId} {c c' : ClassInfo} {bs : List ClassInfo}

/-- In all classes overrides take the first place of their selector. -/
def TakesFirst (t : TypeTable) : Prop :=
  ∀ id c bs, t.classInfo? id = some c → t.Descends c bs → c.TakesFirst (ClassInfo.vmtAbove bs)

theorem TakesFirst.setClass (hf : t.TakesFirst) (ht : t.Arranged) (hc : t.classInfo? id = some c)
    (hstate : c.state ≠ .done) (hline : t.Descends c' bs)
    (hfirst : c'.TakesFirst (ClassInfo.vmtAbove bs)) : (t.setClass id c').TakesFirst := by
  intro k x xs hx hxs
  rw [classInfo?_setClass ht.owned hc] at hx
  split at hx
  · cases hx
    rw [hxs.unique (hline.setClass ht hc hstate)]
    exact hfirst
  · obtain ⟨ys, hys⟩ := ht.lines k x hx
    rw [hxs.unique (hys.setClass ht hc hstate)]
    exact hf k x ys hx hys

theorem TakesFirst.empty : TypeTable.empty.TakesFirst := by
  intro id c bs hc
  have hmem := mem_of_classInfo? hc
  simp [TypeTable.empty] at hmem

theorem TakesFirst.newClass (hf : t.TakesFirst) (ht : t.Arranged) (key : ClassKey) :
    (t.newClass key).2.TakesFirst := by
  intro k x xs hx hxs
  rw [classInfo?_newClass ht] at hx
  split at hx
  · cases hx
    simp [ClassInfo.TakesFirst]
  · obtain ⟨ys, hys⟩ := ht.lines k x hx
    rw [hxs.unique (hys.mono fun _ _ => classInfo?_newClass_of_some ht key)]
    exact hf k x ys hx hys

end TypeTable

namespace Layout

open TypeTable

variable {t t' t₁ : TypeTable} {id : TypeId} {c : ClassInfo} {decls : List ClassDecl}

theorem takesFirst_mark (ht : t.Arranged) (hf : t.TakesFirst) (hc : t.classInfo? id = some c)
    (hs : c.state = .pending) : (t.setClass id (c.inState .inProgress)).TakesFirst := by
  have hblank := (ht.blank id c hc (by simp [hs])).inState .inProgress
  exact hf.setClass ht hc (by simp [hs]) (.root hblank.base hblank.laidOut) (hblank.takesFirst _)

theorem layoutFrom_takesFirst {fuel : Nat} {stack : List TypeId} (ht : t.Arranged)
    (hf : t.TakesFirst) (hfuel : t.pendingCount < fuel)
    (h : layoutFrom decls fuel stack t id = (t', none)) : t'.TakesFirst := by
  induction fuel generalizing t t' id stack with
  | zero => omega
  | succ fuel ih =>
    cases layoutFrom_lays h with
    | absent => exact hf
    | done => exact hf
    | @imported c hc hs hd =>
      have hblank := (ht.blank id c hc (by simp [hs])).inState .done
      exact hf.setClass ht hc (by simp [hs]) (.root hblank.base hblank.laidOut)
        (hblank.takesFirst _)
    | @root c c' d _ hc hs hd hname hfill =>
      have hblank := ht.blank id c hc (by simp [hs])
      obtain ⟨hlaid, -, -, -, hbase⟩ :=
        fill_ok [] hblank.fields hblank.vmt (by simp) (by simp) hfill
      have hmarked : (t.setClass id (c.inState .inProgress)).classInfo? id =
          some (c.inState .inProgress) := by
        simp [classInfo?_setClass ht.owned hc]
      exact (takesFirst_mark ht hf hc hs).setClass (arranged_mark ht hc hs) hmarked (by simp)
        (.root (hbase.trans hblank.base) (hlaid.inState .done))
        ((fill_takesFirst [] hblank.fields hblank.vmt hfill).inState .done)
    | @derived c c' b₀ d t₁ _ hc hs hd hname hb₀ hlay hfill =>
      have hblank := ht.blank id c hc (by simp [hs])
      have hless : (t.setClass id (c.inState .inProgress)).pendingCount < fuel := by
        have hmarked : (c.inState .inProgress).state ≠ .pending := by simp
        have := pendingCount_setClass hc hmarked
        simp only [hs, if_true] at this
        omega
      have hf₁ := ih (arranged_mark ht hc hs) (takesFirst_mark ht hf hc hs) hless hlay
      obtain ⟨ht₁, hadv, hdone⟩ := layoutFrom_completes (arranged_mark ht hc hs) hless hlay
      -- The class itself is still marked, and its base is laid out.
      obtain ⟨c₁, hc₁, hsame⟩ := hadv.classes id (c.inState .inProgress)
        (by simp [classInfo?_setClass ht.owned hc])
      obtain rfl : c₁ = c.inState .inProgress := by simpa using hsame
      obtain ⟨b, hb, hbdone⟩ := hdone b₀ hb₀
      obtain ⟨bs, hbs⟩ := ht₁.lines d.base b hb
      rw [hb] at hfill
      obtain ⟨hlaid, -, -, -, hbase'⟩ := fill_ok (b :: bs)
        (by exact hblank.fields) (by exact hblank.vmt) (by simpa using hbs.laidOut.names)
        (fun name hnone => hbs.lookupField?_none hb hnone) hfill
      exact hf₁.setClass ht₁ hc₁ (by simp)
        (.derived (by simpa [hbase'] using hb) hbdone hbs (hlaid.inState .done))
        ((fill_takesFirst (b :: bs) (by exact hblank.fields) (by exact hblank.vmt)
          hfill).inState .done)

theorem layoutAll_takesFirst {order : List TypeId} (ht : t.Arranged) (hf : t.TakesFirst)
    (h : layoutAll decls t order = (t', [])) : t'.TakesFirst := by
  induction order generalizing t with
  | nil =>
    obtain rfl : t = t' := congrArg Prod.fst h
    exact hf
  | cons id order ih =>
    obtain ⟨t₁, hclass, hrest⟩ := layoutAll_cons h
    have hfuel : t.pendingCount < t.classes.size + 2 := by
      have := t.pendingCount_le
      omega
    exact ih (layoutFrom_completes ht hfuel hclass).arranged
      (layoutFrom_takesFirst ht hf hfuel hclass) hrest

end Layout

namespace TypeTable

variable {t t' : TypeTable} {id : TypeId} {c b : ClassInfo} {bs : List ClassInfo}

/-- At most one class of a chain introduces the selector. -/
def IntroducedOnce (ds : List ClassInfo) (selector : String) : Prop :=
  ∀ d₁ ∈ ds, ∀ d₂ ∈ ds, d₁.Introduces selector → d₂.Introduces selector → d₁ = d₂

theorem mem_addVisible {seen ms : List Method} {n : Method} (h : n ∈ addVisible seen ms) :
    n ∈ seen ∨ n ∈ ms := by
  induction ms generalizing seen with
  | nil => exact .inl h
  | cons m ms ih =>
    rcases ih h with h | h
    · split at h
      · exact .inl h
      · simpa [or_assoc] using Or.inl (List.mem_append.mp h)
    · exact .inr (List.mem_cons_of_mem m h)

theorem mem_foldl_addVisible {p : Method → Bool} {ds : List ClassInfo} {seen : List Method}
    {n : Method}
    (h : n ∈ ds.foldl (fun seen c => addVisible seen (c.methods.filter p)) seen) :
    n ∈ seen ∨ ∃ d ∈ ds, n ∈ d.methods := by
  induction ds generalizing seen with
  | nil => exact .inl h
  | cons d ds ih =>
    rcases ih h with h | ⟨d', hd', hn⟩
    · rcases mem_addVisible h with h | h
      · exact .inl h
      · exact .inr ⟨d, List.mem_cons_self, (List.mem_filter.mp h).1⟩
    · exact .inr ⟨d', List.mem_cons_of_mem d hd', hn⟩

theorem mem_of_lookupMethods {name : String} {n : Method} (h : n ∈ t.lookupMethods id name) :
    ∃ d ∈ t.chain id, n ∈ d.methods := by
  simpa using mem_foldl_addVisible h

/-- A place that a class adds to the table is that of a method it introduces. -/
theorem exists_introducer {above : List VmtEntry} (hc : c.Tabled above)
    (hfirst : c.TakesFirst above) {i : Nat} (hi : above.length ≤ i) {e : VmtEntry}
    (he : c.vmt[i]? = some e) :
    ∃ m ∈ c.methods, m.selector = e.selector ∧ m.slot = i ∧ m.isOverride = false := by
  by_cases hown : ∃ m ∈ c.methods, m.slot = i
  · obtain ⟨m, hm, hslot⟩ := hown
    have hentry := entry_of_placed hc hm hslot
    rw [he, Option.some.injEq] at hentry
    refine ⟨m, hm, by rw [hentry], hslot, ?_⟩
    by_contra hover
    obtain ⟨j, hj, hplace⟩ := hfirst m hm (by simpa using hover)
    obtain ⟨hlt, -⟩ := List.findIdx?_eq_some_iff_getElem.mp hplace
    omega
  · rw [hc.inherited i (by simpa using hown), List.getElem?_eq_none hi] at he
    cases he

theorem Descends.introduced (hf : t.TakesFirst) (h : t.Descends c bs)
    (hc : t.classInfo? id = some c) {i : Nat} {e : VmtEntry} (he : c.vmt[i]? = some e) :
    ∃ d ∈ c :: bs, ∃ m ∈ d.methods, m.selector = e.selector ∧ m.slot = i ∧
      m.isOverride = false := by
  have hline := h
  induction h generalizing id e with
  | @root c hbase hlaid =>
    obtain ⟨m, hm⟩ := exists_introducer hlaid.tabled (hf id c [] hc hline) (Nat.zero_le i) he
    exact ⟨c, List.mem_cons_self, m, hm⟩
  | @derived c b bs hb hdone hbs hlaid ih =>
    by_cases hi : i < b.vmt.length
    · obtain ⟨d, hd, m, hm, hsel, hslot⟩ := ih hb (List.getElem?_eq_getElem hi) hbs
      refine ⟨d, List.mem_cons_of_mem c hd, m, hm, ?_, hslot⟩
      have hplace := hline.selector (List.mem_cons_of_mem c hd) hm hslot.1
      simpa [he] using hplace.symm
    · obtain ⟨m, hm⟩ := exists_introducer hlaid.tabled (hf id c (b :: bs) hc hline)
        (Nat.le_of_not_lt hi) he
      exact ⟨c, List.mem_cons_self, m, hm⟩

theorem Descends.place_unique (hf : t.TakesFirst) (h : t.Descends c bs)
    (hc : t.classInfo? id = some c) {sel : String} (honce : IntroducedOnce (c :: bs) sel)
    {i j : Nat} (hi : (c.vmt.map (·.selector))[i]? = some sel)
    (hj : (c.vmt.map (·.selector))[j]? = some sel) : i = j := by
  rw [List.getElem?_map, Option.map_eq_some_iff] at hi hj
  obtain ⟨e₁, he₁, rfl⟩ := hi
  obtain ⟨e₂, he₂, hsel⟩ := hj
  obtain ⟨d₁, hd₁, m₁, hm₁, hsel₁, hslot₁, hover₁⟩ := h.introduced hf hc he₁
  obtain ⟨d₂, hd₂, m₂, hm₂, hsel₂, hslot₂, hover₂⟩ := h.introduced hf hc he₂
  obtain rfl := honce d₁ hd₁ d₂ hd₂ ⟨m₁, hm₁, hsel₁, by omega, hover₁⟩
    ⟨m₂, hm₂, hsel₂.trans hsel, by omega, hover₂⟩
  have hline : ∃ ds, t.Descends d₁ ds := by
    rcases List.mem_cons.mp hd₁ with rfl | hd₁
    · exact ⟨bs, h⟩
    · obtain ⟨ds, hds, -⟩ := h.of_mem hd₁
      exact ⟨ds, hds⟩
  obtain ⟨ds, hds⟩ := hline
  have hsame := List.inj_on_of_nodup_map hds.laidOut.tabled.distinct hm₁ hm₂
    (by rw [hsel₁, hsel₂, hsel])
  subst hsame
  omega

theorem Descends.entry_of_override (h : t.Descends c (b :: bs)) {m : Method} (hm : m ∈ c.methods)
    {i : Nat} (hi : m.slot = i) {k : Nat}
    (hk : (c.vmt.map (·.selector))[k]? = some m.selector) :
    c.vmt[k]? = if i = k then some ⟨m.selector, m.routine, c.type⟩ else b.vmt[k]? := by
  split
  case isTrue hik => exact entry_of_placed h.laidOut.tabled hm (hik ▸ hi)
  case isFalse hik =>
    apply h.laidOut.tabled.inherited
    intro m' hm' hk'
    have hsel := h.selector List.mem_cons_self hm' hk'
    rw [hk, Option.some.injEq] at hsel
    have hsame := List.inj_on_of_nodup_map h.laidOut.tabled.distinct hm hm' hsel
    subst hsame
    omega

end TypeTable

open TypeTable Layout

variable {t t' : TypeTable} {decls : List ClassDecl} {order : List TypeId}

/-- The place of the method that the base shows leads to an override of it if it is the first of
its selector in the table of the base, and else to what the base has there. It is the first one if
only one class up the chain introduces the selector. -/
theorem override_at_visible_place (ht : t.Arranged) (hf : t.TakesFirst)
    (h : layoutAll decls t order = (t', [])) {id : TypeId} {c b : ClassInfo}
    (hc : t'.classInfo? id = some c) (hb : t'.classInfo? c.base = some b) {m n : Method}
    (hm : m ∈ c.methods) (hover : m.isOverride = true) (hn : n ∈ t'.lookupMethods c.base m.name)
    (hsel : n.selector = m.selector) {k : Nat} (hk : n.slot = k) :
    c.vmt[k]? = (if b.vmtSlot? m.selector = some k then some ⟨m.selector, m.routine, c.type⟩
      else b.vmt[k]?) ∧
    (IntroducedOnce (t'.chain c.base) m.selector →
      c.vmt[k]? = some ⟨m.selector, m.routine, c.type⟩) := by
  obtain ⟨ht', -, -⟩ := layoutAll_completes ht h
  have hf' := layoutAll_takesFirst ht hf h
  obtain ⟨bs, hline⟩ := ht'.lines id c hc
  obtain ⟨d, hd, hnd⟩ := mem_of_lookupMethods hn
  have hfirst := hf' id c bs hc hline m hm hover
  have hlines := hline
  cases hlines with
  | root hbase =>
    rw [hbase, classInfo?_zero] at hb
    cases hb
  | derived hb' _ hbs _ =>
    rw [hb', Option.some.injEq] at hb
    subst hb
    obtain ⟨i, hi, hplace⟩ := hfirst
    have hplace : ClassInfo.vmtSlot? _ m.selector = some i := hplace
    rw [hbs.chain hb'] at hd ⊢
    have hvisible := hline.selector (List.mem_cons_of_mem c hd) hnd hk
    have hentry := hline.entry_of_override hm hi (hsel ▸ hvisible)
    simp only [hplace, Option.some.injEq]
    refine ⟨hentry, fun honce => ?_⟩
    obtain ⟨e, he, hesel⟩ := findIdx?_selector hplace
    have hik : i = k := hbs.place_unique hf' hb' honce (by simp [he, hesel])
      (hsel ▸ hbs.selector hd hnd hk)
    rw [hentry, if_pos hik]

theorem animals_takesFirst : animals.TakesFirst :=
  (TakesFirst.empty.newClass .empty _).newClass (Arranged.empty.newClass _) _

theorem override_at_visible_place_animals :
    ∃ t' c b m n, layoutAll (animalDecls TypeTable.string) animals [9, 8] = (t', []) ∧
      t'.classInfo? 9 = some c ∧ t'.classInfo? c.base = some b ∧ m ∈ c.methods ∧
      m.isOverride = true ∧ n ∈ t'.lookupMethods c.base m.name ∧ n.selector = m.selector ∧
      n.slot = 0 ∧ IntroducedOnce (t'.chain c.base) m.selector ∧
      c.vmt[0]? = some ⟨m.selector, m.routine, c.type⟩ := by
  have h : (layoutAll (animalDecls TypeTable.string) animals [9, 8]).2 = [] := by decide +kernel
  have hdog : ∃ c b m n,
      (layoutAll (animalDecls TypeTable.string) animals [9, 8]).1.classInfo? 9 = some c ∧
      (layoutAll (animalDecls TypeTable.string) animals [9, 8]).1.classInfo? c.base = some b ∧
      (layoutAll (animalDecls TypeTable.string) animals [9, 8]).1.chain c.base = [b] ∧
      m ∈ c.methods ∧ m.isOverride = true ∧
      n ∈ (layoutAll (animalDecls TypeTable.string) animals [9, 8]).1.lookupMethods c.base m.name ∧
      n.selector = m.selector ∧ n.slot = 0 := by
    refine ⟨_, _, _, _, rfl, rfl, rfl, List.mem_cons_self, rfl, List.mem_cons_self, ?_, ?_⟩
    · decide +kernel
    · decide +kernel
  obtain ⟨c, b, m, n, hc, hb, hchain, hm, hover, hn, hsel, hk⟩ := hdog
  have honce : IntroducedOnce ((layoutAll (animalDecls TypeTable.string) animals [9, 8]).1.chain
      c.base) m.selector := by
    intro d₁ hd₁ d₂ hd₂ _ _
    rw [hchain, List.mem_singleton] at hd₁ hd₂
    rw [hd₁, hd₂]
  have hseen := override_at_visible_place animals_arranged animals_takesFirst (Prod.ext rfl h) hc hb
    hm hover hn hsel hk
  exact ⟨_, c, b, m, n, Prod.ext rfl h, hc, hb, hm, hover, hn, hsel, hk, honce, hseen.2 honce⟩

/-- Three classes, each with a method that speaks: the second introduces it again, and the third
overrides it. -/
def breeds : TypeTable := (animals.newClass ⟨"zoo", "puppy"⟩).2

def breedDecls : List ClassDecl :=
  let speak := fun (isOverride : Bool) (index : Int) =>
    ({ name := "speak", kind := .function, sig := ⟨[], TypeTable.string⟩,
       isVirtual := !isOverride, isOverride, routine := ⟨"zoo", index⟩, span := {} } : MethodSpec)
  [{ id := 8, baseName := "", base := 0, fields := [], methods := [speak false 0], span := {} },
   { id := 9, baseName := "animal", base := 8, fields := [], methods := [speak false 1],
     span := {} },
   { id := 10, baseName := "dog", base := 9, fields := [], methods := [speak true 2], span := {} }]

/-- A call through the base does not see the override if the base has introduced the selector
again: the place that it goes by still leads to the method of the base. -/
theorem override_misses_visible_place :
    ∃ t' c b m n, layoutAll breedDecls breeds [8, 9, 10] = (t', []) ∧
      t'.classInfo? 10 = some c ∧ t'.classInfo? c.base = some b ∧ m ∈ c.methods ∧
      m.isOverride = true ∧ t'.lookupMethods c.base m.name = [n] ∧ n.selector = m.selector ∧
      n.slot = 1 ∧ c.vmt[1]? = some ⟨n.selector, n.routine, b.type⟩ ∧
      c.vmt[1]? ≠ some ⟨m.selector, m.routine, c.type⟩ := by
  have h : (layoutAll breedDecls breeds [8, 9, 10]).2 = [] := by decide +kernel
  refine ⟨_, _, _, _, _, Prod.ext rfl h, rfl, rfl, List.mem_cons_self, ?_, rfl, ?_, ?_, ?_, ?_⟩
  · rfl
  · decide +kernel
  · decide +kernel
  · decide +kernel
  · decide

end Pascaline
