import Pascaline.Types.Layout
import Mathlib.Data.List.Nodup

/-!
# The members of a laid out class

What entering the fields and methods of one class does: fields follow those of the base, and the
dispatch table of the base is kept but for the places that overrides take over.
-/

namespace Pascaline

/-! ## Laid out -/

namespace ClassInfo

/-- The first slot that is free above the nearest of the bases. -/
def slotsAbove (bases : List ClassInfo) : Nat := (bases.head?.map (·.slots)).getD 0

/-- The dispatch table that is taken over from the nearest of the bases. -/
def vmtAbove (bases : List ClassInfo) : List VmtEntry := (bases.head?.map (·.vmt)).getD []

/-- How the methods of a class stand in its dispatch table, which started as `above`. -/
structure Tabled (above : List VmtEntry) (c : ClassInfo) : Prop where
  selectors : above.map (·.selector) <+: c.vmt.map (·.selector)
  distinct : (c.methods.map (·.selector)).Nodup
  owners : ∀ m ∈ c.methods, m.owner = c.type
  placed : ∀ m ∈ c.methods, m.slot = -1 ∨
    ∃ i : Nat, m.slot = i ∧ c.vmt[i]? = some ⟨m.selector, m.routine, c.type⟩
  inherited : ∀ i : Nat, (∀ m ∈ c.methods, m.slot ≠ i) → c.vmt[i]? = above[i]?
  /-- Only overrides take places over. -/
  introduced : ∀ m ∈ c.methods, m.isOverride = false → m.slot = -1 ∨ (above.length : Int) ≤ m.slot

/-- The layout of a class over its bases, the nearest of which comes first. -/
structure LaidOut (c : ClassInfo) (bases : List ClassInfo) : Prop where
  slots : c.slots = slotsAbove bases + c.fields.length
  offsets : c.fields.map (·.offset) = List.range' (slotsAbove bases) c.fields.length
  names : ((c.fields ++ bases.flatMap (·.fields)).map (·.name)).Nodup
  tabled : c.Tabled (vmtAbove bases)

/-- The class has the members of its declaration. -/
structure Realizes (c : ClassInfo) (d : ClassDecl) : Prop where
  fields : c.fields.map (fun f => (f.name, f.type)) = d.fields.map (fun f => (f.name, f.type))
  methods : c.methods.map (fun m => (m.name, m.kind, m.sig, m.isOverride, m.routine)) =
    d.methods.map (fun m => (m.name, m.kind, m.sig, m.isOverride, m.routine))

/-- Nothing of the class is known yet but its name. -/
structure IsBlank (c : ClassInfo) : Prop where
  base : c.base = 0
  fields : c.fields = []
  methods : c.methods = []
  vmt : c.vmt = []
  slots : c.slots = 0

theorem IsBlank.laidOut {c : ClassInfo} (h : c.IsBlank) : c.LaidOut [] := by
  refine ⟨?_, ?_, ?_, ⟨?_, ?_, ?_, ?_, ?_, ?_⟩⟩
  · simp [h.slots, h.fields, slotsAbove]
  · simp [h.fields]
  · simp [h.fields]
  · simp [vmtAbove]
  · simp [h.methods]
  · simp [h.methods]
  · simp [h.methods]
  · simp [h.vmt, vmtAbove]
  · simp [h.methods]

/-- The same class, with its layout so far on. -/
def inState (c : ClassInfo) (s : LayoutState) : ClassInfo := { c with state := s }

@[simp] theorem inState_state (c : ClassInfo) (s : LayoutState) : (c.inState s).state = s := rfl

@[simp] theorem inState_type (c : ClassInfo) (s : LayoutState) : (c.inState s).type = c.type := rfl

@[simp] theorem inState_base (c : ClassInfo) (s : LayoutState) : (c.inState s).base = c.base := rfl

theorem IsBlank.inState {c : ClassInfo} (h : c.IsBlank) (s : LayoutState) :
    (c.inState s).IsBlank :=
  ⟨h.base, h.fields, h.methods, h.vmt, h.slots⟩

theorem LaidOut.inState {c : ClassInfo} {bases : List ClassInfo} (h : c.LaidOut bases)
    (s : LayoutState) : (c.inState s).LaidOut bases :=
  ⟨h.slots, h.offsets, h.names, ⟨h.tabled.selectors, h.tabled.distinct, h.tabled.owners,
    h.tabled.placed, h.tabled.inherited, h.tabled.introduced⟩⟩

/-- The class is the same, and has the same base. -/
structure SameHead (c c' : ClassInfo) : Prop where
  key : c'.key = c.key
  type : c'.type = c.type
  base : c'.base = c.base

theorem SameHead.refl (c : ClassInfo) : c.SameHead c := ⟨rfl, rfl, rfl⟩

theorem SameHead.trans {c c₁ c' : ClassInfo} (h : c.SameHead c₁) (h' : c₁.SameHead c') :
    c.SameHead c' :=
  ⟨h'.key.trans h.key, h'.type.trans h.type, h'.base.trans h.base⟩

theorem Realizes.inState {c : ClassInfo} {d : ClassDecl} (h : c.Realizes d) (s : LayoutState) :
    (c.inState s).Realizes d :=
  ⟨h.fields, h.methods⟩

end ClassInfo

namespace Layout

variable {t : TypeTable} {c c' : ClassInfo} {above : List VmtEntry}

/-! ## Fields -/

theorem addFields_ok {inherited : String → Bool} {fs : List FieldSpec} {slots slots' : Nat}
    (h : addFields inherited c slots fs = (c', slots', none)) :
    ∃ new : List Field, c' = { c with fields := c.fields ++ new } ∧ slots' = slots + fs.length ∧
      new.map (·.offset) = List.range' slots fs.length ∧
      new.map (fun f => (f.name, f.type)) = fs.map (fun f => (f.name, f.type)) ∧
      (∀ f ∈ new, inherited f.name = false) ∧
      ((c.fields.map (·.name)).Nodup → (c'.fields.map (·.name)).Nodup) := by
  induction fs generalizing c slots with
  | nil =>
    simp only [addFields, Prod.mk.injEq] at h
    obtain ⟨rfl, rfl, -⟩ := h
    exact ⟨[], by simp⟩
  | cons f fs ih =>
    rw [addFields] at h
    split at h
    · simp at h
    · rename_i hnew
      simp only [Bool.or_eq_true, not_or, Bool.not_eq_true] at hnew
      obtain ⟨new, rfl, rfl, hoff, hspec, hinh, hnodup⟩ := ih h
      refine ⟨⟨f.name, f.type, slots, c.type⟩ :: new, by simp, by simp; omega, ?_, ?_, ?_, ?_⟩
      · simp [hoff, List.range'_succ]
      · simp [hspec]
      · intro g hg
        rcases List.mem_cons.mp hg with rfl | hg
        · exact hnew.2
        · exact hinh g hg
      · intro hc
        apply hnodup
        have hfresh : f.name ∉ c.fields.map (·.name) := by
          intro hmem
          obtain ⟨g, hg, hname⟩ := List.mem_map.mp hmem
          have := List.any_eq_false.mp hnew.1 g hg
          simp [hname] at this
        simp [List.nodup_append, hc]
        intro g hg hname
        exact hfresh (List.mem_map.mpr ⟨g, hg, hname⟩)

/-! ## Methods -/

/-- A method takes over the first place of its selector, or a new place, or none. -/
inductive Placing (vmt : List VmtEntry) (e : VmtEntry) : MethodSpec → Int → List VmtEntry → Prop
  | override {m : MethodSpec} {k : Nat} (hm : m.isOverride = true)
      (hk : vmt.findIdx? (·.selector == e.selector) = some k) : Placing vmt e m k (vmt.set k e)
  | introduce {m : MethodSpec} (hm : m.isOverride = false) (hv : m.isVirtual = true) :
      Placing vmt e m vmt.length (vmt ++ [e])
  | static {m : MethodSpec} (hm : m.isOverride = false) (hv : m.isVirtual = false) :
      Placing vmt e m (-1) vmt

/-- A method as it stands in its class. -/
def methodOf (t : TypeTable) (owner : TypeId) (m : MethodSpec) (slot : Int) : Method :=
  { name := m.name, selector := t.selector m.name m.sig.params, kind := m.kind, sig := m.sig,
    isVirtual := m.isVirtual || m.isOverride, isOverride := m.isOverride, slot,
    routine := m.routine, owner }

theorem addMethods_cons {hasBase : Bool} {m : MethodSpec} {ms : List MethodSpec}
    (h : addMethods t hasBase c (m :: ms) = (c', none)) :
    ∃ slot vmt, t.selector m.name m.sig.params ∉ c.methods.map (·.selector) ∧
      Placing c.vmt ⟨t.selector m.name m.sig.params, m.routine, c.type⟩ m slot vmt ∧
      addMethods t hasBase
        { c with vmt, methods := c.methods ++ [methodOf t c.type m slot] } ms = (c', none) := by
  rw [addMethods] at h
  split at h
  · simp at h
  · rename_i hnew
    have hfresh : t.selector m.name m.sig.params ∉ c.methods.map (·.selector) := by
      intro hmem
      obtain ⟨n, hn, hsel⟩ := List.mem_map.mp hmem
      exact hnew (List.any_eq_true.mpr ⟨n, hn, by simp [hsel]⟩)
    split at h
    · rename_i hover
      split at h
      · rename_i hk
        exact ⟨_, _, hfresh, .override hover hk, h⟩
      · simp at h
    · rename_i hover
      split at h
      · rename_i hvirt
        exact ⟨_, _, hfresh, .introduce (by simpa using hover) hvirt, h⟩
      · rename_i hvirt
        exact ⟨_, _, hfresh, .static (by simpa using hover) (by simpa using hvirt), h⟩

theorem findIdx?_selector {vmt : List VmtEntry} {sel : String} {k : Nat}
    (h : vmt.findIdx? (·.selector == sel) = some k) :
    ∃ e, vmt[k]? = some e ∧ e.selector = sel := by
  obtain ⟨hlt, heq, -⟩ := List.findIdx?_eq_some_iff_getElem.mp h
  exact ⟨vmt[k], List.getElem?_eq_getElem hlt, by simpa using heq⟩

theorem Placing.selectors {vmt vmt' : List VmtEntry} {e : VmtEntry} {m : MethodSpec} {slot : Int}
    (h : Placing vmt e m slot vmt') : vmt.map (·.selector) <+: vmt'.map (·.selector) := by
  cases h with
  | @override k _ hk =>
    obtain ⟨old, hold, hsel⟩ := findIdx?_selector hk
    have hsame : (vmt.set k e).map (·.selector) = vmt.map (·.selector) := by
      obtain ⟨hlt, rfl⟩ := List.getElem?_eq_some_iff.mp hold
      rw [List.map_set, ← hsel]
      apply List.ext_getElem
      · simp
      · intro i hi hi'
        rw [List.getElem_set]
        split <;> simp_all
    exact ⟨[], by rw [hsame, List.append_nil]⟩
  | introduce => simp
  | static => exact List.prefix_refl _

theorem Placing.others {vmt vmt' : List VmtEntry} {e : VmtEntry} {m : MethodSpec} {slot : Int}
    (h : Placing vmt e m slot vmt') {i : Nat} (hi : slot ≠ i) : vmt'[i]? = vmt[i]? := by
  cases h with
  | @override k _ hk =>
    have hne : k ≠ i := fun heq => hi (by rw [heq])
    rw [List.getElem?_set_ne hne]
  | introduce =>
    rcases Nat.lt_trichotomy i vmt.length with hlt | heq | hgt
    · rw [List.getElem?_append_left hlt]
    · exact absurd (by rw [heq]) hi
    · rw [List.getElem?_eq_none (by simp; omega), List.getElem?_eq_none (by omega)]
  | static => rfl

theorem Placing.own {vmt vmt' : List VmtEntry} {e : VmtEntry} {m : MethodSpec} {slot : Int}
    (h : Placing vmt e m slot vmt') : slot = -1 ∨ ∃ i : Nat, slot = i ∧ vmt'[i]? = some e := by
  cases h with
  | @override k _ hk =>
    obtain ⟨hlt, -⟩ := List.findIdx?_eq_some_iff_getElem.mp hk
    exact .inr ⟨k, rfl, by rw [List.getElem?_set_self hlt]⟩
  | introduce => exact .inr ⟨vmt.length, rfl, by simp⟩
  | static => exact .inl rfl

theorem Placing.replaces {vmt vmt' : List VmtEntry} {e old : VmtEntry} {m : MethodSpec} {i : Nat}
    (h : Placing vmt e m i vmt') (hold : vmt[i]? = some old) : old.selector = e.selector := by
  generalize hslot : (i : Int) = slot at h
  cases h with
  | @override k _ hk =>
    obtain ⟨entry, hentry, hsel⟩ := findIdx?_selector hk
    obtain rfl : i = k := by omega
    rw [hold, Option.some.injEq] at hentry
    rw [hentry, hsel]
  | introduce =>
    obtain rfl : i = vmt.length := by omega
    simp at hold
  | static => omega

theorem Placing.introduced {vmt vmt' : List VmtEntry} {e : VmtEntry} {m : MethodSpec} {slot : Int}
    (h : Placing vmt e m slot vmt') (hm : m.isOverride = false) :
    slot = -1 ∨ (vmt.length : Int) ≤ slot := by
  cases h with
  | override hover =>
    rw [hover] at hm
    cases hm
  | introduce => simp
  | static => simp

theorem tabled_placing {m : MethodSpec} {slot : Int} {vmt : List VmtEntry}
    (hc : c.Tabled above) (hfresh : t.selector m.name m.sig.params ∉ c.methods.map (·.selector))
    (hp : Placing c.vmt ⟨t.selector m.name m.sig.params, m.routine, c.type⟩ m slot vmt) :
    ClassInfo.Tabled above
      { c with vmt, methods := c.methods ++ [methodOf t c.type m slot] } := by
  refine ⟨hc.selectors.trans hp.selectors, ?_, ?_, ?_, ?_, ?_⟩
  · simp only [List.map_append, List.map_cons, List.map_nil, List.nodup_append]
    refine ⟨hc.distinct, by simp, ?_⟩
    intro a ha b hb heq
    rw [List.mem_singleton] at hb
    subst heq hb
    exact hfresh ha
  · intro n hn
    rcases List.mem_append.mp hn with hn | hn
    · exact hc.owners n hn
    · rw [List.mem_singleton.mp hn]
      rfl
  · intro n hn
    rcases List.mem_append.mp hn with hmem | hn
    · -- An earlier method keeps its place, since its selector is another one.
      rcases hc.placed n hmem with hstatic | ⟨i, hi, hentry⟩
      · exact .inl hstatic
      · refine .inr ⟨i, hi, ?_⟩
        rw [← hentry]
        apply hp.others
        rintro rfl
        have hsel : n.selector = t.selector m.name m.sig.params := hp.replaces hentry
        exact hfresh (List.mem_map.mpr ⟨n, hmem, hsel⟩)
    · rw [List.mem_singleton.mp hn]
      exact hp.own
  · intro i hi
    have hown : slot ≠ i := hi (methodOf t c.type m slot) (by simp)
    rw [hp.others hown]
    exact hc.inherited i fun n hn => hi n (List.mem_append_left _ hn)
  · intro n hn hover
    rcases List.mem_append.mp hn with hmem | hn
    · exact hc.introduced n hmem hover
    · rw [List.mem_singleton.mp hn] at hover ⊢
      have hlen : above.length ≤ c.vmt.length := by simpa using hc.selectors.length_le
      have hslot := hp.introduced hover
      simp only [methodOf]
      omega

theorem addMethods_ok {hasBase : Bool} {ms : List MethodSpec} (hc : c.Tabled above)
    (h : addMethods t hasBase c ms = (c', none)) :
    c'.Tabled above ∧ (∃ vmt new, c' = { c with vmt, methods := c.methods ++ new } ∧
      new.map (fun m => (m.name, m.kind, m.sig, m.isOverride, m.routine)) =
        ms.map (fun m => (m.name, m.kind, m.sig, m.isOverride, m.routine))) := by
  induction ms generalizing c with
  | nil =>
    simp only [addMethods, Prod.mk.injEq, and_true] at h
    subst h
    exact ⟨hc, c.vmt, [], by simp⟩
  | cons m ms ih =>
    obtain ⟨slot, vmt, hfresh, hp, hrest⟩ := addMethods_cons h
    obtain ⟨htabled, vmt', new, rfl, hnew⟩ := ih (tabled_placing hc hfresh hp) hrest
    exact ⟨htabled, vmt', methodOf t c.type m slot :: new, by simp, by simp [hnew, methodOf]⟩

/-! ## A whole class -/

theorem addFields_sameHead (inherited : String → Bool) (c : ClassInfo) (slots : Nat)
    (fs : List FieldSpec) : c.SameHead (addFields inherited c slots fs).1 := by
  induction fs generalizing c slots with
  | nil => exact .refl c
  | cons f fs ih =>
    rw [addFields]
    split
    · exact .refl c
    · have hadd : c.SameHead { c with fields := c.fields ++ [⟨f.name, f.type, slots, c.type⟩] } :=
        ⟨rfl, rfl, rfl⟩
      exact hadd.trans (ih _ _)

theorem addMethods_sameHead (hasBase : Bool) (c : ClassInfo) (ms : List MethodSpec) :
    c.SameHead (addMethods t hasBase c ms).1 := by
  induction ms generalizing c with
  | nil => exact .refl c
  | cons m ms ih =>
    have hnext : ∀ vmt methods,
        c.SameHead (addMethods t hasBase { c with vmt, methods } ms).1 := by
      intro vmt methods
      have hadd : c.SameHead { c with vmt, methods } := ⟨rfl, rfl, rfl⟩
      exact hadd.trans (ih _)
    rw [addMethods]
    extract_lets entry method
    split
    · exact .refl c
    · split
      · split
        · exact hnext _ _
        · exact .refl c
      · split
        · exact hnext _ _
        · exact hnext c.vmt _

theorem members_sameHead (inherited : String → Bool) (hasBase : Bool) (c : ClassInfo)
    (slots : Nat) (d : ClassDecl) :
    c.SameHead (match addFields inherited c slots d.fields with
      | (c, _, some e) => (c, some e)
      | (c, slots, none) => addMethods t hasBase { c with slots, methods := [] } d.methods).1 := by
  have hfields := addFields_sameHead inherited c slots d.fields
  generalize addFields inherited c slots d.fields = r at hfields ⊢
  obtain ⟨c₁, slots, e⟩ := r
  cases e with
  | some e => exact hfields
  | none =>
    have hmethods : c₁.SameHead { c₁ with slots, methods := [] } := ⟨rfl, rfl, rfl⟩
    exact (hfields.trans hmethods).trans (addMethods_sameHead _ _ _)

theorem fill_sameHead {base : Option ClassInfo} {d : ClassDecl} {e : Option LayoutError}
    (h : fill t c base d = (c', e)) : c.SameHead c' := by
  obtain rfl : (fill t c base d).1 = c' := congrArg Prod.fst h
  refine .trans ?_ (members_sameHead _ _ _ _ d)
  cases base <;> exact ⟨rfl, rfl, rfl⟩

theorem fill_eq {bases : List ClassInfo} {d : ClassDecl} (hfields : c.fields = [])
    (hvmt : c.vmt = []) :
    fill t c bases.head? d =
      match addFields (fun name => bases.head?.isSome && (t.lookupField? d.base name).isSome)
        { c with vmt := ClassInfo.vmtAbove bases } (ClassInfo.slotsAbove bases) d.fields with
      | (c, _, some e) => (c, some e)
      | (c, slots, none) =>
        addMethods t bases.head?.isSome { c with slots, methods := [] } d.methods := by
  obtain ⟨key, type, base, fields, methods, vmt, slots, state⟩ := c
  subst hfields hvmt
  cases bases <;> rfl

theorem fill_ok (bases : List ClassInfo) {d : ClassDecl} (hfields : c.fields = [])
    (hvmt : c.vmt = []) (hnames : ((bases.flatMap (·.fields)).map (·.name)).Nodup)
    (hlookup : ∀ name, t.lookupField? d.base name = none →
      name ∉ (bases.flatMap (·.fields)).map (·.name))
    (h : fill t c bases.head? d = (c', none)) :
    c'.LaidOut bases ∧ c'.Realizes d ∧ c'.key = c.key ∧ c'.type = c.type ∧ c'.base = c.base := by
  rw [fill_eq hfields hvmt] at h
  split at h
  · simp at h
  · rename_i c₁ slots hadd
    obtain ⟨new, rfl, rfl, hoff, hspec, hinh, hnodup⟩ := addFields_ok hadd
    have htabled : ClassInfo.Tabled (ClassInfo.vmtAbove bases)
        { c with vmt := ClassInfo.vmtAbove bases, fields := c.fields ++ new,
                 slots := ClassInfo.slotsAbove bases + d.fields.length, methods := [] } :=
      ⟨List.prefix_refl _, by simp, by simp, by simp, by simp, by simp⟩
    obtain ⟨hlaid, vmt, methods, rfl, hmethods⟩ := addMethods_ok htabled h
    have hlen : new.length = d.fields.length := by
      simpa using congrArg List.length hspec
    refine ⟨⟨?_, ?_, ?_, hlaid⟩, ⟨?_, ?_⟩, rfl, rfl, rfl⟩
    · simp [hfields, hlen]
    · simpa [hfields, hlen] using hoff
    · -- Fields are looked up in all bases before they are entered.
      simp only [hfields, List.nil_append, List.map_append, List.nodup_append]
      refine ⟨by simpa [hfields] using hnodup, hnames, ?_⟩
      intro a ha b hb heq
      subst heq
      obtain ⟨f, hf, rfl⟩ := List.mem_map.mp ha
      have hfree := hinh f hf
      cases bases with
      | nil => simp at hb
      | cons b bs => exact hlookup f.name (by simpa using hfree) hb
    · simpa [hfields] using hspec
    · simpa using hmethods

end Layout

end Pascaline
