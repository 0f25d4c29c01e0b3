import Pascaline.Proofs.Binding.Environment

/-!
# Classes that are laid out

Laying out classes, whether it succeeds or not, enters only members that were declared and dispatch
places of the base, so all that a class refers to is there afterwards. Classes that were laid out
before stay as they are.
-/

namespace Pascaline.Bound

open TypeTable Layout

variable {E : Env} {t t' t₁ : TypeTable} {c c' : ClassInfo} {id : TypeId} {decls : List ClassDecl}

/-! ## Members -/

/-- All that the declaration of a class refers to is there. -/
structure DeclFits (E : Env) (t : TypeTable) (d : ClassDecl) : Prop where
  base : ∀ c, t.classInfo? d.base = some c → E.known d.base c.key.module
  fields : ∀ f ∈ d.fields, t.Within E.known f.type
  methods : ∀ m ∈ d.methods, m.sig.Within t E.known ∧
    E.takes m.routine (m.sig.params.length + 1)

theorem DeclFits.mono {d : ClassDecl} (h : DeclFits E t d) (hle : t.Grows t')
    (hkeys : ∀ id c, t'.classInfo? id = some c →
      ∃ c', t.classInfo? id = some c' ∧ c'.key = c.key) : DeclFits E t' d := by
  refine ⟨?_, fun f hf => (h.fields f hf).mono hle, fun m hm => ?_⟩
  · intro c hc
    obtain ⟨c', hc', hkey⟩ := hkeys _ c hc
    exact hkey ▸ h.base c' hc'
  · exact ⟨(h.methods m hm).1.mono hle, (h.methods m hm).2⟩

/-- The class has the same name and handle, and what it refers to is there if it was. -/
structure Refits (E : Env) (t : TypeTable) (c c' : ClassInfo) : Prop where
  key : c'.key = c.key
  type : c'.type = c.type
  fits : t.IsClass E.known c.type → ClassFits E t c → ClassFits E t c'

theorem Refits.refl (c : ClassInfo) : Refits E t c c := ⟨rfl, rfl, fun _ hc => hc⟩

theorem Refits.trans {c₁ : ClassInfo} (h : Refits E t c c₁) (h' : Refits E t c₁ c') :
    Refits E t c c' :=
  ⟨h'.key.trans h.key, h'.type.trans h.type,
    fun hown hc => h'.fits (h.type ▸ hown) (h.fits hown hc)⟩

theorem addFields_refits (inherited : String → Bool) (slots : Nat) {fs : List FieldSpec}
    (hfs : ∀ f ∈ fs, t.Within E.known f.type) :
    Refits E t c (addFields inherited c slots fs).1 := by
  induction fs generalizing c slots with
  | nil => exact .refl c
  | cons f fs ih =>
    rw [addFields]
    split
    · exact .refl c
    · have hfield : Refits E t c
          { c with fields := c.fields ++ [⟨f.name, f.type, slots, c.type⟩] } := by
        refine ⟨rfl, rfl, fun _ hc => ⟨⟨hc.within.base, ?_, hc.within.methods, hc.within.vmt⟩,
          hc.methods, hc.dispatch⟩⟩
        intro g hg
        rcases List.mem_append.mp hg with hg | hg
        · exact hc.within.fields g hg
        · obtain rfl := List.mem_singleton.mp hg
          exact ⟨hfs f List.mem_cons_self, rfl⟩
      exact hfield.trans (ih _ fun f hf => hfs f (List.mem_cons_of_mem _ hf))

theorem ClassFits.add (hc : ClassFits E t c) (hown : t.IsClass E.known c.type) {m : Method}
    (hm : m.sig.Within t E.known ∧ E.takes m.routine (m.sig.params.length + 1))
    (howner : m.owner = c.type) {vmt : List VmtEntry}
    (hvmt : ∀ e ∈ vmt, e ∈ c.vmt ∨ e.routine = m.routine ∧ e.owner = c.type) :
    ClassFits E t { c with vmt, methods := c.methods ++ [m] } := by
  refine ⟨⟨hc.within.base, hc.within.fields, ?_, ?_⟩, ?_, ?_⟩
  · intro n hn
    rcases List.mem_append.mp hn with hn | hn
    · exact hc.within.methods n hn
    · obtain rfl := List.mem_singleton.mp hn
      exact ⟨hm.1, howner⟩
  · intro e he
    rcases hvmt e he with he | ⟨-, hself⟩
    · exact hc.within.vmt e he
    · exact hself ▸ hown
  · intro n hn
    rcases List.mem_append.mp hn with hn | hn
    · exact hc.methods n hn
    · obtain rfl := List.mem_singleton.mp hn
      exact hm.2
  · intro e he
    rcases hvmt e he with he | ⟨hsame, -⟩
    · exact hc.dispatch e he
    · exact ⟨_, hsame ▸ hm.2⟩

theorem addMethods_refits {hasBase : Bool} {ms : List MethodSpec}
    (hms : ∀ m ∈ ms, m.sig.Within t E.known ∧ E.takes m.routine (m.sig.params.length + 1)) :
    Refits E t c (addMethods t₁ hasBase c ms).1 := by
  induction ms generalizing c with
  | nil => exact .refl c
  | cons m ms ih =>
    have hm := hms m List.mem_cons_self
    have hrest := fun m hm => hms m (List.mem_cons_of_mem _ hm)
    rw [addMethods]
    extract_lets entry method
    have hnext : ∀ slot vmt, (∀ e ∈ vmt, e ∈ c.vmt ∨ e = entry) → Refits E t c
        (addMethods t₁ hasBase { c with vmt, methods := c.methods ++ [method slot] } ms).1 := by
      intro slot vmt hvmt
      have hadd : Refits E t c { c with vmt, methods := c.methods ++ [method slot] } := by
        refine ⟨rfl, rfl, fun hown hc => hc.add hown hm rfl fun e he => ?_⟩
        rcases hvmt e he with he | rfl
        · exact .inl he
        · exact .inr ⟨rfl, rfl⟩
      exact hadd.trans (ih hrest)
    split
    · exact .refl c
    · split
      · split
        · exact hnext _ _ fun e he => List.mem_or_eq_of_mem_set he
        · exact .refl c
      · split
        · exact hnext _ _ fun e he => by simpa using he
        · exact hnext _ _ fun e he => .inl he

theorem fill_refits {base : Option ClassInfo} {d : ClassDecl} (hd : DeclFits E t d)
    (hbase : ∀ b, base = some b → ClassFits E t b) : Refits E t c (fill t₁ c base d).1 := by
  unfold fill
  extract_lets start inherited
  have hstart : Refits E t c start := by
    cases base with
    | none =>
      exact ⟨rfl, rfl, fun _ hc => ⟨⟨hc.within.base, by simp [start], hc.within.methods,
        hc.within.vmt⟩, hc.methods, hc.dispatch⟩⟩
    | some b =>
      have hb := hbase b rfl
      exact ⟨rfl, rfl, fun _ hc => ⟨⟨hc.within.base, by simp [start], hc.within.methods,
        hb.within.vmt⟩, hc.methods, hb.dispatch⟩⟩
  have hfields := hstart.trans
    (addFields_refits inherited (base.elim 0 (·.slots)) hd.fields)
  generalize addFields inherited start (base.elim 0 (·.slots)) d.fields = r at hfields ⊢
  obtain ⟨c₁, slots, e⟩ := r
  cases e with
  | some e => exact hfields
  | none =>
    have hslots : Refits E t c₁ { c₁ with slots, methods := [] } :=
      ⟨rfl, rfl, fun _ hc => ⟨⟨hc.within.base, hc.within.fields, by simp, hc.within.vmt⟩, by simp,
        hc.dispatch⟩⟩
    exact (hfields.trans hslots).trans (addMethods_refits hd.methods)

/-! ## Tables -/

/-- Classes were laid out: no other type was entered, and those that were done have not changed. -/
structure Relays (t t' : TypeTable) : Prop where
  formed : t'.Formed
  grows : t.Grows t'
  shapes : t'.shapes = t.shapes
  size : t'.classes.size = t.classes.size
  done : ∀ id c, t.classInfo? id = some c → c.state = .done → t'.classInfo? id = some c

theorem Relays.refl (ht : t.Formed) : Relays t t := ⟨ht, .refl t, rfl, rfl, fun _ _ h _ => h⟩

theorem Relays.trans (h : Relays t t₁) (h' : Relays t₁ t') : Relays t t' :=
  ⟨h'.formed, h.grows.trans h'.grows, h'.shapes.trans h.shapes, h'.size.trans h.size,
    fun id c hc hs => h'.done id c (h.done id c hc hs) hs⟩

theorem Relays.keys (h : Relays t t') (ht : t.Formed) (hc : t'.classInfo? id = some c) :
    ∃ c', t.classInfo? id = some c' ∧ c'.key = c.key := by
  obtain ⟨i, hi, hget⟩ := classInfo?_eq_some.mp hc
  have hshape : t.shape? id = some (.classRef i) := by
    rw [← hi]
    simp only [shape?, h.shapes]
  obtain ⟨c', -, hc'⟩ := ht.exists_class hshape
  obtain ⟨c'', hc'', hkey, -⟩ := h.grows.classInfo? hc'
  rw [hc, Option.some.injEq] at hc''
  exact ⟨c', hc', hc'' ▸ hkey.symm⟩

theorem Relays.setClass (h : Relays t t₁) (hc : t.classInfo? id = some c) (hs : c.state ≠ .done)
    (hkey : c'.key = c.key) (htype : c'.type = c.type) : Relays t (t₁.setClass id c') := by
  obtain ⟨c₁, hc₁, hkey₁, htype₁⟩ := h.grows.classInfo? hc
  obtain ⟨hformed, hgrows⟩ :=
    h.formed.setClass hc₁ (hkey.trans hkey₁.symm) (htype.trans htype₁.symm)
  refine ⟨hformed, h.grows.trans hgrows, ?_, size_classes_setClass.trans h.size, ?_⟩
  · rw [← h.shapes]
    unfold TypeTable.setClass
    split <;> rfl
  · intro k d hd hdone
    rw [h.formed.classInfo?_setClass hc₁, if_neg, h.done k d hd hdone]
    rintro rfl
    rw [hc, Option.some.injEq] at hd
    exact hs (hd ▸ hdone)

theorem TableFits.setClass (h : TableFits E t) (ht : t.Formed) (hc : t.classInfo? id = some c)
    (hkey : c'.key = c.key) (htype : c'.type = c.type)
    (hfits : E.known c.type c.key.module → ClassFits E t c') : TableFits E (t.setClass id c') := by
  obtain ⟨hformed, hgrows⟩ := ht.setClass hc hkey htype
  intro d hd hknown
  have hinfo := hformed.classInfo?_type hd
  rw [ht.classInfo?_setClass hc] at hinfo
  split at hinfo
  · cases hinfo
    exact (hfits (hkey ▸ htype ▸ hknown)).mono hgrows
  · exact (h d (ht.mem_classes hinfo) hknown).mono hgrows

theorem declOf?_mem {d : ClassDecl} (h : declOf? decls id = some d) : d ∈ decls := by
  simpa using List.mem_of_find?_eq_some h

theorem layoutFrom_fits (fuel : Nat) (stack : List TypeId) (id : TypeId) (ht : t.Formed)
    (h : TableFits E t) (hdecls : ∀ d ∈ decls, DeclFits E t d) :
    Relays t (layoutFrom decls fuel stack t id).1 ∧
      TableFits E (layoutFrom decls fuel stack t id).1 := by
  induction fuel generalizing t id stack with
  | zero => exact ⟨.refl ht, h⟩
  | succ fuel ih =>
    rw [layoutFrom]
    split
    · exact ⟨.refl ht, h⟩
    rename_i c hc
    split
    · exact ⟨.refl ht, h⟩
    · exact ⟨.refl ht, h⟩
    rename_i hpending
    have hs : c.state ≠ .done := by simp [hpending]
    have hfits : E.known c.type c.key.module → ClassFits E t c := h c (ht.mem_classes hc)
    have hstate : ∀ {t' : TypeTable} {c' : ClassInfo} (st : LayoutState), ClassFits E t' c' →
        ClassFits E t' { c' with state := st } := fun st hc =>
      ⟨⟨hc.within.base, hc.within.fields, hc.within.methods, hc.within.vmt⟩, hc.methods,
        hc.dispatch⟩
    split
    · exact ⟨(Relays.refl ht).setClass hc hs rfl rfl,
        h.setClass ht hc rfl rfl fun hk => hstate _ (hfits hk)⟩
    rename_i d hd
    extract_lets t₁ finish
    have hmark : Relays t t₁ := (Relays.refl ht).setClass hc hs rfl rfl
    have h₁ : TableFits E t₁ := h.setClass ht hc rfl rfl fun hk => hstate _ (hfits hk)
    have hdecls₁ : ∀ d ∈ decls, DeclFits E t₁ d := fun d hd =>
      (hdecls d hd).mono hmark.grows fun _ _ => hmark.keys ht
    have hfinish : ∀ {t₂ : TypeTable} {c' : ClassInfo} {e : Option LayoutError}, Relays t t₂ →
        TableFits E t₂ → Refits E t₂ c c' →
        Relays t (finish t₂ c' e).1 ∧ TableFits E (finish t₂ c' e).1 := by
      intro t₂ c' e hle h₂ hrefits
      obtain ⟨c₂, hc₂, hkey₂, htype₂⟩ := hle.grows.classInfo? hc
      refine ⟨hle.setClass hc hs hrefits.key hrefits.type, h₂.setClass hle.formed hc₂
        (hrefits.key.trans hkey₂.symm) (hrefits.type.trans htype₂.symm) fun hk => hstate _ ?_⟩
      rw [hkey₂, htype₂] at hk
      refine hrefits.fits ⟨c.key, keyOf?_eq_some.mpr ⟨c₂, ?_, hkey₂⟩, hk⟩
        ((hfits hk).mono hle.grows)
      rw [ht.type_eq hc, hc₂]
    have hd₁ := hdecls₁ d (declOf?_mem hd)
    split
    · exact hfinish hmark h₁ (fill_refits hd₁ (by simp))
    split
    · exact hfinish hmark h₁ (.refl c)
    rename_i hsome
    obtain ⟨b, hb⟩ : ∃ b, t₁.classInfo? d.base = some b := by
      simpa [Option.isSome_iff_exists, ← Option.isSome_iff_ne_none] using hsome
    have hbelow := ih (id :: stack) d.base hmark.formed h₁ hdecls₁
    generalize layoutFrom decls fuel (id :: stack) t₁ d.base = r at hbelow ⊢
    obtain ⟨t₂, e⟩ := r
    obtain ⟨hle, h₂⟩ := hbelow
    cases e with
    | some e => exact hfinish (hmark.trans hle) h₂ (.refl c)
    | none =>
      have hd₂ := hd₁.mono hle.grows fun _ _ => hle.keys hmark.formed
      have hbase : Refits E t₂ c { c with base := d.base } := by
        refine ⟨rfl, rfl, fun _ hc => ⟨⟨fun _ => ?_, hc.within.fields, hc.within.methods,
          hc.within.vmt⟩, hc.methods, hc.dispatch⟩⟩
        obtain ⟨b', hb', -⟩ := hle.grows.classInfo? hb
        exact ⟨b'.key, keyOf?_eq_some.mpr ⟨b', hb', rfl⟩, hd₂.base b' hb'⟩
      refine hfinish (hmark.trans hle) h₂ (hbase.trans (fill_refits hd₂ fun b hb => ?_))
      exact h₂ b (hle.formed.mem_classes hb) (hle.formed.type_eq hb ▸ hd₂.base b hb)

theorem layoutAll_fits (order : List TypeId) (ht : t.Formed) (h : TableFits E t)
    (hdecls : ∀ d ∈ decls, DeclFits E t d) :
    Relays t (layoutAll decls t order).1 ∧ TableFits E (layoutAll decls t order).1 := by
  induction order generalizing t with
  | nil => exact ⟨.refl ht, h⟩
  | cons id order ih =>
    obtain ⟨hle, h₁⟩ := layoutFrom_fits (t.classes.size + 2) [] id ht h hdecls
    obtain ⟨hle', h'⟩ := ih hle.formed h₁ fun d hd =>
      (hdecls d hd).mono hle.grows fun _ _ => hle.keys ht
    exact ⟨hle.trans hle', h'⟩

end Pascaline.Bound
