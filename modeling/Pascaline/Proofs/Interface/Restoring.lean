import Pascaline.Proofs.Interface.Descriptions

/-!
# Symbols and classes that are restored

What becomes of a symbol or a class of one table when its description is entered into another: all
that it refers to is built alike there, and the rest is the same.
-/

namespace Pascaline

open TypeTable

variable {t t' t₁ t₁' : TypeTable} {S : TypeId → String → Prop}

/-! ## Alike -/

structure Signature.Alike (t t' : TypeTable) (sig sig' : Signature) : Prop where
  params : List.Forall₂ (t.Alike t') sig.params sig'.params
  result : t.Alike t' sig.result sig'.result

structure Field.Alike (t t' : TypeTable) (f f' : Field) : Prop where
  same : f' = { f with type := f'.type, owner := f'.owner }
  type : t.Alike t' f.type f'.type
  owner : t.Alike t' f.owner f'.owner

structure Method.Alike (t t' : TypeTable) (m m' : Method) : Prop where
  same : m' = { m with sig := m'.sig, owner := m'.owner }
  sig : m.sig.Alike t t' m'.sig
  owner : t.Alike t' m.owner m'.owner

structure VmtEntry.Alike (t t' : TypeTable) (e e' : VmtEntry) : Prop where
  same : e' = { e with owner := e'.owner }
  owner : t.Alike t' e.owner e'.owner

/-- Two classes of one key with the same layout and members that are alike one by one. -/
structure ClassInfo.Alike (t t' : TypeTable) (c c' : ClassInfo) : Prop where
  same : c' = { c with type := c'.type, base := c'.base, fields := c'.fields,
                       methods := c'.methods, vmt := c'.vmt }
  type : t.Alike t' c.type c'.type
  base : t.Alike t' c.base c'.base
  fields : List.Forall₂ (Field.Alike t t') c.fields c'.fields
  methods : List.Forall₂ (Method.Alike t t') c.methods c'.methods
  vmt : List.Forall₂ (VmtEntry.Alike t t') c.vmt c'.vmt

/-- A symbol as it is restored: in no scope, and placed in `file`. -/
structure Symbol.Alike (t t' : TypeTable) (file : Nat) (sym sym' : Symbol) : Prop where
  same : sym' = { sym with scope := 0, span := { sym.span with file }, type := sym'.type,
                           owner := sym'.owner, sig := sym'.sig }
  type : t.Alike t' sym.type sym'.type
  owner : t.Alike t' sym.owner sym'.owner
  sig : sym.sig.Alike t t' sym'.sig

theorem Signature.Alike.mono {sig sig' : Signature} (h : sig.Alike t t' sig') (hle : t.Grows t₁)
    (hle' : t'.Grows t₁') : sig.Alike t₁ t₁' sig' :=
  ⟨h.params.imp fun _ _ hp => hp.mono hle hle', h.result.mono hle hle'⟩

theorem Signature.Alike.unique {sig sig' sig'' : Signature} (ht' : t'.Sound)
    (h : sig.Alike t t' sig') (h' : sig.Alike t t' sig'') : sig' = sig'' := by
  obtain ⟨ps, r⟩ := sig'
  obtain ⟨ps', r'⟩ := sig''
  have hparams : ps = ps' :=
    List.right_unique_forall₂' (fun _ _ _ hp hp' => hp.unique ht' hp') h.params h'.params
  have hresult : r = r' := h.result.unique ht' h'.result
  rw [hparams, hresult]

theorem Field.Alike.mono {f f' : Field} (h : f.Alike t t' f') (hle : t.Grows t₁)
    (hle' : t'.Grows t₁') : f.Alike t₁ t₁' f' :=
  ⟨h.same, h.type.mono hle hle', h.owner.mono hle hle'⟩

theorem Method.Alike.mono {m m' : Method} (h : m.Alike t t' m') (hle : t.Grows t₁)
    (hle' : t'.Grows t₁') : m.Alike t₁ t₁' m' :=
  ⟨h.same, h.sig.mono hle hle', h.owner.mono hle hle'⟩

theorem VmtEntry.Alike.mono {e e' : VmtEntry} (h : e.Alike t t' e') (hle : t.Grows t₁)
    (hle' : t'.Grows t₁') : e.Alike t₁ t₁' e' :=
  ⟨h.same, h.owner.mono hle hle'⟩

theorem ClassInfo.Alike.mono {c c' : ClassInfo} (h : c.Alike t t' c') (hle : t.Grows t₁)
    (hle' : t'.Grows t₁') : c.Alike t₁ t₁' c' :=
  ⟨h.same, h.type.mono hle hle', h.base.mono hle hle',
    h.fields.imp fun _ _ hf => hf.mono hle hle', h.methods.imp fun _ _ hm => hm.mono hle hle',
    h.vmt.imp fun _ _ he => he.mono hle hle'⟩

theorem ClassInfo.Alike.key {c c' : ClassInfo} (h : c.Alike t t' c') : c'.key = c.key := by
  rw [h.same]

theorem Symbol.Alike.mono {file : Nat} {sym sym' : Symbol} (h : sym.Alike t t' file sym')
    (hle : t.Grows t₁) (hle' : t'.Grows t₁') : sym.Alike t₁ t₁' file sym' :=
  ⟨h.same, h.type.mono hle hle', h.owner.mono hle hle', h.sig.mono hle hle'⟩

theorem Symbol.Alike.unique {file : Nat} {sym sym' sym'' : Symbol} (ht' : t'.Sound)
    (h : sym.Alike t t' file sym') (h' : sym.Alike t t' file sym'') : sym' = sym'' := by
  rw [h.same, h'.same, h.type.unique ht' h'.type, h.owner.unique ht' h'.owner,
    h.sig.unique ht' h'.sig]

/-! ## Symbols and classes that depend on some classes -/

/-- The handle is that of a class among `S`. -/
def TypeTable.IsClass (t : TypeTable) (S : TypeId → String → Prop) (id : TypeId) : Prop :=
  ∃ key, t.keyOf? id = some key ∧ S id key.module

theorem TypeTable.IsClass.mono {id : TypeId} (h : t.IsClass S id) (hle : t.Grows t') :
    t'.IsClass S id := by
  obtain ⟨key, hkey, hS⟩ := h
  exact ⟨key, hle.keyOf? hkey, hS⟩

structure Symbol.Within (sym : Symbol) (t : TypeTable) (S : TypeId → String → Prop) : Prop where
  type : sym.type ≠ 0 → t.Within S sym.type
  typeName : sym.kind.isTypeName → sym.type ≠ 0
  owner : sym.owner ≠ 0 → t.IsClass S sym.owner
  sig : sym.sig.Within t S
  /-- Only routines have a signature. -/
  plain : sym.kind.isRoutine = false → sym.sig = ⟨[], 0⟩

structure ClassInfo.Within (c : ClassInfo) (t : TypeTable) (S : TypeId → String → Prop) : Prop where
  base : c.base ≠ 0 → t.IsClass S c.base
  fields : ∀ f ∈ c.fields, t.Within S f.type ∧ f.owner = c.type
  methods : ∀ m ∈ c.methods, m.sig.Within t S ∧ m.owner = c.type
  vmt : ∀ e ∈ c.vmt, t.IsClass S e.owner

theorem Symbol.Within.mono {sym : Symbol} (h : sym.Within t S) (hle : t.Grows t') :
    sym.Within t' S :=
  ⟨fun hne => (h.type hne).mono hle, h.typeName, fun hne => (h.owner hne).mono hle,
    h.sig.mono hle, h.plain⟩

theorem ClassInfo.Within.mono {c : ClassInfo} (h : c.Within t S) (hle : t.Grows t') :
    c.Within t' S :=
  ⟨fun hne => (h.base hne).mono hle, fun f hf => ⟨(h.fields f hf).1.mono hle, (h.fields f hf).2⟩,
    fun m hm => ⟨(h.methods m hm).1.mono hle, (h.methods m hm).2⟩, fun e he => (h.vmt e he).mono hle⟩

/-! ## Entering signatures and symbols -/

theorem TypeTable.alike_of_keyOf? {id id' : TypeId} {key : ClassKey} (h : t.keyOf? id = some key)
    (h' : t'.keyOf? id' = some key) : t.Alike t' id id' := by
  obtain ⟨c, hc, rfl⟩ := keyOf?_eq_some.mp h
  obtain ⟨c', hc', hkey⟩ := keyOf?_eq_some.mp h'
  exact .classRef hc hc' hkey.symm

theorem TypeTable.keyOf?_of_alike {id id' : TypeId} {key : ClassKey} (h : t.Alike t' id id')
    (hkey : t.keyOf? id = some key) : t'.keyOf? id' = some key := by
  obtain ⟨c, hc, rfl⟩ := keyOf?_eq_some.mp hkey
  obtain ⟨i, hi, hget⟩ := classInfo?_eq_some.mp hc
  obtain ⟨c₁, d, hc₁, hd, hsame⟩ := h.mirrors hi
  rw [hget] at hc₁
  cases hc₁
  exact keyOf?_eq_some.mpr ⟨d, hd, hsame.symm⟩

theorem enterable_of_ne_zero {id : TypeId} (ht : t.Sound) (h : id ≠ 0 → t.Within S id) :
    Enterable t S id := by
  by_cases hid : id = 0
  · rw [hid]
    exact enterable_zero
  · exact (h hid).enterable ht

theorem enterSignature_recovers {sig : Signature} (ht : t.Sound) (hsig : sig.Within t S)
    (ht' : t'.Sound) (hload : Loaded t S t') :
    Recovers t' (enterSignature (sig.params.filterMap t.describe) (t.describe sig.result))
      (fun t'' sig' => sig.Alike t t'' sig') := by
  unfold enterSignature
  refine (enterTypes_recovers (fun p hp => (hsig.params p hp).enterable ht)
    (fun p hp => (hsig.params p hp).describe_isSome) ht' hload).bind ?_ ?_
  · intro ps t₁ ht₁ hle₁ _ hps
    refine (enterable_of_ne_zero ht hsig.result t₁ ht₁ (hload.grows hle₁)).bind ?_ ?_
    · intro r t₂ ht₂ hle₂ _ hr
      exact .pure ht₂ ⟨hps.imp fun _ _ hp => hp.mono (.refl t) hle₂, hr⟩
    · exact fun sig' h => ⟨_, h.result⟩
  · exact fun sig' h => ⟨_, h.params⟩

theorem classOfKey_recovers {id : TypeId} {key : ClassKey} (h : t.keyOf? id = some key)
    (hS : S id key.module) (ht' : t'.Sound) (hload : Loaded t S t') :
    Recovers t' (classOfKey key) (fun t'' id' => t.Alike t'' id id') := by
  obtain ⟨id', hid'⟩ := hload id key h hS
  exact (recovers_classOfKey ht' hid').imp (fun _ _ _ _ hb => alike_of_keyOf? h hb) fun _ _ => ⟨id', hid'⟩

namespace CompiledUnit

/-- The class that a restored symbol belongs to. -/
def enterOwner (u : CompiledUnit) (d : SymbolDesc) : Entry TypeId :=
  match d.owner with
  | none => pure 0
  | some key => within (fun _ => .ownerNotLoaded u.name d.name key.name) (classOfKey key)

def enterSymbolSignature (u : CompiledUnit) (d : SymbolDesc) : Entry Signature :=
  if d.kind.isRoutine then within (.inSymbol u.name d.name) (enterSignature d.params d.result)
  else pure ⟨[], 0⟩

theorem enterSymbol_eq (u : CompiledUnit) (d : SymbolDesc) :
    u.enterSymbol d = (do
      let type ← within (.inSymbol u.name d.name) (enterOption d.type)
      let owner ← u.enterOwner d
      let sig ← u.enterSymbolSignature d
      return { name := d.name, display := d.display, kind := d.kind, flags := d.flags, type,
               span := ⟨u.file, d.start, d.stop⟩, module := u.name, const := d.const,
               slot := d.slot, routine := d.routine, owner, native := d.native, sig }) := by
  unfold enterSymbol enterOwner enterSymbolSignature
  cases d.owner <;> cases d.kind.isRoutine <;> rfl

end CompiledUnit

theorem describeSymbol_eq (t : TypeTable) (sym : Symbol) :
    t.describeSymbol sym =
      { name := sym.name, display := sym.display, kind := sym.kind,
        flags := sym.flags.without .imported, type := t.describe sym.type, const := sym.const,
        slot := sym.slot, routine := sym.routine, owner := t.keyOf? sym.owner, native := sym.native,
        start := sym.span.start, stop := sym.span.stop,
        params := if sym.kind.isRoutine then sym.sig.params.filterMap t.describe else [],
        result := if sym.kind.isRoutine then t.describe sym.sig.result else none } := by
  unfold describeSymbol
  cases sym.kind.isRoutine <;> rfl

theorem enterSymbol_recovers {u : CompiledUnit} {sym : Symbol} (ht : t.Sound)
    (hsym : sym.Within t S) (hmodule : sym.module = u.name)
    (hflags : sym.flags.without .imported = sym.flags) (ht' : t'.Sound) (hload : Loaded t S t') :
    Recovers t' (u.enterSymbol (t.describeSymbol sym))
      (fun t'' sym' => sym.Alike t t'' u.file sym') := by
  have howner : ∀ t₁, t₁.Sound → Loaded t S t₁ →
      Recovers t₁ (u.enterOwner (t.describeSymbol sym)) (fun t₂ id => t.Alike t₂ sym.owner id) := by
    intro t₁ ht₁ hload₁
    rw [describeSymbol_eq, CompiledUnit.enterOwner]
    by_cases hid : sym.owner = 0
    · rw [hid]
      exact .pure ht₁ .none
    · obtain ⟨key, hkey, hS⟩ := hsym.owner hid
      simp only [hkey]
      exact (classOfKey_recovers hkey hS ht₁ hload₁).within _
  have hsig : ∀ t₁, t₁.Sound → Loaded t S t₁ →
      Recovers t₁ (u.enterSymbolSignature (t.describeSymbol sym))
        (fun t₂ sig => sym.sig.Alike t t₂ sig) := by
    intro t₁ ht₁ hload₁
    rw [describeSymbol_eq, CompiledUnit.enterSymbolSignature]
    cases hkind : sym.kind.isRoutine with
    | true => exact (enterSignature_recovers ht hsym.sig ht₁ hload₁).within _
    | false =>
      rw [hsym.plain hkind]
      exact .pure ht₁ ⟨.nil, .none⟩
  rw [CompiledUnit.enterSymbol_eq]
  have htype := (enterable_of_ne_zero ht hsym.type t' ht' hload).within
    (.inSymbol u.name (t.describeSymbol sym).name)
  rw [show t.describe sym.type = (t.describeSymbol sym).type by rw [describeSymbol_eq]] at htype
  refine htype.bind ?_ fun sym' h => ⟨_, h.type⟩
  intro type t₁ ht₁ hle₁ _ htype
  refine (howner t₁ ht₁ (hload.grows hle₁)).bind ?_ fun sym' h => ⟨_, h.owner⟩
  intro owner t₂ ht₂ hle₂ _ howner
  refine (hsig t₂ ht₂ ((hload.grows hle₁).grows hle₂)).bind ?_ fun sym' h => ⟨_, h.sig⟩
  intro sig t₃ ht₃ hle₃ _ hsig
  refine .pure ht₃ ⟨?_, htype.mono (.refl t) (hle₂.trans hle₃), howner.mono (.refl t) hle₃, hsig⟩
  simp only [describeSymbol_eq, hflags, hmodule]

/-! ## Changing a class -/

namespace TypeTable

variable {id k : TypeId} {c c' : ClassInfo}

/-- One class becomes `c`, and types may be added; nothing else changes. -/
structure Amends (t : TypeTable) (id : TypeId) (c : ClassInfo) (t' : TypeTable) : Prop where
  sound : t'.Sound
  grows : t.Grows t'
  info : t'.classInfo? id = some c
  others : ∀ k ≠ id, t'.classInfo? k = t.classInfo? k

theorem Amends.trans (h : Amends t id c t₁) (h' : Amends t₁ id c' t') : Amends t id c' t' :=
  ⟨h'.sound, h.grows.trans h'.grows, h'.info, fun k hk => (h'.others k hk).trans (h.others k hk)⟩

theorem Recovery.classInfo? {α : Type} {x : Entry α} {P : TypeTable → α → Prop} {a : α}
    (h : Recovery t x P a t') (ht : t.Sound) : t'.classInfo? k = t.classInfo? k := by
  have hsame : ∀ {c}, t.classInfo? k = some c → t'.classInfo? k = some c := by
    intro c hc
    obtain ⟨i, hi, hget⟩ := classInfo?_eq_some.mp hc
    exact classInfo?_eq_some.mpr ⟨i, h.grows.shape? hi, by rw [h.classes, hget]⟩
  cases hc : t'.classInfo? k with
  | some c =>
    obtain ⟨i, hi, hget⟩ := classInfo?_eq_some.mp hc
    have hget' : t.classes[i]? = some c := by rw [← h.classes, hget]
    have hk : c.type = k := h.sound.type_eq hc
    rw [← hk]
    exact (ht.classInfo?_type (Array.mem_of_getElem? hget')).symm
  | none =>
    cases hc' : t.classInfo? k with
    | none => rfl
    | some c =>
      rw [hsame hc'] at hc
      cases hc

end TypeTable

namespace CompiledUnit

def changeClass (id : TypeId) (f : ClassInfo → ClassInfo) : Entry Unit :=
  modify fun t => match t.classInfo? id with
    | some c => t.setClass id (f c)
    | none => t

/-- Enters the class that another one extends. -/
def enterBase (id : TypeId) : Option ClassKey → Entry Unit
  | none => pure ()
  | some key => do
    let base ← classOfKey key
    changeClass id ({ · with base })

def enterField (id : TypeId) (f : FieldDesc) : Entry Field := do
  let type ← enterType f.type
  return ⟨f.name, type, f.offset.toNat, id⟩

def enterMethod (id : TypeId) (m : MethodDesc) : Entry Method := do
  let sig ← enterSignature m.params m.result
  return { name := m.name, selector := m.selector, kind := .ofNumber m.kind, sig,
           isVirtual := m.isVirtual, isOverride := m.isOverride, slot := m.slot,
           routine := m.routine, owner := id }

def enterVmt (e : VmtDesc) : Entry VmtEntry := do
  let owner ← classOfKey e.owner
  return ⟨e.selector, e.routine, owner⟩

/-- Enters members one by one. -/
def enterMembers {δ β : Type} (id : TypeId) (add : List β → ClassInfo → ClassInfo)
    (enter : δ → Entry β) (ds : List δ) : Entry Unit :=
  ds.forM fun d => do
    let b ← enter d
    changeClass id (add [b])

def addFields (fs : List Field) (c : ClassInfo) : ClassInfo := { c with fields := c.fields ++ fs }

def addMethods (ms : List Method) (c : ClassInfo) : ClassInfo :=
  { c with methods := c.methods ++ ms }

def addVmt (es : List VmtEntry) (c : ClassInfo) : ClassInfo := { c with vmt := c.vmt ++ es }

theorem enterClass_eq (id : TypeId) (d : ClassDesc) :
    enterClass id d = (do
      enterBase id d.base
      enterMembers id addFields (enterField id) d.fields
      enterMembers id addMethods (enterMethod id) d.methods
      enterMembers id addVmt enterVmt d.vmt
      changeClass id ({ · with slots := d.slots.toNat, state := .done })) := by
  unfold enterClass enterBase enterMembers
  simp only [enterField, enterMethod, enterVmt, bind_assoc, pure_bind]
  cases d.base with
  | none => rfl
  | some key =>
    simp only [bind_assoc]
    rfl

variable {T : TypeTable} {id : TypeId} {c₀ : ClassInfo}

theorem changeClass_amends {f : ClassInfo → ClassInfo} (ht : t.Sound)
    (hc : t.classInfo? id = some c₀) (hkey : (f c₀).key = c₀.key) (htype : (f c₀).type = c₀.type) :
    ∃ t', (changeClass id f).run t = .ok () t' ∧ Amends t id (f c₀) t' := by
  obtain ⟨hsound, hgrows⟩ := ht.setClass hc hkey htype
  refine ⟨t.setClass id (f c₀), ?_, hsound, hgrows, ?_, ?_⟩
  · change EStateM.Result.ok () _ = _
    simp only [hc]
  · rw [ht.classInfo?_setClass hc, if_pos rfl]
  · intro k hk
    rw [ht.classInfo?_setClass hc, if_neg hk]

theorem enterMembers_amends {α β δ : Type} {add : List β → ClassInfo → ClassInfo}
    {describe : α → δ} {enter : δ → Entry β} {R : TypeTable → α → β → Prop} {as : List α}
    (hadd : ∀ bs c, (add bs c).key = c.key ∧ (add bs c).type = c.type)
    (hnil : ∀ c, add [] c = c) (hcons : ∀ b bs c, add bs (add [b] c) = add (b :: bs) c)
    (hmono : ∀ {t t' a b}, R t a b → t.Grows t' → R t' a b)
    (henter : ∀ a ∈ as, ∀ t', t'.Sound → Loaded T S t' → t.Grows t' →
      Recovers t' (enter (describe a)) (fun t'' b => R t'' a b))
    (ht : t.Sound) (hload : Loaded T S t) (hc : t.classInfo? id = some c₀) :
    ∃ bs t', (enterMembers id add enter (as.map describe)).run t = .ok () t' ∧
      Amends t id (add bs c₀) t' ∧ List.Forall₂ (R t') as bs := by
  induction as generalizing t c₀ with
  | nil => exact ⟨[], t, rfl, ⟨ht, .refl t, by rw [hnil, hc], fun _ _ => rfl⟩, .nil⟩
  | cons a as ih =>
    obtain ⟨b, t₁, hb⟩ := henter a List.mem_cons_self t ht hload (.refl t)
    have hc₁ : t₁.classInfo? id = some c₀ := by rw [hb.classInfo? ht, hc]
    obtain ⟨t₂, hrun₂, h₂⟩ := changeClass_amends (f := add [b]) hb.sound hc₁ (hadd _ _).1 (hadd _ _).2
    have hle₂ := hb.grows.trans h₂.grows
    have hc₂ : t₂.classInfo? id = some (add [b] c₀) := h₂.info
    obtain ⟨bs, t₃, hrun₃, h₃, hbs⟩ := ih (fun a ha t' ht' hload' hle =>
      henter a (List.mem_cons_of_mem _ ha) t' ht' hload' (hle₂.trans hle)) h₂.sound
      (hload.grows hle₂) hc₂
    refine ⟨b :: bs, t₃, ?_, ⟨h₃.sound, hle₂.trans h₃.grows, ?_, ?_⟩,
      .cons (hmono hb.result (h₂.grows.trans h₃.grows)) hbs⟩
    · unfold enterMembers at hrun₃ ⊢
      rw [List.map_cons, List.forM, run_bind_ok, hrun₃]
      rw [run_bind_ok hb.run, hrun₂]
    · rw [h₃.info, hcons]
    · intro k hk
      rw [h₃.others k hk, h₂.others k hk, hb.classInfo? ht]

theorem enterBase_amends {c : ClassInfo} (hc : c.base ≠ 0 → T.IsClass S c.base) (ht : t.Sound)
    (hload : Loaded T S t) (hid : t.classInfo? id = some c₀) (hroot : c₀.base = 0) :
    ∃ base t', (enterBase id
        (if c.base = 0 then none else some ((T.keyOf? c.base).getD ⟨"", ""⟩))).run t = .ok () t' ∧
      Amends t id { c₀ with base } t' ∧ T.Alike t' c.base base := by
  by_cases hbase : c.base = 0
  · refine ⟨0, t, by simp [hbase, enterBase, EStateM.run_pure], ⟨ht, .refl t, ?_, fun _ _ => rfl⟩, ?_⟩
    · rw [hid, ← hroot]
    · rw [hbase]
      exact .none
  · obtain ⟨key, hkey, hS⟩ := hc hbase
    obtain ⟨base, t₁, hb⟩ := classOfKey_recovers hkey hS ht hload
    obtain ⟨t₂, hrun₂, h₂⟩ := changeClass_amends (f := ({ · with base })) hb.sound
      (by rw [hb.classInfo? ht, hid]) rfl rfl
    refine ⟨base, t₂, ?_, ⟨h₂.sound, hb.grows.trans h₂.grows, h₂.info, ?_⟩,
      hb.result.mono (.refl T) h₂.grows⟩
    · rw [if_neg hbase, hkey, Option.getD_some, enterBase, run_bind_ok hb.run, hrun₂]
    · intro k hk
      rw [h₂.others k hk, hb.classInfo? ht]

theorem ofNumber_number (k : MethodKind) : MethodKind.ofNumber k.number = k := by
  cases k <;> rfl

theorem enterFields_amends {fs : List Field} {owner : TypeId} (hT : T.Sound)
    (hfs : ∀ f ∈ fs, T.Within S f.type ∧ f.owner = owner) (howner : T.Alike t owner id)
    (ht : t.Sound) (hload : Loaded T S t) (hid : t.classInfo? id = some c₀) :
    ∃ fs' t', (enterMembers id addFields (enterField id) (fs.map fun f =>
        ⟨f.name, (T.describe f.type).getD (.unknown 0), f.offset⟩)).run t = .ok () t' ∧
      Amends t id (addFields fs' c₀) t' ∧ List.Forall₂ (Field.Alike T t') fs fs' := by
  refine enterMembers_amends (fun _ _ => ⟨rfl, rfl⟩) (fun c => by simp [addFields])
    (fun b bs c => by simp [addFields]) (fun h hle => h.mono (.refl T) hle) ?_ ht hload hid
  intro f hf t' ht' hload' hle
  obtain ⟨htype, hself⟩ := hfs f hf
  have henter := htype.enterable hT t' ht' hload'
  obtain ⟨d, hd⟩ := Option.isSome_iff_exists.mp htype.describe_isSome
  rw [hd, enterOption] at henter
  rw [enterField, hd]
  refine henter.bind ?_ fun f' h => ⟨_, h.type⟩
  intro type t'' ht'' hle'' _ htype
  refine .pure ht'' ⟨rfl, htype, ?_⟩
  rw [hself]
  exact howner.mono (.refl T) (hle.trans hle'')

theorem enterMethods_amends {ms : List Method} {owner : TypeId} (hT : T.Sound)
    (hms : ∀ m ∈ ms, m.sig.Within T S ∧ m.owner = owner) (howner : T.Alike t owner id)
    (ht : t.Sound) (hload : Loaded T S t) (hid : t.classInfo? id = some c₀) :
    ∃ ms' t', (enterMembers id addMethods (enterMethod id) (ms.map T.describeMethod)).run t =
        .ok () t' ∧
      Amends t id (addMethods ms' c₀) t' ∧ List.Forall₂ (Method.Alike T t') ms ms' := by
  refine enterMembers_amends (fun _ _ => ⟨rfl, rfl⟩) (fun c => by simp [addMethods])
    (fun b bs c => by simp [addMethods]) (fun h hle => h.mono (.refl T) hle) ?_ ht hload hid
  intro m hm t' ht' hload' hle
  obtain ⟨hsig, hself⟩ := hms m hm
  rw [enterMethod]
  refine (enterSignature_recovers hT hsig ht' hload').bind ?_ fun m' h => ⟨_, h.sig⟩
  intro sig t'' ht'' hle'' _ hsig
  refine .pure ht'' ⟨?_, hsig, ?_⟩
  · simp only [describeMethod, ofNumber_number]
  · rw [hself]
    exact howner.mono (.refl T) (hle.trans hle'')

theorem enterVmt_amends {es : List VmtEntry} (hes : ∀ e ∈ es, T.IsClass S e.owner)
    (ht : t.Sound) (hload : Loaded T S t) (hid : t.classInfo? id = some c₀) :
    ∃ es' t', (enterMembers id addVmt enterVmt (es.map fun e =>
        ⟨e.selector, e.routine, (T.keyOf? e.owner).getD ⟨"", ""⟩⟩)).run t = .ok () t' ∧
      Amends t id (addVmt es' c₀) t' ∧ List.Forall₂ (VmtEntry.Alike T t') es es' := by
  refine enterMembers_amends (fun _ _ => ⟨rfl, rfl⟩) (fun c => by simp [addVmt])
    (fun b bs c => by simp [addVmt]) (fun h hle => h.mono (.refl T) hle) ?_ ht hload hid
  intro e he t' ht' hload' _
  obtain ⟨key, hkey, hS⟩ := hes e he
  rw [enterVmt, hkey]
  refine (classOfKey_recovers hkey hS ht' hload').bind ?_ fun e' h => ⟨_, h.owner⟩
  intro owner t'' ht'' _ _ howner
  exact .pure ht'' ⟨rfl, howner⟩

theorem enterClass_amends {c : ClassInfo} (hT : T.Sound) (hc : c ∈ T.classes) (hin : c.Within T S)
    (hdone : c.state = .done) (ht : t.Sound) (hload : Loaded T S t)
    (hid : t.classInfo? id = some { key := c.key, type := id }) (shapes : List Shape) :
    ∃ c' t', (enterClass id (T.describeClass shapes c)).run t = .ok () t' ∧ Amends t id c' t' ∧
      c.Alike T t' c' := by
  have hself : T.Alike t c.type id := .classRef (hT.classInfo?_type hc) hid rfl
  obtain ⟨base, t₁, hrun₁, h₁, hbase⟩ := enterBase_amends hin.base ht hload hid rfl
  have hload₁ := hload.grows h₁.grows
  have hself₁ := hself.mono (.refl T) h₁.grows
  obtain ⟨fs, t₂, hrun₂, h₂, hfs⟩ :=
    enterFields_amends hT hin.fields hself₁ h₁.sound hload₁ h₁.info
  have hload₂ := hload₁.grows h₂.grows
  have hself₂ := hself₁.mono (.refl T) h₂.grows
  obtain ⟨ms, t₃, hrun₃, h₃, hms⟩ :=
    enterMethods_amends hT hin.methods hself₂ h₂.sound hload₂ h₂.info
  obtain ⟨es, t₄, hrun₄, h₄, hes⟩ :=
    enterVmt_amends hin.vmt h₃.sound (hload₂.grows h₃.grows) h₃.info
  obtain ⟨t₅, hrun₅, h₅⟩ := changeClass_amends
    (f := ({ · with slots := c.slots, state := .done })) h₄.sound h₄.info rfl rfl
  have hle₄ := h₄.grows.trans h₅.grows
  have hle₃ := h₃.grows.trans hle₄
  have hle₂ := h₂.grows.trans hle₃
  refine ⟨_, t₅, ?_, (((h₁.trans h₂).trans h₃).trans h₄).trans h₅, ?_⟩
  · rw [enterClass_eq, describeClass, run_bind_ok hrun₁, run_bind_ok hrun₂, run_bind_ok hrun₃,
      run_bind_ok hrun₄]
    exact hrun₅
  · refine ⟨?_, hself₁.mono (.refl T) hle₂, hbase.mono (.refl T) hle₂, ?_, ?_, ?_⟩
    · simp only [addVmt, addMethods, addFields, hdone]
    · simpa [addVmt, addMethods, addFields] using hfs.imp fun _ _ h => h.mono (.refl T) hle₃
    · simpa [addVmt, addMethods, addFields] using hms.imp fun _ _ h => h.mono (.refl T) hle₄
    · simpa [addVmt, addMethods, addFields] using hes.imp fun _ _ h => h.mono (.refl T) h₅.grows

end CompiledUnit

end Pascaline
