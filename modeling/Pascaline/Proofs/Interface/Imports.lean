import Pascaline.Proofs.Interface.Restoring

/-!
# Imported units

What a table has of another one once a unit was imported into it: its classes besides those that were
there before, each like the original. Importing a unit again adds
nothing.

A type, a class or a symbol of one table and one that is alike in another depend on the same units.
-/

namespace Pascaline

open TypeTable

variable {T t t' t₁ : TypeTable} {S P : TypeId → String → Prop} {u : CompiledUnit}

namespace CompiledUnit

/-- The class as the unit describes it. -/
def Tells (T : TypeTable) (c : ClassInfo) (d : ClassDesc) : Prop :=
  ∃ shapes, d = T.describeClass shapes c

/-- Enters a class by its key alone, unless it is known. -/
def enterName (u : CompiledUnit) (d : ClassDesc) : Entry (Option (ClassDesc × TypeId)) := do
  match (← get).classByKey? ⟨u.name, d.name⟩ with
  | some _ => return none
  | none => return some (d, ← modifyGet (·.newClass ⟨u.name, d.name⟩))

def enterNamed (u : CompiledUnit) (p : ClassDesc × TypeId) : Entry Unit :=
  within (.inClass u.name p.1.name) (enterClass p.2 p.1)

theorem enterClasses_eq (u : CompiledUnit) :
    u.enterClasses = (do
      let fresh ← u.classes.filterMapM u.enterName
      fresh.forM u.enterNamed) := rfl

/-- An entered class of which only the key is known. -/
def Named (T t : TypeTable) (c : ClassInfo) (p : ClassDesc × TypeId) : Prop :=
  Tells T c p.1 ∧ t.classInfo? p.2 = some { key := c.key, type := p.2 }

theorem enterName_new {c : ClassInfo} {d : ClassDesc} (ht : t.Sound) (hd : Tells T c d)
    (hmodule : c.key.module = u.name) (hnew : ∀ d ∈ t.classes, d.key ≠ c.key) :
    (u.enterName d).run t =
      .ok (some (d, (t.newClass c.key).1)) (t.newClass c.key).2 := by
  obtain ⟨shapes, rfl⟩ := hd
  have hkey : (⟨u.name, (T.describeClass shapes c).name⟩ : ClassKey) = c.key := by
    rw [← hmodule]
    rfl
  have hnone : t.classByKey? c.key = none := by
    cases h : t.classByKey? c.key with
    | none => rfl
    | some id =>
      obtain ⟨c', hc', hsame⟩ := keyOf?_eq_some.mp (ht.classByKey?_eq_some.mp h)
      exact absurd hsame (hnew c' (ht.mem_classes hc'))
  unfold enterName
  rw [run_bind_ok (show (get : Entry TypeTable).run t = .ok t t from rfl), hkey, hnone]
  rfl

theorem enterName_known {c : ClassInfo} {d : ClassDesc} {id : TypeId} (ht : t.Sound)
    (hd : Tells T c d) (hmodule : c.key.module = u.name) (hknown : t.keyOf? id = some c.key) :
    (u.enterName d).run t = .ok none t := by
  obtain ⟨shapes, rfl⟩ := hd
  have hkey : (⟨u.name, (T.describeClass shapes c).name⟩ : ClassKey) = c.key := by
    rw [← hmodule]
    rfl
  unfold enterName
  rw [run_bind_ok (show (get : Entry TypeTable).run t = .ok t t from rfl), hkey, ht.classByKey?_eq_some.mpr hknown]
  rfl

theorem enterNames_new {cs : List ClassInfo} {ds : List ClassDesc} (ht : t.Sound)
    (hds : List.Forall₂ (Tells T) cs ds) (hmodule : ∀ c ∈ cs, c.key.module = u.name)
    (hkeys : (cs.map (·.key)).Nodup) (hnew : ∀ c ∈ cs, ∀ d ∈ t.classes, d.key ≠ c.key) :
    ∃ ps t', (ds.filterMapM u.enterName).run t = .ok ps t' ∧ t'.Sound ∧ t.Grows t' ∧
      List.Forall₂ (Named T t') cs ps ∧
      ∀ k, k ∉ ps.map (·.2) → t'.classInfo? k = t.classInfo? k := by
  induction hds generalizing t with
  | nil => exact ⟨[], t, rfl, ht, .refl t, .nil, fun _ _ => rfl⟩
  | @cons c d cs ds hd hds ih =>
    rw [List.map_cons, List.nodup_cons] at hkeys
    have hrun₁ := enterName_new ht hd (hmodule c List.mem_cons_self) (hnew c List.mem_cons_self)
    obtain ⟨ht₁, hle₁⟩ := ht.newClass (hnew c List.mem_cons_self)
    have hinfo : ∀ k, (t.newClass c.key).2.classInfo? k =
        if k = (t.newClass c.key).1 then some { key := c.key, type := k } else t.classInfo? k :=
      fun _ => ht.classInfo?_newClass
    have hnew₁ : ∀ c' ∈ cs, ∀ d' ∈ (t.newClass c.key).2.classes, d'.key ≠ c'.key := by
      intro c' hc' d' hd' hsame
      have hd' := ht₁.classInfo?_type hd'
      rw [hinfo] at hd'
      split at hd'
      · rw [← Option.some.inj hd'] at hsame
        exact hkeys.1 (List.mem_map.mpr ⟨c', hc', hsame.symm⟩)
      · exact hnew c' (List.mem_cons_of_mem _ hc') d' (ht.mem_classes hd') hsame
    obtain ⟨ps, t', hrun, ht', hle', hps, hothers⟩ := ih ht₁
      (fun c hc => hmodule c (List.mem_cons_of_mem _ hc)) hkeys.2 hnew₁
    -- The first class is not among those entered after it.
    have hfirst : (t.newClass c.key).1 ∉ ps.map (·.2) := by
      intro hmem
      obtain ⟨p, hp, hsame⟩ := List.mem_map.mp hmem
      obtain ⟨c', hc', -, hinfo'⟩ := forall₂_exists_mem hps.flip hp
      obtain ⟨c₁, hc₁, hkey, -⟩ := hle'.classInfo? ((hinfo _).trans (if_pos rfl))
      rw [hsame, hc₁, Option.some.injEq] at hinfo'
      rw [hinfo'] at hkey
      exact hkeys.1 (List.mem_map.mpr ⟨c', hc', hkey⟩)
    refine ⟨(d, (t.newClass c.key).1) :: ps, t', ?_, ht', hle₁.trans hle', .cons ⟨hd, ?_⟩ hps, ?_⟩
    · rw [List.filterMapM_cons, run_bind_ok hrun₁, run_bind_ok hrun]
      rfl
    · rw [hothers _ hfirst, hinfo, if_pos rfl]
    · intro k hk
      rw [List.map_cons, List.mem_cons, not_or] at hk
      rw [hothers k hk.2, hinfo, if_neg hk.1]

theorem enterNamed_all {cs : List ClassInfo} {ps : List (ClassDesc × TypeId)} (hT : T.Sound)
    (hcs : ∀ c ∈ cs, c ∈ T.classes ∧ c.Within T S ∧ c.state = .done)
    (hkeys : (cs.map (·.key)).Nodup) (ht : t.Sound) (hload : Loaded T S t)
    (hps : List.Forall₂ (Named T t) cs ps) :
    ∃ t', (ps.forM u.enterNamed).run t = .ok () t' ∧ t'.Sound ∧ t.Grows t' ∧
      (∀ c ∈ cs, ∃ id c', t'.classInfo? id = some c' ∧ c.Alike T t' c') ∧
      ∀ k, k ∉ ps.map (·.2) → t'.classInfo? k = t.classInfo? k := by
  induction cs generalizing t ps with
  | nil =>
    cases hps
    exact ⟨t, rfl, ht, .refl t, by simp, fun _ _ => rfl⟩
  | cons c cs ih =>
    cases hps with
    | @cons _ p _ ps hp hps =>
    rw [List.map_cons, List.nodup_cons] at hkeys
    obtain ⟨hc, hin, hdone⟩ := hcs c List.mem_cons_self
    obtain ⟨⟨shapes, hd⟩, hid⟩ := hp
    obtain ⟨c', t₁, hrun₁, h₁, halike⟩ := enterClass_amends hT hc hin hdone ht hload hid shapes
    have hothers₁ : ∀ q ∈ ps, q.2 ≠ p.2 := by
      intro q hq hsame
      obtain ⟨d, hd, -, hinfo⟩ := forall₂_exists_mem hps.flip hq
      rw [hsame, hid, Option.some.injEq] at hinfo
      exact hkeys.1 (List.mem_map.mpr ⟨d, hd, (congrArg ClassInfo.key hinfo).symm⟩)
    have hps₁ : List.Forall₂ (Named T t₁) cs ps := by
      refine (forall₂_mono_mem hps.flip ?_).flip
      intro q hq d ⟨htells, hinfo⟩
      exact ⟨htells, by rw [h₁.others _ (hothers₁ q hq), hinfo]⟩
    obtain ⟨t', hrun, ht', hle, hdone', hothers⟩ := ih
      (fun c hc => hcs c (List.mem_cons_of_mem _ hc)) hkeys.2 h₁.sound (hload.grows h₁.grows) hps₁
    refine ⟨t', ?_, ht', h₁.grows.trans hle, ?_, ?_⟩
    · have hrun₁' : (u.enterNamed p).run t = .ok () t₁ := by
        change within _ _ t = _
        rw [hd, within, show enterClass p.2 _ t = .ok () t₁ from hrun₁]
      rw [List.forM, run_bind_ok hrun₁', hrun]
    · intro d hd
      rcases List.mem_cons.mp hd with rfl | hd
      · have hfirst : p.2 ∉ ps.map (·.2) := by
          intro hmem
          obtain ⟨q, hq, hsame⟩ := List.mem_map.mp hmem
          exact hothers₁ q hq hsame
        exact ⟨p.2, c', by rw [hothers _ hfirst, h₁.info], halike.mono (.refl T) hle⟩
      · exact hdone' d hd
    · intro k hk
      rw [List.map_cons, List.mem_cons, not_or] at hk
      rw [hothers k hk.2, h₁.others k hk.1]

theorem enterSymbols_recovers {syms : List Symbol} (hT : T.Sound)
    (hsyms : ∀ sym ∈ syms, sym.Within T S ∧ sym.module = u.name ∧
      sym.flags.without .imported = sym.flags) (ht : t.Sound) (hload : Loaded T S t) :
    Recovers t ((syms.map T.describeSymbol).mapM u.enterSymbol)
      (fun t' syms' => List.Forall₂ (Symbol.Alike T t' u.file) syms syms') := by
  induction syms generalizing t with
  | nil =>
    rw [List.map_nil, List.mapM_nil]
    exact .pure ht .nil
  | cons sym syms ih =>
    obtain ⟨hin, hmodule, hflags⟩ := hsyms sym List.mem_cons_self
    rw [List.map_cons, List.mapM_cons]
    refine (enterSymbol_recovers hT hin hmodule hflags ht hload).bind ?_ ?_
    · intro sym' t₁ ht₁ hle₁ _ hsym
      refine (ih (fun sym h => hsyms sym (List.mem_cons_of_mem _ h)) ht₁
        (hload.grows hle₁)).bind ?_ ?_
      · intro syms' t₂ ht₂ hle₂ _ hsyms'
        exact .pure ht₂ (.cons (hsym.mono (.refl T) hle₂) hsyms')
      · rintro _ (_ | ⟨_, hsyms'⟩)
        exact ⟨_, hsyms'⟩
    · rintro _ (_ | ⟨hsym, _⟩)
      exact ⟨_, hsym⟩

/-! ## Units -/

/-- The unit describes all its classes and these symbols of the table `T`. -/
structure Presents (T : TypeTable) (syms : List Symbol) (u : CompiledUnit) : Prop where
  classes : ∃ cs, List.Forall₂ (Tells T) cs u.classes ∧ (cs.map (·.key)).Nodup ∧
    ∀ c, c ∈ cs ↔ c ∈ T.classes ∧ c.key.module = u.name
  exports : u.exports = syms.map T.describeSymbol
  own : ∀ sym ∈ syms, sym.module = u.name ∧ sym.flags.without .imported = sym.flags

/-- The classes that `T` has of one unit were added to `t`, each like the original. -/
structure Gains (T : TypeTable) (unit : String) (t t' : TypeTable) : Prop where
  sound : t'.Sound
  grows : t.Grows t'
  old : ∀ id c, t.classInfo? id = some c → t'.classInfo? id = some c
  own : ∀ id c, t'.classInfo? id = some c → t.classInfo? id = some c ∨
    ∃ d ∈ T.classes, d.key.module = unit ∧ d.key = c.key
  classes : ∀ c ∈ T.classes, c.key.module = unit →
    ∃ id c', t'.classInfo? id = some c' ∧ c.Alike T t' c'

theorem Gains.widen {α : Type} {x : Entry α} {R : TypeTable → α → Prop} {a : α} {unit : String}
    (h : Gains T unit t t₁) (hx : Recovery t₁ x R a t') : Gains T unit t t' := by
  refine ⟨hx.sound, h.grows.trans hx.grows, fun id c hc => ?_, fun id c hc => ?_,
    fun c hc hmodule => ?_⟩
  · rw [hx.classInfo? h.sound]
    exact h.old id c hc
  · rw [hx.classInfo? h.sound] at hc
    exact h.own id c hc
  · obtain ⟨id, c', hc', halike⟩ := h.classes c hc hmodule
    exact ⟨id, c', by rw [hx.classInfo? h.sound, hc'], halike.mono (.refl T) hx.grows⟩

theorem Gains.loaded {unit : String} (hT : T.Sound) (h : Gains T unit t t') (hload : Loaded T P t) :
    Loaded T (fun i m => m = unit ∨ P i m) t' := by
  rintro id key hkey (rfl | hP)
  · obtain ⟨c, hc, rfl⟩ := keyOf?_eq_some.mp hkey
    obtain ⟨id', c', hc', halike⟩ := h.classes c (hT.mem_classes hc) rfl
    exact ⟨id', keyOf?_eq_some.mpr ⟨c', hc', halike.key⟩⟩
  · exact hload.grows h.grows id key hkey hP

theorem enterClasses_gains {syms : List Symbol} (hT : T.Sound) (hu : u.Presents T syms)
    (hin : ∀ c ∈ T.classes, c.key.module = u.name →
      c.Within T (fun i m => m = u.name ∨ P i m) ∧ c.state = .done)
    (ht : t.Sound) (hload : Loaded T P t) (hnew : ∀ c ∈ t.classes, c.key.module ≠ u.name) :
    ∃ t', u.enterClasses.run t = .ok () t' ∧ Gains T u.name t t' := by
  obtain ⟨cs, htells, hkeys, hcs⟩ := hu.classes
  obtain ⟨ps, t₁, hrun₁, ht₁, hle₁, hps, hothers₁⟩ := enterNames_new (u := u) ht htells
    (fun c hc => ((hcs c).mp hc).2) hkeys fun c hc d hd hsame =>
      hnew d hd (by rw [hsame, ((hcs c).mp hc).2])
  have hload₁ : Loaded T (fun i m => m = u.name ∨ P i m) t₁ := by
    rintro id key hkey (hown | hP)
    · obtain ⟨c, hc, rfl⟩ := keyOf?_eq_some.mp hkey
      obtain ⟨p, -, -, hinfo⟩ := forall₂_exists_mem hps ((hcs c).mpr ⟨hT.mem_classes hc, hown⟩)
      exact ⟨p.2, keyOf?_eq_some.mpr ⟨_, hinfo, rfl⟩⟩
    · exact hload.grows hle₁ id key hkey hP
  obtain ⟨t', hrun, ht', hle, hall, hothers⟩ := enterNamed_all (u := u) hT (by
    intro c hc
    obtain ⟨hmem, hmodule⟩ := (hcs c).mp hc
    exact ⟨hmem, hin c hmem hmodule⟩) hkeys ht₁ hload₁ hps
  refine ⟨t', by rw [enterClasses_eq, run_bind_ok hrun₁, hrun], ht', hle₁.trans hle, ?_, ?_, ?_⟩
  · intro id c hc
    -- A class of `t` is none of those that were entered.
    have hnot : id ∉ ps.map (·.2) := by
      intro hmem
      obtain ⟨p, hp, rfl⟩ := List.mem_map.mp hmem
      obtain ⟨d, hd, -, hinfo⟩ := forall₂_exists_mem hps.flip hp
      obtain ⟨c₁, hc₁, hkey, -⟩ := hle₁.classInfo? hc
      rw [hinfo, Option.some.injEq] at hc₁
      refine hnew c (ht.mem_classes hc) ?_
      rw [← hkey, ← hc₁, ((hcs d).mp hd).2]
    rw [hothers id hnot, hothers₁ id hnot, hc]
  · intro id c hc
    by_cases hmem : id ∈ ps.map (·.2)
    · obtain ⟨p, hp, rfl⟩ := List.mem_map.mp hmem
      obtain ⟨d, hd, -, hinfo⟩ := forall₂_exists_mem hps.flip hp
      obtain ⟨c₁, hc₁, hkey, -⟩ := hle.classInfo? hinfo
      rw [hc, Option.some.injEq] at hc₁
      rw [hc₁, hkey]
      exact .inr ⟨d, ((hcs d).mp hd).1, ((hcs d).mp hd).2, rfl⟩
    · rw [hothers id hmem, hothers₁ id hmem] at hc
      exact .inl hc
  · exact fun c hc hmodule => hall c ((hcs c).mpr ⟨hc, hmodule⟩)

theorem interface_gains {syms : List Symbol} (hT : T.Sound) (hu : u.Presents T syms)
    (hin : ∀ c ∈ T.classes, c.key.module = u.name →
      c.Within T (fun i m => m = u.name ∨ P i m) ∧ c.state = .done)
    (hsyms : ∀ sym ∈ syms, sym.Within T (fun i m => m = u.name ∨ P i m))
    (ht : t.Sound) (hload : Loaded T P t) (hnew : ∀ c ∈ t.classes, c.key.module ≠ u.name) :
    ∃ syms' t', u.interface.run t = .ok ⟨u.name, u.kind, syms'⟩ t' ∧ Gains T u.name t t' ∧
      List.Forall₂ (Symbol.Alike T t' u.file) syms syms' := by
  obtain ⟨t₁, hrun₁, h₁⟩ := enterClasses_gains hT hu hin ht hload hnew
  obtain ⟨syms', t', h⟩ := enterSymbols_recovers (u := u) hT
    (fun sym hsym => ⟨hsyms sym hsym, hu.own sym hsym⟩) h₁.sound (h₁.loaded hT hload)
  refine ⟨syms', t', ?_, h₁.widen h, h.result⟩
  rw [interface, run_bind_ok hrun₁, hu.exports, run_bind_ok h.run]
  rfl

theorem interface_again {syms syms' : List Symbol} (hT : T.Sound) (hu : u.Presents T syms)
    (ht : t.Sound) (hload : Loaded T P t) (hown : ∀ i, P i u.name) (hsyms : ∀ sym ∈ syms, sym.Within T P)
    (hsyms' : List.Forall₂ (Symbol.Alike T t u.file) syms syms') :
    u.interface.run t = .ok ⟨u.name, u.kind, syms'⟩ t := by
  obtain ⟨cs, htells, -, hcs⟩ := hu.classes
  have hnames : ∀ {cs ds}, List.Forall₂ (Tells T) cs ds →
      (∀ c ∈ cs, c ∈ T.classes ∧ c.key.module = u.name) →
      (ds.filterMapM u.enterName).run t = .ok [] t := by
    intro cs ds h hcs
    induction h with
    | nil => rfl
    | @cons c d cs ds hd _ ih =>
      obtain ⟨hc, hmodule⟩ := hcs c List.mem_cons_self
      obtain ⟨id, hid⟩ := hload c.type c.key
        (keyOf?_eq_some.mpr ⟨c, hT.classInfo?_type hc, rfl⟩) (hmodule ▸ hown c.type)
      rw [List.filterMapM_cons, run_bind_ok (enterName_known ht hd hmodule hid)]
      exact ih fun c hc => hcs c (List.mem_cons_of_mem _ hc)
  have hclasses : u.enterClasses.run t = .ok () t := by
    rw [enterClasses_eq, run_bind_ok (hnames htells fun c hc => (hcs c).mp hc)]
    rfl
  obtain ⟨syms'', t', h⟩ := enterSymbols_recovers (u := u) hT
    (fun sym hsym => ⟨hsyms sym hsym, hu.own sym hsym⟩) ht hload
  obtain rfl := h.same ⟨syms', hsyms'⟩
  obtain rfl : syms'' = syms' := List.right_unique_forall₂'
    (fun _ _ _ h₁ h₂ => h₁.unique h.sound h₂) h.result hsyms'
  rw [interface, run_bind_ok hclasses, hu.exports, run_bind_ok h.run]
  rfl

end CompiledUnit

/-! ## What likeness preserves -/

variable {S' : TypeId → String → Prop}

namespace TypeTable

variable {a b c : TypeId}

theorem Alike.ne_zero (h : t.Alike t' a b) (hb : b ≠ 0) : a ≠ 0 := by
  rintro rfl
  exact hb h.zero_left

theorem Alike.trans (h : t.Alike t₁ a b) (h' : t₁.Alike t' b c) : t.Alike t' a c := by
  induction h generalizing c with
  | none =>
    rw [h'.zero_left]
    exact .none
  | @basic _ _ s ha hb hbasic =>
    have hc := h'.mirrors hb
    refine .basic ha ?_ hbasic
    cases s <;> first | exact hc | cases hbasic
  | pointer ha hb _ ih =>
    obtain ⟨f, hc, helem⟩ := h'.mirrors hb
    exact .pointer ha hc (ih helem)
  | array ha hb _ ih =>
    obtain ⟨f, hc, helem⟩ := h'.mirrors hb
    exact .array ha hc (ih helem)
  | classRef ha hb hkey =>
    have hb' := keyOf?_of_alike h' (keyOf?_eq_some.mpr ⟨_, hb, rfl⟩)
    obtain ⟨d, hd, hsame⟩ := keyOf?_eq_some.mp hb'
    exact .classRef ha hd (hkey.trans hsame.symm)
  | routine ha hb hlength _ _ hparams hresult =>
    obtain ⟨sig, hc, hall, hres⟩ := h'.mirrors hb
    obtain ⟨hlength', hget⟩ := List.forall₂_iff_get.mp hall
    refine .routine ha hc (hlength.trans hlength') ?_ (hresult hres)
    intro i p r hp hr
    obtain ⟨hi, -⟩ := List.getElem?_eq_some_iff.mp hp
    have hi' := hlength ▸ hi
    obtain ⟨hi'', rfl⟩ := List.getElem?_eq_some_iff.mp hr
    exact hparams i p _ hp (List.getElem?_eq_getElem hi') (hget i hi' hi'')

theorem Alike.within (h : t.Alike t' a b) (ha : t.Within S a) (hS : ∀ i j m, S i m → S' j m) :
    t'.Within S' b := by
  induction ha generalizing b with
  | @basic _ s hs hbasic =>
    have hb := h.mirrors hs
    refine .basic ?_ hbasic
    cases s <;> first | exact hb | cases hbasic
  | pointer hs _ ih =>
    obtain ⟨f, hb, helem⟩ := h.mirrors hs
    exact .pointer hb (ih helem)
  | array hs _ ih =>
    obtain ⟨f, hb, helem⟩ := h.mirrors hs
    exact .array hb (ih helem)
  | classRef hc hkey =>
    obtain ⟨d, hd, hsame⟩ := keyOf?_eq_some.mp (keyOf?_of_alike h (keyOf?_eq_some.mpr ⟨_, hc, rfl⟩))
    exact .classRef hd (hsame ▸ hS _ _ _ hkey)
  | routine hs _ _ hparams hresult =>
    obtain ⟨sig, hb, hall, hres⟩ := h.mirrors hs
    refine .routine hb (fun q hq => ?_) fun hne => hresult (hres.ne_zero hne) hres
    obtain ⟨p, hp, hpq⟩ := forall₂_exists_mem hall.flip hq
    exact hparams p hp hpq

theorem Alike.isClass (h : t.Alike t' a b) (ha : t.IsClass S a) (hS : ∀ i j m, S i m → S' j m) :
    t'.IsClass S' b := by
  obtain ⟨key, hkey, hown⟩ := ha
  exact ⟨key, keyOf?_of_alike h hkey, hS _ _ _ hown⟩

theorem IsClass.alike_self (h : t.IsClass S a) : t.Alike t a a := by
  obtain ⟨key, hkey, -⟩ := h
  exact alike_of_keyOf? hkey hkey

theorem alike_self_of {P : TypeId → Prop} (hP : ∀ {a}, P a → t.Alike t a a) (h : a ≠ 0 → P a) :
    t.Alike t a a := by
  by_cases hne : a = 0
  · rw [hne]
    exact .none
  · exact hP (h hne)

end TypeTable

/-! ## Signatures, classes and symbols -/

theorem Signature.Alike.within {sig sig' : Signature} (h : sig.Alike t t' sig')
    (hsig : sig.Within t S) (hS : ∀ i j m, S i m → S' j m) : sig'.Within t' S' := by
  refine ⟨fun q hq => ?_, fun hne => h.result.within (hsig.result (h.result.ne_zero hne)) hS⟩
  obtain ⟨p, hp, hpq⟩ := forall₂_exists_mem h.params.flip hq
  exact hpq.within (hsig.params p hp) hS

theorem Signature.Alike.nothing {sig : Signature} (h : Signature.Alike t t' ⟨[], 0⟩ sig) :
    sig = ⟨[], 0⟩ := by
  obtain ⟨params, result⟩ := sig
  obtain rfl := List.forall₂_nil_left_iff.mp h.params
  obtain rfl := h.result.zero_left
  rfl

theorem Signature.Within.alike_self {sig : Signature} (h : sig.Within t S) : sig.Alike t t sig :=
  ⟨List.forall₂_same.mpr fun p hp => (h.params p hp).alike_self,
    alike_self_of TypeTable.Within.alike_self h.result⟩

theorem ClassInfo.Alike.within {c c' : ClassInfo} (ht' : t'.Sound) (h : c.Alike t t' c')
    (hc : c.Within t S) (hS : ∀ i j m, S i m → S' j m) : c'.Within t' S' := by
  refine ⟨fun hne => ?_, fun f' hf' => ?_, fun m' hm' => ?_, fun e' he' => ?_⟩
  · exact h.base.isClass (hc.base (h.base.ne_zero hne)) hS
  · obtain ⟨f, hf, hff⟩ := forall₂_exists_mem h.fields.flip hf'
    obtain ⟨htype, howner⟩ := hc.fields f hf
    exact ⟨hff.type.within htype hS, (howner ▸ hff.owner).unique ht' h.type⟩
  · obtain ⟨m, hm, hmm⟩ := forall₂_exists_mem h.methods.flip hm'
    obtain ⟨hsig, howner⟩ := hc.methods m hm
    exact ⟨hmm.sig.within hsig hS, (howner ▸ hmm.owner).unique ht' h.type⟩
  · obtain ⟨e, he, hee⟩ := forall₂_exists_mem h.vmt.flip he'
    exact hee.owner.isClass (hc.vmt e he) hS

theorem ClassInfo.Within.alike_self {c : ClassInfo} (ht : t.Sound) (hmem : c ∈ t.classes)
    (h : c.Within t S) : c.Alike t t c := by
  have htype : t.Alike t c.type c.type := .classRef (ht.classInfo?_type hmem)
    (ht.classInfo?_type hmem) rfl
  refine ⟨rfl, htype, alike_self_of TypeTable.IsClass.alike_self h.base,
    List.forall₂_same.mpr fun f hf => ?_, List.forall₂_same.mpr fun m hm => ?_,
    List.forall₂_same.mpr fun e he => ⟨rfl, (h.vmt e he).alike_self⟩⟩
  · obtain ⟨hf, howner⟩ := h.fields f hf
    exact ⟨rfl, hf.alike_self, howner ▸ htype⟩
  · obtain ⟨hm, howner⟩ := h.methods m hm
    exact ⟨rfl, hm.alike_self, howner ▸ htype⟩

theorem Symbol.Alike.within {file : Nat} {sym sym' : Symbol} (h : sym.Alike t t' file sym')
    (hsym : sym.Within t S) (hS : ∀ i j m, S i m → S' j m) : sym'.Within t' S' := by
  have hkind : sym'.kind = sym.kind := by rw [h.same]
  refine ⟨fun hne => h.type.within (hsym.type (h.type.ne_zero hne)) hS, fun hname => ?_,
    fun hne => h.owner.isClass (hsym.owner (h.owner.ne_zero hne)) hS, h.sig.within hsym.sig hS,
    fun hplain => ?_⟩
  · exact h.type.symm.ne_zero (hsym.typeName (hkind ▸ hname))
  · have hsig := h.sig
    rw [hsym.plain (hkind ▸ hplain)] at hsig
    exact hsig.nothing

theorem Symbol.Within.alike_self {sym : Symbol} (h : sym.Within t S) (file : Nat) :
    sym.Alike t t file { sym with scope := 0, span := { sym.span with file } } :=
  ⟨rfl, alike_self_of TypeTable.Within.alike_self h.type,
    alike_self_of TypeTable.IsClass.alike_self h.owner, h.sig.alike_self⟩

end Pascaline
