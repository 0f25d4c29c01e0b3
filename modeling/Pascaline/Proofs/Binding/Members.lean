import Pascaline.Proofs.Binding.Declarations
import Pascaline.Proofs.Binding.Layouts

/-!
# Members of classes

The classes of a file get their fields and methods, and are laid out. The body of a method is found
its declaration.
-/

namespace Pascaline.Bound

open TypeTable

variable {R : Realm} {s s₁ s' : Session} {scope : ScopeId} {sc : Scope} {sym : Symbol}
  {α β γ : Type} {Q : α → Session → Prop}

/-! ## Lists of actions -/

namespace Sites

theorem foldlM {f : γ → β → Bind γ} {P : γ → Session → Prop} {xs : List β} {init : γ}
    (hs : Stands R s) (hP : P init s)
    (hf : ∀ acc, ∀ x ∈ xs, ∀ s₁, Stands R s₁ → Proceeds s s₁ → P acc s₁ → Sites R s₁ (f acc x) P) :
    Sites R s (xs.foldlM f init) P := by
  induction xs generalizing s init with
  | nil => exact .pure hs hP
  | cons x xs ih =>
    rw [List.foldlM_cons]
    refine (hf init x List.mem_cons_self s hs (.refl s) hP).bind fun acc s₁ hs₁ hle₁ hP₁ => ?_
    exact ih hs₁ hP₁ fun acc x hx s₂ hs₂ hle₂ =>
      hf acc x (List.mem_cons_of_mem _ hx) s₂ hs₂ (hle₁.trans hle₂)

theorem mapM {f : β → Bind γ} {P : γ → Session → Prop} {xs : List β} (hs : Stands R s)
    (hmono : ∀ c s₁ s₂, Proceeds s₁ s₂ → P c s₁ → P c s₂)
    (hf : ∀ x ∈ xs, ∀ s₁, Stands R s₁ → Proceeds s s₁ → Sites R s₁ (f x) P) :
    Sites R s (xs.mapM f) fun cs s' => ∀ c ∈ cs, P c s' := by
  induction xs generalizing s with
  | nil => exact .pure hs (by simp)
  | cons x xs ih =>
    rw [List.mapM_cons]
    refine (hf x List.mem_cons_self s hs (.refl s)).bind fun c s₁ hs₁ hle₁ hc => ?_
    refine (ih hs₁ fun x hx s₂ hs₂ hle₂ =>
      hf x (List.mem_cons_of_mem _ hx) s₂ hs₂ (hle₁.trans hle₂)).bind fun cs s₂ hs₂ hle₂ hcs => ?_
    refine .pure hs₂ fun d hd => ?_
    rcases List.mem_cons.mp hd with rfl | hd
    · exact hmono _ _ _ hle₂ hc
    · exact hcs d hd

theorem filterMapM {f : β → Bind (Option γ)} {P : γ → Session → Prop} {xs : List β}
    (hs : Stands R s) (hmono : ∀ c s₁ s₂, Proceeds s₁ s₂ → P c s₁ → P c s₂)
    (hf : ∀ x ∈ xs, ∀ s₁, Stands R s₁ → Proceeds s s₁ →
      Sites R s₁ (f x) fun c? s' => ∀ c, c? = some c → P c s') :
    Sites R s (xs.filterMapM f) fun cs s' => ∀ c ∈ cs, P c s' := by
  induction xs generalizing s with
  | nil => exact .pure hs (by simp)
  | cons x xs ih =>
    rw [List.filterMapM_cons]
    refine (hf x List.mem_cons_self s hs (.refl s)).bind fun c? s₁ hs₁ hle₁ hc => ?_
    have hrest := ih hs₁ fun x hx s₂ hs₂ hle₂ =>
      hf x (List.mem_cons_of_mem _ hx) s₂ hs₂ (hle₁.trans hle₂)
    cases c? with
    | none => exact hrest
    | some c =>
      refine hrest.bind fun cs s₂ hs₂ hle₂ hcs => .pure hs₂ fun d hd => ?_
      rcases List.mem_cons.mp hd with rfl | hd
      · exact hmono _ _ _ hle₂ (hc d rfl)
      · exact hcs d hd

end Sites

/-! ## Fields and methods -/

theorem Stands.member (hs : Stands R s) (hnone : s.frame = none) {c : ClassHead}
    (hc : c ∈ s.classes) (hg : Gains s s' c.scope sc sym) (hle : Proceeds s s')
    (hmember : MemberFits R s c.id sym)
    (hcode : sym.isOwn s.unit → sym.kind.hasCode → ∃ (i : Nat) (r : Routine), sym.routine = i ∧
      s'.routines[i]? = some r ∧ r.symbol = s.scopes.symbols.size + 1 ∧ r.owner = sym.owner) :
    Stands R s' := by
  obtain ⟨sc', hsc', hkind, -⟩ := (hs.sited.heads c hc).members
  obtain rfl : sc' = sc := Option.some.inj (hsc'.symm.trans hg.found)
  have hinner : ¬sc'.kind.isOuter := fun h => h.1 hkind
  refine ⟨hs.sited.gains hg (fun h => absurd h hinner) ?_ ?_ hcode, ?_, ?_, ?_, ?_⟩
  · intro hscope
    rw [hscope] at hsc'
    exact absurd (hs.sited.own sc' hsc').1 hinner
  · intro d hd hscope
    obtain rfl := List.inj_on_of_nodup_map hs.sited.apart.2.1 hd hc hscope
    exact hmember
  · exact hs.headed.extend hg.types hg.classes
  · obtain ⟨sc₁, hsc₁⟩ := hs.rooted
    obtain ⟨sc₂, hsc₂, -⟩ := hg.scope?_of_some hsc₁
    exact ⟨sc₂, hg.unitScope ▸ hsc₂⟩
  · intro _
    rw [hle.scope, hle.unitScope, hs.outside hnone]
  · intro f hf
    rw [hle.frame_none hnone] at hf
    cases hf

namespace Bind

theorem fieldSpecs_sites (hs : Stands R s) (hnone : s.frame = none) {c : ClassHead}
    (hc : c ∈ s.classes) (d : Tree.VarDecl) :
    Sites R s (fieldSpecs c d) fun fs s' => ∀ f ∈ fs, s'.types.Within (s'.outer R).known f.type := by
  unfold fieldSpecs
  refine (Sites.of_yields hs (typeExpr_yields hs.fits d.type) fun I => typeExpr_keeps d.type).bind
    fun type? s₁ hs₁ hle₁ ⟨htype, ha, _⟩ => ?_
  cases type? with
  | none => exact .pure hs₁ (by simp)
  | some type =>
    have htype : s₁.types.Within (s₁.here R).known type := ha.here hle₁ R ▸ htype type rfl
    refine Sites.filterMapM hs₁ 
      (P := fun (f : FieldSpec) s' => s'.types.Within (s'.outer R).known f.type) ?_ ?_
    · exact fun f s₁ s₂ hle hf => hle.within hf
    · intro name _ s₂ hs₂ hle₂
      have hnone₂ := (hle₁.trans hle₂).frame_none hnone
      have hc₂ : c ∈ s₂.classes := (hle₁.trans hle₂).classes.subset hc
      refine .read (named_run s₂ name _ _) ?_
      intro spec? s' h
      obtain ⟨x?, s₃, hd, h⟩ := run_bind_inv h
      rcases declare_run hd with ⟨sc, hsc, rfl, rfl, hfree⟩ | ⟨rfl, es, rfl, -⟩
      · cases h
        have hg := Gains.bind _ hsc (fun y hy => absurd (hfree y hy).1 (by simp))
          (List.prefix_refl s₂.globals) s₂.frame
        have hle : Proceeds s₂ _ := .of_outside hg.extends_ rfl rfl hnone₂ rfl id
        have hnone : SymbolFlags.has {} .imported = false := by decide
        refine ⟨hs₂.member hnone₂ hc₂ hg hle ⟨.inl rfl, ⟨rfl, hnone⟩, rfl, ⟨by simp, by simp⟩⟩
          (fun _ h => by cases h), hle, ?_⟩
        rintro f ⟨⟩
        exact hle₂.within htype
      · cases h
        exact ⟨(Sites.reports _ hs₂).1, (Sites.reports _ hs₂).2, by simp⟩

theorem declareMethod_sites (hs : Stands R s) (hnone : s.frame = none) {c : ClassHead}
    (hc : c ∈ s.classes) (header : Tree.Header) {sig : Signature}
    (hsig : sig.Within s.types (s.outer R).known) :
    Sites R s (declareMethod c header sig) fun x? s' => ∀ x, x? = some x →
      ∃ sym, s'.scopes.symbol? x = some sym ∧
        s'.Takes ⟨s'.unit, sym.routine⟩ (sig.params.length + 1) := by
  unfold declareMethod
  refine .read rfl ?_
  extract_lets key
  refine (Sites.of_yields hs (routineType_yields hs.fits hsig)
    fun I => routineType_keeps sig).bind fun type s₁ hs₁ hle₁ ⟨htype, ha, hw⟩ => ?_
  refine .read rfl (.read (findM?_run (fun _ => rfl) _) ?_)
  split
  · exact .read rfl ((Sites.fail hs₁ _ _ _).imp fun _ _ h => by simp [h])
  refine .read (named_run s₁ _ _ _) (.read rfl ?_)
  intro x? s' h
  obtain ⟨y?, s₂, hd, h⟩ := run_bind_inv h
  rcases declare_run hd with ⟨sc, hsc, rfl, rfl, hfree⟩ | ⟨rfl, es, rfl, -⟩
  · obtain ⟨i, s₃, hr, h⟩ := run_bind_inv h
    cases hr
    cases h
    let r : Routine :=
      { name := key.name ++ "." ++ header.name.text, symbol := s₁.scopes.symbols.size + 1,
        owner := c.id, span := header.span }
    have hg := Gains.code (r := r) hsc (fun y hy => ⟨(hfree y hy).2, rfl⟩) rfl
    have hle : Proceeds s₁ _ :=
      .of_outside hg.extends_ rfl rfl (hle₁.frame_none hnone) rfl
        fun (hidle : s₁.Idle) => hidle.push (r := r) (Nat.succ_ne_zero _) ⟨rfl, rfl⟩
    have hforward : SymbolFlags.forward.has .imported = false := by decide
    refine ⟨hs₁.member (hle₁.frame_none hnone) (hle₁.classes.subset hc) hg hle
      ⟨.inr rfl, ⟨rfl, hforward⟩, rfl, hle₁.signature hsig⟩
      (fun _ _ => ⟨s₁.routines.size, r, rfl, Array.getElem?_push_size, rfl, rfl⟩), hle, ?_⟩
    rintro x ⟨⟩
    exact ⟨_, (hg.symbol? _).trans (if_pos rfl), hg.takes ⟨rfl, hforward⟩ rfl⟩
  · cases h
    exact ⟨(Sites.reports _ hs₁).1, (Sites.reports _ hs₁).2, by simp⟩

theorem methodSpec_sites (hs : Stands R s) (hnone : s.frame = none) {c : ClassHead}
    (hc : c ∈ s.classes) (h : Tree.Header) :
    Sites R s (methodSpec c h) fun m? s' => ∀ m, m? = some m →
      m.sig.Within s'.types (s'.outer R).known ∧
        (s'.outer R).takes m.routine (m.sig.params.length + 1) := by
  unfold methodSpec
  refine (Sites.of_yields hs (signature_yields hs.fits h.params h.result)
    fun I => signature_keeps _ _).bind fun sig? s₁ hs₁ hle₁ ⟨hsig, ha₁, _⟩ => ?_
  cases sig? with
  | none => exact .pure hs₁ (by simp)
  | some sig =>
    have hsig : sig.Within s₁.types (s₁.here R).known := ha₁.here hle₁ R ▸ (hsig sig rfl).1
    refine (declareMethod_sites hs₁ (hle₁.frame_none hnone) (hle₁.classes.subset hc) h hsig).bind
      fun x? s₂ hs₂ hle₂ hx => ?_
    cases x? with
    | none => exact .pure hs₂ (by simp)
    | some x =>
      obtain ⟨sym, hsym, htakes⟩ := hx x rfl
      refine .read rfl (.read (b := sym) ?_ (.pure hs₂ ?_))
      · exact congrArg (fun sym? : Option Symbol => Except.ok (sym?.getD default, s₂)) hsym
      · rintro m ⟨⟩
        exact ⟨hle₂.signature hsig, .inr htakes⟩

end Bind

/-- All that the declaration of a class refers to is there. -/
structure SpecFits (R : Realm) (s : Session) (d : ClassDecl) : Prop where
  base : d.base ≠ 0 → s.types.Within (s.outer R).known d.base
  fields : ∀ f ∈ d.fields, s.types.Within (s.outer R).known f.type
  methods : ∀ m ∈ d.methods, m.sig.Within s.types (s.outer R).known ∧
    (s.outer R).takes m.routine (m.sig.params.length + 1)

theorem SpecFits.extend {d : ClassDecl} (h : SpecFits R s d) (hle : Extends s s') :
    SpecFits R s' d :=
  ⟨fun hne => hle.within (h.base hne), fun f hf => hle.within (h.fields f hf), fun m hm =>
    ⟨hle.signature (h.methods m hm).1,
      (hle.env_le R (List.prefix_refl _) none none).takes _ _ (h.methods m hm).2⟩⟩

theorem SpecFits.declFits {d : ClassDecl} (h : SpecFits R s d) : DeclFits (s.outer R) s.types d := by
  refine ⟨fun c hc => ?_, h.fields, h.methods⟩
  refine (h.base ?_).module hc
  rintro hzero
  rw [hzero, classInfo?_zero] at hc
  cases hc

namespace Bind

theorem classDecl_sites (hs : Stands R s) (hnone : s.frame = none) {c : ClassHead}
    (hc : c ∈ s.classes) : Sites R s (classDecl c) fun d s' => SpecFits R s' d := by
  unfold classDecl
  extract_lets jp
  have hjp : ∀ base, (base ≠ 0 → s.types.Within (s.outer R).known base) →
      Sites R s (jp base) fun d s' => SpecFits R s' d := by
    intro base hbase
    let P : List FieldSpec × List MethodSpec → Session → Prop := fun acc s' =>
      SpecFits R s' { (default : ClassDecl) with base, fields := acc.1, methods := acc.2 }
    refine (Sites.foldlM (P := P) hs ⟨hbase, by simp, by simp⟩ ?_).bind
      fun acc s₁ hs₁ hle₁ hacc => .pure hs₁ ⟨hacc.base, hacc.fields, hacc.methods⟩
    intro acc m _ s₁ hs₁ hle₁ hacc
    have hnone₁ := hle₁.frame_none hnone
    have hc₁ : c ∈ s₁.classes := hle₁.classes.subset hc
    cases m with
    | field d =>
      refine (fieldSpecs_sites hs₁ hnone₁ hc₁ d).bind fun fs s₂ hs₂ hle₂ hfs => .pure hs₂ ?_
      have hold := hacc.extend hle₂.toExtends
      exact ⟨hold.base, fun f hf => (List.mem_append.mp hf).elim (hold.fields f) (hfs f),
        hold.methods⟩
    | method h =>
      refine (methodSpec_sites hs₁ hnone₁ hc₁ h).bind fun m? s₂ hs₂ hle₂ hm => .pure hs₂ ?_
      have hold := hacc.extend hle₂.toExtends
      refine ⟨hold.base, hold.fields, fun m hmem => ?_⟩
      rcases List.mem_append.mp hmem with hmem | hmem
      · exact hold.methods m hmem
      · exact hm m (Option.mem_toList.mp hmem)
  cases c.base with
  | none => exact hjp 0 fun h => absurd rfl h
  | some b =>
    obtain ⟨ids, hids, hrun⟩ := typeSymbol?_run hs.fits b
    refine .read hrun (hjp _ ?_)
    cases ids with
    | nil => exact fun h => absurd rfl h
    | cons x xs =>
      obtain ⟨sym, hsym, hfits⟩ := hids.symbols x List.mem_cons_self
      have hsym : s.scopes.symbol? x = some sym := hsym
      intro hne
      simp only [List.head?_cons, Option.map_some, hsym, Option.getD_some] at hne ⊢
      exact hfits.within.type hne

end Bind

/-! ## Layout -/

/-- Classes were laid out, and what is wrong with them was reported. -/
theorem Stands.relay (hs : Stands R s) (es : List BindReport) (hnone : s.frame = none)
    {t : TypeTable} (hle : Relays s.types t) (htable : TableFits (s.outer R) t)
    (hgrounded : Layout.Grounded s.types → Layout.Grounded t) :
    Stands R { s with types := t, errors := s.errors ++ es } ∧
      Proceeds s { s with types := t, errors := s.errors ++ es } := by
  have hext : Extends s { s with types := t, errors := s.errors ++ es } := by
    refine ⟨rfl, List.prefix_append _ _, hle.grows, hle.done, hgrounded, fun id c hc => ?_,
      fun x sym hx => ⟨sym.flags, hx, rfl, rfl⟩, List.prefix_refl _, List.prefix_refl _⟩
    obtain ⟨c', hc', hkey⟩ := hle.keys hs.sited.formed hc
    exact .inr (keyOf?_eq_some.mpr ⟨c', hc', hkey⟩)
  have hkeys : ∀ c ∈ t.classes, ∃ c' ∈ s.types.classes, c'.key = c.key ∧ c'.type = c.type := by
    intro c hc
    have hinfo := hle.formed.classInfo?_type hc
    obtain ⟨c', hc', hkey⟩ := hle.keys hs.sited.formed hinfo
    exact ⟨c', hs.sited.formed.mem_classes hc', hkey, hs.sited.formed.type_eq hc'⟩
  have htypes : TypesFit R { s with types := t, errors := s.errors ++ es } := by
    refine ⟨hle.formed, fun c hc hk => ?_, fun c hc => ?_, hle.shapes ▸ hs.sited.size⟩
    · exact (htable c hc hk).extend (hext.env_le R (List.prefix_refl _) none none) (.refl _)
    · obtain ⟨c', hc', hkey, -⟩ := hkeys c hc
      exact hkey ▸ hs.sited.titled c' hc'
  refine ⟨⟨hs.sited.retype hext htypes rfl rfl rfl rfl rfl rfl, ?_, hs.rooted, hs.outside, ?_⟩,
    .of_outside hext rfl rfl hnone rfl id⟩
  · intro c hc hlater
    obtain ⟨c', hc', -, htype⟩ := hkeys c hc
    obtain ⟨h, hmem, hid⟩ := hs.headed c' hc' (htype ▸ hlater)
    exact ⟨h, hmem, hid.trans htype⟩
  · intro f hf
    have hf : s.frame = some f := hf
    rw [hnone] at hf
    cases hf

namespace Bind

theorem reports_run (es : List LayoutError) (s : Session) :
    (es.forM fun e => report (.layout e) e.span).run s =
      .ok ((), { s with errors := s.errors ++ es.map fun e => ⟨.layout e, e.span, []⟩ }) := by
  induction es generalizing s with
  | nil => simp [List.forM]; rfl
  | cons e es ih =>
    rw [List.forM, StateT.run_bind]
    refine (ih _).trans ?_
    simp

theorem layoutClasses_sites (hs : Stands R s) (hnone : s.frame = none) :
    Sites R s layoutClasses fun _ _ => True := by
  unfold layoutClasses
  refine .read rfl ?_
  refine (Sites.mapM (P := fun d s' => SpecFits R s' d) hs
    (fun d s₁ s₂ hle hd => hd.extend hle.toExtends) fun c hc s₁ hs₁ hle₁ => classDecl_sites hs₁ (hle₁.frame_none hnone) (hle₁.classes.subset hc)).bind
    fun decls s₁ hs₁ hle₁ hdecls => ?_
  intro u s' h
  obtain ⟨es, s₂, hx, h⟩ := run_bind_inv h
  cases hx
  rw [reports_run] at h
  cases h
  obtain ⟨hle, htable⟩ := layoutAll_fits (s.classes.map (·.id)) hs₁.sited.formed
    hs₁.sited.table fun d hd => (hdecls d hd).declFits
  let es : List BindReport := (Layout.layoutAll decls s₁.types (s.classes.map (·.id))).2.map
    fun e => ⟨.layout e, e.span, []⟩
  obtain ⟨hs₂, hle₂⟩ := hs₁.relay es (hle₁.frame_none hnone) hle htable fun hg =>
    hg.layoutAll decls (s.classes.map (·.id))
  exact ⟨hs₂, hle₂, trivial⟩

end Bind

/-! ## Bodies of methods -/

theorem member_of_mem (h : Sited R s) {c : ClassHead} (hc : c ∈ s.classes) {name : String}
    {id : SymbolId} (hid : id ∈ s.scopes.lookupLocal c.scope name) :
    ∃ sym, s.scopes.symbol? id = some sym ∧ sym.name = name ∧ MemberFits R s c.id sym := by
  obtain ⟨sc, hsc, -, hmembers⟩ := (h.heads c hc).members
  rw [ScopeTable.lookupLocal_of_scope? hsc] at hid
  exact hmembers name id hid

theorem PendingFits.member (h : Sited R s) {c : ClassHead} (hc : c ∈ s.classes) {id : SymbolId}
    {prev : Symbol} {sig : Signature} {decl : Tree.RoutineDecl} {body : Tree.Block}
    (hid : id ∈ s.scopes.lookupLocal c.scope decl.header.name.name)
    (hprev : s.scopes.symbol? id = some prev) (hkind : prev.kind = .method)
    (hsig : Bind.SignatureFits (s.outer R) decl.header.params s.types sig)
    (hsel : s.types.selector prev.name prev.sig.params =
      s.types.selector decl.header.name.name sig.params) (hresult : prev.sig.result = sig.result) :
    PendingFits R s
      { routine := prev.routine.toNat, decl, body, symbol := id, owner := c.id, sig } := by
  obtain ⟨sym, hsym, hname, hmember⟩ := member_of_mem h hc hid
  rw [hprev, Option.some.injEq] at hsym
  subst hsym
  have hcode : prev.kind.hasCode := by
    rw [hkind]
    rfl
  have hkey := (h.heads c hc).key
  have hne : c.id ≠ 0 := by
    intro hzero
    rw [hzero] at hkey
    cases hkey
  obtain ⟨i, r, hi, -⟩ := h.routines id prev hprev hmember.own hcode
  rw [hname] at hsel
  refine ⟨⟨prev, hprev, hmember.own, hcode, ?_, hmember.owner, ?_, ?_, hresult.symm⟩,
    fun _ => ⟨_, hkey, .inl ⟨rfl, (h.heads c hc).later⟩⟩, hsig.1, hsig.2.symm⟩
  · rw [hi]
    rfl
  · exact ⟨fun _ => hne, fun _ => hkind⟩
  · exact (h.titled.length_params hsel).symm

namespace Bind

theorem attachMethod_sites (hs : Stands R s) (hnone : s.frame = none) (d : Tree.RoutineDecl)
    (owner : Tree.Ident) : Sites R s (attachMethod d owner) fun _ _ => True := by
  unfold attachMethod
  extract_lets h
  refine .read rfl ?_
  split
  · exact .report hs _ _ _
  rename_i c hc
  have hc := List.mem_of_find?_eq_some hc
  refine (Sites.of_yields hs (signature_yields hs.fits h.params h.result)
    fun I => signature_keeps _ _).bind fun sig? s₁ hs₁ hle₁ ⟨hsig, ha₁, _⟩ => ?_
  cases sig? with
  | none => exact .pure hs₁ trivial
  | some sig =>
  have hsig := hsig sig rfl
  have hc₁ := hle₁.classes.subset hc
  have hnone₁ := hle₁.frame_none hnone
  rw [← ha₁.here hle₁ R] at hsig
  have houter : s₁.here R = s₁.outer R := by
    unfold Session.here Session.slots
    rw [hnone₁]
    rfl
  rw [houter] at hsig
  refine .read rfl (.read rfl (.read (findM?_run (fun _ => rfl) _) ?_))
  split
  · exact .report hs₁ _ _ _
  rename_i id hid
  have hmem := List.mem_of_find?_eq_some hid
  have hfound := List.find?_some hid
  obtain ⟨prev, hprev, -⟩ := member_of_mem hs₁.sited hc₁ hmem
  refine .read rfl ?_
  simp only [hprev, Option.getD_some, Bool.and_eq_true, decide_eq_true_eq] at hfound ⊢
  split
  · exact .report hs₁ _ _ _
  split
  · exact .report hs₁ _ _ _
  rename_i hsame
  cases d.body with
  | none => exact .report hs₁ _ _ _
  | some body =>
    have hresult : prev.sig.result = sig.result := by
      by_contra hne
      simp [hne] at hsame
    have hpending : PendingFits R s₁
        { routine := prev.routine.toNat, decl := d, body, symbol := id, owner := c.id, sig } :=
      .member hs₁.sited hc₁ hmem hprev hfound.1 hsig hfound.2 hresult
    have hattach : ∀ s₂, Stands R s₂ → s₂.frame = none → Extends s₁ s₂ → s₂.scopes = s₁.scopes →
        Sites R s₂ (do settle id prev; queueBody d body id c.id sig) fun _ _ => True := by
      intro s₂ hs₂ hnone₂ hle₂ hscopes
      exact forward_sites hs₂ hnone₂ (by rw [hscopes, hprev]) (hpending.extend hle₂)
    dsimp only
    split
    · obtain ⟨hs₂, hle₂⟩ := Sites.reports [⟨.directiveOnBody, h.name.span, []⟩] hs₁
      exact .step (b := ()) rfl hle₂ (hattach _ hs₂ hnone₁ hle₂.toExtends rfl)
    · exact hattach s₁ hs₁ hnone₁ (.refl s₁) rfl

/-! ## Declarations -/

theorem declareAll_sites (hs : Stands R s) (hnone : s.frame = none) (decls : List Tree.Decl)
    (exported : Bool) : Sites R s (declareAll decls exported) fun _ s' => s'.frame = none := by
  unfold declareAll
  refine Sites.forM hs hnone fun d _ s₁ hs₁ hnone₁ => ?_
  refine .read rfl ?_
  extract_lets scope
  have hscope : scope = s₁.scope := (hs₁.outside hnone₁).symm
  split
  · exact hscope ▸ (declareConst_sites hs₁ _ exported).outside hnone₁
  · exact .pure hs₁ hnone₁
  · rename_i d _ _
    refine Sites.outside (Q := fun _ _ => True) ?_ hnone₁
    refine (Sites.of_yields hs₁ (typeExpr_yields hs₁.fits d.type) fun I => typeExpr_keeps d.type).bind
      fun type? s₂ hs₂ hle₂ ⟨htype, ha₂, _⟩ => ?_
    cases type? with
    | none => exact .pure hs₂ trivial
    | some type =>
      rw [hscope, ← hle₂.scope]
      exact (declareType_sites hs₂ d.name (ha₂.here hle₂ R ▸ htype type rfl) exported).bind
        fun _ _ hs' _ _ => .pure hs' trivial
  · exact hscope ▸ (declareVars_sites hs₁ _ exported).outside hnone₁
  · split
    · intro u s' h
      cases h
      refine ⟨hs₁.keep (hs₁.sited.same (.of_types rfl rfl (List.prefix_refl _) (List.prefix_refl _)
        (List.prefix_refl _) fun _ _ hx => hx) rfl rfl rfl rfl rfl rfl rfl) ?_ hs₁.headed fun _ => rfl,
        ?_, hnone₁⟩
      all_goals
        exact .still rfl rfl (List.prefix_refl _) rfl rfl (fun _ => rfl) rfl rfl rfl id
          fun h => absurd hnone₁ h
    · exact (declareRoutine_sites hs₁ hnone₁ _ exported).outside hnone₁

end Bind

end Pascaline.Bound
