import Pascaline.Proofs.Binding.Bodies

/-!
# Whole files

The scopes of a file are opened from the built-in names inward, then its declarations are entered
and its bodies bound. What a file that was bound without errors refers to is there, in the file
itself or in the units that it uses.
-/

namespace Pascaline.Bound

open TypeTable

variable {R : Realm} {T : TypeTable} {u : String} {s s₁ s' : Session} {scope parent : ScopeId}
  {sc : Scope} {sym : Symbol} {α β : Type}

/-! ## Scopes before that of the unit -/

/-- The scopes around a file are being opened, and it has declared nothing. -/
structure Opening (R : Realm) (T : TypeTable) (u : String) (s : Session) : Prop where
  sited : Sited R s
  unit : s.unit = u
  types : s.types = T
  unitScope : s.unitScope = 0
  frame : s.frame = none
  classes : s.classes = []
  routines : s.routines = #[]
  bodies : s.bodies = []

/-- The names of the scope are seen from everywhere. -/
def Session.Outer (s : Session) (id : ScopeId) : Prop :=
  ∃ sc, s.scopes.scope? id = some sc ∧ sc.kind.isOuter

/-- Scopes were opened or have gained names, and errors were reported. -/
structure Opens (s s' : Session) : Prop where
  outer : ∀ id, s.Outer id → s'.Outer id
  errors : s.errors <+: s'.errors

theorem Opens.refl (s : Session) : Opens s s := ⟨fun _ h => h, List.prefix_refl _⟩

theorem Opens.trans (h : Opens s s₁) (h' : Opens s₁ s') : Opens s s' :=
  ⟨fun id hid => h'.outer id (h.outer id hid), h.errors.trans h'.errors⟩

theorem Opening.outer_ne (h : Opening R T u s) (hsc : s.scopes.scope? scope = some sc) :
    scope ≠ s.unitScope := by
  rw [h.unitScope]
  rintro rfl
  cases hsc

/-- The scope is one that the names come from, or one with no names but those. -/
def Session.NamedBy (s : Session) (scope : ScopeId) (names : List String) : Prop :=
  ∀ sc, s.scopes.scope? scope = some sc → ∀ name, sc.index.find name ≠ [] → name ∈ names

theorem Opening.newScope (h : Opening R T u s) (kind : ScopeKind) (hkind : kind.isOuter)
    (hparent : parent = 0 ∨ s.Outer parent)
    (hrun : (Bind.newScope kind parent).run s = .ok (scope, s')) :
    Opening R T u s' ∧ Opens s s' ∧ s'.Outer scope ∧ s'.NamedBy scope [] ∧ s'.errors = s.errors := by
  obtain ⟨hid, hs'⟩ := Prod.mk.inj (Except.ok.inj hrun)
  replace hid : (s.scopes.newScope kind parent).1 = scope := hid
  replace hs' : { s with scopes := (s.scopes.newScope kind parent).2 } = s' := hs'
  have hnew : (s.scopes.newScope kind parent).2.scope? scope = some { kind, parent } :=
    (ScopeTable.scope?_newScope _ _ _ _).trans (if_pos hid.symm)
  have hfound : ∀ sc, s.scopes.scope? parent = some sc → sc.kind.isOuter := by
    intro sc hsc
    rcases hparent with rfl | ⟨sc', hsc', hkind⟩
    · cases hsc
    · rw [hsc, Option.some.injEq] at hsc'
      exact hsc' ▸ hkind
  have hle : parent ≤ s.scopes.scopes.size := by
    rcases hparent with rfl | ⟨sc', hsc', -⟩
    · exact Nat.zero_le _
    · exact ScopeTable.scope?_le hsc'
  subst hs'
  refine ⟨⟨h.sited.newScope kind hle hfound, h.unit, h.types, h.unitScope, h.frame, h.classes,
    h.routines, h.bodies⟩, ⟨?_, List.prefix_refl _⟩, ⟨_, hnew, hkind⟩, ?_, rfl⟩
  · rintro id ⟨sc, hsc, hkind⟩
    exact ⟨sc, ScopeTable.scope?_newScope_of_some kind parent hsc, hkind⟩
  · intro sc hsc name hname
    obtain rfl := Option.some.inj (hnew.symm.trans hsc)
    exact absurd rfl hname

namespace Bind

theorem tryDeclare_opens {overload : Bool} {d? : Option ScopeTable.Declared} {names : List String}
    (h : Opening R T u s) (houter : s.Outer scope) (hnames : s.NamedBy scope names)
    (hfits : SymbolFits (s.outer R) T sym) (hcode : sym.flags.has .imported = false → sym.kind.hasCode = false)
    (hroutine : overload = true → sym.name ∈ names → sym.kind.isRoutine)
    (hrun : (tryDeclare scope sym overload).run s = .ok (d?, s')) :
    Opening R T u s' ∧ Opens s s' ∧ s'.errors = s.errors ∧ s'.unitScopes = s.unitScopes ∧
      s'.NamedBy scope (sym.name :: names) := by
  obtain ⟨sc, hsc, hkind⟩ := houter
  rcases tryDeclare_run hrun with ⟨sc', hsc', -, rfl, hfree⟩ | ⟨rfl, -, -⟩
  · obtain rfl : sc = sc' := Option.some.inj (hsc.symm.trans hsc')
    have hg := Gains.bind sym hsc (fun y hy => ⟨(hfree y hy).2, hroutine (hfree y hy).1
      (hnames sc hsc _ (List.ne_nil_of_mem hy))⟩) (List.prefix_refl s.globals) s.frame
    have hsited : Sited R { s with scopes := s.scopes.bind scope sc sym } := by
      refine h.sited.gains hg (fun _ => ?_) (fun hscope => absurd hscope (h.outer_ne hsc)) ?_ ?_
      · rw [h.types]
        exact hfits.extend (hg.extends_.env_le R (List.prefix_refl _) none none) (.refl _) rfl
          sym.scope
      · rw [h.classes]
        nofun
      · intro hown hhas
        rw [hcode hown.2] at hhas
        cases hhas
    refine ⟨⟨hsited, h.unit, h.types, h.unitScope, h.frame, h.classes, h.routines, h.bodies⟩,
      ⟨?_, List.prefix_refl _⟩, rfl, rfl, ?_⟩
    · rintro id ⟨sc₁, hsc₁, hkind₁⟩
      obtain ⟨sc₂, hsc₂, hsame, -⟩ := hg.scope?_of_some hsc₁
      exact ⟨sc₂, hsc₂, hsame ▸ hkind₁⟩
    · intro sc₁ hsc₁ name hname
      rw [(hg.scope? scope).trans (if_pos rfl), Option.some.injEq] at hsc₁
      subst hsc₁
      obtain ⟨x, hx⟩ := List.exists_mem_of_ne_nil _ hname
      rcases NameIndex.mem_find_push.mp hx with hx | ⟨rfl, -⟩
      · exact List.mem_cons_of_mem _ (hnames sc hsc name (List.ne_nil_of_mem hx))
      · exact List.mem_cons_self
  · exact ⟨h, .refl _, rfl, rfl, fun sc hsc name hname => List.mem_cons_of_mem _ (hnames sc hsc name hname)⟩

theorem forM_run {P : Session → Prop} {f : β → Bind PUnit} {xs : List β} (hs : P s)
    (hf : ∀ x ∈ xs, ∀ s s', P s → (f x).run s = .ok (⟨⟩, s') → P s')
    (h : (xs.forM f).run s = .ok (⟨⟩, s')) : P s' := by
  induction xs generalizing s with
  | nil =>
    cases h
    exact hs
  | cons x xs ih =>
    rw [List.forM] at h
    obtain ⟨_, s₁, hx, h⟩ := run_bind_inv h
    exact ih (hf x List.mem_cons_self s s₁ hs hx) (fun x hx => hf x (List.mem_cons_of_mem _ hx)) h

/-! ## Built-in names -/

theorem declareBuiltins_opens (h : Opening R T u s) (houter : s.Outer scope)
    (hnames : s.NamedBy scope []) (hrun : (declareBuiltins scope).run s = .ok ((), s')) :
    Opening R T u s' ∧ Opens s s' ∧ s'.unitScopes = s.unitScopes := by
  let P : Session → Prop := fun s' => (Opening R T u s' ∧ Opens s s' ∧ s'.unitScopes = s.unitScopes) ∧
    ∃ names, s'.NamedBy scope names
  have hstep : ∀ {sym overload s₁ s₂} {x : PUnit}, P s₁ → (overload = true → sym.kind.isRoutine) →
      sym.kind.hasCode = false → SymbolFits (s₁.outer R) T sym →
      (do let _ ← tryDeclare scope sym overload : Bind PUnit).run s₁ = .ok (x, s₂) → P s₂ := by
    rintro sym overload s₁ s₂ x ⟨⟨h₁, hle₁, hunits⟩, names, hnames⟩ hroutine hcode hfits hx
    obtain ⟨_, s₃, hx, hdone⟩ := run_bind_inv hx
    cases hdone
    obtain ⟨h₂, hle₂, -, hunits₂, hnames₂⟩ := tryDeclare_opens h₁ (hle₁.outer _ houter) hnames hfits
      (fun _ => hcode) (fun hover _ => hroutine hover) hx
    exact ⟨⟨h₂, hle₁.trans hle₂, hunits₂.trans hunits⟩, _, hnames₂⟩
  unfold declareBuiltins at hrun
  obtain ⟨_, s₁, htypes, hrun⟩ := run_bind_inv hrun
  have h₁ : P s₁ := by
    refine forM_run (P := P) ⟨⟨h, .refl s, rfl⟩, _, hnames⟩ ?_ htypes
    intro q hq s₁ s₂ h₁ hx
    have hbasic : ∀ q ∈ [("integer", TypeTable.integer), ("real", TypeTable.real),
        ("boolean", TypeTable.boolean), ("char", TypeTable.char), ("string", TypeTable.string)],
        T.Within (s₁.outer R).known q.2 := by
      have ht : T.Formed := h.types ▸ h.sited.formed
      simp only [List.mem_cons, List.not_mem_nil, or_false, forall_eq_or_imp, forall_eq]
      exact ⟨ht.within_integer, ht.within_real, ht.within_boolean, ht.within_char, ht.within_string⟩
    have hwithin := hbasic q hq
    refine hstep h₁ (by simp) rfl ?_ hx
    exact ⟨⟨fun _ => hwithin, fun _ => hwithin.ne_zero, fun hne => absurd rfl hne, ⟨by simp, by simp⟩,
      fun _ => rfl⟩, fun _ _ => hwithin.ne_zero, by simp, by simp, by simp⟩
  refine (forM_run (P := P) h₁ ?_ hrun).1
  intro n _ s₁ s₂ h₁ hx
  refine hstep h₁ (fun _ => rfl) rfl ?_ hx
  exact ⟨⟨fun hne => absurd rfl hne, by simp [SymbolKind.isTypeName], fun hne => absurd rfl hne,
    ⟨by simp, by simp⟩, fun _ => rfl⟩, by simp, by simp, by simp, by simp⟩

end Bind

/-! ## Used units -/

/-- What the units at hand offer, apart from any file. -/
def Realm.env (R : Realm) : Env where
  known _ := R.known
  takes := R.takes
  holds := R.holds
  slot _ _ := False
  scopes := {}
  opens _ := False

theorem Realm.env_le (R : Realm) (s : Session) (slots : List Slot) (inner : Option ScopeId) :
    R.env.Le (s.env R slots inner) :=
  ⟨fun _ _ h => .inr h, fun _ _ h => .inl h, fun _ _ _ h => .inl h, fun _ _ h => h.elim⟩

/-- What the symbols of a unit stand for is there. -/
structure ImportFits (R : Realm) (t : TypeTable) (imp : Import) : Prop where
  symbols : ∀ sym ∈ imp.symbols, SymbolFits R.env t sym
  overloads : imp.symbols.Pairwise fun a b => a.name = b.name → b.kind.isRoutine

theorem Opening.nameUnit (h : Opening R T u s) (houter : s.Outer scope) (name : String) :
    Opening R T u { s with unitScopes := s.unitScopes ++ [(name, scope)] } := by
  obtain ⟨hsited, hunit, htypes, hunitScope, hframe, hclasses, hroutines, hbodies⟩ := h
  have hext : Extends s { s with unitScopes := s.unitScopes ++ [(name, scope)] } :=
    .of_types rfl rfl (List.prefix_refl _) (List.prefix_refl _) (List.prefix_refl _)
      fun _ _ hx => hx
  have hheads : HeadsFit R { s with unitScopes := s.unitScopes ++ [(name, scope)] } :=
    ⟨by simp [hclasses], by simp [hclasses]⟩
  have hcode : CodeFits R { s with unitScopes := s.unitScopes ++ [(name, scope)] } :=
    ⟨hsited.routines, fun p hp => (hsited.bodies p hp).extend hext, hsited.bodied⟩
  refine ⟨⟨hsited.toTypesFit.widen hext (.refl _) hsited.formed, ⟨hsited.placed, ?_, hsited.parents,
    hsited.listed, ?_, ?_⟩, hheads, hcode⟩, hunit, htypes, hunitScope, hframe, hclasses, hroutines,
    hbodies⟩
  · exact fun id sc n hsc hkind =>
      (hsited.names id sc n hsc hkind).extend hext (List.prefix_refl _) (.refl _)
  · intro p hp
    rcases List.mem_append.mp hp with hp | hp
    · exact hsited.units p hp
    · obtain rfl := List.mem_singleton.mp hp
      exact houter
  · intro sc hsc
    obtain ⟨hkind, hown⟩ := hsited.own sc hsc
    refine ⟨hkind, fun n x hx => ?_⟩
    obtain ⟨sym, hsym, hname, hfits⟩ := hown n x hx
    exact ⟨sym, hsym, hname, hfits.extend hext rfl sym.scope⟩

theorem Opening.reports (h : Opening R T u s) (es : List BindReport) :
    Opening R T u { s with errors := s.errors ++ es } := by
  obtain ⟨hsited, hunit, htypes, hunitScope, hframe, hclasses, hroutines, hbodies⟩ := h
  exact ⟨hsited.same (.of_types rfl rfl (List.prefix_append _ _) (List.prefix_refl _)
    (List.prefix_refl _) fun _ _ hx => hx) rfl rfl rfl rfl rfl rfl rfl, hunit, htypes, hunitScope,
    hframe, hclasses, hroutines, hbodies⟩

namespace Bind

theorem declareImports_opens {syms : List Symbol} {names : List String} (h : Opening R T u s)
    (houter : s.Outer scope) (hnames : s.NamedBy scope names)
    (hsyms : ∀ sym ∈ syms, SymbolFits R.env T sym)
    (hearlier : ∀ sym ∈ syms, sym.name ∈ names → sym.kind.isRoutine)
    (hoverloads : syms.Pairwise fun a b => a.name = b.name → b.kind.isRoutine)
    (hrun : (syms.forM fun sym => do
      let _ ← tryDeclare scope { sym with flags := sym.flags.union .imported } true).run s =
        .ok (⟨⟩, s')) :
    Opening R T u s' ∧ Opens s s' ∧ s'.errors = s.errors := by
  induction syms generalizing s names with
  | nil =>
    cases hrun
    exact ⟨h, .refl _, rfl⟩
  | cons sym syms ih =>
    rw [List.forM] at hrun
    obtain ⟨_, s₁, hx, hrun⟩ := run_bind_inv hrun
    obtain ⟨_, s₂, hx, hdone⟩ := run_bind_inv hx
    cases hdone
    have himported : (sym.flags.union .imported).has .imported = true := sym.flags.has_imported
    obtain ⟨h₁, hle₁, herrors₁, -, hnames₁⟩ := tryDeclare_opens h houter hnames
      ((hsyms sym List.mem_cons_self).extend (R.env_le s [] none) (.refl T)
        sym.flags.has_global_imported sym.scope)
      (fun hnot => by rw [himported] at hnot; cases hnot) (fun _ => hearlier sym List.mem_cons_self) hx
    have hlater : ∀ b ∈ syms, b.name ∈ sym.name :: names → b.kind.isRoutine := by
      intro b hb hmem
      rcases List.mem_cons.mp hmem with hsame | hmem
      · exact (List.pairwise_cons.mp hoverloads).1 b hb hsame.symm
      · exact hearlier b (List.mem_cons_of_mem _ hb) hmem
    obtain ⟨h', hle', herrors'⟩ := ih h₁ (hle₁.outer _ houter) hnames₁
      (fun sym hsym => hsyms sym (List.mem_cons_of_mem _ hsym)) hlater
      (List.pairwise_cons.mp hoverloads).2 hrun
    exact ⟨h', hle₁.trans hle', herrors'.trans herrors₁⟩

theorem distinctUses_run {seen us vs : List Tree.Ident}
    (h : (distinctUses seen us).run s = .ok (vs, s')) :
    (∃ es, s' = { s with errors := s.errors ++ es }) ∧ vs ⊆ us ∧
      ∀ v ∈ us, v.name ∈ vs.map (·.name) ∨ v.name ∈ seen.map (·.name) := by
  induction us generalizing s seen vs with
  | nil =>
    cases h
    exact ⟨⟨[], by simp⟩, by simp, by simp⟩
  | cons v us ih =>
    rw [distinctUses] at h
    split at h
    · rename_i first hfirst
      obtain ⟨_, s₁, hx, h⟩ := run_bind_inv h
      cases hx
      obtain ⟨⟨es, rfl⟩, hsub, hall⟩ := ih h
      refine ⟨⟨⟨.listedTwice v.text, v.span, [⟨first.span, utf8 "first listed here"⟩]⟩ :: es,
        by simp⟩, fun w hw => List.mem_cons_of_mem _ (hsub hw), fun w hw => ?_⟩
      rcases List.mem_cons.mp hw with rfl | hw
      · refine .inr (List.mem_map.mpr ⟨first, List.mem_of_find?_eq_some hfirst, ?_⟩)
        simpa using List.find?_some hfirst
      · exact hall w hw
    · obtain ⟨ws, s₁, hx, h⟩ := run_bind_inv h
      cases h
      obtain ⟨hes, hsub, hall⟩ := ih hx
      refine ⟨hes, List.cons_subset_cons _ hsub, fun w hw => ?_⟩
      rcases List.mem_cons.mp hw with rfl | hw
      · exact .inl (List.mem_cons_self)
      · rcases hall w hw with hmem | hmem
        · exact .inl (List.mem_cons_of_mem _ hmem)
        · rcases List.mem_cons.mp hmem with hsame | hmem
          · exact .inl (hsame ▸ List.mem_cons_self)
          · exact .inr hmem

theorem openUnit_opens {imports : List Import} {v : Tree.Ident} (h : Opening R T u s)
    (hparent : s.Outer parent)
    (himports : ∀ imp ∈ imports, imp.name = v.name → ImportFits R T imp)
    (hrun : (openUnit imports parent v).run s = .ok (scope, s')) :
    Opening R T u s' ∧ Opens s s' ∧ s'.Outer scope ∧
      (s'.errors = [] → ∃ imp ∈ imports, imp.name = v.name ∧ imp.kind ≠ .program) := by
  unfold openUnit at hrun
  have hfailed : ∀ e : BindReport, Opening R T u { s with errors := s.errors ++ [e] } ∧
      Opens s { s with errors := s.errors ++ [e] } ∧
      Session.Outer { s with errors := s.errors ++ [e] } parent ∧
      (s.errors ++ [e] = [] → ∃ imp ∈ imports, imp.name = v.name ∧ imp.kind ≠ .program) :=
    fun e => ⟨h.reports [e], ⟨fun _ hid => hid, List.prefix_append _ _⟩, hparent, by simp⟩
  split at hrun
  · obtain ⟨_, s₁, hx, hrun⟩ := run_bind_inv hrun
    cases hx
    cases hrun
    exact hfailed _
  · rename_i imp himp
    have hmem := List.mem_of_find?_eq_some himp
    have hname : imp.name = v.name := by simpa using List.find?_some himp
    split at hrun
    · obtain ⟨_, s₁, hx, hrun⟩ := run_bind_inv hrun
      cases hx
      cases hrun
      exact hfailed _
    · rename_i hprogram
      obtain ⟨id, s₁, hx, hrun⟩ := run_bind_inv hrun
      obtain ⟨h₁, hle₁, houter, hnames, -⟩ := h.newScope .exports ⟨nofun, nofun⟩ (.inr hparent) hx
      have hfits := himports imp hmem hname
      obtain ⟨_, s₂, hx, hrun⟩ := run_bind_inv hrun
      obtain ⟨h₂, hle₂, -⟩ := declareImports_opens h₁ houter hnames hfits.symbols (by simp)
        hfits.overloads hx
      obtain ⟨_, s₃, hx, hrun⟩ := run_bind_inv hrun
      cases hx
      cases hrun
      have houter₂ := hle₂.outer _ houter
      exact ⟨h₂.nameUnit houter₂ v.name, (hle₁.trans hle₂).trans ⟨fun _ hid => hid, List.prefix_refl _⟩,
        houter₂, fun _ => ⟨imp, hmem, hname, hprogram⟩⟩

theorem openUnits_opens {imports : List Import} {us : List Tree.Ident} (h : Opening R T u s)
    (hparent : s.Outer parent)
    (himports : ∀ v ∈ us, ∀ imp ∈ imports, imp.name = v.name → ImportFits R T imp)
    (hrun : (us.foldlM (openUnit imports) parent).run s = .ok (scope, s')) :
    Opening R T u s' ∧ Opens s s' ∧ s'.Outer scope ∧
      (s'.errors = [] → ∀ v ∈ us, ∃ imp ∈ imports, imp.name = v.name ∧ imp.kind ≠ .program) := by
  induction us generalizing s parent with
  | nil =>
    cases hrun
    exact ⟨h, .refl _, hparent, by simp⟩
  | cons v us ih =>
    rw [List.foldlM_cons] at hrun
    obtain ⟨id, s₁, hx, hrun⟩ := run_bind_inv hrun
    obtain ⟨h₁, hle₁, houter₁, hfound₁⟩ :=
      openUnit_opens h hparent (himports v List.mem_cons_self) hx
    obtain ⟨h', hle', houter', hfound'⟩ :=
      ih h₁ houter₁ (fun w hw => himports w (List.mem_cons_of_mem _ hw)) hrun
    refine ⟨h', hle₁.trans hle', houter', fun hnil w hw => ?_⟩
    rcases List.mem_cons.mp hw with rfl | hw
    · exact hfound₁ (List.prefix_nil.mp (hnil ▸ hle'.errors))
    · exact hfound' hnil w hw

end Bind

/-! ## The scope of the unit -/

theorem unitSymbol_fits {E : Env} (v : Tree.Ident) :
    SymbolFits E T
      { name := v.name, display := v.text, kind := .unit, module := v.name, span := v.span } :=
  ⟨⟨fun hne => absurd rfl hne, by simp [SymbolKind.isTypeName], fun hne => absurd rfl hne,
    ⟨by simp, by simp⟩, fun _ => rfl⟩, by simp, by simp, by simp, by simp⟩

theorem Opening.stands (h : Opening R T u s) (hnames : s.NamedBy scope []) (houter : s.Outer scope)
    (hsize : T.shapes.size ≤ R.size) (name : String) :
    Stands R { s with
      unitScope := scope, scope := scope, unitScopes := (name, scope) :: s.unitScopes } := by
  obtain ⟨hsited, hunit, htypes, -, hframe, hclasses, hroutines, hbodies⟩ := h
  obtain ⟨sc, hsc, hkind⟩ := houter
  have hext : Extends s { s with
      unitScope := scope, scope := scope, unitScopes := (name, scope) :: s.unitScopes } :=
    .of_types rfl rfl (List.prefix_refl _) (List.prefix_refl _) (List.prefix_refl _)
      fun _ _ hx => hx
  have hcode : CodeFits R { s with
      unitScope := scope, scope := scope, unitScopes := (name, scope) :: s.unitScopes } :=
    ⟨hsited.routines, fun p hp => (hsited.bodies p hp).extend hext, hsited.bodied⟩
  refine ⟨⟨hsited.toTypesFit.widen hext (.refl _) hsited.formed, ⟨?_, ?_, hsited.parents,
    hsited.listed, ?_, ?_⟩, ⟨?_, ?_⟩, hcode⟩, ?_, ⟨_, hsc⟩, fun _ => rfl, ?_⟩
  · exact ScopeTable.scope?_le hsc
  · exact fun id sc n hsc hkind =>
      (hsited.names id sc n hsc hkind).extend hext (List.prefix_refl _) (.refl _)
  · intro p hp
    rcases List.mem_cons.mp hp with rfl | hp
    · exact ⟨_, hsc, hkind⟩
    · exact hsited.units p hp
  · intro sc' hsc'
    obtain rfl := Option.some.inj (hsc.symm.trans hsc')
    exact ⟨hkind, fun n x hx => absurd (hnames sc hsc n (List.ne_nil_of_mem hx)) (List.not_mem_nil)⟩
  · simp [hclasses]
  · simp [hclasses]
  · intro c hc hlater
    have hle := hsited.formed.type_le hc
    rw [htypes] at hle
    exact absurd hlater (Nat.not_lt_of_le (hle.trans hsize))
  · simp [hframe]

theorem Opening.start (ht : T.Formed) (htable : TableFits R.env T) (htitled : T.Titled)
    (hsize : R.size = T.shapes.size) :
    Opening R T u { types := T, unit := u } := by
  have hnone : ∀ id, ({} : ScopeTable).scope? id = none := fun id => by
    unfold ScopeTable.scope?
    split <;> rfl
  have hnone' : ∀ x, ({} : ScopeTable).symbol? x = none := fun x => by
    unfold ScopeTable.symbol?
    split <;> rfl
  refine ⟨⟨⟨ht, ?_, htitled, hsize.le⟩, ⟨Nat.zero_le _, ?_, ?_, ?_, by simp, ?_⟩, ⟨by simp, by simp⟩,
    ⟨?_, by simp, by simp⟩⟩, rfl, rfl, rfl, rfl, rfl, rfl, rfl⟩
  · rintro c hc (⟨-, hlater⟩ | hknown)
    · exact absurd (hsize ▸ hlater) (Nat.not_lt_of_le (ht.type_le hc))
    · exact (htable c hc hknown).extend (R.env_le _ [] none) (.refl _)
  · intro id sc name hsc
    cases (hnone id).symm.trans hsc
  · intro id sc hsc
    cases (hnone id).symm.trans hsc
  · intro id sc hsc
    cases (hnone id).symm.trans hsc
  · intro sc hsc
    cases (hnone _).symm.trans hsc
  · intro x sym hsym
    cases (hnone' x).symm.trans hsym

namespace Bind

/-- The scopes of a file are opened. The units that are used are at hand if there are no errors. -/
theorem openScopes_stands {imports : List Import} {f : Tree.File} {uses : List String}
    (h : Opening R T u s)
    (hsize : R.size = T.shapes.size)
    (himports : ∀ v ∈ f.allUses, ∀ imp ∈ imports, imp.name = v.name → ImportFits R T imp)
    (hrun : (openScopes imports f).run s = .ok (uses, s')) :
    Stands R s' ∧ s'.unit = u ∧ s'.types = T ∧ s'.frame = none ∧ s'.routines = #[] ∧
      (∀ n, n ∈ uses ↔ n ∈ f.allUses.map (·.name)) ∧
      (s'.errors = [] → ∀ n ∈ uses, ∃ imp ∈ imports, imp.name = n ∧ imp.kind ≠ .program) := by
  let unitSymbol : Tree.Ident → Symbol := fun v =>
    { name := v.name, display := v.text, kind := .unit, module := v.name, span := v.span }
  unfold openScopes at hrun
  obtain ⟨builtins, s₁, hx, hrun⟩ := run_bind_inv hrun
  obtain ⟨h₁, -, houter₁, hnames₁, -⟩ := h.newScope .builtin ⟨nofun, nofun⟩ (.inl rfl) hx
  obtain ⟨_, s₂, hx, hrun⟩ := run_bind_inv hrun
  obtain ⟨h₂, hle₂, -⟩ := declareBuiltins_opens h₁ houter₁ hnames₁ hx
  obtain ⟨us, s₃, hx, hrun⟩ := run_bind_inv hrun
  obtain ⟨⟨es, rfl⟩, hsub, hall⟩ := distinctUses_run hx
  obtain ⟨innermost, s₄, hx, hrun⟩ := run_bind_inv hrun
  obtain ⟨h₄, -, houter₄, hfound⟩ := openUnits_opens (h₂.reports es) (hle₂.outer _ houter₁)
    (fun v hv => himports v (hsub hv)) hx
  obtain ⟨names, s₅, hx, hrun⟩ := run_bind_inv hrun
  obtain ⟨h₅, -, houter₅, hnames₅, herrors₅⟩ := h₄.newScope .block ⟨nofun, nofun⟩ (.inr houter₄) hx
  obtain ⟨_, s₆, hx, hrun⟩ := run_bind_inv hrun
  let P : Session → Prop := fun s₆ =>
    Opening R T u s₆ ∧ Opens s₅ s₆ ∧ ∃ taken, s₆.NamedBy names taken
  have hnamed : ∀ (v : Tree.Ident) s₆ s₇ d?, P s₆ →
      (tryDeclare names (unitSymbol v) false).run s₆ = .ok (d?, s₇) → P s₇ := by
    rintro v s₆ s₇ d? ⟨h₆, hle₆, taken, htaken⟩ hx
    obtain ⟨h₇, hle₇, -, -, htaken₇⟩ := tryDeclare_opens h₆ (hle₆.outer _ houter₅) htaken
      (unitSymbol_fits v) (fun _ => rfl) (by simp) hx
    exact ⟨h₇, hle₆.trans hle₇, _, htaken₇⟩
  have h₆ : P s₆ := by
    refine forM_run (P := P) ⟨h₅, .refl _, _, hnames₅⟩ (fun v _ s₆ s₇ h₆ hx => ?_) hx
    obtain ⟨unit?, s', hx', hx⟩ := run_bind_inv hx
    cases hx'
    split at hx
    · obtain ⟨d?, s', hx', hdone⟩ := run_bind_inv hx
      cases hdone
      exact hnamed v _ _ _ h₆ hx'
    · cases hx
      exact h₆
  obtain ⟨d?, s₇, hx, hrun⟩ := run_bind_inv hrun
  obtain ⟨h₇, hle₇, -⟩ := hnamed _ _ _ _ h₆ hx
  obtain ⟨scope, s₈, hx, hrun⟩ := run_bind_inv hrun
  obtain ⟨h₈, hle₈, houter₈, hnames₈, -⟩ :=
    h₇.newScope .unit ⟨nofun, nofun⟩ (.inr (hle₇.outer _ houter₅)) hx
  obtain ⟨_, s₉, hx, hrun⟩ := run_bind_inv hrun
  obtain ⟨rfl, rfl⟩ := Prod.mk.inj (Except.ok.inj hrun)
  obtain ⟨-, rfl⟩ := Prod.mk.inj (Except.ok.inj hx)
  refine ⟨h₈.stands hnames₈ houter₈ hsize.ge f.name.name, h₈.unit, h₈.types, h₈.frame, h₈.routines,
    fun n => ⟨fun hn => ?_, fun hn => ?_⟩, fun hnil n hn => ?_⟩
  · obtain ⟨v, hv, rfl⟩ := List.mem_map.mp hn
    exact List.mem_map.mpr ⟨v, hsub hv, rfl⟩
  · obtain ⟨v, hv, rfl⟩ := List.mem_map.mp hn
    simpa using hall v hv
  · obtain ⟨v, hv, rfl⟩ := List.mem_map.mp hn
    have hle := hle₇.errors.trans hle₈.errors
    rw [herrors₅] at hle
    exact hfound (List.prefix_nil.mp (hnil ▸ hle)) v hv

end Bind

end Pascaline.Bound
