import Pascaline.Proofs.Binding.Surroundings

/-!
# Symbols that are declared

Binding a symbol in a scope, together with the variable or the routine that it stands for, keeps what
holds of the session.
-/

namespace Pascaline.Bound

open TypeTable

variable {R : Realm} {E : Env} {s s₁ s' : Session} {t t' : TypeTable} {scope : ScopeId} {sc : Scope}
  {sym : Symbol} {x : SymbolId}

/-! ## One symbol more -/

/-- The session has one symbol more, and maybe variables or routines without a body. -/
structure Gains (s s' : Session) (scope : ScopeId) (sc : Scope) (sym : Symbol) : Prop where
  found : s.scopes.scope? scope = some sc
  scopes : s'.scopes = s.scopes.bind scope sc sym
  free : ∀ y ∈ sc.index.find sym.name, s.scopes.isRoutine y ∧ sym.kind.isRoutine
  unit : s'.unit = s.unit
  types : s'.types = s.types
  unitScope : s'.unitScope = s.unitScope
  unitScopes : s'.unitScopes = s.unitScopes
  classes : s'.classes = s.classes
  bodies : s'.bodies = s.bodies
  errors : s'.errors = s.errors
  globals : s.globals <+: s'.globals
  routines : s.routines.toList <+: s'.routines.toList
  bare : ∀ (i : Nat) (r : Routine), s'.routines[i]? = some r → s.routines.size ≤ i → r.hasBody = false

namespace Gains

theorem symbol? (hg : Gains s s' scope sc sym) (x : SymbolId) :
    s'.scopes.symbol? x =
      if x = s.scopes.symbols.size + 1 then some { sym with scope } else s.scopes.symbol? x := by
  rw [hg.scopes, ScopeTable.symbol?_bind]

theorem symbol?_of_some (hg : Gains s s' scope sc sym) {old : Symbol}
    (hx : s.scopes.symbol? x = some old) : s'.scopes.symbol? x = some old := by
  have hne : x ≠ s.scopes.symbols.size + 1 :=
    Nat.ne_of_lt (Nat.lt_succ_of_le (ScopeTable.symbol?_le hx))
  rw [hg.symbol?, if_neg hne, hx]

theorem scope? (hg : Gains s s' scope sc sym) (id : ScopeId) :
    s'.scopes.scope? id =
      if id = scope then some { sc with index := sc.index.push sym.name (s.scopes.symbols.size + 1)
                                        symbols := sc.symbols ++ [s.scopes.symbols.size + 1] }
      else s.scopes.scope? id := by
  rw [hg.scopes, ScopeTable.scope?_bind hg.found]

theorem scope_cases (hg : Gains s s' scope sc sym) {id : ScopeId} {sc' : Scope}
    (h : s'.scopes.scope? id = some sc') :
    ∃ old, s.scopes.scope? id = some old ∧ sc'.kind = old.kind ∧ sc'.parent = old.parent ∧
      (id ≠ scope ∧ sc' = old ∨
        id = scope ∧ old = sc ∧ sc'.index = sc.index.push sym.name (s.scopes.symbols.size + 1) ∧
          sc'.symbols = sc.symbols ++ [s.scopes.symbols.size + 1]) := by
  rw [hg.scope?] at h
  split at h
  · rename_i hid
    cases h
    exact ⟨sc, hid ▸ hg.found, rfl, rfl, .inr ⟨hid, rfl, rfl, rfl⟩⟩
  · rename_i hid
    exact ⟨sc', h, rfl, rfl, .inl ⟨hid, rfl⟩⟩

theorem scope?_of_some (hg : Gains s s' scope sc sym) {id : ScopeId} {old : Scope}
    (h : s.scopes.scope? id = some old) :
    ∃ sc', s'.scopes.scope? id = some sc' ∧ sc'.kind = old.kind ∧ sc'.parent = old.parent ∧
      ∀ name, ∀ x ∈ old.index.find name, x ∈ sc'.index.find name := by
  rw [hg.scope?]
  split
  · rename_i hid
    rw [hid, hg.found] at h
    cases h
    exact ⟨_, rfl, rfl, rfl, fun name x hx => NameIndex.mem_find_push.mpr (.inl hx)⟩
  · exact ⟨old, h, rfl, rfl, fun _ _ hx => hx⟩

theorem extends_ (hg : Gains s s' scope sc sym) : Extends s s' := by
  refine .of_types hg.unit hg.types ?_ hg.globals ?_ fun x old hx => hg.symbol?_of_some hx
  · rw [hg.errors]
  · rw [hg.classes]

theorem routine (hg : Gains s s' scope sc sym) {i : Nat} {r : Routine}
    (hr : s.routines[i]? = some r) : s'.routines[i]? = some r := by
  rw [← Array.getElem?_toList] at hr ⊢
  exact getElem?_of_listPrefix hg.routines hr

end Gains

theorem NamesFit.push {ids : List SymbolId} (h : NamesFit E t ids)
    (hsym : E.scopes.symbol? x = some sym) (hfits : SymbolFits E t sym)
    (hfree : ∀ y ∈ ids, E.scopes.isRoutine y ∧ sym.kind.isRoutine) : NamesFit E t (ids ++ [x]) := by
  refine ⟨?_, ?_⟩
  · intro y hy
    rcases List.mem_append.mp hy with hy | hy
    · exact h.symbols y hy
    · obtain rfl := List.mem_singleton.mp hy
      exact ⟨sym, hsym, hfits⟩
  · intro hlength y hy
    cases ids with
    | nil => simp at hlength
    | cons z zs =>
      rcases List.mem_append.mp hy with hy | hy
      · exact (hfree y hy).1
      · obtain rfl := List.mem_singleton.mp hy
        rw [isRoutine_of_symbol? hsym]
        exact (hfree z List.mem_cons_self).2

theorem Gains.names (hg : Gains s s' scope sc sym) {slots slots' : List Slot}
    {inner inner' : Option ScopeId} (hnames : ∀ name, NamesFit (s.env R slots inner) s.types (sc.index.find name))
    (hslots : slots <+: slots') (hsym : SymbolFits (s'.env R slots' inner') s.types sym) (name : String) :
    NamesFit (s'.env R slots' inner') s'.types
      ((sc.index.push sym.name (s.scopes.symbols.size + 1)).find name) := by
  have hgrows : s.types.Grows s'.types := hg.extends_.grows
  have hold : NamesFit (s'.env R slots' inner') s'.types (sc.index.find name) :=
    (hnames name).extend hg.extends_ hslots hgrows
  rw [NameIndex.find_push]
  split
  · rename_i hname
    have hnew : (s'.env R slots' inner').scopes.symbol? (s.scopes.symbols.size + 1) =
        some { sym with scope } := by
      rw [Session.env, hg.symbol?, if_pos rfl]
    refine hold.push hnew ?_ ?_
    · rw [hg.types]
      exact hsym.extend (.refl _) (.refl _) rfl scope
    · intro y hy
      obtain ⟨old, hy', -⟩ := (hnames name).symbols y hy
      have hfree := hg.free y (hname ▸ hy)
      refine ⟨?_, hfree.2⟩
      change s'.scopes.isRoutine y = true
      rw [isRoutine_of_symbol? (hg.symbol?_of_some hy'), ← isRoutine_of_symbol? hy']
      exact hfree.1
  · exact hold

namespace Gains

theorem symbol?_new (hg : Gains s s' scope sc sym) :
    s'.scopes.symbol? (s.scopes.symbols.size + 1) = some { sym with scope } := by
  rw [hg.symbol?, if_pos rfl]

theorem outer_names (hg : Gains s s' scope sc sym) (h : ScopesFit R s)
    (houter : sc.kind.isOuter → SymbolFits (s'.outer R) s.types sym)
    {id : ScopeId} {sc' : Scope} (hsc : s'.scopes.scope? id = some sc') (hkind : sc'.kind.isOuter)
    (name : String) : NamesFit (s'.outer R) s'.types (sc'.index.find name) := by
  have hext := hg.extends_
  obtain ⟨old, hold, hsame, -, hcases⟩ := hg.scope_cases hsc
  rw [hsame] at hkind
  rcases hcases with ⟨-, rfl⟩ | ⟨rfl, rfl, hindex, -⟩
  · exact (h.names id sc' name hold hkind).extend hext (List.prefix_refl _) hext.grows
  · rw [hindex]
    exact hg.names (fun name => h.names id _ name hold hkind) (List.prefix_refl _) (houter hkind) name

theorem listed (hg : Gains s s' scope sc sym) (h : ScopesFit R s) {id : ScopeId} {sc' : Scope}
    (hsc : s'.scopes.scope? id = some sc') : sc'.symbols.Nodup ∧
      ∀ x ∈ sc'.symbols, ∃ sym, s'.scopes.symbol? x = some sym ∧ x ∈ sc'.index.find sym.name := by
  obtain ⟨old, hold, -, -, hcases⟩ := hg.scope_cases hsc
  obtain ⟨hnodup, hlisted⟩ := h.listed id old hold
  rcases hcases with ⟨-, rfl⟩ | ⟨-, rfl, hindex, hsymbols⟩
  · refine ⟨hnodup, fun x hx => ?_⟩
    obtain ⟨old, hx', hmem⟩ := hlisted x hx
    exact ⟨old, hg.symbol?_of_some hx', hmem⟩
  · rw [hsymbols, hindex]
    refine ⟨List.nodup_append.mpr ⟨hnodup, List.nodup_singleton _, ?_⟩, fun x hx => ?_⟩
    · rintro x hx y hy rfl
      obtain rfl := List.mem_singleton.mp hy
      obtain ⟨old, hx', -⟩ := hlisted _ hx
      exact absurd (ScopeTable.symbol?_le hx') (Nat.not_succ_le_self _)
    · rcases List.mem_append.mp hx with hx | hx
      · obtain ⟨old, hx', hmem⟩ := hlisted x hx
        exact ⟨old, hg.symbol?_of_some hx', NameIndex.mem_find_push.mpr (.inl hmem)⟩
      · obtain rfl := List.mem_singleton.mp hx
        exact ⟨_, hg.symbol?_new, NameIndex.mem_find_push.mpr (.inr ⟨rfl, rfl⟩)⟩

theorem own (hg : Gains s s' scope sc sym) (h : ScopesFit R s)
    (hown : scope = s.unitScope → OwnFits s sym) {sc' : Scope}
    (hsc : s'.scopes.scope? s'.unitScope = some sc') : sc'.kind.isOuter ∧
      ∀ name, ∀ x ∈ sc'.index.find name, ∃ sym, s'.scopes.symbol? x = some sym ∧ sym.name = name ∧
        OwnFits s' sym := by
  rw [hg.unitScope] at hsc
  obtain ⟨old, hold, hkind, -, hcases⟩ := hg.scope_cases hsc
  obtain ⟨hkind', hsyms⟩ := h.own old hold
  refine ⟨hkind ▸ hkind', fun name x hx => ?_⟩
  have hkeep : x ∈ old.index.find name → ∃ sym, s'.scopes.symbol? x = some sym ∧
      sym.name = name ∧ OwnFits s' sym := by
    intro hx
    obtain ⟨old, hx', hname, hfits⟩ := hsyms name x hx
    exact ⟨old, hg.symbol?_of_some hx', hname, hfits.extend hg.extends_ rfl old.scope⟩
  rcases hcases with ⟨-, rfl⟩ | ⟨hscope, rfl, hindex, -⟩
  · exact hkeep hx
  · rw [hindex] at hx
    rcases NameIndex.mem_find_push.mp hx with hx | ⟨rfl, rfl⟩
    · exact hkeep hx
    · exact ⟨_, hg.symbol?_new, rfl, (hown hscope.symm).extend hg.extends_ rfl scope⟩

theorem scopesFit (hg : Gains s s' scope sc sym) (h : ScopesFit R s)
    (houter : sc.kind.isOuter → SymbolFits (s'.outer R) s.types sym)
    (hown : scope = s.unitScope → OwnFits s sym) : ScopesFit R s' := by
  constructor
  case placed =>
    rw [hg.unitScope, hg.scopes, ScopeTable.size_scopes_bind]
    exact h.placed
  case names => exact fun id sc' name hsc hkind => hg.outer_names h houter hsc hkind name
  case parents =>
    intro id sc' hsc'
    obtain ⟨old, hold, -, hsame, -⟩ := hg.scope_cases hsc'
    obtain ⟨hle, hparents⟩ := h.parents id old hold
    rw [hsame, hg.scopes, ScopeTable.size_scopes_bind, ← hg.scopes]
    refine ⟨hle, fun parent hparent => ?_⟩
    obtain ⟨oldParent, hold', hkind, -, -⟩ := hg.scope_cases hparent
    rw [hkind]
    exact hparents oldParent hold'
  case listed => exact fun id sc' hsc => hg.listed h hsc
  case units =>
    intro p hp
    rw [hg.unitScopes] at hp
    obtain ⟨sc', hsc', hkind⟩ := h.units p hp
    obtain ⟨sc'', hsc'', hkind', -⟩ := hg.scope?_of_some hsc'
    exact ⟨sc'', hsc'', hkind' ▸ hkind⟩
  case own => exact fun sc' hsc => hg.own h hown hsc

theorem headFits (hg : Gains s s' scope sc sym) {c : ClassHead} (h : HeadFits R s c)
    (hmember : c.scope = scope → MemberFits R s c.id sym) : HeadFits R s' c := by
  have hext := hg.extends_
  obtain ⟨hlater, hkey, hnamed, sc₀, hsc₀, hkind, hmembers⟩ := h
  have hkeep : ∀ name, ∀ x ∈ sc₀.index.find name, ∃ sym, s'.scopes.symbol? x = some sym ∧
      sym.name = name ∧ MemberFits R s' c.id sym := by
    intro name x hx
    obtain ⟨old, hx', hname, hfits⟩ := hmembers name x hx
    exact ⟨old, hg.symbol?_of_some hx', hname, hfits.extend hext rfl old.scope⟩
  refine ⟨hlater, ?_, ?_, ?_⟩
  · rw [hg.unit, hg.types]
    exact hkey
  · rw [hg.unitScope]
    obtain ⟨y, hy⟩ := List.exists_mem_of_ne_nil _ hnamed
    unfold ScopeTable.lookupLocal at hy ⊢
    split at hy
    · rename_i sc₁ hsc₁
      obtain ⟨sc₂, hsc₂, -, -, hkeep⟩ := hg.scope?_of_some hsc₁
      rw [hsc₂]
      exact List.ne_nil_of_mem (hkeep _ y hy)
    · cases hy
  · rw [hg.scope?]
    split
    · rename_i hscope
      rw [hscope, hg.found] at hsc₀
      cases hsc₀
      refine ⟨_, rfl, hkind, fun name x hx => ?_⟩
      rcases NameIndex.mem_find_push.mp hx with hx | ⟨rfl, rfl⟩
      · exact hkeep name x hx
      · exact ⟨_, hg.symbol?_new, rfl, (hmember hscope).extend hext rfl scope⟩
    · exact ⟨sc₀, hsc₀, hkind, hkeep⟩

theorem headsFit (hg : Gains s s' scope sc sym) (h : HeadsFit R s)
    (hmember : ∀ c ∈ s.classes, c.scope = scope → MemberFits R s c.id sym) : HeadsFit R s' := by
  refine ⟨?_, ?_⟩
  · rw [hg.classes]
    exact fun c hc => hg.headFits (h.heads c hc) (hmember c hc)
  · rw [hg.classes]
    exact h.apart

theorem codeFits (hg : Gains s s' scope sc sym) (h : CodeFits R s)
    (hcode : sym.isOwn s.unit → sym.kind.hasCode → ∃ (i : Nat) (r : Routine), sym.routine = i ∧
      s'.routines[i]? = some r ∧ r.symbol = s.scopes.symbols.size + 1 ∧ r.owner = sym.owner) :
    CodeFits R s' := by
  constructor
  case routines =>
    intro x old hx hown hcode'
    rw [hg.unit] at hown
    rw [hg.symbol?] at hx
    split at hx
    · rename_i hnew
      cases hx
      rw [hnew]
      exact hcode hown hcode'
    · obtain ⟨i, r, hi, hr, hsymbol, howner⟩ := h.routines x old hx hown hcode'
      exact ⟨i, r, hi, hg.routine hr, hsymbol, howner⟩
  case bodies =>
    intro p hp
    rw [hg.bodies] at hp
    exact (h.bodies p hp).extend hg.extends_
  case bodied =>
    intro i r hr hbody hne
    rw [hg.bodies]
    by_cases hi : i < s.routines.size
    · have hold := hg.routine (Array.getElem?_eq_getElem hi)
      rw [hold] at hr
      exact h.bodied i r (by rw [Array.getElem?_eq_getElem hi, ← hr]) hbody hne
    · rw [hg.bare i r hr (Nat.le_of_not_lt hi)] at hbody
      cases hbody

end Gains

theorem Sited.gains (h : Sited R s) (hg : Gains s s' scope sc sym)
    (houter : sc.kind.isOuter → SymbolFits (s'.outer R) s.types sym)
    (hown : scope = s.unitScope → OwnFits s sym)
    (hmember : ∀ c ∈ s.classes, c.scope = scope → MemberFits R s c.id sym)
    (hcode : sym.isOwn s.unit → sym.kind.hasCode → ∃ (i : Nat) (r : Routine), sym.routine = i ∧
      s'.routines[i]? = some r ∧ r.symbol = s.scopes.symbols.size + 1 ∧ r.owner = sym.owner) :
    Sited R s' := by
  refine ⟨h.toTypesFit.widen hg.extends_ ?_ ?_, hg.scopesFit h.toScopesFit houter hown,
    hg.headsFit h.toHeadsFit hmember, hg.codeFits h.toCodeFits hcode⟩
  · rw [hg.types]
    exact .refl _
  · rw [hg.types]
    exact h.formed

/-! ## Scopes that are opened -/

section

variable {parent : ScopeId}

theorem extends_newScope (s : Session) (kind : ScopeKind) (parent : ScopeId) :
    Extends s { s with scopes := (s.scopes.newScope kind parent).2 } :=
  .of_types rfl rfl (List.prefix_refl _) (List.prefix_refl _) (List.prefix_refl _) fun _ _ hx => hx

theorem ScopesFit.newScope (h : ScopesFit R s) (kind : ScopeKind)
    (hle : parent ≤ s.scopes.scopes.size)
    (hparent : ∀ sc, s.scopes.scope? parent = some sc → sc.kind.isOuter) :
    ScopesFit R { s with scopes := (s.scopes.newScope kind parent).2 } := by
  have hext := extends_newScope s kind parent
  have hcases : ∀ {id sc}, (s.scopes.newScope kind parent).2.scope? id = some sc →
      sc = { kind, parent } ∨ s.scopes.scope? id = some sc := by
    intro id sc hsc
    rw [ScopeTable.scope?_newScope] at hsc
    split at hsc
    · exact .inl (Option.some.inj hsc).symm
    · exact .inr hsc
  have hbelow : ∀ {id sc}, id ≤ s.scopes.scopes.size →
      (s.scopes.newScope kind parent).2.scope? id = some sc → s.scopes.scope? id = some sc :=
    fun hid hsc => (ScopeTable.scope?_newScope_of_le kind parent hid).symm.trans hsc
  have hsize : (s.scopes.newScope kind parent).2.scopes.size = s.scopes.scopes.size + 1 :=
    Array.size_push _
  constructor
  case placed => exact hsize ▸ Nat.le_succ_of_le h.placed
  case names =>
    intro id sc name hsc hkind
    rcases hcases hsc with rfl | hsc
    · exact .nil
    · exact (h.names id sc name hsc hkind).extend hext (List.prefix_refl _) (.refl _)
  case parents =>
    intro id sc hsc
    rcases hcases hsc with rfl | hsc
    · exact ⟨hsize ▸ Nat.le_succ_of_le hle, fun p hp => hparent p (hbelow hle hp)⟩
    · obtain ⟨hle, hparents⟩ := h.parents id sc hsc
      exact ⟨hsize ▸ Nat.le_succ_of_le hle, fun p hp => hparents p (hbelow hle hp)⟩
  case listed =>
    intro id sc hsc
    rcases hcases hsc with rfl | hsc
    · exact ⟨List.nodup_nil, fun x hx => by cases hx⟩
    · exact h.listed id sc hsc
  case units =>
    intro p hp
    obtain ⟨sc, hsc, hkind⟩ := h.units p hp
    exact ⟨sc, ScopeTable.scope?_newScope_of_some kind parent hsc, hkind⟩
  case own =>
    intro sc hsc
    obtain ⟨hkind, hown⟩ := h.own sc (hbelow h.placed hsc)
    refine ⟨hkind, fun name x hx => ?_⟩
    obtain ⟨sym, hsym, hname, hfits⟩ := hown name x hx
    exact ⟨sym, hsym, hname, hfits.extend hext rfl sym.scope⟩

theorem Sited.newScope (h : Sited R s) (kind : ScopeKind) (hle : parent ≤ s.scopes.scopes.size)
    (hparent : ∀ sc, s.scopes.scope? parent = some sc → sc.kind.isOuter) :
    Sited R { s with scopes := (s.scopes.newScope kind parent).2 } := by
  have hext := extends_newScope s kind parent
  exact ⟨h.toTypesFit.widen hext (.refl _) h.formed, h.toScopesFit.newScope kind hle hparent,
    ⟨fun c hc => (h.heads c hc).keep hext (ScopeTable.scope?_newScope_of_some kind parent) rfl,
      h.apart⟩,
    ⟨h.routines, fun p hp => (h.bodies p hp).extend hext, h.bodied⟩⟩

end

/-! ## Flags that change -/

/-- A symbol has lost a flag. -/
structure Settles (s s' : Session) (x : SymbolId) (sym : Symbol) : Prop where
  found : s.scopes.symbol? x = some sym
  after : s' = { s with
    scopes := s.scopes.setSymbol x { sym with flags := sym.flags.without .forward } }

theorem Settles.symbol? (h : Settles s s' x sym) (y : SymbolId) :
    s'.scopes.symbol? y = if y = x then some { sym with flags := sym.flags.without .forward }
      else s.scopes.symbol? y := by
  rw [h.after, ScopeTable.symbol?_setSymbol h.found]

theorem Settles.extends_ (h : Settles s s' x sym) : Extends s s' := by
  have hsymbols := h.symbol?
  obtain ⟨hfound, rfl⟩ := h
  refine ⟨rfl, List.prefix_refl _, .refl _, fun _ _ hc _ => hc, id,
    (Extends.refl s).own, ?_, List.prefix_refl _, List.prefix_refl _⟩
  intro y old hy
  rw [hsymbols]
  split
  · rename_i hyx
    rw [hyx, hfound, Option.some.injEq] at hy
    subst hy
    exact ⟨_, rfl, sym.flags.has_without rfl, sym.flags.has_without rfl⟩
  · exact ⟨old.flags, hy, rfl, rfl⟩

theorem Settles.retains (h : Settles s s' x sym) : Retains s s' := by
  have hsymbols := h.symbol?
  obtain ⟨hfound, rfl⟩ := h
  refine ⟨fun _ => ScopeTable.scope?_setSymbol _ _ _ _, ?_, fun y new hy => ?_, rfl, rfl⟩
  · unfold ScopeTable.setSymbol
    split <;> rfl
  · rw [hsymbols] at hy
    split at hy
    · rename_i hyx
      exact ⟨sym, hyx ▸ hfound⟩
    · exact ⟨new, hy⟩

theorem Sited.settles (h : Sited R s) (hs : Settles s s' x sym) : Sited R s' := by
  have hext := hs.extends_
  have hr := hs.retains
  obtain ⟨-, rfl⟩ := hs
  exact ⟨h.toTypesFit.widen hext (.refl _) h.formed, h.toScopesFit.retains hext hr,
    h.toHeadsFit.retains hext hr rfl, h.toCodeFits.retains hext hr rfl rfl⟩

/-! ## Routines and bodies -/

theorem Sited.recode (h : Sited R s) (hle : Extends s s') (htypes : s'.types = s.types)
    (hscopes : s'.scopes = s.scopes) (hunitScope : s'.unitScope = s.unitScope)
    (hunitScopes : s'.unitScopes = s.unitScopes) (hclasses : s'.classes = s.classes)
    (hcode : CodeFits R s') : Sited R s' := by
  refine ⟨h.toTypesFit.widen hle ?_ ?_, h.toScopesFit.extend hle hscopes hunitScope hunitScopes,
    h.toHeadsFit.retains hle (.of_scopes hscopes hunitScope hunitScopes) hclasses, hcode⟩
  · rw [htypes]
    exact .refl _
  · rw [htypes]
    exact h.formed

theorem Sited.same (h : Sited R s) (hle : Extends s s') (htypes : s'.types = s.types)
    (hscopes : s'.scopes = s.scopes) (hunitScope : s'.unitScope = s.unitScope)
    (hunitScopes : s'.unitScopes = s.unitScopes) (hclasses : s'.classes = s.classes)
    (hroutines : s'.routines = s.routines) (hbodies : s'.bodies = s.bodies) : Sited R s' :=
  h.recode hle htypes hscopes hunitScope hunitScopes hclasses
    (h.toCodeFits.retains hle (.of_scopes hscopes hunitScope hunitScopes) hroutines hbodies)

theorem Sited.queue (h : Sited R s) {p : PendingBody} (hp : PendingFits R s p) (span : Span) :
    Sited R { s with
      routines := s.routines.modify p.routine fun r => { r with hasBody := true, span }
      bodies := s.bodies ++ [p] } := by
  refine h.recode (.of_types rfl rfl (List.prefix_refl _) (List.prefix_refl _)
      (List.prefix_refl _) fun _ _ hx => hx)
    rfl rfl rfl rfl rfl ⟨?_, ?_, ?_⟩
  · intro x sym hsym hown hcode
    obtain ⟨i, r, hi, hr, hsymbol, howner⟩ := h.routines x sym hsym hown hcode
    refine ⟨i, if p.routine = i then { r with hasBody := true, span } else r, hi, ?_, ?_, ?_⟩
    · simp only [Array.getElem?_modify, hr]
      split <;> rfl
    · split <;> exact hsymbol
    · split <;> exact howner
  · intro q hq
    rcases List.mem_append.mp hq with hq | hq
    · exact (h.bodies q hq).extend
        (.of_types rfl rfl (List.prefix_refl _) (List.prefix_refl _)
      (List.prefix_refl _) fun _ _ hx => hx)
    · obtain rfl := List.mem_singleton.mp hq
      exact hp.extend (.of_types rfl rfl (List.prefix_refl _) (List.prefix_refl _)
      (List.prefix_refl _) fun _ _ hx => hx)
  · intro i r hr hbody hne
    simp only [Array.getElem?_modify] at hr
    split at hr
    · rename_i hi
      exact ⟨p, by simp, hi⟩
    · obtain ⟨q, hq, hi⟩ := h.bodied i r hr hbody hne
      exact ⟨q, by simp [hq], hi⟩

/-- A routine without a name is added, or one that is there changes but for its name. -/
theorem Sited.amend (h : Sited R s) {routines : Array Routine}
    (hold : ∀ (i : Nat) (r : Routine), s.routines[i]? = some r → ∃ r' : Routine,
      routines[i]? = some r' ∧ r'.symbol = r.symbol ∧ r'.owner = r.owner)
    (hnew : ∀ (i : Nat) (r : Routine), routines[i]? = some r → r.hasBody → r.symbol ≠ 0 →
      ∃ r₀, s.routines[i]? = some r₀ ∧ r₀.hasBody ∧ r₀.symbol = r.symbol) :
    Sited R { s with routines } := by
  have hext : Extends s { s with routines } :=
    .of_types rfl rfl (List.prefix_refl _) (List.prefix_refl _)
      (List.prefix_refl _) fun _ _ hx => hx
  refine h.recode hext rfl rfl rfl rfl rfl
    ⟨?_, fun p hp => (h.bodies p hp).extend hext, ?_⟩
  · intro x sym hsym hown hcode
    obtain ⟨i, r, hi, hr, hsymbol, howner⟩ := h.routines x sym hsym hown hcode
    obtain ⟨r', hr', hsymbol', howner'⟩ := hold i r hr
    exact ⟨i, r', hi, hr', hsymbol'.trans hsymbol, howner'.trans howner⟩
  · intro i r hr hbody hne
    obtain ⟨r₀, hr₀, hbody₀, hsymbol⟩ := hnew i r hr hbody hne
    exact h.bodied i r₀ hr₀ hbody₀ (hsymbol ▸ hne)

/-! ## Where binding is at -/

theorem FrameFits.extend {f f' : Frame} (h : FrameFits (s.here R) s.types f) (hle : Proceeds s s')
    (hf : s.frame = some f) (hf' : s'.frame = some f') : FrameFits (s'.here R) s'.types f' := by
  have hfixed := hle.frame
  rw [hf, hf', Option.map_some, Option.map_some, Option.some.injEq] at hfixed
  have howner : f'.fixed.owner = f.fixed.owner := congrArg _ hfixed
  have hresult : f'.fixed.result = f.fixed.result := congrArg _ hfixed
  change f'.owner = f.owner at howner
  change f'.result = f.result at hresult
  have hslots : s.slots = f.slots := by simp [Session.slots, hf]
  have hslots' : s'.slots = f'.slots := by simp [Session.slots, hf']
  have hE := hle.here_le R
  refine ⟨?_, ?_⟩
  · rw [howner]
    intro hne
    obtain ⟨⟨key, hkey, hknown⟩, hslot⟩ := h.owner hne
    exact ⟨⟨key, hle.grows.keyOf? hkey, hE.known _ _ hknown⟩, hE.slot _ _ hslot⟩
  · rw [hresult]
    intro n hn
    obtain ⟨⟨sl, hget, htype⟩, hwithin⟩ := h.result n hn
    have hget' : s'.slots[n]? = some sl := getElem?_of_listPrefix hle.slots hget
    have hsame : (f'.slots.getD n default) = f.slots.getD n default := by
      rw [hslots] at hget
      rw [hslots'] at hget'
      rw [List.getD_eq_getElem?_getD, List.getD_eq_getElem?_getD, hget, hget']
    rw [hsame]
    exact ⟨⟨sl, hget', htype⟩, (hwithin.weaken hE.known).mono hle.grows⟩

theorem Session.Headed.extend (h : s.Headed R) (htypes : s'.types = s.types)
    (hclasses : s'.classes = s.classes) : s'.Headed R := by
  unfold Session.Headed
  rw [htypes, hclasses]
  exact h

theorem Stands.keep (hs : Stands R s) (hs' : Sited R s') (hle : Proceeds s s')
    (hheaded : s'.Headed R) (hscopes : ∀ id, s'.scopes.scope? id = s.scopes.scope? id) :
    Stands R s' := by
  refine ⟨hs', hheaded, ?_, ?_, ?_⟩
  · rw [hle.unitScope, hscopes]
    exact hs.rooted
  · intro hnone
    rw [hle.scope, hle.unitScope]
    refine hs.outside ?_
    simpa [hnone] using hle.frame.symm
  · intro f' hf'
    have hinner := hle.inner
    rw [hf', Option.map_some] at hinner
    obtain ⟨f, hf, hsame⟩ := Option.map_eq_some_iff.mp hinner.symm
    obtain ⟨hin, hframe⟩ := hs.inside f hf
    obtain ⟨sc, hsc, hkind, hnames⟩ := hin.found
    refine ⟨⟨hle.scope.trans (hin.scope.trans hsame), sc, ?_, hkind, fun name => ?_⟩,
      hframe.extend hle hf hf'⟩
    · rw [hscopes, ← hsame, hsc]
    · exact (hnames name).extend hle.toExtends hle.slots hle.grows

theorem Stands.kind (hs : Stands R s) (hsc : s.scopes.scope? s.scope = some sc) :
    sc.kind ≠ .classBody ∧ (sc.kind.isOuter → s.frame = none) := by
  cases hframe : s.frame with
  | none =>
    rw [hs.outside hframe] at hsc
    exact ⟨(hs.sited.own sc hsc).1.1, fun _ => rfl⟩
  | some f =>
    have hin := (hs.inside f hframe).1
    obtain ⟨sc', hsc', hkind, -⟩ := hin.found
    rw [hin.scope, hsc', Option.some.injEq] at hsc
    rw [← hsc, hkind]
    exact ⟨by decide, fun h => absurd rfl h.2⟩

theorem Stands.gains (hs : Stands R s) (hg : Gains s s' s.scope sc sym) (hle : Proceeds s s')
    (hsym : SymbolFits (s'.here R) s.types sym) (hown : OwnFits s sym)
    (hcode : sym.isOwn s.unit → sym.kind.hasCode → ∃ (i : Nat) (r : Routine), sym.routine = i ∧
      s'.routines[i]? = some r ∧ r.symbol = s.scopes.symbols.size + 1 ∧ r.owner = sym.owner) :
    Stands R s' := by
  obtain ⟨hclass, houter⟩ := hs.kind hg.found
  refine ⟨hs.sited.gains hg ?_ (fun _ => hown) ?_ hcode, ?_, ?_, ?_, ?_⟩
  · intro hkind
    have hnone' := hle.frame_none (houter hkind)
    simpa [Session.here, Session.slots, hnone'] using hsym
  · intro c hc hscope
    obtain ⟨sc', hsc', hkind, -⟩ := (hs.sited.heads c hc).members
    rw [hscope, hg.found, Option.some.injEq] at hsc'
    exact absurd (hsc' ▸ hkind) hclass
  · exact hs.headed.extend hg.types hg.classes
  · obtain ⟨sc', hsc'⟩ := hs.rooted
    obtain ⟨sc'', hsc'', -⟩ := hg.scope?_of_some hsc'
    exact ⟨sc'', hg.unitScope ▸ hsc''⟩
  · intro hnone
    rw [hle.scope, hle.unitScope]
    refine hs.outside ?_
    simpa [hnone] using hle.frame.symm
  · intro f' hf'
    have hinner := hle.inner
    rw [hf', Option.map_some] at hinner
    obtain ⟨f, hf, hsame⟩ := Option.map_eq_some_iff.mp hinner.symm
    obtain ⟨hin, hframe⟩ := hs.inside f hf
    refine ⟨⟨hle.scope.trans (hin.scope.trans hsame), ?_⟩, hframe.extend hle hf hf'⟩
    obtain ⟨sc', hsc', hkind, hnames⟩ := hin.found
    rw [← hin.scope, hg.found, Option.some.injEq] at hsc'
    subst hsc'
    have hfound := hg.scope? s.scope
    rw [if_pos rfl, hin.scope, hsame] at hfound
    exact ⟨_, hfound, hkind, hg.names hnames hle.slots hsym⟩

end Pascaline.Bound
