import Pascaline.Proofs.Binding.Files

/-!
# Bound modules

What a module that was bound without errors holds, apart from the session that it was bound in: its
expressions, its classes and its exported symbols refer to what is there, in the module itself or in
the units that it uses, and each of its routines has its slots in order.
-/

namespace Pascaline.Bound

open TypeTable

variable {R : Realm} {T t : TypeTable} {u : String} {s s' : Session} {m : Module}

/-- A unit has entered types and classes. Those that were there are as they were if they were done. -/
structure Adds (T t : TypeTable) (u : String) : Prop where
  sound : t.Sound
  titled : t.Titled
  grows : T.Grows t
  done : ∀ id c, T.classInfo? id = some c → c.state = .done → t.classInfo? id = some c
  own : ∀ id c, t.classInfo? id = some c → c.key.module = u ∨ T.keyOf? id = some c.key

namespace Module

/-- The routine is one of the module, and has so many parameters. -/
def Takes (m : Module) (r : RoutineRef) (n : Nat) : Prop :=
  ∃ (i : Nat) (code : Routine), r = ⟨m.name, i⟩ ∧ m.routines[i]? = some code ∧ code.params = n

/-- The variable is one of the module, and has this type. -/
def Holds (m : Module) (module : String) (slot : Int) (type : TypeId) : Prop :=
  module = m.name ∧ ∃ (n : Nat) (sl : Slot), slot = n ∧ m.globals[n]? = some sl ∧ sl.type = type

/-- What a name in the module may stand for, in a frame of these slots. -/
def env (m : Module) (R : Realm) (slots : List Slot) : Env where
  known _ n := n = m.name ∨ R.known n
  takes r n := R.takes r n ∨ m.Takes r n
  holds module slot type := R.holds module slot type ∨ m.Holds module slot type
  slot n type := ∃ sl, slots[n]? = some sl ∧ sl.type = type
  scopes := m.scopes
  opens _ := False

/-- The module is what the session has declared, and exports symbols of the unit. -/
structure Tells (m : Module) (s : Session) : Prop where
  name : m.name = s.unit
  globals : m.globals = s.globals
  routines : m.routines = s.routines.toList
  scopes : m.scopes = s.scopes
  classes : m.classes = s.classes.map (·.id)
  exports : ∃ isExported : SymbolId → Bool, m.exports =
    (((s.scopes.scope? s.unitScope).map (·.symbols)).getD []).filter isExported

/-- A symbol that the module exports: it is there and the module's own. -/
structure Exports (R : Realm) (t : TypeTable) (m : Module) (sym : Symbol) : Prop where
  fits : SymbolFits (m.env R []) t sym
  module : sym.module = m.name
  flags : sym.flags.without .imported = sym.flags

/-- The bodies of the module refer to nothing but what is there, and its routines have their slots in
order. -/
structure Refers (R : Realm) (t : TypeTable) (m : Module) : Prop where
  bodies : ∀ r ∈ m.routines, BodyFits (m.env R r.slots) t r.body
  routines : ∀ r ∈ m.routines, r.Nameless ∨
    ∃ sym, m.scopes.symbol? r.symbol = some sym ∧ r.Follows m.scopes sym

/-- The module refers to nothing but what is there, and no other classes are under its name. -/
structure Fits (R : Realm) (t : TypeTable) (m : Module) : Prop extends m.Refers R t where
  table : TableFits (m.env R []) t
  classes : m.classes.Nodup ∧ ∀ id, id ∈ m.classes ↔
    ∃ c, t.classInfo? id = some c ∧ c.key.module = m.name
  exports : ∀ x ∈ m.exports, ∃ sym, m.scopes.symbol? x = some sym ∧ m.Exports R t sym
  overloads : (m.exports.filterMap m.scopes.symbol?).Pairwise fun a b =>
    a.name = b.name → b.kind.isRoutine

end Module

/-- A routine is laid out as its symbol says, whatever flags that has since lost. -/
theorem Routine.Follows.extend {r : Routine} {sym : Symbol} {flags : SymbolFlags}
    (h : r.Follows s.scopes sym) (hle : Extends s s') :
    r.Follows s'.scopes { sym with flags } := by
  obtain ⟨⟨scope, params, locals, hslots, hlength, hnamed⟩, hparams, hresult⟩ := h
  exact ⟨⟨scope, params, locals, hslots, hlength, fun i sl hi => hle.namesParam (hnamed i sl hi)⟩,
    hparams, hresult⟩

/-- Every routine of the session is laid out as its symbol says, but for that of the file. -/
def Session.Filled (s : Session) : Prop :=
  ∀ r ∈ s.routines, r.Nameless ∨ ∃ sym, s.scopes.symbol? r.symbol = some sym ∧ r.Follows s.scopes sym

theorem Session.Takes.params {r : RoutineRef} {n : Nat} (h : s.Takes r n) (hs : Sited R s)
    (hfilled : s.Filled) : ∃ (i : Nat) (code : Routine), r = ⟨s.unit, i⟩ ∧
      s.routines[i]? = some code ∧ code.params = n := by
  obtain ⟨x, sym, hsym, hown, hcode, rfl, rfl⟩ := h
  obtain ⟨i, code, hi, hget, hsymbol, -⟩ := hs.routines x sym hsym hown hcode
  refine ⟨i, code, by rw [hi], hget, ?_⟩
  rcases hfilled code (Array.mem_of_getElem? hget) with hnameless | ⟨sym', hsym', hfollows⟩
  · rw [← hsymbol, hnameless.symbol] at hsym
    cases hsym
  · rw [hsymbol, hsym, Option.some.injEq] at hsym'
    rw [hfollows.params, hsym']

namespace Bind

theorem declarations_site (hs : Stands R s) (hnone : s.frame = none) (f : Tree.File) :
    Sites R s (declarations f) fun _ s' => s'.frame = none := by
  unfold declarations
  refine (registerClasses_sites hs hnone _ _).bind fun _ s₁ h₁ _ hnone₁ => ?_
  refine (registerClasses_sites h₁ hnone₁ _ _).bind fun _ s₂ h₂ _ hnone₂ => ?_
  refine (declareAll_sites h₂ hnone₂ _ _).bind fun _ s₃ h₃ _ hnone₃ => ?_
  refine (declareAll_sites h₃ hnone₃ _ _).bind fun _ s₄ h₄ _ hnone₄ => ?_
  refine ((layoutClasses_sites h₄ hnone₄).outside hnone₄).bind fun _ s₅ h₅ _ hnone₅ => ?_
  refine .read rfl (Sites.forM h₅ hnone₅ fun d _ s₆ h₆ hnone₆ => ?_)
  split
  · exact (attachMethod_sites h₆ hnone₆ d _).outside hnone₆
  · exact .pure h₆ hnone₆

/-- All routines that were declared have their bodies if there are no errors. -/
theorem allBodies_fill {f : Tree.File} {body : Option Nat} (hs : Stands R s) (hnone : s.frame = none)
    (hidle : s.Idle) (hrun : (allBodies f).run s = .ok (body, s')) :
    Stands R s' ∧ Extends s s' ∧ s'.unitScope = s.unitScope ∧ s'.BodiesFit R ∧
      (s'.errors = [] → s'.Filled) := by
  unfold allBodies at hrun
  obtain ⟨es, hcheck, hbodied⟩ := checkBodies_run s
  obtain ⟨_, s₁, hx, hrun⟩ := run_bind_inv hrun
  rw [hcheck] at hx
  obtain ⟨-, rfl⟩ := Prod.mk.inj (Except.ok.inj hx)
  obtain ⟨h₁, hle₁⟩ := Sites.reports es hs
  rw [run_read (x := get) (b := { s with errors := s.errors ++ es }) rfl] at hrun
  obtain ⟨_, s₂, hx, hrun⟩ := run_bind_inv hrun
  obtain ⟨h₂, hall⟩ := routineBodies_fill s.bodies h₁ hnone (fun _ hp => hp) hx
  have hle₂ := hle₁.toExtends.trans h₂.toExtends
  have hfits₂ := h₂.fits (Session.Idle.bodiesFit hidle)
  -- A routine that has a symbol has a body, and that was bound.
  have hfilled₂ : s₂.errors = [] → s₂.Filled := by
    intro hnil r hr
    obtain ⟨i, hi⟩ := Array.mem_iff_getElem?.mp hr
    have hsymbols := congrArg (·[i]?) h₂.map_symbol
    simp only [Array.getElem?_map, hi, Option.map_some] at hsymbols
    obtain ⟨r₀, hr₀, hsame⟩ := Option.map_eq_some_iff.mp hsymbols.symm
    obtain ⟨hne, -⟩ := hidle r₀ (Array.mem_of_getElem? hr₀)
    have hes : es = [] := (List.append_eq_nil_iff.mp (h₂.errors_nil hnil)).2
    obtain ⟨p, hp, rfl⟩ := hs.sited.bodied i r₀ hr₀
      (hbodied hes r₀ (Array.mem_of_getElem? hr₀) hne) hne
    obtain ⟨r', sym, hr', hsym, hfollows⟩ := hall p hp
    rw [hi, Option.some.injEq] at hr'
    subst hr'
    exact .inr ⟨sym, hsym, hfollows hnil⟩
  cases hblock : f.body with
  | none =>
    rw [hblock] at hrun
    cases hrun
    exact ⟨h₂.stands, hle₂, h₂.unitScope, hfits₂, hfilled₂⟩
  | some block =>
    rw [hblock] at hrun
    obtain ⟨i, s₃, hx, hrun⟩ := run_bind_inv hrun
    obtain ⟨rfl, rfl⟩ := Prod.mk.inj (Except.ok.inj hrun)
    obtain ⟨-, h₃, hle₃, -, hunitScope₃, hfits₃, r, hroutines, hnameless⟩ :=
      fileBody_stores h₂.stands h₂.frame hfits₂ hx
    refine ⟨h₃, hle₂.trans hle₃, hunitScope₃.trans h₂.unitScope, hfits₃, fun hnil q hq => ?_⟩
    rw [hroutines] at hq
    rcases Array.mem_push.mp hq with hq | rfl
    · refine (hfilled₂ (hle₃.errors_nil hnil) q hq).imp_right ?_
      rintro ⟨sym, hsym, hfollows⟩
      obtain ⟨flags, hsym', -⟩ := hle₃.symbols _ sym hsym
      exact ⟨_, hsym', hfollows.extend hle₃⟩
    · exact .inl hnameless

end Bind

/-! ## The module of a session -/

theorem Module.Tells.env_le (h : m.Tells s) (hs : Sited R s) (hfilled : s.Filled)
    (slots : List Slot) : (s.env R slots none).Le (m.env R slots) := by
  refine ⟨fun i n hn => hn.imp_left fun hn => hn.1.trans h.name.symm, fun r n hr => ?_,
    fun module slot type hv => ?_, fun n type hn => hn⟩
  · refine hr.imp_right fun hr => ?_
    obtain ⟨i, code, rfl, hget, hparams⟩ := hr.params hs hfilled
    exact ⟨i, code, by rw [h.name], by rw [h.routines, Array.getElem?_toList, hget], hparams⟩
  · refine hv.imp_right ?_
    rintro ⟨rfl, n, sl, hslot, hget, htype⟩
    exact ⟨h.name.symm, n, sl, hslot, by rw [h.globals, hget], htype⟩

theorem Module.Tells.refers (h : m.Tells s) (hs : Sited R s) (hfilled : s.Filled)
    (hbodies : s.BodiesFit R) : m.Refers R s.types := by
  refine ⟨fun r hr => ?_, fun r hr => ?_⟩
  · rw [h.routines, Array.mem_toList_iff] at hr
    exact fun st hst e he => (hbodies r hr st hst e he).mono (h.env_le hs hfilled r.slots) (.refl _)
  · rw [h.routines, Array.mem_toList_iff] at hr
    rw [h.scopes]
    exact hfilled r hr

/-- A symbol that is exported stands in the scope of the unit under its own name. -/
theorem Module.Tells.exported (h : m.Tells s) (hs : Sited R s) (hfilled : s.Filled) {sc : Scope}
    (hsc : s.scopes.scope? s.unitScope = some sc) :
    m.exports.Nodup ∧ ∀ x ∈ m.exports, ∃ sym, s.scopes.symbol? x = some sym ∧
      x ∈ sc.index.find sym.name ∧ m.Exports R s.types sym := by
  obtain ⟨isExported, hexports⟩ := h.exports
  obtain ⟨houter, hown⟩ := hs.own sc hsc
  obtain ⟨hnodup, hlisted⟩ := hs.listed _ sc hsc
  rw [hsc, Option.map_some, Option.getD_some] at hexports
  rw [hexports]
  refine ⟨hnodup.filter _, fun x hx => ?_⟩
  obtain ⟨sym, hsym, hindex⟩ := hlisted x (List.mem_filter.mp hx).1
  obtain ⟨sym₁, hsym₁, -, hownfits⟩ := hown sym.name x hindex
  obtain rfl := Option.some.inj (hsym.symm.trans hsym₁)
  obtain ⟨sym₂, hsym₂, hfits⟩ := (hs.names _ sc sym.name hsc houter).symbols x hindex
  obtain rfl := Option.some.inj (hsym.symm.trans hsym₂)
  exact ⟨sym, hsym, hindex, hfits.extend (h.env_le hs hfilled []) (.refl _) rfl sym.scope,
    hownfits.own.1.trans h.name.symm, SymbolFlags.without_imported hownfits.own.2⟩

/-- Among the exported symbols several of one name are routines. -/
theorem Module.Tells.overloads (h : m.Tells s) (hs : Sited R s) (hfilled : s.Filled) {sc : Scope}
    (hsc : s.scopes.scope? s.unitScope = some sc) :
    (m.exports.filterMap m.scopes.symbol?).Pairwise fun a b => a.name = b.name → b.kind.isRoutine := by
  obtain ⟨hnodup, hfound⟩ := h.exported hs hfilled hsc
  rw [List.pairwise_filterMap, h.scopes]
  refine hnodup.imp_of_mem fun {x y} hx hy hne a ha b hb hsame => ?_
  obtain ⟨sym, hsym, hindex, -⟩ := hfound x hx
  obtain ⟨sym', hsym', hindex', -⟩ := hfound y hy
  obtain rfl := Option.some.inj (hsym.symm.trans ha)
  obtain rfl := Option.some.inj (hsym'.symm.trans hb)
  have hfits := hs.names _ sc sym.name hsc (hs.own sc hsc).1
  rw [← hsame] at hindex'
  have htwo : 2 ≤ (sc.index.find sym.name).length := by
    have hsub : [x, y] ⊆ sc.index.find sym.name := by simp [hindex, hindex']
    exact (List.subperm_of_subset (by simp [hne]) hsub).length_le
  have hroutine := hfits.overloads htwo y hindex'
  change s.scopes.isRoutine y = true at hroutine
  rwa [isRoutine_of_symbol? hsym'] at hroutine

/-! ## Binding a file -/

/-- A file was bound in the types `T`, and this is the session after it. -/
structure Ends (R : Realm) (T : TypeTable) (imports : List Import) (f : Tree.File) (r : BindResult)
    (s : Session) : Prop where
  stands : Stands R s
  size : R.size = T.shapes.size
  start : ∃ s₀ : Session, s₀.types = T ∧ s₀.unit = f.name.name ∧ Extends s₀ s
  tells : r.module.Tells s
  types : r.types = s.types
  bodies : s.BodiesFit R
  filled : r.errors = [] → s.Filled
  uses : ∀ n, n ∈ r.module.uses ↔ n ∈ f.allUses.map (·.name)
  imported : r.errors = [] → ∀ n ∈ r.module.uses, ∃ imp ∈ imports, imp.name = n ∧ imp.kind ≠ .program

/-- Every file that is bound ends so, whatever its name. -/
theorem ends_of_ofFile {imports : List Import} {path : String} {f : Tree.File} {r : BindResult}
    (ht : T.Formed) (htable : TableFits R.env T) (htitled : T.Titled)
    (hsize : R.size = T.shapes.size)
    (himports : ∀ v ∈ f.allUses, ∀ imp ∈ imports, imp.name = v.name → ImportFits R T imp)
    (hr : Module.ofFile T imports path f = .ok r) : ∃ s, Ends R T imports f r s := by
  unfold Module.ofFile at hr
  obtain ⟨⟨m, s'⟩, hrun, hr⟩ := except_bind_ok hr
  cases hr
  unfold Bind.file at hrun
  obtain ⟨uses, s₁, hx, hrun⟩ := run_bind_inv hrun
  obtain ⟨h₁, hunit₁, htypes₁, hnone₁, hroutines₁, huses, himported⟩ :=
    Bind.openScopes_stands (Opening.start ht htable htitled hsize) hsize himports hx
  obtain ⟨_, s₂, hx, hrun⟩ := run_bind_inv hrun
  obtain ⟨h₂, hle₂, hnone₂⟩ := Bind.declarations_site h₁ hnone₁ f _ _ hx
  have hidle₁ : s₁.Idle := by
    unfold Session.Idle
    simp [hroutines₁]
  obtain ⟨body, s₃, hx, hrun⟩ := run_bind_inv hrun
  obtain ⟨h₃, hle₃, -, hbodies₃, hfilled₃⟩ := Bind.allBodies_fill h₂ hnone₂ (hle₂.idle hidle₁) hx
  have hle := hle₂.toExtends.trans hle₃
  cases hrun
  exact ⟨s', h₃, hsize, ⟨s₁, htypes₁, hunit₁, hle⟩,
    ⟨(hle.unit.trans hunit₁).symm, rfl, rfl, rfl, rfl, _, rfl⟩, rfl, hbodies₃,
    fun hnil => hfilled₃ (List.map_eq_nil_iff.mp hnil), huses,
    fun hnil => himported (hle.errors_nil (List.map_eq_nil_iff.mp hnil))⟩

namespace Ends

variable {imports : List Import} {f : Tree.File} {r : BindResult}

theorem name (h : Ends R T imports f r s) : r.module.name = f.name.name := by
  obtain ⟨s₀, -, hunit, hle⟩ := h.start
  exact h.tells.name.trans (hle.unit.trans hunit)

theorem grows (h : Ends R T imports f r s) : T.Grows r.types := by
  obtain ⟨s₀, htypes, -, hle⟩ := h.start
  exact h.types ▸ htypes ▸ hle.grows

theorem grounded (h : Ends R T imports f r s) (hg : Layout.Grounded T) : Layout.Grounded r.types := by
  obtain ⟨s₀, htypes, -, hle⟩ := h.start
  exact h.types ▸ hle.grounded (htypes ▸ hg)

theorem refers (h : Ends R T imports f r s) (hnil : r.errors = []) : r.module.Refers R r.types :=
  h.types ▸ h.tells.refers h.stands.sited (h.filled hnil) h.bodies

theorem class_cases (h : Ends R T imports f r s) (ht : T.Formed) {c : ClassInfo}
    (hc : c ∈ s.types.classes) :
    (∃ d ∈ s.classes, d.id = c.type ∧ c.key = ⟨s.unit, d.name.name⟩) ∨
      T.keyOf? c.type = some c.key := by
  have hkey : s.types.keyOf? c.type = some c.key :=
    keyOf?_eq_some.mpr ⟨c, h.stands.sited.formed.classInfo?_type hc, rfl⟩
  by_cases hlater : R.size < c.type
  · obtain ⟨d, hd, hid⟩ := h.stands.headed c hc hlater
    have hdkey := (h.stands.sited.heads d hd).key
    rw [hid, hkey, Option.some.injEq] at hdkey
    exact .inl ⟨d, hd, hid, hdkey⟩
  · refine .inr ((h.types ▸ h.grows).keyOf?_of_le ht ?_ hkey)
    exact (Nat.le_of_not_lt hlater).trans h.size.le

theorem class_own (h : Ends R T imports f r s) (ht : T.Formed)
    (hfresh : ∀ c ∈ T.classes, c.key.module ≠ f.name.name) {c : ClassInfo}
    (hc : c ∈ s.types.classes) (hmodule : c.key.module = s.unit) :
    ∃ d ∈ s.classes, d.id = c.type ∧ c.key = ⟨s.unit, d.name.name⟩ := by
  refine (h.class_cases ht hc).resolve_right fun hold => ?_
  obtain ⟨d, hd, hkey⟩ := keyOf?_eq_some.mp hold
  refine hfresh d (ht.mem_classes hd) ?_
  rw [hkey, hmodule, ← h.tells.name, h.name]

theorem sound (h : Ends R T imports f r s) (ht : T.Sound)
    (hfresh : ∀ c ∈ T.classes, c.key.module ≠ f.name.name) : s.types.Sound := by
  have hformed := h.stands.sited.formed
  have hunit : s.unit = f.name.name := h.tells.name.symm.trans h.name
  have hsame : ∀ c ∈ s.types.classes, ∀ d ∈ s.types.classes, c.key = d.key → c.type = d.type := by
    intro c hc d hd hkey
    by_cases hmodule : c.key.module = s.unit
    · obtain ⟨a, ha, hid, hname⟩ := h.class_own ht.toFormed hfresh hc hmodule
      obtain ⟨b, hb, hid', hname'⟩ := h.class_own ht.toFormed hfresh hd (hkey ▸ hmodule)
      have heq : a.name.name = b.name.name :=
        congrArg ClassKey.name (hname.symm.trans (hkey.trans hname'))
      obtain rfl := List.inj_on_of_nodup_map h.stands.sited.apart.2.2 ha hb heq
      exact hid.symm.trans hid'
    · have hold : ∀ e ∈ s.types.classes, e.key = c.key → T.keyOf? e.type = some c.key := by
        intro e he hsame
        rcases h.class_cases ht.toFormed he with ⟨a, -, -, hname⟩ | hold
        · exact absurd (hsame ▸ congrArg ClassKey.module hname) hmodule
        · exact hsame ▸ hold
      obtain ⟨c', hc', hkey'⟩ := keyOf?_eq_some.mp (hold c hc rfl)
      obtain ⟨d', hd', hkey''⟩ := keyOf?_eq_some.mp (hold d hd hkey.symm)
      exact ht.eq_of_key hc' hd' (hkey'.trans hkey''.symm)
  refine ⟨hformed, fun i j c d hc hd hkey => ?_⟩
  have htype := hsame c (Array.mem_of_getElem? hc) d (Array.mem_of_getElem? hd) hkey
  have hshape := hformed.owned i c hc
  rw [htype, hformed.owned j d hd] at hshape
  cases hshape
  rfl

theorem adds (h : Ends R T imports f r s) (ht : T.Sound)
    (hfresh : ∀ c ∈ T.classes, c.key.module ≠ f.name.name) : Adds T r.types f.name.name := by
  obtain ⟨s₀, htypes, hunit, hle⟩ := h.start
  have hsound := h.sound ht hfresh
  rw [h.types]
  refine ⟨hsound, h.stands.sited.titled, h.types ▸ h.grows, ?_, ?_⟩
  · exact htypes ▸ hle.done
  · rw [← hunit, ← htypes]
    exact hle.own

theorem fits (h : Ends R T imports f r s) (ht : T.Sound)
    (hfresh : ∀ c ∈ T.classes, c.key.module ≠ f.name.name) (hnil : r.errors = []) :
    r.module.Fits R r.types := by
  have hsited := h.stands.sited
  have hfilled := h.filled hnil
  have hclasses := h.tells.classes
  have hown : ∀ {c : ClassInfo}, c ∈ s.types.classes → c.key.module = r.module.name →
      ∃ d ∈ s.classes, d.id = c.type := fun hc hmodule => by
    obtain ⟨d, hd, hid, -⟩ := h.class_own ht.toFormed hfresh hc (hmodule.trans h.tells.name)
    exact ⟨d, hd, hid⟩
  obtain ⟨sc, hsc⟩ := h.stands.rooted
  obtain ⟨-, hexported⟩ := h.tells.exported hsited hfilled hsc
  have hrefers := h.refers hnil
  rw [h.types] at hrefers ⊢
  constructor
  case toRefers => exact hrefers
  case table =>
    intro c hc hknown
    refine (hsited.table c hc ?_).extend (h.tells.env_le hsited hfilled []) (.refl _)
    refine hknown.imp_left fun hmodule => ⟨hmodule.trans h.tells.name, ?_⟩
    obtain ⟨d, hd, hid⟩ := hown hc hmodule
    exact hid ▸ (hsited.heads d hd).later
  case classes =>
    rw [hclasses]
    refine ⟨hsited.apart.1, fun id => ⟨fun hid => ?_, ?_⟩⟩
    · obtain ⟨d, hd, rfl⟩ := List.mem_map.mp hid
      obtain ⟨c, hc, hkey⟩ := keyOf?_eq_some.mp (hsited.heads d hd).key
      exact ⟨c, hc, by rw [hkey, h.tells.name]⟩
    · rintro ⟨c, hc, hmodule⟩
      obtain ⟨d, hd, hid⟩ := hown (hsited.formed.mem_classes hc) hmodule
      rw [← hsited.formed.type_eq hc]
      exact List.mem_map.mpr ⟨d, hd, hid⟩
  case exports =>
    intro x hx
    obtain ⟨sym, hsym, -, hfits⟩ := hexported x hx
    exact ⟨sym, h.tells.scopes ▸ hsym, hfits⟩
  case overloads => exact h.tells.overloads hsited hfilled hsc

end Ends

end Pascaline.Bound
