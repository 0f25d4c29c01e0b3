import Pascaline.Proofs.Binding.Scopes
import Pascaline.Proofs.Binding.Statements
import Pascaline.Proofs.Binding.Steady
import Pascaline.Proofs.Classes.Hierarchy
import Pascaline.Proofs.Interface.Selectors

/-!
# The session around a declaration

While a file is bound, the session gains scopes, symbols, classes, routines and variables. `Sited`
says what holds of the session between any two declarations, `Extends` what a later session has of an
earlier one. The environment of an expression is read off the session.
-/

namespace Pascaline

/-- Kinds of symbols that have code in their unit. -/
def SymbolKind.hasCode : SymbolKind → Bool
  | .procedure | .function | .method => true
  | _ => false

/-- Kinds of scopes whose names are seen from everywhere in the file. -/
def ScopeKind.isOuter (k : ScopeKind) : Prop := k ≠ .classBody ∧ k ≠ .routine

/-- The symbol was declared in the file of the unit, and not in a used one of the same name. -/
def Symbol.isOwn (sym : Symbol) (unit : String) : Prop :=
  sym.module = unit ∧ sym.flags.has .imported = false

/-- How many arguments the code of a symbol takes; a method takes its receiver as well. -/
def Symbol.arity (sym : Symbol) : Nat := sym.sig.params.length + if sym.kind = .method then 1 else 0

namespace TypeTable.Widens

variable {t t' : TypeTable} {id : TypeId} {c : ClassInfo}

theorem classInfo?_eq (h : t.Widens t') (ht : t.Formed) (ht' : t'.Formed) :
    t'.classInfo? id = t.classInfo? id := by
  cases hc : t'.classInfo? id with
  | some c =>
    have hmem := ht'.mem_classes hc
    rw [h.classes] at hmem
    rw [← ht'.type_eq hc, ht.classInfo?_type hmem]
  | none =>
    cases hc' : t.classInfo? id with
    | none => rfl
    | some c =>
      rw [h.classInfo? hc'] at hc
      cases hc

theorem grounded (h : t.Widens t') (ht : t.Formed) (ht' : t'.Formed) (hg : Layout.Grounded t) :
    Layout.Grounded t' :=
  hg.grow (fun _ _ hc => h.classInfo? hc) fun _ _ hc => .inl (by rwa [← h.classInfo?_eq ht ht'])

end TypeTable.Widens

namespace Bound

open TypeTable

/-! ## Environments of a session -/

/-- What the units at hand offer to a file that uses them. The types behind the first `size` ones are
those of the file. -/
structure Realm where
  known : String → Prop
  takes : RoutineRef → Nat → Prop
  holds : String → Int → TypeId → Prop
  size : Nat

namespace Session

/-- The routine is one of the file at hand, and takes so many arguments. -/
def Takes (s : Session) (r : RoutineRef) (n : Nat) : Prop :=
  ∃ x sym, s.scopes.symbol? x = some sym ∧ sym.isOwn s.unit ∧ sym.kind.hasCode ∧
    r = ⟨s.unit, sym.routine⟩ ∧ n = sym.arity

/-- The variable is one of the unit at hand, and has this type. -/
def Holds (s : Session) (module : String) (slot : Int) (type : TypeId) : Prop :=
  module = s.unit ∧ ∃ (n : Nat) (sl : Slot), slot = n ∧ s.globals[n]? = some sl ∧ sl.type = type

/-- What a name may stand for in a frame of these slots, seen from the scope `inner` if that is one
of a routine. -/
def env (s : Session) (R : Realm) (slots : List Slot) (inner : Option ScopeId) : Env where
  known i m := (m = s.unit ∧ R.size < i) ∨ R.known m
  takes r n := R.takes r n ∨ s.Takes r n
  holds m slot type := R.holds m slot type ∨ s.Holds m slot type
  slot n type := ∃ sl, slots[n]? = some sl ∧ sl.type = type
  scopes := s.scopes
  opens id := ∀ sc, s.scopes.scope? id = some sc → ¬sc.kind.isOuter → inner = some id

/-- What a name may stand for outside of all routines. -/
abbrev outer (s : Session) (R : Realm) : Env := s.env R [] none

/-- The slots of the frame at hand. -/
def slots (s : Session) : List Slot := (s.frame.map (·.slots)).getD []

/-- What a name may stand for where binding is at. -/
abbrev here (s : Session) (R : Realm) : Env := s.env R s.slots (s.frame.map (·.scope))

end Session

/-- A frame without what changes while its body is bound. -/
def Frame.fixed (f : Frame) : Frame := { f with loops := 0, slots := [] }

/-! ## Growth -/

/-- The later session has all that the earlier one has; a symbol may have lost or gained flags but
for those of its place and of its provenance. -/
structure Extends (s s' : Session) : Prop where
  unit : s'.unit = s.unit
  errors : s.errors <+: s'.errors
  grows : s.types.Grows s'.types
  done : ∀ id c, s.types.classInfo? id = some c → c.state = .done → s'.types.classInfo? id = some c
  grounded : Layout.Grounded s.types → Layout.Grounded s'.types
  own : ∀ id c, s'.types.classInfo? id = some c →
    c.key.module = s.unit ∨ s.types.keyOf? id = some c.key
  symbols : ∀ x sym, s.scopes.symbol? x = some sym → ∃ flags,
    s'.scopes.symbol? x = some { sym with flags } ∧ flags.has .global = sym.flags.has .global ∧
      flags.has .imported = sym.flags.has .imported
  globals : s.globals <+: s'.globals
  classes : s.classes <+: s'.classes

namespace Extends

variable {s s₁ s' : Session}

theorem refl (s : Session) : Extends s s :=
  ⟨rfl, List.prefix_refl _, .refl _, fun _ _ h _ => h, id,
    fun _ c hc => .inr (keyOf?_eq_some.mpr ⟨c, hc, rfl⟩), fun _ sym h => ⟨sym.flags, h, rfl, rfl⟩,
    List.prefix_refl _, List.prefix_refl _⟩

theorem of_types (hunit : s'.unit = s.unit) (htypes : s'.types = s.types)
    (herrors : s.errors <+: s'.errors) (hglobals : s.globals <+: s'.globals)
    (hclasses : s.classes <+: s'.classes)
    (hsymbols : ∀ x sym, s.scopes.symbol? x = some sym → s'.scopes.symbol? x = some sym) :
    Extends s s' := by
  refine ⟨hunit, herrors, ?_, ?_, ?_, ?_, fun x sym hx => ⟨sym.flags, hsymbols x sym hx, rfl, rfl⟩,
    hglobals, hclasses⟩
  · rw [htypes]
    exact .refl _
  · rw [htypes]
    exact fun _ _ hc _ => hc
  · rw [htypes]
    exact id
  · rw [htypes]
    exact (refl s).own

theorem trans (h : Extends s s₁) (h' : Extends s₁ s') : Extends s s' := by
  refine ⟨h'.unit.trans h.unit, h.errors.trans h'.errors, h.grows.trans h'.grows, ?_, ?_, ?_, ?_,
    h.globals.trans h'.globals, h.classes.trans h'.classes⟩
  · exact fun id c hc hs => h'.done id c (h.done id c hc hs) hs
  · exact fun ht => h'.grounded (h.grounded ht)
  · intro id c hc
    rcases h'.own id c hc with hown | hkey
    · exact .inl (hown.trans h.unit)
    · obtain ⟨c₁, hc₁, hsame⟩ := keyOf?_eq_some.mp hkey
      rw [← hsame]
      exact h.own id c₁ hc₁
  · intro x sym hsym
    obtain ⟨flags, hsym₁, hglobal, himported⟩ := h.symbols x sym hsym
    obtain ⟨flags', hsym', hglobal', himported'⟩ := h'.symbols x _ hsym₁
    exact ⟨flags', hsym', hglobal'.trans hglobal, himported'.trans himported⟩

theorem takes (h : Extends s s') {r : RoutineRef} {n : Nat} (ht : s.Takes r n) : s'.Takes r n := by
  obtain ⟨x, sym, hsym, ⟨hmodule, hown⟩, hcode, rfl, rfl⟩ := ht
  obtain ⟨flags, hsym', -, himported⟩ := h.symbols x sym hsym
  exact ⟨x, _, hsym', ⟨hmodule.trans h.unit.symm, himported.trans hown⟩, hcode, by rw [h.unit], rfl⟩

theorem holds (h : Extends s s') {m : String} {slot : Int} {type : TypeId}
    (hs : s.Holds m slot type) : s'.Holds m slot type := by
  obtain ⟨rfl, n, sl, rfl, hget, htype⟩ := hs
  exact ⟨h.unit.symm, n, sl, rfl, getElem?_of_listPrefix h.globals hget, htype⟩

theorem env_le (h : Extends s s') (R : Realm) {slots slots' : List Slot}
    (hslots : slots <+: slots') (inner inner' : Option ScopeId) :
    (s.env R slots inner).Le (s'.env R slots' inner') := by
  refine ⟨?_, ?_, ?_, ?_⟩
  · exact fun i m hm => hm.imp_left fun hm => ⟨hm.1.trans h.unit.symm, hm.2⟩
  · exact fun r n hr => hr.imp_right h.takes
  · exact fun m slot type hm => hm.imp_right h.holds
  · rintro n type ⟨sl, hget, htype⟩
    exact ⟨sl, getElem?_of_listPrefix hslots hget, htype⟩

end Extends

/-- Neither classes nor routines were declared. -/
structure Inside (s s' : Session) : Prop where
  widens : s.types.Widens s'.types
  routines : s'.routines = s.routines
  bodies : s'.bodies = s.bodies

theorem Inside.refl (s : Session) : Inside s s := ⟨.refl _, rfl, rfl⟩

theorem Inside.trans {s s₁ s' : Session} (h : Inside s s₁) (h' : Inside s₁ s') : Inside s s' :=
  ⟨h.widens.trans h'.widens, h'.routines.trans h.routines, h'.bodies.trans h.bodies⟩

/-- Every routine has a name, and none has slots or a body that was bound. -/
def Session.Idle (s : Session) : Prop :=
  ∀ r ∈ s.routines, r.symbol ≠ 0 ∧ r.body = [] ∧ r.slots = []

/-- Binding goes on in the same scope and frame, which may have gained slots. Inside of a routine
only types and names are declared, and outside no body is bound. -/
structure Proceeds (s s' : Session) : Prop extends Extends s s' where
  unitScope : s'.unitScope = s.unitScope
  scope : s'.scope = s.scope
  frame : s'.frame.map Frame.fixed = s.frame.map Frame.fixed
  slots : s.slots <+: s'.slots
  idle : s.Idle → s'.Idle
  inside : s.frame ≠ none → Inside s s'

namespace Proceeds

variable {s s₁ s' : Session}

theorem refl (s : Session) : Proceeds s s :=
  ⟨.refl s, rfl, rfl, rfl, List.prefix_refl _, id, fun _ => .refl s⟩

theorem of_outside (hle : Extends s s') (hunitScope : s'.unitScope = s.unitScope)
    (hscope : s'.scope = s.scope) (hnone : s.frame = none) (hframe : s'.frame = s.frame)
    (hidle : s.Idle → s'.Idle) : Proceeds s s' := by
  refine ⟨hle, hunitScope, hscope, by rw [hframe], ?_, hidle, fun h => absurd hnone h⟩
  unfold Session.slots
  rw [hframe]

theorem still (hunit : s'.unit = s.unit) (htypes : s'.types = s.types)
    (herrors : s.errors <+: s'.errors) (hglobals : s'.globals = s.globals)
    (hclasses : s'.classes = s.classes)
    (hsymbols : ∀ x, s'.scopes.symbol? x = s.scopes.symbol? x)
    (hunitScope : s'.unitScope = s.unitScope) (hscope : s'.scope = s.scope)
    (hframe : s'.frame = s.frame) (hidle : s.Idle → s'.Idle)
    (hinside : s.frame ≠ none → Inside s s') : Proceeds s s' := by
  refine ⟨.of_types hunit htypes herrors ?_ ?_ fun x _ hx => (hsymbols x).trans hx, hunitScope,
    hscope, by rw [hframe], ?_, hidle, hinside⟩
  · rw [hglobals]
  · rw [hclasses]
  · unfold Session.slots
    rw [hframe]

theorem trans (h : Proceeds s s₁) (h' : Proceeds s₁ s') : Proceeds s s' := by
  refine ⟨h.toExtends.trans h'.toExtends, h'.unitScope.trans h.unitScope, h'.scope.trans h.scope,
    h'.frame.trans h.frame, h.slots.trans h'.slots, fun hidle => h'.idle (h.idle hidle),
    fun hne => (h.inside hne).trans (h'.inside fun hnone => hne ?_)⟩
  simpa [hnone] using h.frame.symm

theorem inner (h : Proceeds s s') : s'.frame.map (·.scope) = s.frame.map (·.scope) := by
  have hscope := congrArg (Option.map (·.scope)) h.frame
  rwa [Option.map_map, Option.map_map] at hscope

theorem frame_none (h : Proceeds s s') (hnone : s.frame = none) : s'.frame = none := by
  simpa [hnone] using h.frame

theorem here_le (h : Proceeds s s') (R : Realm) : (s.here R).Le (s'.here R) :=
  h.env_le R h.slots _ _

end Proceeds

variable {R : Realm} {E E' : Env} {s s₁ s' : Session} {t t' : TypeTable}

theorem SymbolFits.extend {sym : Symbol} (h : SymbolFits E t sym) (hE : E.Le E') (hle : t.Grows t')
    {flags : SymbolFlags} (hflags : flags.has .global = sym.flags.has .global) (scope : ScopeId) :
    SymbolFits E' t' { sym with flags, scope } := by
  have hin := h.within
  have hclass : ∀ {id}, t.IsClass E.known id → t'.IsClass E'.known id := by
    rintro id ⟨key, hkey, hknown⟩
    exact ⟨key, hle.keyOf? hkey, hE.known _ _ hknown⟩
  refine ⟨⟨?_, hin.typeName, fun hne => hclass (hin.owner hne), ?_, hin.plain⟩, h.typed, h.free, ?_, ?_⟩
  · exact fun hne => ((hin.type hne).weaken hE.known).mono hle
  · exact ⟨fun p hp => ((hin.sig.params p hp).weaken hE.known).mono hle,
      fun hne => ((hin.sig.result hne).weaken hE.known).mono hle⟩
  · exact fun hkind => hE.takes _ _ (h.routine hkind)
  · intro hkind
    have hplace := h.place hkind
    simp only [hflags]
    split at hplace
    · rename_i hglobal
      rw [if_pos hglobal]
      exact hE.holds _ _ _ hplace
    · rename_i hlocal
      rw [if_neg hlocal]
      exact hE.slot _ _ hplace

theorem ClassFits.extend {c : ClassInfo} (h : ClassFits E t c) (hE : E.Le E') (hle : t.Grows t') :
    ClassFits E' t' c := by
  have hin := h.within
  have hclass : ∀ {id}, t.IsClass E.known id → t'.IsClass E'.known id := by
    rintro id ⟨key, hkey, hknown⟩
    exact ⟨key, hle.keyOf? hkey, hE.known _ _ hknown⟩
  have htype : ∀ {id}, t.Within E.known id → t'.Within E'.known id :=
    fun h => (h.weaken hE.known).mono hle
  refine ⟨⟨fun hne => hclass (hin.base hne), ?_, ?_, fun e he => hclass (hin.vmt e he)⟩, ?_, ?_⟩
  · exact fun f hf => ⟨htype (hin.fields f hf).1, (hin.fields f hf).2⟩
  · exact fun m hm => ⟨⟨fun p hp => htype ((hin.methods m hm).1.params p hp),
      fun hne => htype ((hin.methods m hm).1.result hne)⟩, (hin.methods m hm).2⟩
  · exact fun m hm => hE.takes _ _ (h.methods m hm)
  · intro e he
    obtain ⟨n, hn⟩ := h.dispatch e he
    exact ⟨n, hE.takes _ _ hn⟩

theorem isRoutine_of_symbol? {T : ScopeTable} {x : SymbolId} {sym : Symbol}
    (h : T.symbol? x = some sym) : T.isRoutine x = sym.kind.isRoutine := by
  unfold ScopeTable.isRoutine
  rw [h, Option.any_some]

theorem NamesFit.extend {slots slots' : List Slot} {inner inner' : Option ScopeId}
    {ids : List SymbolId} (h : NamesFit (s.env R slots inner) t ids) (hle : Extends s s')
    (hslots : slots <+: slots') (ht : t.Grows t') : NamesFit (s'.env R slots' inner') t' ids := by
  refine ⟨?_, ?_⟩
  · intro x hx
    obtain ⟨sym, hsym, hfits⟩ := h.symbols x hx
    obtain ⟨flags, hsym', hglobal, -⟩ := hle.symbols x sym hsym
    exact ⟨_, hsym', hfits.extend (hle.env_le R hslots inner inner') ht hglobal sym.scope⟩
  · intro hlength x hx
    obtain ⟨sym, hsym, -⟩ := h.symbols x hx
    obtain ⟨flags, hsym', -⟩ := hle.symbols x sym hsym
    have hroutine := h.overloads hlength x hx
    have hsym : s.scopes.symbol? x = some sym := hsym
    change s.scopes.isRoutine x = true at hroutine
    change s'.scopes.isRoutine x = true
    rw [isRoutine_of_symbol? hsym] at hroutine
    rw [isRoutine_of_symbol? hsym', ← hroutine]

/-! ## Sessions -/

/-- A symbol of the file at hand that is no member of a class. -/
structure OwnFits (s : Session) (sym : Symbol) : Prop where
  own : sym.isOwn s.unit
  kind : sym.kind ≠ .native
  owner : sym.owner = 0

/-- A member of the class `id` of the file. -/
structure MemberFits (R : Realm) (s : Session) (id : TypeId) (sym : Symbol) : Prop where
  kind : sym.kind = .field ∨ sym.kind = .method
  own : sym.isOwn s.unit
  owner : sym.owner = id
  sig : sym.sig.Within s.types (s.outer R).known

/-- A body that waits has the parameters and the result that its routine was declared with. -/
structure PendingFits (R : Realm) (s : Session) (p : PendingBody) : Prop where
  symbol : ∃ sym, s.scopes.symbol? p.symbol = some sym ∧ sym.isOwn s.unit ∧ sym.kind.hasCode ∧
    sym.routine = p.routine ∧ sym.owner = p.owner ∧ (sym.kind = .method ↔ p.owner ≠ 0) ∧
    p.sig.params.length = sym.sig.params.length ∧ p.sig.result = sym.sig.result
  owner : p.owner ≠ 0 → s.types.IsClass (s.outer R).known p.owner
  sig : p.sig.Within s.types (s.outer R).known
  names : (p.decl.header.params.flatMap (·.names)).length = p.sig.params.length

/-- A class that the file declares has a name and a scope of its own. -/
structure HeadFits (R : Realm) (s : Session) (h : ClassHead) : Prop where
  later : R.size < h.id
  key : s.types.keyOf? h.id = some ⟨s.unit, h.name.name⟩
  named : s.scopes.lookupLocal s.unitScope h.name.name ≠ []
  members : ∃ sc, s.scopes.scope? h.scope = some sc ∧ sc.kind = .classBody ∧
    ∀ name, ∀ x ∈ sc.index.find name, ∃ sym, s.scopes.symbol? x = some sym ∧ sym.name = name ∧
      MemberFits R s h.id sym

structure TypesFit (R : Realm) (s : Session) : Prop where
  formed : s.types.Formed
  table : TableFits (s.outer R) s.types
  titled : s.types.Titled
  size : R.size ≤ s.types.shapes.size

structure ScopesFit (R : Realm) (s : Session) : Prop where
  placed : s.unitScope ≤ s.scopes.scopes.size
  names : ∀ id sc name, s.scopes.scope? id = some sc → sc.kind.isOuter →
    NamesFit (s.outer R) s.types (sc.index.find name)
  parents : ∀ id sc, s.scopes.scope? id = some sc → sc.parent ≤ s.scopes.scopes.size ∧
    ∀ parent, s.scopes.scope? sc.parent = some parent → parent.kind.isOuter
  listed : ∀ id sc, s.scopes.scope? id = some sc → sc.symbols.Nodup ∧
    ∀ x ∈ sc.symbols, ∃ sym, s.scopes.symbol? x = some sym ∧ x ∈ sc.index.find sym.name
  units : ∀ p ∈ s.unitScopes, ∃ sc, s.scopes.scope? p.2 = some sc ∧ sc.kind.isOuter
  own : ∀ sc, s.scopes.scope? s.unitScope = some sc → sc.kind.isOuter ∧
    ∀ name, ∀ x ∈ sc.index.find name, ∃ sym, s.scopes.symbol? x = some sym ∧ sym.name = name ∧
      OwnFits s sym

structure HeadsFit (R : Realm) (s : Session) : Prop where
  heads : ∀ h ∈ s.classes, HeadFits R s h
  apart : (s.classes.map (·.id)).Nodup ∧ (s.classes.map (·.scope)).Nodup ∧
    (s.classes.map (·.name.name)).Nodup

/-- Symbols, routines and bodies lead to one another. -/
structure CodeFits (R : Realm) (s : Session) : Prop where
  routines : ∀ x sym, s.scopes.symbol? x = some sym → sym.isOwn s.unit → sym.kind.hasCode →
    ∃ (i : Nat) (r : Routine), sym.routine = i ∧ s.routines[i]? = some r ∧ r.symbol = x ∧
      r.owner = sym.owner
  bodies : ∀ p ∈ s.bodies, PendingFits R s p
  bodied : ∀ (i : Nat) (r : Routine), s.routines[i]? = some r → r.hasBody → r.symbol ≠ 0 →
    ∃ p ∈ s.bodies, p.routine = i

/-- What holds of the session between two steps, wherever binding is at. -/
structure Sited (R : Realm) (s : Session) : Prop
  extends TypesFit R s, ScopesFit R s, HeadsFit R s, CodeFits R s

/-- Every class behind those of the units at hand is one that the file declares. -/
def Session.Headed (R : Realm) (s : Session) : Prop :=
  ∀ c ∈ s.types.classes, R.size < c.type → ∃ h ∈ s.classes, h.id = c.type

/-- Binding is at the scope of this frame. -/
structure InScope (R : Realm) (s : Session) (f : Frame) : Prop where
  scope : s.scope = f.scope
  found : ∃ sc, s.scopes.scope? f.scope = some sc ∧ sc.kind = .routine ∧
    ∀ name, NamesFit (s.here R) s.types (sc.index.find name)

/-- What holds of the session between two declarations. -/
structure Stands (R : Realm) (s : Session) : Prop where
  sited : Sited R s
  headed : s.Headed R
  rooted : ∃ sc, s.scopes.scope? s.unitScope = some sc
  outside : s.frame = none → s.scope = s.unitScope
  inside : ∀ f, s.frame = some f → InScope R s f ∧ FrameFits (s.here R) s.types f

theorem Session.here_le (s : Session) (R : Realm) : (s.outer R).Le (s.here R) :=
  (Extends.refl s).env_le R (List.nil_prefix) none _

theorem Stands.fits (h : Stands R s) : Fits (s.here R) s := by
  have hopens : ∀ {id sc}, s.scopes.scope? id = some sc → sc.kind.isOuter →
      (s.here R).opens id := by
    intro id sc hsc hkind sc' hsc' hnot
    rw [hsc, Option.some.injEq] at hsc'
    exact absurd (hsc' ▸ hkind) hnot
  refine ⟨h.sited.formed, ?_, rfl, ?_, ?_, ?_, ?_, fun f hf => (h.inside f hf).2⟩
  · exact fun c hc hknown => (h.sited.table c hc hknown).extend (s.here_le R) (.refl _)
  · intro id sc name hid hsc
    by_cases hkind : sc.kind.isOuter
    · exact (h.sited.names id sc name hsc hkind).extend (.refl s) List.nil_prefix (.refl _)
    · obtain ⟨f, hf, rfl⟩ := Option.map_eq_some_iff.mp (hid sc hsc hkind)
      obtain ⟨sc', hsc', -, hnames⟩ := (h.inside f hf).1.found
      have hsc : s.scopes.scope? f.scope = some sc := hsc
      rw [hsc, Option.some.injEq] at hsc'
      exact hsc' ▸ hnames name
  · intro id sc _ hsc parent hparent hnot
    exact absurd ((h.sited.parents id sc hsc).2 parent hparent) hnot
  · intro sc hsc hnot
    cases hframe : s.frame with
    | none =>
      have hsc : s.scopes.scope? s.scope = some sc := hsc
      rw [h.outside hframe] at hsc
      exact absurd (h.sited.own sc hsc).1 hnot
    | some f =>
      rw [(h.inside f hframe).1.scope]
      rfl
  · intro p hp
    obtain ⟨sc, hsc, hkind⟩ := h.sited.units p hp
    exact hopens hsc hkind

theorem InScope.extend {f f' : Frame} (h : InScope R s f) (hle : Proceeds s s')
    (hscope : f'.scope = f.scope) (hscopes : s'.scopes = s.scopes) : InScope R s' f' := by
  obtain ⟨sc, hsc, hkind, hnames⟩ := h.found
  refine ⟨hle.scope.trans (h.scope.trans hscope.symm), sc, ?_, hkind, fun name => ?_⟩
  · rw [hscopes, hscope, hsc]
  · exact (hnames name).extend hle.toExtends hle.slots hle.grows

/-! ## Sessions whose types change -/

theorem Extends.within {id : TypeId} (hle : Extends s s')
    (h : s.types.Within (s.outer R).known id) : s'.types.Within (s'.outer R).known id :=
  (h.weaken (hle.env_le R (List.prefix_refl []) none none).known).mono hle.grows

theorem Extends.isOwn {sym : Symbol} {flags : SymbolFlags} {scope : ScopeId} (hle : Extends s s')
    (h : sym.isOwn s.unit) (hflags : flags.has .imported = sym.flags.has .imported) :
    { sym with flags, scope }.isOwn s'.unit :=
  ⟨h.1.trans hle.unit.symm, hflags.trans h.2⟩

theorem Extends.signature {sig : Signature} (hle : Extends s s')
    (h : sig.Within s.types (s.outer R).known) : sig.Within s'.types (s'.outer R).known := by
  exact ⟨fun p hp => hle.within (h.params p hp), fun hne => hle.within (h.result hne)⟩

theorem PendingFits.extend {p : PendingBody} (h : PendingFits R s p) (hle : Extends s s') :
    PendingFits R s' p := by
  obtain ⟨sym, hsym, hown, hrest⟩ := h.symbol
  obtain ⟨flags, hsym', -, himported⟩ := hle.symbols _ _ hsym
  have hE := hle.env_le R (List.prefix_refl []) none none
  refine ⟨⟨_, hsym', hle.isOwn hown himported, hrest⟩, ?_, hle.signature h.sig, h.names⟩
  intro hne
  obtain ⟨key, hkey, hknown⟩ := h.owner hne
  exact ⟨key, hle.grows.keyOf? hkey, hE.known _ _ hknown⟩

theorem MemberFits.extend {id : TypeId} {sym : Symbol} {flags : SymbolFlags}
    (h : MemberFits R s id sym) (hle : Extends s s')
    (hflags : flags.has .imported = sym.flags.has .imported) (scope : ScopeId) :
    MemberFits R s' id { sym with flags, scope } :=
  ⟨h.kind, hle.isOwn h.own hflags, h.owner, hle.signature h.sig⟩

theorem OwnFits.extend {sym : Symbol} {flags : SymbolFlags} (h : OwnFits s sym) (hle : Extends s s')
    (hflags : flags.has .imported = sym.flags.has .imported) (scope : ScopeId) :
    OwnFits s' { sym with flags, scope } :=
  ⟨hle.isOwn h.own hflags, h.kind, h.owner⟩

/-- The scopes are the same, and all symbols were there. -/
structure Retains (s s' : Session) : Prop where
  scope? : ∀ id, s'.scopes.scope? id = s.scopes.scope? id
  size : s'.scopes.scopes.size = s.scopes.scopes.size
  symbol? : ∀ x sym, s'.scopes.symbol? x = some sym → ∃ old, s.scopes.symbol? x = some old
  unitScope : s'.unitScope = s.unitScope
  unitScopes : s'.unitScopes = s.unitScopes

theorem Retains.of_scopes (hscopes : s'.scopes = s.scopes) (hunitScope : s'.unitScope = s.unitScope)
    (hunitScopes : s'.unitScopes = s.unitScopes) : Retains s s' :=
  ⟨fun _ => by rw [hscopes], by rw [hscopes], fun _ _ hx => ⟨_, hscopes ▸ hx⟩, hunitScope,
    hunitScopes⟩

theorem ScopesFit.retains (h : ScopesFit R s) (hle : Extends s s') (hr : Retains s s') :
    ScopesFit R s' := by
  constructor
  case placed =>
    rw [hr.size, hr.unitScope]
    exact h.placed
  case names =>
    intro id sc name hsc hkind
    rw [hr.scope?] at hsc
    exact (h.names id sc name hsc hkind).extend hle (List.prefix_refl _) hle.grows
  case parents =>
    intro id sc hsc
    rw [hr.scope?] at hsc
    rw [hr.size, hr.scope?]
    exact h.parents id sc hsc
  case listed =>
    intro id sc hsc
    rw [hr.scope?] at hsc
    refine ⟨(h.listed id sc hsc).1, fun x hx => ?_⟩
    obtain ⟨old, hold, hmem⟩ := (h.listed id sc hsc).2 x hx
    obtain ⟨flags, hnew, -⟩ := hle.symbols x old hold
    exact ⟨_, hnew, hmem⟩
  case units =>
    intro p hp
    rw [hr.unitScopes] at hp
    rw [hr.scope?]
    exact h.units p hp
  case own =>
    intro sc hsc
    rw [hr.scope?, hr.unitScope] at hsc
    obtain ⟨hkind, hown⟩ := h.own sc hsc
    refine ⟨hkind, fun name x hx => ?_⟩
    obtain ⟨old, hold, hname, hfits⟩ := hown name x hx
    obtain ⟨flags, hnew, -, himported⟩ := hle.symbols x old hold
    exact ⟨_, hnew, hname, hfits.extend hle himported old.scope⟩

theorem ScopesFit.extend (h : ScopesFit R s) (hle : Extends s s') (hscopes : s'.scopes = s.scopes)
    (hunitScope : s'.unitScope = s.unitScope) (hunitScopes : s'.unitScopes = s.unitScopes) :
    ScopesFit R s' :=
  h.retains hle (.of_scopes hscopes hunitScope hunitScopes)

theorem HeadFits.keep {c : ClassHead} (h : HeadFits R s c) (hle : Extends s s')
    (hkeep : ∀ {id sc}, s.scopes.scope? id = some sc → s'.scopes.scope? id = some sc)
    (hunitScope : s'.unitScope = s.unitScope) : HeadFits R s' c := by
  obtain ⟨hlater, hkey, hnamed, sc, hsc, hkind, hmembers⟩ := h
  refine ⟨hlater, ?_, ?_, sc, hkeep hsc, hkind, ?_⟩
  · rw [hle.unit]
    exact hle.grows.keyOf? hkey
  · rw [hunitScope]
    unfold ScopeTable.lookupLocal at hnamed ⊢
    split at hnamed
    · rename_i sc' hsc'
      rw [hkeep hsc']
      exact hnamed
    · exact absurd rfl hnamed
  · intro name x hx
    obtain ⟨old, hold, hname, hfits⟩ := hmembers name x hx
    obtain ⟨flags, hnew, -, himported⟩ := hle.symbols x old hold
    exact ⟨_, hnew, hname, hfits.extend hle himported old.scope⟩

theorem HeadsFit.retains (h : HeadsFit R s) (hle : Extends s s') (hr : Retains s s')
    (hclasses : s'.classes = s.classes) : HeadsFit R s' := by
  refine ⟨?_, ?_⟩
  · rw [hclasses]
    exact fun c hc => (h.heads c hc).keep hle (fun hsc => (hr.scope? _).trans hsc) hr.unitScope
  · rw [hclasses]
    exact h.apart

theorem CodeFits.retains (h : CodeFits R s) (hle : Extends s s') (hr : Retains s s')
    (hroutines : s'.routines = s.routines) (hbodies : s'.bodies = s.bodies) : CodeFits R s' := by
  refine ⟨?_, ?_, ?_⟩
  · intro x sym hsym hown hcode
    obtain ⟨old, hold⟩ := hr.symbol? x sym hsym
    obtain ⟨flags, hnew, -, himported⟩ := hle.symbols x old hold
    rw [hsym, Option.some.injEq] at hnew
    subst hnew
    rw [hroutines]
    exact h.routines x old hold ⟨hown.1.trans hle.unit, himported.symm.trans hown.2⟩ hcode
  · rw [hbodies]
    exact fun p hp => (h.bodies p hp).extend hle
  · rw [hroutines, hbodies]
    exact h.bodied

/-- Types or classes were entered or changed, and all else is as it was. -/
theorem Sited.retype (h : Sited R s) (hle : Extends s s') (htypes : TypesFit R s')
    (hscopes : s'.scopes = s.scopes) (hunitScope : s'.unitScope = s.unitScope)
    (hunitScopes : s'.unitScopes = s.unitScopes) (hclasses : s'.classes = s.classes)
    (hroutines : s'.routines = s.routines) (hbodies : s'.bodies = s.bodies) : Sited R s' :=
  have hr : Retains s s' := .of_scopes hscopes hunitScope hunitScopes
  ⟨htypes, h.toScopesFit.retains hle hr, h.toHeadsFit.retains hle hr hclasses,
    h.toCodeFits.retains hle hr hroutines hbodies⟩

theorem TypesFit.widen (h : TypesFit R s) (hle : Extends s s') (hw : s.types.Widens s'.types)
    (ht' : s'.types.Formed) : TypesFit R s' := by
  refine ⟨ht', ?_, ?_, h.size.trans hw.size_le⟩
  · intro c hc hk
    rw [hw.classes] at hc
    have hknown : (s.outer R).known c.type c.key.module :=
      hk.imp_left fun hown => ⟨hown.1.trans hle.unit, hown.2⟩
    exact (h.table c hc hknown).extend (hle.env_le R (List.prefix_refl _) none none) hw.grows
  · intro c hc
    rw [hw.classes] at hc
    exact h.titled c hc

/-! ## Actions that declare nothing -/

/-- Types were entered at most, and errors reported. -/
structure Aside (s s' : Session) : Prop where
  unit : s'.unit = s.unit
  scopes : s'.scopes = s.scopes
  unitScope : s'.unitScope = s.unitScope
  unitScopes : s'.unitScopes = s.unitScopes
  scope : s'.scope = s.scope
  globals : s'.globals = s.globals
  routines : s'.routines = s.routines
  classes : s'.classes = s.classes
  methods : s'.methods = s.methods
  bodies : s'.bodies = s.bodies
  frame : s'.frame.map ({ · with loops := 0 }) = s.frame.map ({ · with loops := 0 })
  errors : s.errors <+: s'.errors

theorem Aside.refl (s : Session) : Aside s s :=
  ⟨rfl, rfl, rfl, rfl, rfl, rfl, rfl, rfl, rfl, rfl, rfl, List.prefix_refl _⟩

theorem Aside.steady (s : Session) : Steady (Aside s) where
  errors e h := ⟨h.unit, h.scopes, h.unitScope, h.unitScopes, h.scope, h.globals, h.routines,
    h.classes, h.methods, h.bodies, h.frame, h.errors.trans (List.prefix_append _ _)⟩
  types _ h := ⟨h.unit, h.scopes, h.unitScope, h.unitScopes, h.scope, h.globals, h.routines,
    h.classes, h.methods, h.bodies, h.frame, h.errors⟩
  inConst _ h := ⟨h.unit, h.scopes, h.unitScope, h.unitScopes, h.scope, h.globals, h.routines,
    h.classes, h.methods, h.bodies, h.frame, h.errors⟩
  loops g h := by
    refine ⟨h.unit, h.scopes, h.unitScope, h.unitScopes, h.scope, h.globals, h.routines,
      h.classes, h.methods, h.bodies, ?_, h.errors⟩
    rw [← h.frame, Option.map_map]
    rfl

namespace Aside

theorem fixed (h : Aside s s') : s'.frame.map Frame.fixed = s.frame.map Frame.fixed := by
  have hfixed := congrArg (Option.map Frame.fixed) h.frame
  rwa [Option.map_map, Option.map_map] at hfixed

theorem slots (h : Aside s s') : s'.slots = s.slots := by
  have hslots := congrArg (Option.map (·.slots)) h.frame
  rw [Option.map_map, Option.map_map] at hslots
  exact congrArg (·.getD []) hslots

theorem proceeds (h : Aside s s') (hle : s.types.Widens s'.types) (ht : s.types.Formed)
    (ht' : s'.types.Formed) : Proceeds s s' := by
  refine ⟨⟨h.unit, h.errors, hle.grows, fun id c hc _ => hle.classInfo? hc, ?_, ?_, ?_, ?_, ?_⟩,
    h.unitScope, h.scope, h.fixed, ?_, ?_, fun _ => ⟨hle, h.routines, h.bodies⟩⟩
  · exact hle.grounded ht ht'
  · intro id c hc
    rw [hle.classInfo?_eq ht ht'] at hc
    exact (Extends.refl s).own id c hc
  · exact fun x sym hsym => ⟨sym.flags, by rw [h.scopes, hsym], rfl, rfl⟩
  · rw [h.globals]
  · rw [h.classes]
  · rw [h.slots]
  · unfold Session.Idle
    rw [h.routines]
    exact id

theorem here (h : Aside s s') (hle : Proceeds s s') (R : Realm) : s'.here R = s.here R := by
  unfold Session.here Session.env Session.Takes Session.Holds
  rw [h.slots, hle.inner, h.unit, h.scopes, h.globals]

end Aside

theorem Stands.aside (h : Stands R s) (ha : Aside s s') (hw : s.types.Widens s'.types)
    (hfits : Fits (s.here R) s') : Stands R s' ∧ Proceeds s s' := by
  have hle := ha.proceeds hw h.sited.formed hfits.formed
  refine ⟨⟨?_, ?_, ?_, ?_, ?_⟩, hle⟩
  · exact h.sited.retype hle.toExtends (h.sited.toTypesFit.widen hle.toExtends hw hfits.formed)
      ha.scopes ha.unitScope ha.unitScopes ha.classes ha.routines ha.bodies
  · intro c hc hlater
    rw [hw.classes] at hc
    rw [ha.classes]
    exact h.headed c hc hlater
  · rw [ha.scopes, ha.unitScope]
    exact h.rooted
  · intro hnone
    rw [hle.scope, hle.unitScope]
    refine h.outside ?_
    simpa [hnone] using ha.fixed.symm
  · intro f hf
    have hinner := hle.inner
    rw [hf, Option.map_some] at hinner
    obtain ⟨f₀, hf₀, hsame⟩ := Option.map_eq_some_iff.mp hinner.symm
    refine ⟨(h.inside f₀ hf₀).1.extend hle hsame.symm ha.scopes, ?_⟩
    rw [ha.here hle]
    exact hfits.frame f hf

/-- An action keeps what holds of the session, and `Q` holds of its result and of the session
after it. -/
def Sites (R : Realm) (s : Session) (x : Bind α) (Q : α → Session → Prop) : Prop :=
  ∀ a s', x.run s = .ok (a, s') → Stands R s' ∧ Proceeds s s' ∧ Q a s'

namespace Sites

variable {α β : Type} {P Q : α → Session → Prop}

theorem pure {a : α} (hs : Stands R s) (ha : Q a s) : Sites R s (pure a) Q := by
  intro b s' h
  cases h
  exact ⟨hs, .refl s, ha⟩

theorem bind {x : Bind β} {f : β → Bind α} {P : β → Session → Prop} (hx : Sites R s x P)
    (hf : ∀ b s₁, Stands R s₁ → Proceeds s s₁ → P b s₁ → Sites R s₁ (f b) Q) :
    Sites R s (x >>= f) Q := by
  intro a s' h
  obtain ⟨⟨b, s₁⟩, hrun, h⟩ := except_bind_ok h
  obtain ⟨hs₁, hle, hb⟩ := hx b s₁ hrun
  obtain ⟨hs', hle', ha⟩ := hf b s₁ hs₁ hle hb a s' h
  exact ⟨hs', hle.trans hle', ha⟩

theorem read {x : Bind β} {f : β → Bind α} {b : β} (hx : x.run s = .ok (b, s))
    (hf : Sites R s (f b) Q) : Sites R s (x >>= f) Q := by
  intro a s' h
  rw [run_read hx] at h
  exact hf a s' h

theorem imp {x : Bind α} (hx : Sites R s x P) (h : ∀ a s', P a s' → Q a s') : Sites R s x Q := by
  intro a s' hrun
  obtain ⟨hs', hle, ha⟩ := hx a s' hrun
  exact ⟨hs', hle, h a s' ha⟩

theorem forM {xs : List β} {f : β → Bind PUnit} {P : Session → Prop} (hs : Stands R s)
    (hP : P s) (hf : ∀ x ∈ xs, ∀ s₁, Stands R s₁ → P s₁ → Sites R s₁ (f x) fun _ s' => P s') :
    Sites R s (xs.forM f) fun _ s' => P s' := by
  induction xs generalizing s with
  | nil => exact pure hs hP
  | cons x xs ih =>
    rw [List.forM]
    refine (hf x List.mem_cons_self s hs hP).bind fun _ s₁ hs₁ _ hP₁ => ?_
    exact ih hs₁ hP₁ fun x hx => hf x (List.mem_cons_of_mem _ hx)

theorem of_yields {x : Bind α} {Q : TypeTable → α → Prop} (hs : Stands R s)
    (hx : Yields (s.here R) s x Q) (hkeeps : ∀ I, Keeps I x) :
    Sites R s x fun a s' => Q s'.types a ∧ Aside s s' ∧ s.types.Widens s'.types := by
  intro a s' h
  obtain ⟨hfits, hw, ha⟩ := hx a s' h
  have haside : Aside s s' :=
    (Bind.of_run (hkeeps (Aside s)) ⟨Aside.steady s, Aside.refl s⟩ h).holds
  obtain ⟨hs', hle⟩ := hs.aside haside hw hfits
  exact ⟨hs', hle, ha, haside, hw⟩

end Sites

end Bound

end Pascaline
