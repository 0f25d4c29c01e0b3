import Pascaline.Proofs.Binding.Modules
import Pascaline.Proofs.Typing.Statements

/-!
# Typed declarations

While a file without classes is bound, every symbol stands for something of its type, and every
variable has a type with values. `Tidy` says so of the session, and each declaration keeps it.
-/

namespace Pascaline.Bound

open TypeTable

variable {R : Realm} {F : RoutineRef → Signature → Prop} {s s₁ s' : Session} {t t' : TypeTable}
  {α β : Type} {Q : α → Session → Prop} {scope : ScopeId} {sc : Scope} {sym : Symbol} {type : TypeId}

/-! ## Sessions -/

/-- The types of the slots of a frame. -/
def slotTypes (slots : List Slot) (n : Nat) (a : TypeId) : Prop :=
  ∃ sl, slots[n]? = some sl ∧ sl.type = a

namespace Session

/-- The routine is one that is at hand, or one of the unit, with this signature. -/
def Signs (s : Session) (F : RoutineRef → Signature → Prop) (ref : RoutineRef) (sig : Signature) :
    Prop :=
  F ref sig ∨ ∃ x sym, s.scopes.symbol? x = some sym ∧ sym.isOwn s.unit ∧ sym.kind.hasCode ∧
    ref = ⟨s.unit, sym.routine⟩ ∧ sig = sym.sig

/-- What the code of the file may refer to so far. -/
def world (s : Session) (R : Realm) (F : RoutineRef → Signature → Prop) : World :=
  ⟨s.types, s.Signs F, (s.outer R).holds⟩

/-- The setting where binding is at. -/
def setting (s : Session) (R : Realm) (F : RoutineRef → Signature → Prop) : Setting :=
  { s.here R with sign := s.Signs F }

end Session

/-- What the symbols of the session stand for has their types, and all variables have values. -/
structure Tidy (F : RoutineRef → Signature → Prop) (s : Session) : Prop where
  plain : s.types.Plain
  symbols : ∀ x sym, s.scopes.symbol? x = some sym → SymbolTyped (s.Signs F) s.types sym
  slots : ∀ sl ∈ s.slots, s.types.Storable sl.type
  globals : ∀ sl ∈ s.globals, s.types.Storable sl.type
  bodies : ∀ p ∈ s.bodies, ∃ sym, s.scopes.symbol? p.symbol = some sym ∧ p.sig = sym.sig

theorem Extends.signs (h : Extends s s') {ref : RoutineRef} {sig : Signature}
    (hs : s.Signs F ref sig) : s'.Signs F ref sig := by
  refine hs.imp_right ?_
  rintro ⟨x, sym, hsym, hown, hcode, rfl, rfl⟩
  obtain ⟨flags, hsym', -, himported⟩ := h.symbols x sym hsym
  exact ⟨x, _, hsym', h.isOwn hown himported, hcode, by rw [h.unit], rfl⟩

theorem Extends.world_le (h : Extends s s') (R : Realm) : (s.world R F).Le (s'.world R F) :=
  ⟨h.grows, fun _ _ => h.signs, fun _ _ _ hm => hm.imp_right h.holds⟩

theorem SymbolTyped.extend (h : SymbolTyped (s.Signs F) s.types sym) (hle : Extends s s') :
    SymbolTyped (s'.Signs F) s'.types sym :=
  h.mono hle.grows fun _ _ => hle.signs

theorem Stands.typable (hs : Stands R s) (ht : Tidy F s) : Typable (s.setting R F) s := by
  refine ⟨hs.fits, ht.plain, ht.symbols, ?_⟩
  rintro n a ⟨sl, hsl, rfl⟩
  exact ht.slots sl (List.mem_of_getElem? hsl)

namespace Tidy

theorem extend (h : Tidy F s) (hle : Extends s s') (ht : s'.types.Plain)
    (hsymbols : ∀ x sym', s'.scopes.symbol? x = some sym' → SymbolTyped (s'.Signs F) s'.types sym' ∨
      ∃ sym flags, s.scopes.symbol? x = some sym ∧ sym' = { sym with flags })
    (hslots : ∀ sl ∈ s'.slots, sl ∈ s.slots ∨ s'.types.Storable sl.type)
    (hglobals : ∀ sl ∈ s'.globals, sl ∈ s.globals ∨ s'.types.Storable sl.type)
    (hbodies : ∀ p ∈ s'.bodies, p ∈ s.bodies ∨
      ∃ sym, s'.scopes.symbol? p.symbol = some sym ∧ p.sig = sym.sig) : Tidy F s' := by
  refine ⟨ht, fun x sym' hx => ?_, fun sl hsl => ?_, fun sl hsl => ?_, fun p hp => ?_⟩
  · rcases hsymbols x sym' hx with htyped | ⟨sym, flags, hsym, rfl⟩
    · exact htyped
    · exact (h.symbols x sym hsym).extend hle
  · exact (hslots sl hsl).elim (fun hold => (h.slots sl hold).mono hle.grows) id
  · exact (hglobals sl hsl).elim (fun hold => (h.globals sl hold).mono hle.grows) id
  · rcases hbodies p hp with hold | hnew
    · obtain ⟨sym, hsym, hsig⟩ := h.bodies p hold
      obtain ⟨flags, hsym', -⟩ := hle.symbols _ _ hsym
      exact ⟨_, hsym', hsig⟩
    · exact hnew

theorem same (h : Tidy F s) (hle : Extends s s') (htypes : s'.types = s.types)
    (hscopes : s'.scopes.symbol? = s.scopes.symbol?) (hslots : ∀ sl ∈ s'.slots, sl ∈ s.slots)
    (hglobals : s'.globals = s.globals) (hbodies : s'.bodies = s.bodies) : Tidy F s' := by
  refine h.extend hle (htypes ▸ h.plain) (fun x sym hx => .inr ?_) (fun sl hsl => .inl (hslots sl hsl))
    (fun sl hsl => .inl (hglobals ▸ hsl)) fun p hp => .inl (hbodies ▸ hp)
  rw [hscopes] at hx
  exact ⟨sym, sym.flags, hx, rfl⟩

theorem reports (h : Tidy F s) (es : List BindReport) :
    Tidy F { s with errors := s.errors ++ es } :=
  ⟨h.plain, h.symbols, h.slots, h.globals, h.bodies⟩

theorem aside (h : Tidy F s) (ha : Aside s s') (hle : Extends s s') (ht : s'.types.Plain) :
    Tidy F s' := by
  refine h.extend hle ht (fun x sym hx => .inr ?_) (fun sl hsl => .inl ?_) (fun sl hsl => .inl ?_)
    fun p hp => .inl ?_
  · rw [ha.scopes] at hx
    exact ⟨sym, sym.flags, hx, rfl⟩
  · exact ha.slots ▸ hsl
  · exact ha.globals ▸ hsl
  · exact ha.bodies ▸ hp

theorem gains (h : Tidy F s) (hg : Gains s s' scope sc sym)
    (hsym : SymbolTyped (s'.Signs F) s.types sym)
    (hslots : ∀ sl ∈ s'.slots, sl ∈ s.slots ∨ s.types.Storable sl.type)
    (hglobals : ∀ sl ∈ s'.globals, sl ∈ s.globals ∨ s.types.Storable sl.type) : Tidy F s' := by
  have htypes := hg.types
  refine h.extend hg.extends_ (htypes ▸ h.plain) (fun x sym' hx => ?_) ?_ ?_ fun p hp => .inl ?_
  · rw [hg.symbol?] at hx
    split at hx
    · cases hx
      rw [htypes]
      exact .inl hsym
    · exact .inr ⟨sym', sym'.flags, hx, rfl⟩
  · rwa [htypes]
  · rwa [htypes]
  · exact hg.bodies ▸ hp

end Tidy

/-! ## Actions -/

/-- What an action does to the types is as `Tidy` asks, and `Q` holds of its result. -/
def Tidies (F : RoutineRef → Signature → Prop) (s : Session) (x : Bind α)
    (Q : α → Session → Prop) : Prop :=
  ∀ a s', x.run s = .ok (a, s') → Tidy F s' ∧ Q a s'

theorem Sites.tidy {x : Bind α} {P : α → Session → Prop} (hx : Sites R s x P)
    (hx' : Tidies F s x Q) : Sites R s x fun a s' => Tidy F s' ∧ P a s' ∧ Q a s' := by
  intro a s' h
  obtain ⟨hs', hle, hP⟩ := hx a s' h
  obtain ⟨ht', hQ⟩ := hx' a s' h
  exact ⟨hs', hle, ht', hP, hQ⟩

namespace Tidies

theorem pure {a : α} (ht : Tidy F s) (ha : Q a s) : Tidies F s (pure a) Q := by
  intro b s' h
  cases h
  exact ⟨ht, ha⟩

theorem read {x : Bind β} {f : β → Bind α} {b : β} (hx : x.run s = .ok (b, s))
    (hf : Tidies F s (f b) Q) : Tidies F s (x >>= f) Q := by
  intro a s' h
  rw [run_read hx] at h
  exact hf a s' h

theorem bind {x : Bind β} {f : β → Bind α} {P : β → Session → Prop}
    (hx : Sites R s x fun b s₁ => Tidy F s₁ ∧ P b s₁)
    (hf : ∀ b s₁, Stands R s₁ → Proceeds s s₁ → Tidy F s₁ → P b s₁ → Tidies F s₁ (f b) Q) :
    Tidies F s (x >>= f) Q := by
  intro a s' h
  obtain ⟨b, s₂, hrun, h⟩ := run_bind_inv h
  obtain ⟨hs₂, hle, ht, hb⟩ := hx b s₂ hrun
  exact hf b s₂ hs₂ hle ht hb a s' h

theorem last {x : Bind β} {a : α} {P : β → Session → Prop} (hx : Tidies F s x P)
    (ha : ∀ s', Q a s') : Tidies F s (x >>= fun _ => Pure.pure a) Q := by
  intro b s' h
  obtain ⟨c, s₁, hrun, h⟩ := run_bind_inv h
  cases h
  exact ⟨(hx c _ hrun).1, ha _⟩

theorem report (ht : Tidy F s) (e : BindError) (span : Span) (notes : List Note) :
    Tidies F s (Bind.report e span notes) fun _ _ => True := by
  intro _ s' h
  cases h
  exact ⟨ht.reports _, trivial⟩

theorem forM {xs : List β} {f : β → Bind PUnit} {P : Session → Prop} (hs : Stands R s)
    (ht : Tidy F s) (hP : P s)
    (hf : ∀ x ∈ xs, ∀ s₁, Stands R s₁ → Proceeds s s₁ → Tidy F s₁ → P s₁ →
      Sites R s₁ (f x) fun _ s' => Tidy F s' ∧ P s') : Tidies F s (xs.forM f) fun _ s' => P s' := by
  intro u s' h
  obtain ⟨-, -, -, ht', hP'⟩ := Sites.forM (P := fun s' => Proceeds s s' ∧ Tidy F s' ∧ P s') hs
    ⟨.refl s, ht, hP⟩ (fun x hx s₁ hs₁ h₁ => by
      intro v s₂ h₂
      obtain ⟨hs₂, hle₂, ht₂, hP₂⟩ := hf x hx s₁ hs₁ h₁.1 h₁.2.1 h₁.2.2 v s₂ h₂
      exact ⟨hs₂, hle₂, h₁.1.trans hle₂, ht₂, hP₂⟩) u s' h
  exact ⟨ht', hP'⟩

end Tidies

theorem Sites.of_binds {x : Bind α} {P Q : TypeTable → α → Prop} (hs : Stands R s) (ht : Tidy F s)
    (hx : Yields (s.here R) s x P) (hx' : Binds (s.setting R F) s x Q) (hkeeps : ∀ I, Keeps I x) :
    Sites R s x fun a s' => Tidy F s' ∧ P s'.types a ∧ Q s'.types a ∧ Aside s s' ∧
      s.types.Widens s'.types := by
  intro a s' h
  obtain ⟨hs', hle, hP, ha, hw⟩ := Sites.of_yields hs hx hkeeps a s' h
  obtain ⟨-, -, hplain, hQ⟩ := hx' a s' h
  exact ⟨hs', hle, ht.aside ha hle.toExtends hplain, hP, hQ, ha, hw⟩

namespace Bind

/-! ## Constants, types and variables -/

theorem declare_tidies {overload : Bool} (ht : Tidy F s) (hsym : SymbolTyped (s.Signs F) s.types sym)
    (hkind : sym.kind.isRoutine = true ∨ overload = false) :
    Tidies F s (declare scope sym overload) fun _ _ => True := by
  intro x? s' h
  rcases declare_run h with ⟨sc, hsc, -, rfl, hfree⟩ | ⟨-, es, rfl, -⟩
  · have hg : Gains s { s with scopes := s.scopes.bind scope sc sym } scope sc sym :=
      Gains.bind sym hsc (fun y hy => ?_) (List.prefix_refl s.globals) s.frame
    · exact ⟨ht.gains hg (hsym.mono (.refl _) fun _ _ => hg.extends_.signs) (fun _ => .inl)
        fun _ => .inl, trivial⟩
    · obtain ⟨hoverload, hroutine⟩ := hfree y hy
      exact ⟨hroutine, hkind.resolve_right (by simp [hoverload])⟩
  · exact ⟨ht.reports _, trivial⟩

theorem declareType_tidies (ht : Tidy F s) (name : Tree.Ident) (htype : s.types.Storable type)
    (exported : Bool) : Tidies F s (declareType scope name type exported) fun _ _ => True := by
  unfold declareType
  refine .read rfl (.read (named_run s name _ _) (declare_tidies ht ?_ (.inr rfl)))
  have hkind : (if s.types.kind type = .classRef then SymbolKind.classRef else .type) = .type :=
    if_neg (ht.plain.kind_ne_classRef type)
  unfold SymbolTyped
  simpa only [hkind] using htype

theorem declareVar_tidies (ht : Tidy F s) (name : Tree.Ident) (htype : s.types.Storable type)
    (exported : Bool) : Tidies F s (declareVar scope name type exported) fun _ _ => True := by
  unfold declareVar
  refine .read rfl ?_
  cases hframe : s.frame with
  | none =>
    refine .read (named_run s name _ _) ?_
    intro u s' h
    obtain ⟨x?, s₁, hd, h⟩ := run_bind_inv h
    rcases declare_run hd with ⟨sc, hsc, rfl, rfl, hfree⟩ | ⟨rfl, es, rfl, -⟩
    · cases h
      refine ⟨ht.gains (Gains.bind _ hsc (fun y hy => absurd (hfree y hy).1 (by simp))
        (List.prefix_append s.globals [⟨name.text, type⟩]) s.frame) htype (fun _ => .inl)
        fun sl hsl => ?_, trivial⟩
      rcases List.mem_append.mp hsl with hsl | hsl
      · exact .inl hsl
      · obtain rfl := List.mem_singleton.mp hsl
        exact .inr htype
    · cases h
      exact ⟨ht.reports _, trivial⟩
  | some f =>
    refine .read (named_run s name _ _) ?_
    intro u s' h
    obtain ⟨x?, s₁, hd, h⟩ := run_bind_inv h
    rcases declare_run hd with ⟨sc, hsc, rfl, rfl, hfree⟩ | ⟨rfl, es, rfl, -⟩
    · cases h
      have hg := Gains.bind { name := name.name, display := name.text, kind := .var, flags := exportFlag exported, type, span := name.span, module := s.unit, slot := f.slots.length : Symbol } hsc (fun y hy => absurd (hfree y hy).1 (by simp))
        (List.prefix_refl s.globals)
        (s.frame.map fun f => { f with slots := f.slots ++ [⟨name.text, type⟩] })
      refine ⟨ht.gains hg htype (fun sl hsl => ?_) fun _ => .inl, trivial⟩
      simp only [Session.slots, hframe, Option.map_some, Option.getD_some] at hsl ⊢
      rcases List.mem_append.mp hsl with hsl | hsl
      · exact .inl hsl
      · obtain rfl := List.mem_singleton.mp hsl
        exact .inr htype
    · cases h
      exact ⟨ht.reports _, trivial⟩

theorem declareVars_tidies (hs : Stands R s) (ht : Tidy F s) (d : Tree.VarDecl) (exported : Bool) :
    Tidies F s (declareVars s.scope d exported) fun _ _ => True := by
  unfold declareVars
  refine .bind (Sites.of_binds hs ht (typeExpr_yields hs.fits d.type)
    (typeExpr_binds (hs.typable ht) d.type) fun I => typeExpr_keeps d.type)
    fun type? s₁ hs₁ hle₁ ht₁ ⟨hwithin, hstorable, ha, _⟩ => ?_
  cases type? with
  | none => exact .pure ht₁ trivial
  | some type =>
    have hwithin₁ : s₁.types.Within (s₁.here R).known type := ha.here hle₁ R ▸ hwithin type rfl
    refine Tidies.forM (P := fun _ => True) hs₁ ht₁ trivial fun name _ s₂ hs₂ hle₂ ht₂ _ => ?_
    have hscope : s.scope = s₂.scope := (hle₂.scope.trans hle₁.scope).symm
    rw [hscope]
    refine ((declareVar_sites hs₂ name (hle₂.within hwithin₁) exported).tidy
      (declareVar_tidies ht₂ name ((hstorable type rfl).mono hle₂.grows) exported)).imp
      fun _ _ h => ⟨h.1, trivial⟩

theorem coerce_run {e? r? : Option Expr} {want : TypeId} {span : Span}
    (h : (coerce e? want span).run s = .ok (r?, s')) :
    ∃ es, s' = { s with errors := s.errors ++ es } ∧
      ∀ e, r? = some e → ∃ v, e? = some v ∧ Bound.coerce s.types v want = .ok e := by
  unfold coerce at h
  split at h
  · cases h
    refine ⟨[], by simp, fun e he => ?_⟩
    cases he
  · rename_i v
    rw [run_read (x := types) (b := s.types) rfl] at h
    split at h
    · rename_i e hcoerce
      cases h
      refine ⟨[], by simp, ?_⟩
      rintro e' ⟨⟩
      exact ⟨v, rfl, hcoerce⟩
    · cases h
      refine ⟨[_], rfl, fun e he => ?_⟩
      cases he

theorem constant_typed {E : Setting} {e e' : Expr} {want : TypeId} (ht : t.Plain)
    (hwant : want ≠ 0 → t.Storable want) (he : E.Types t e) (hconst : e.const?.isSome)
    (h : Bound.coerce t e want = .ok e') :
    ∃ v, e'.const? = some v ∧ t.Has .none (if want = 0 then e'.type else want) v := by
  obtain ⟨v, hv⟩ := Option.isSome_iff_exists.mp hconst
  obtain ⟨v', a, sp, rfl⟩ : ∃ v' a sp, e' = .const v' a sp := by
    cases e <;> cases hv
    unfold Bound.coerce intToReal at h
    repeat' split at h
    all_goals
      cases h
    all_goals exact ⟨_, _, _, rfl⟩
  refine ⟨v', rfl, ?_⟩
  by_cases hzero : want = 0
  · subst hzero
    cases h
    exact const?_typed he rfl
  · obtain ⟨he', hfits⟩ := coerce_typed (W := E.world t) ht he (hwant hzero) h
    rw [if_neg hzero]
    exact (const?_typed he' rfl).fits hfits

theorem declareConst_tidies (hs : Stands R s) (ht : Tidy F s) (d : Tree.ConstDecl)
    (exported : Bool) : Tidies F s (declareConst s.scope d exported) fun _ _ => True := by
  unfold declareConst
  extract_lets jp
  have hjp : ∀ want s₁, Stands R s₁ → Tidy F s₁ → s₁.scope = s.scope →
      (want ≠ 0 → s₁.types.Storable want) → Tidies F s₁ (jp want) fun _ _ => True := by
    intro want s₁ hs₁ ht₁ hscope₁ hwant
    refine .bind (Sites.of_binds hs₁ ht₁ (constant_yields hs₁.fits d.value want)
      (constant_binds (hs₁.typable ht₁) d.value want) fun I => constant_keeps d.value want)
      fun v? s₂ hs₂ hle₂ ht₂ ⟨_, hv, _, _⟩ => ?_
    intro u s' h
    obtain ⟨e?, s₃, hx, hrest⟩ := run_bind_inv h
    obtain ⟨es, rfl, he⟩ := coerce_run hx
    cases e? with
    | none =>
      cases hrest
      exact ⟨ht₂.reports es, trivial⟩
    | some e =>
      obtain ⟨v, rfl, hcoerce⟩ := he e rfl
      obtain ⟨hvt, hconst⟩ := hv v rfl
      obtain ⟨w, hw, hhas⟩ := constant_typed ht₂.plain (fun hne => (hwant hne).mono hle₂.grows) hvt
        hconst hcoerce
      refine Tidies.read (named_run _ d.name _ _) (Tidies.last
        (Q := fun _ _ => True) (declare_tidies (ht₂.reports es) ?_ (.inr rfl)) fun _ => trivial)
        u s' hrest
      unfold SymbolTyped
      simpa only [hw, Option.getD_some] using hhas
  cases d.type with
  | none => exact hjp 0 s hs ht rfl fun h => absurd rfl h
  | some type =>
    refine .bind (Sites.of_binds hs ht (typeExpr_yields hs.fits type)
      (typeExpr_binds (hs.typable ht) type) fun I => typeExpr_keeps type)
      fun type? s₁ hs₁ hle₁ ht₁ ⟨_, hstorable, _, _⟩ => hjp _ s₁ hs₁ ht₁ hle₁.scope ?_
    cases type? with
    | none => exact fun h => absurd rfl h
    | some type => exact fun _ => hstorable type rfl

/-! ## Routines -/

theorem settles_tidy {x : SymbolId} (ht : Tidy F s) (h : Settles s s' x sym) : Tidy F s' := by
  have hle := h.extends_
  have hsymbols := h.symbol?
  obtain ⟨hfound, rfl⟩ := h
  refine ht.extend hle ht.plain (fun y new hy => .inr ?_) (fun _ => .inl) (fun _ => .inl)
    fun _ => .inl
  rw [hsymbols] at hy
  split at hy
  · rename_i hyx
    cases hy
    exact ⟨sym, _, hyx ▸ hfound, rfl⟩
  · exact ⟨new, new.flags, hy, rfl⟩

/-- A body waits with the signature that its routine was declared with. -/
theorem queueBody_tidies (ht : Tidy F s) {decl : Tree.RoutineDecl} {body : Tree.Block}
    {id : SymbolId} {owner : TypeId} (hsym : s.scopes.symbol? id = some sym) :
    Tidies F s (queueBody decl body id owner sym.sig) fun _ _ => True := by
  unfold queueBody
  refine .read rfl ?_
  intro _ s' h
  cases h
  refine ⟨⟨ht.plain, ht.symbols, ht.slots, ht.globals, fun p hp => ?_⟩, trivial⟩
  rcases List.mem_append.mp hp with hp | hp
  · exact ht.bodies p hp
  · obtain rfl := List.mem_singleton.mp hp
    exact ⟨sym, hsym, rfl⟩

theorem forward_tidies (ht : Tidy F s) {id : SymbolId} {decl : Tree.RoutineDecl}
    {body : Tree.Block} {owner : TypeId} (hsym : s.scopes.symbol? id = some sym) :
    Tidies F s (do settle id sym; queueBody decl body id owner sym.sig) fun _ _ => True := by
  have hsettles : Settles s _ id sym := ⟨hsym, rfl⟩
  intro u s' h
  obtain ⟨_, s₁, hx, h⟩ := run_bind_inv h
  cases hx
  refine queueBody_tidies (settles_tidy ht hsettles)
    (?_ : _ = some { sym with flags := sym.flags.without .forward }) u s' h
  rw [hsettles.symbol?, if_pos rfl]

theorem newRoutine_tidies (hs : Stands R s) (ht : Tidy F s) {decl : Tree.RoutineDecl}
    {sig : Signature} (hfits : SignatureFits (s.here R) decl.header.params s.types sig)
    (hsig : sig.Storable s.types) (flags : SymbolFlags)
    (hflags : flags.has .imported = false) :
    Tidies F s (do
      let type ← intern (·.routine sig)
      let sym ← named decl.header.name (if sig.result = 0 then .procedure else .function) flags
      let routine := (← get).routines.size
      let some id ← declare s.unitScope { sym with type, sig, routine } true | return
      let _ ← newRoutine decl.header.name.text id 0 decl.header.span
      match decl.body with
      | some body => queueBody decl body id 0 sig
      | none => return) fun _ _ => True := by
  refine .bind (Sites.of_binds hs ht (routineType_yields hs.fits hfits.1)
    (intern_binds (hs.typable ht) (show (TypeShape.routine sig).Regular s.types from hsig) rfl)
    fun I => routineType_keeps sig)
    fun type s₁ hs₁ hle₁ ht₁ ⟨_, htype, _, _⟩ => ?_
  refine .read (named_run s₁ _ _ _) (.read rfl ?_)
  intro u s' h
  obtain ⟨x?, s₂, hd, h⟩ := run_bind_inv h
  rcases declare_run hd with ⟨sc, hsc, rfl, rfl, hfree⟩ | ⟨rfl, es, rfl, -⟩
  · obtain ⟨i, s₃, hr, h⟩ := run_bind_inv h
    cases hr
    have hkind : (if sig.result = 0 then SymbolKind.procedure else .function).isRoutine ∧
        (if sig.result = 0 then SymbolKind.procedure else .function).hasCode := by
      split <;> decide
    have hg := Gains.code
      (r := { name := decl.header.name.text, symbol := s₁.scopes.symbols.size + 1, owner := 0,
              span := decl.header.span })
      hsc (fun y hy => ⟨(hfree y hy).2, hkind.1⟩) rfl
    have hnew := hg.symbol? (s₁.scopes.symbols.size + 1)
    rw [if_pos rfl] at hnew
    have hsym := ht₁.gains hg (?_ : SymbolTyped _ _ _) (fun _ => .inl) fun _ => .inl
    · cases hbody : decl.body with
      | none =>
        rw [hbody] at h
        cases h
        exact ⟨hsym, trivial⟩
      | some body =>
        rw [hbody] at h
        exact queueBody_tidies hsym hnew u s' h
    · have htyped : s₁.types.shape? type = some (.routine sig) ∧
          Session.Signs { s₁ with scopes := s₁.scopes.bind s.unitScope sc _, routines := _ } F
            ⟨s₁.unit, _⟩ sig :=
        ⟨htype, .inr ⟨_, _, hnew, ⟨rfl, hflags⟩, hkind.2, rfl, rfl⟩⟩
      unfold SymbolTyped
      by_cases hresult : sig.result = 0
      · simpa only [if_pos hresult] using htyped
      · simpa only [if_neg hresult] using htyped
  · cases h
    exact ⟨ht₁.reports es, trivial⟩

theorem declareRoutine_tidies (hs : Stands R s) (ht : Tidy F s) (hnone : s.frame = none)
    (d : Tree.RoutineDecl) (exported : Bool) :
    Tidies F s (declareRoutine d exported) fun _ _ => True := by
  unfold declareRoutine
  extract_lets h flags jp
  split
  · exact .report ht _ _ _
  have hjp : ∀ s₁, Stands R s₁ → Tidy F s₁ → s₁.frame = none →
      Tidies F s₁ (jp ()) fun _ _ => True := by
    intro s₁ hs₁ ht₁ hnone₁
    refine .bind (Sites.of_binds hs₁ ht₁ (signature_yields hs₁.fits h.params h.result)
      (signature_binds (hs₁.typable ht₁) h.params h.result) fun I => signature_keeps _ _)
      fun sig? s₂ hs₂ hle₂ ht₂ ⟨hfits, hsig, ha₂, _⟩ => ?_
    cases sig? with
    | none => exact .pure ht₂ trivial
    | some sig =>
    have hfits := hfits sig rfl
    have hnone₂ := hle₂.frame_none hnone₁
    rw [← ha₂.here hle₂ R] at hfits
    refine .read rfl (.read rfl (.read rfl (.read (findM?_run (fun _ => rfl) _) ?_)))
    split
    · rename_i id hid
      have hmem := List.mem_of_find?_eq_some hid
      have hfound := List.find?_some hid
      obtain ⟨prev, hprev, hname, hown, _⟩ := own_of_mem hs₂.sited hmem
      refine .read rfl ?_
      simp only [hprev, Option.getD_some, Bool.and_eq_true, decide_eq_true_eq] at hfound ⊢
      split
      · split
        · exact .report ht₂ _ _ _
        · rename_i hresult
          -- The selectors agree, and so do the parameters.
          have hold := storable_signature ht₂.plain
            ((ht₂.symbols id prev hprev).of_isRoutine hfound.1 hown.kind).1
          have hparams : prev.sig.params = sig.params := by
            refine ht₂.plain.params_of_selector (fun p hp => ?_) (hname ▸ hfound.2)
            exact (List.mem_append.mp hp).elim (hold.params p) ((hsig sig rfl).1.params p)
          obtain rfl : prev.sig = sig := by
            cases hprevSig : prev.sig
            cases sig
            simp_all
          exact forward_tidies ht₂ hprev
      · exact .report ht₂ _ _ _
    · exact newRoutine_tidies hs₂ ht₂ hfits (hsig sig rfl).1 flags
        (exportFlag_forward_own exported d.body.isNone)
  split
  · refine .bind ((Sites.report hs _ _ _).tidy (.report ht _ _ _)) fun _ s₁ hs₁ hle₁ ht₁ _ => ?_
    exact hjp s₁ hs₁ ht₁ (hle₁.frame_none hnone)
  · exact hjp s hs ht hnone

/-! ## Lists of declarations -/

theorem namedType_tidies (hs : Stands R s) (ht : Tidy F s) (d : Tree.TypeDecl) (exported : Bool) :
    Tidies F s (do
      let some type ← typeExpr d.type | return
      let _ ← declareType s.scope d.name type exported) fun _ _ => True := by
  refine .bind (Sites.of_binds hs ht (typeExpr_yields hs.fits d.type)
    (typeExpr_binds (hs.typable ht) d.type) fun I => typeExpr_keeps d.type)
    fun type? s₁ _ _ ht₁ ⟨_, hstorable, _, _⟩ => ?_
  cases type? with
  | none => exact .pure ht₁ trivial
  | some type =>
    exact .last (Q := fun _ _ => True)
      (declareType_tidies ht₁ d.name (hstorable type rfl) exported) fun _ => trivial

theorem sites_single {x : β} {f : β → Bind PUnit} {Q : PUnit → Session → Prop}
    (h : Sites R s ([x].forM f) Q) : Sites R s (f x) Q := by
  intro u s' hrun
  refine h u s' ?_
  rw [List.forM, StateT.run_bind, hrun]
  rfl

/-- Declarations one after the other, each of which keeps what holds of the session. -/
theorem each_tidies {xs : List β} {f : β → Bind PUnit} {P : Session → Prop} (hs : Stands R s)
    (ht : Tidy F s) (hP : P s)
    (hsites : ∀ x s₁, Stands R s₁ → P s₁ → Sites R s₁ ([x].forM f) fun _ s' => P s')
    (hf : ∀ x s₁, Stands R s₁ → P s₁ → Tidy F s₁ → Tidies F s₁ (f x) fun _ _ => True) :
    Tidies F s (xs.forM f) fun _ _ => True := by
  intro u s' h
  refine ⟨(Sites.forM (P := fun s' => P s' ∧ Tidy F s') hs ⟨hP, ht⟩ (fun x _ s₁ hs₁ h₁ => ?_)
    u s' h).2.2.2, trivial⟩
  exact ((sites_single (hsites x s₁ hs₁ h₁.1)).tidy (hf x s₁ hs₁ h₁.1 h₁.2)).imp
    fun _ _ h₂ => ⟨h₂.2.1, h₂.1⟩

theorem declareLocals_tidies (hs : Stands R s) (ht : Tidy F s) (decls : List Tree.LocalDecl) :
    Tidies F s (declareLocals decls) fun _ _ => True := by
  refine each_tidies (P := fun _ => True) hs ht trivial
    (fun d s₁ hs₁ _ => declareLocals_sites hs₁ [d]) fun d s₁ hs₁ _ ht₁ => ?_
  refine .read rfl ?_
  extract_lets scope
  split
  · exact declareConst_tidies hs₁ ht₁ _ false
  · exact .report ht₁ _ _ _
  · exact namedType_tidies hs₁ ht₁ _ false
  · exact declareVars_tidies hs₁ ht₁ _ false

theorem declareAll_tidies (hs : Stands R s) (ht : Tidy F s) (hnone : s.frame = none)
    (decls : List Tree.Decl) (exported : Bool) :
    Tidies F s (declareAll decls exported) fun _ _ => True := by
  refine each_tidies (P := fun s => s.frame = none) hs ht hnone
    (fun d s₁ hs₁ hnone₁ => declareAll_sites hs₁ hnone₁ [d] exported) fun d s₁ hs₁ hnone₁ ht₁ => ?_
  refine .read rfl ?_
  extract_lets scope
  have hscope : scope = s₁.scope := (hs₁.outside hnone₁).symm
  split
  · exact hscope ▸ declareConst_tidies hs₁ ht₁ _ exported
  · exact .pure ht₁ trivial
  · exact hscope ▸ namedType_tidies hs₁ ht₁ _ exported
  · exact hscope ▸ declareVars_tidies hs₁ ht₁ _ exported
  · split
    · intro u s' h
      cases h
      exact ⟨⟨ht₁.plain, ht₁.symbols, ht₁.slots, ht₁.globals, ht₁.bodies⟩, trivial⟩
    · exact declareRoutine_tidies hs₁ ht₁ hnone₁ _ exported

/-! ## Files without classes -/

theorem registerClasses_tidy (hs : Stands R s) (hnone : s.frame = none) (ht : Tidy F s)
    {decls : List Tree.Decl} {exported : Bool} {u : PUnit}
    (h : (registerClasses decls exported).run s = .ok (u, s')) (hnil : s'.classes = []) :
    Tidy F s' := by
  refine (Sites.forM (P := fun s' => s'.frame = none ∧ (s'.classes = [] → Tidy F s')) hs
    ⟨hnone, fun _ => ht⟩ (fun d _ s₁ hs₁ h₁ v s₂ hrun => ?_) u s' h).2.2.2 hnil
  obtain ⟨hs₂, hle₂, hnone₂⟩ :=
    sites_single (registerClasses_sites hs₁ h₁.1 [d] exported) v s₂ hrun
  refine ⟨hs₂, hle₂, hnone₂, fun hnil₂ => ?_⟩
  have ht₁ := h₁.2 (List.prefix_nil.mp (hnil₂ ▸ hle₂.classes))
  split at hrun
  · rw [run_read (x := get) (b := s₁) rfl, run_read rfl] at hrun
    split at hrun
    · rw [run_read rfl] at hrun
      exact (Tidies.report ht₁ _ _ _ v s₂ hrun).1
    · -- A class would be there.
      obtain ⟨_, _, _, hrun⟩ := run_bind_inv hrun
      obtain ⟨_, _, _, hrun⟩ := run_bind_inv hrun
      obtain ⟨_, _, _, hrun⟩ := run_bind_inv hrun
      cases hrun
      simp at hnil₂
  · cases hrun
    exact ht₁

theorem layoutClasses_tidy {u : Unit} (ht : Tidy F s) (hnil : s.classes = [])
    (h : layoutClasses.run s = .ok (u, s')) : Tidy F s' := by
  unfold layoutClasses at h
  rw [run_read (x := get) (b := s) rfl, hnil] at h
  dsimp only at h
  rw [List.mapM_nil, pure_bind] at h
  cases h
  exact ht

theorem attachMethod_tidies (ht : Tidy F s) (hnil : s.classes = []) (d : Tree.RoutineDecl)
    (owner : Tree.Ident) : Tidies F s (attachMethod d owner) fun _ _ => True := by
  unfold attachMethod
  extract_lets header
  refine .read rfl ?_
  rw [hnil]
  exact .report ht _ _ _

theorem declarations_tidy {f : Tree.File} {u : Unit} (hs : Stands R s) (hnone : s.frame = none)
    (ht : Tidy F s) (h : (declarations f).run s = .ok (u, s')) (hnil : s'.classes = []) :
    Tidy F s' := by
  have hempty : ∀ {a b : Session}, Proceeds a b → b.classes = [] → a.classes = [] :=
    fun hle hb => List.prefix_nil.mp (hb ▸ hle.classes)
  unfold declarations at h
  obtain ⟨_, s₁, hrun₁, h⟩ := run_bind_inv h
  obtain ⟨hs₁, hle₁, hnone₁⟩ := registerClasses_sites hs hnone _ _ _ _ hrun₁
  obtain ⟨_, s₂, hrun₂, h⟩ := run_bind_inv h
  obtain ⟨hs₂, hle₂, hnone₂⟩ := registerClasses_sites hs₁ hnone₁ _ _ _ _ hrun₂
  obtain ⟨_, s₃, hrun₃, h⟩ := run_bind_inv h
  obtain ⟨hs₃, hle₃, hnone₃⟩ := declareAll_sites hs₂ hnone₂ _ _ _ _ hrun₃
  obtain ⟨_, s₄, hrun₄, h⟩ := run_bind_inv h
  obtain ⟨hs₄, hle₄, hnone₄⟩ := declareAll_sites hs₃ hnone₃ _ _ _ _ hrun₄
  obtain ⟨_, s₅, hrun₅, h⟩ := run_bind_inv h
  obtain ⟨hs₅, hle₅, hnone₅⟩ := (layoutClasses_sites hs₄ hnone₄).outside hnone₄ _ _ hrun₅
  rw [run_read (x := get) (b := s₅) rfl] at h
  obtain ⟨-, hle₆, -⟩ := Sites.forM (P := fun s => s.frame = none) hs₅ hnone₅
    (fun d _ s hs hnone => by
      split
      · exact (attachMethod_sites hs hnone d _).outside hnone
      · exact .pure hs hnone) _ _ h
  have hnil₅ := hempty hle₆ hnil
  have hnil₄ := hempty hle₅ hnil₅
  have hnil₂ := hempty hle₃ (hempty hle₄ hnil₄)
  have ht₂ := registerClasses_tidy hs₁ hnone₁
    (registerClasses_tidy hs hnone ht hrun₁ (hempty hle₂ hnil₂)) hrun₂ hnil₂
  have ht₃ := (declareAll_tidies hs₂ ht₂ hnone₂ _ _ _ _ hrun₃).1
  have ht₅ := layoutClasses_tidy (declareAll_tidies hs₃ ht₃ hnone₃ _ _ _ _ hrun₄).1 hnil₄ hrun₅
  refine (Sites.forM (P := fun s => s.frame = none ∧ (s.classes = [] → Tidy F s)) hs₅
    ⟨hnone₅, fun _ => ht₅⟩ (fun d _ s hs hd v s' hrun => ?_) _ _ h).2.2.2 hnil
  split at hrun
  · obtain ⟨hs', hle', hnone'⟩ := (attachMethod_sites hs hd.1 d _).outside hd.1 v s' hrun
    refine ⟨hs', hle', hnone', fun hnil' => ?_⟩
    have hnil₀ := hempty hle' hnil'
    exact (attachMethod_tidies (hd.2 hnil₀) hnil₀ d _ v s' hrun).1
  · cases hrun
    exact ⟨hs, .refl _, hd⟩

end Bind

end Pascaline.Bound
