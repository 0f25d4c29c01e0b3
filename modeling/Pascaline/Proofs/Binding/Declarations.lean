import Pascaline.Proofs.Binding.Declaring

/-!
# Declarations

Each declaration of a file keeps what holds of the session: the constants, types and variables, the
routines, and the classes with their members.
-/

namespace Pascaline.Bound

open TypeTable

variable {R : Realm} {s s₁ s' : Session} {scope : ScopeId} {sc : Scope} {sym : Symbol}
  {α β : Type} {Q : α → Session → Prop}

/-! ## Runs -/

theorem run_bind_inv {x : Bind β} {f : β → Bind α} {a : α}
    (h : (x >>= f).run s = .ok (a, s')) :
    ∃ b s₁, x.run s = .ok (b, s₁) ∧ (f b).run s₁ = .ok (a, s') := by
  obtain ⟨⟨b, s₁⟩, hx, hf⟩ := except_bind_ok h
  exact ⟨b, s₁, hx, hf⟩

namespace Sites

theorem step {x : Bind β} {f : β → Bind α} {b : β} (hx : x.run s = .ok (b, s₁))
    (hle : Proceeds s s₁) (hf : Sites R s₁ (f b) Q) : Sites R s (x >>= f) Q := by
  intro a s' h
  rw [StateT.run_bind, hx] at h
  obtain ⟨hs', hle', ha⟩ := hf a s' h
  exact ⟨hs', hle.trans hle', ha⟩

theorem outside {x : Bind α} (hx : Sites R s x Q) (hnone : s.frame = none) :
    Sites R s x fun _ s' => s'.frame = none := by
  intro a s' h
  obtain ⟨hs', hle, -⟩ := hx a s' h
  exact ⟨hs', hle, hle.frame_none hnone⟩

theorem reports (es : List BindReport) (hs : Stands R s) :
    Stands R { s with errors := s.errors ++ es } ∧ Proceeds s { s with errors := s.errors ++ es } := by
  have hle : Extends s { s with errors := s.errors ++ es } :=
    .of_types rfl rfl (List.prefix_append _ _) (List.prefix_refl _)
      (List.prefix_refl _) fun _ _ hx => hx
  refine ⟨⟨hs.sited.same hle rfl rfl rfl rfl rfl rfl rfl, hs.headed, hs.rooted, hs.outside, ?_⟩,
    hle, rfl, rfl, rfl, List.prefix_refl _, id, fun _ => ⟨.refl _, rfl, rfl⟩⟩
  intro f hf
  have hin := hs.inside f hf
  exact ⟨⟨hin.1.scope, hin.1.found⟩, hin.2⟩

theorem report (hs : Stands R s) (e : BindError) (span : Span) (notes : List Note) :
    Sites R s (Bind.report e span notes) fun _ _ => True := by
  intro _ s' h
  cases h
  exact ⟨(reports _ hs).1, (reports _ hs).2, trivial⟩

theorem fail (hs : Stands R s) (e : BindError) (span : Span) (notes : List Note) :
    Sites R s (Bind.fail e span notes : Bind (Option α)) fun a? _ => a? = none :=
  (report hs e span notes).bind fun _ _ hs₁ _ _ => .pure hs₁ rfl

end Sites

theorem Gains.bind (sym : Symbol) (hsc : s.scopes.scope? scope = some sc)
    (hfree : ∀ y ∈ sc.index.find sym.name, s.scopes.isRoutine y ∧ sym.kind.isRoutine)
    {globals : List Slot} (hglobals : s.globals <+: globals) (frame : Option Frame) :
    Gains s { s with scopes := s.scopes.bind scope sc sym, globals, frame } scope sc sym :=
  ⟨hsc, rfl, hfree, rfl, rfl, rfl, rfl, rfl, rfl, rfl, hglobals, List.prefix_refl _,
    fun i r hr hi => by simp [Array.getElem?_eq_none hi] at hr⟩

theorem Stands.binds (hs : Stands R s) (hsc : s.scopes.scope? s.scope = some sc)
    (hfree : ∀ y ∈ sc.index.find sym.name, false = true ∧ s.scopes.isRoutine y)
    (globals : List Slot) (frame : Option Frame) (hglobals : s.globals <+: globals)
    (hframe : frame.map Frame.fixed = s.frame.map Frame.fixed)
    (hslots : s.slots <+: (frame.map (·.slots)).getD [])
    (hsym : SymbolFits ({ s with scopes := s.scopes.bind s.scope sc sym, globals, frame }.here R)
      s.types sym) (hown : OwnFits s sym) (hcode : sym.kind.hasCode = false) :
    Stands R { s with scopes := s.scopes.bind s.scope sc sym, globals, frame } ∧
      Proceeds s { s with scopes := s.scopes.bind s.scope sc sym, globals, frame } := by
  have hg := Gains.bind sym hsc (fun y hy => absurd (hfree y hy).1 (by simp)) hglobals frame
  have hle : Proceeds s { s with scopes := s.scopes.bind s.scope sc sym, globals, frame } :=
    ⟨hg.extends_, rfl, rfl, hframe, hslots, id, fun _ => ⟨.refl _, rfl, rfl⟩⟩
  exact ⟨hs.gains hg hle hsym hown (by simp [hcode]), hle⟩

namespace Bind

theorem tryDeclare_run {overload : Bool} {d? : Option ScopeTable.Declared}
    (h : (tryDeclare scope sym overload).run s = .ok (d?, s')) :
    (∃ sc, s.scopes.scope? scope = some sc ∧ d? = some (.bound (s.scopes.symbols.size + 1)) ∧
        s' = { s with scopes := s.scopes.bind scope sc sym } ∧
        ∀ y ∈ sc.index.find sym.name, overload = true ∧ s.scopes.isRoutine y) ∨
      s' = s ∧ (∀ id, d? ≠ some (.bound id)) ∧
        ∀ sc, s.scopes.scope? scope = some sc → d? ≠ none ∧ sc.index.find sym.name ≠ [] := by
  unfold tryDeclare at h
  cases hd : s.scopes.declare scope sym overload with
  | error e =>
    have h : (.ok (none, s) : Except Breakdown _) = .ok (d?, s') := by
      rw [← h]
      simp [modifyGet, MonadStateOf.modifyGet, StateT.modifyGet, StateT.run, hd]
      rfl
    cases h
    refine .inr ⟨rfl, by simp, fun sc hsc => ?_⟩
    unfold ScopeTable.declare at hd
    rw [hsc] at hd
    dsimp only at hd
    split at hd <;> cases hd
  | ok r =>
    obtain ⟨d, t⟩ := r
    have h : (.ok (some d, { s with scopes := t }) : Except Breakdown _) = .ok (d?, s') := by
      rw [← h]
      simp [modifyGet, MonadStateOf.modifyGet, StateT.modifyGet, StateT.run, hd]
      rfl
    cases h
    rcases ScopeTable.declare_cases hd with ⟨y, rfl, rfl, hy⟩ | ⟨sc, hsc, rfl, rfl, hfree⟩
    · refine .inr ⟨rfl, by simp, fun sc hsc => ?_⟩
      rw [ScopeTable.lookupLocal_of_scope? hsc] at hy
      exact ⟨nofun, List.ne_nil_of_mem hy⟩
    · exact .inl ⟨sc, hsc, rfl, rfl, hfree⟩

theorem declare_run {overload : Bool} {x? : Option SymbolId}
    (h : (declare scope sym overload).run s = .ok (x?, s')) :
    (∃ sc, s.scopes.scope? scope = some sc ∧ x? = some (s.scopes.symbols.size + 1) ∧
        s' = { s with scopes := s.scopes.bind scope sc sym } ∧
        ∀ y ∈ sc.index.find sym.name, overload = true ∧ s.scopes.isRoutine y) ∨
      x? = none ∧ ∃ es, s' = { s with errors := s.errors ++ es } ∧
        ∀ sc, s.scopes.scope? scope = some sc → es ≠ [] ∧ sc.index.find sym.name ≠ [] := by
  unfold declare at h
  obtain ⟨d?, s₁, hd, h⟩ := run_bind_inv h
  rcases tryDeclare_run hd with ⟨sc, hsc, rfl, rfl, hfree⟩ | ⟨rfl, hnot, htaken⟩
  · cases h
    exact .inl ⟨sc, hsc, rfl, rfl, hfree⟩
  · refine .inr ?_
    cases d? with
    | none =>
      cases h
      exact ⟨rfl, [], by simp, fun sc hsc => absurd rfl (htaken sc hsc).1⟩
    | some d =>
      cases d with
      | bound id => exact absurd rfl (hnot id)
      | conflict y =>
        cases h
        exact ⟨rfl, [_], rfl, fun sc hsc => ⟨nofun, (htaken sc hsc).2⟩⟩

/-! ## Constants, types and variables -/

theorem declare_sites (hs : Stands R s) (hsym : SymbolFits (s.here R) s.types sym)
    (hown : OwnFits s sym) (hcode : sym.kind.hasCode = false) :
    Sites R s (declare s.scope sym false) fun _ _ => True := by
  intro x? s' h
  rcases declare_run h with ⟨sc, hsc, -, rfl, hfree⟩ | ⟨-, es, rfl, -⟩
  · have hle : Extends s { s with scopes := s.scopes.bind s.scope sc sym } :=
      (Gains.bind _ hsc (fun y hy => absurd (hfree y hy).1 (by simp)) (List.prefix_refl s.globals)
        s.frame).extends_
    obtain ⟨hs', hle'⟩ := hs.binds hsc hfree s.globals s.frame (List.prefix_refl _) rfl
      (List.prefix_refl _) (hsym.extend (hle.env_le R (List.prefix_refl _) _ _) (.refl _) rfl sym.scope) hown hcode
    exact ⟨hs', hle', trivial⟩
  · exact ⟨(Sites.reports _ hs).1, (Sites.reports _ hs).2, trivial⟩

theorem named_run (s : Session) (name : Tree.Ident) (kind : SymbolKind) (flags : SymbolFlags) :
    (named name kind flags).run s =
      .ok ({ name := name.name, display := name.text, kind, flags, span := name.span,
             module := s.unit }, s) := rfl

theorem exportFlag_own (exported : Bool) :
    (exportFlag exported).has .imported = false ∧
      ((exportFlag exported).union .global).has .imported = false ∧
      (exportFlag exported).has .global = false ∧
      ((exportFlag exported).union .global).has .global = true := by
  cases exported <;> decide

theorem exportFlag_forward_own (exported forward : Bool) :
    ((exportFlag exported).union (if forward then .forward else {})).has .imported = false := by
  cases exported <;> cases forward <;> decide

theorem declareType_sites (hs : Stands R s) (name : Tree.Ident) {type : TypeId}
    (htype : s.types.Within (s.here R).known type) (exported : Bool) :
    Sites R s (declareType s.scope name type exported) fun _ _ => True := by
  unfold declareType
  refine .read rfl (.read (named_run s name _ _) (declare_sites hs ?_ ?_ ?_))
  · refine ⟨⟨fun _ => htype, fun _ => htype.ne_zero, fun h => absurd rfl h, ⟨by simp, by simp⟩,
      fun _ => rfl⟩, fun _ _ => htype.ne_zero, ?_, ?_, ?_⟩
    all_goals
      dsimp only
      split <;> simp
  · refine ⟨⟨rfl, (exportFlag_own exported).1⟩, ?_, rfl⟩
    dsimp only
    split <;> decide
  · dsimp only
    split <;> decide

theorem declareVar_sites (hs : Stands R s) (name : Tree.Ident) {type : TypeId}
    (htype : s.types.Within (s.here R).known type) (exported : Bool) :
    Sites R s (declareVar s.scope name type exported) fun _ _ => True := by
  unfold declareVar
  refine .read rfl ?_
  obtain ⟨hown, hown', hlocal, hglobal⟩ := exportFlag_own exported
  have hwithin : ∀ {t : TypeTable} {E : Env} {sym : Symbol}, t.Within E.known sym.type →
      sym.kind = .var → sym.owner = 0 → sym.sig = ⟨[], 0⟩ →
      (if sym.flags.has .global then E.holds sym.module sym.slot sym.type
        else E.slot sym.slot.toNat sym.type) → SymbolFits E t sym := by
    intro t E sym htype hkind howner hsig hplace
    refine ⟨⟨fun _ => htype, fun _ => htype.ne_zero, fun h => absurd howner h, ?_, fun _ => hsig⟩,
      fun _ _ => htype.ne_zero, by simp [hkind], by simp [hkind], fun _ => hplace⟩
    rw [hsig]
    exact ⟨by simp, by simp⟩
  cases hframe : s.frame with
  | none =>
    refine .read (named_run s name _ _) ?_
    intro u s' h
    obtain ⟨x?, s₁, hd, h⟩ := run_bind_inv h
    rcases declare_run hd with ⟨sc, hsc, rfl, rfl, hfree⟩ | ⟨rfl, es, rfl, -⟩
    · cases h
      have hplace : (s.globals ++ [⟨name.text, type⟩])[s.globals.length]? = some ⟨name.text, type⟩ := by
        simp
      obtain ⟨hs', hle'⟩ := hs.binds hsc hfree (s.globals ++ [⟨name.text, type⟩]) s.frame
        (List.prefix_append _ _) rfl (List.prefix_refl _)
        (hwithin htype rfl rfl rfl ((if_pos hglobal).mpr
          (.inr ⟨rfl, s.globals.length, ⟨name.text, type⟩, rfl, hplace, rfl⟩)))
        ⟨⟨rfl, hown'⟩, (fun h => by cases h), rfl⟩ rfl
      exact ⟨hs', hle', trivial⟩
    · cases h
      exact ⟨(Sites.reports _ hs).1, (Sites.reports _ hs).2, trivial⟩
  | some f =>
    refine .read (named_run s name _ _) ?_
    intro u s' h
    obtain ⟨x?, s₁, hd, h⟩ := run_bind_inv h
    rcases declare_run hd with ⟨sc, hsc, rfl, rfl, hfree⟩ | ⟨rfl, es, rfl, -⟩
    · cases h
      have hplace : ∃ sl, (f.slots ++ [⟨name.text, type⟩])[(f.slots.length : Int).toNat]? = some sl ∧
          sl.type = type := ⟨⟨name.text, type⟩, by simp, rfl⟩
      have hslots : s.slots = f.slots := by simp [Session.slots, hframe]
      obtain ⟨hs', hle'⟩ := hs.binds hsc hfree s.globals
        (s.frame.map fun f => { f with slots := f.slots ++ [⟨name.text, type⟩] })
        (List.prefix_refl _) (by simp [hframe, Frame.fixed]) (by simp [hframe, hslots])
        (hwithin htype rfl rfl rfl ((if_neg (by simp [hlocal])).mpr (by rw [hframe]; exact hplace)))
        ⟨⟨rfl, hown⟩, (fun h => by cases h), rfl⟩ rfl
      exact ⟨hs', hle', trivial⟩
    · cases h
      exact ⟨(Sites.reports _ hs).1, (Sites.reports _ hs).2, trivial⟩

theorem declareVars_sites (hs : Stands R s) (d : Tree.VarDecl) (exported : Bool) :
    Sites R s (declareVars s.scope d exported) fun _ _ => True := by
  unfold declareVars
  refine (Sites.of_yields hs (typeExpr_yields hs.fits d.type) fun I => typeExpr_keeps d.type).bind
    fun type? s₁ hs₁ hle₁ ⟨htype, ha, _⟩ => ?_
  cases type? with
  | none => exact .pure hs₁ trivial
  | some type =>
    have hwithin : s₁.types.Within (s₁.here R).known type := ha.here hle₁ R ▸ htype type rfl
    refine (Sites.forM (P := fun s' => Proceeds s₁ s') hs₁ (.refl s₁) ?_).imp fun _ _ _ => trivial
    intro name _ s₂ hs₂ hle₂ u s' h
    rw [← hle₁.scope, ← hle₂.scope] at h
    obtain ⟨hs', hle', -⟩ := declareVar_sites hs₂ name
      (hle₂.within hwithin) exported u s' h
    exact ⟨hs', hle', hle₂.trans hle'⟩

theorem declareConst_sites (hs : Stands R s) (d : Tree.ConstDecl) (exported : Bool) :
    Sites R s (declareConst s.scope d exported) fun _ _ => True := by
  unfold declareConst
  extract_lets jp
  have hjp : ∀ want s₁, Stands R s₁ → s₁.scope = s.scope →
      (want ≠ 0 → s₁.types.Within (s₁.here R).known want) →
      Sites R s₁ (jp want) fun _ _ => True := by
    intro want s₁ hs₁ hscope₁ hwant
    refine (Sites.of_yields hs₁ (constant_yields hs₁.fits d.value want)
      fun I => constant_keeps d.value want).bind fun v? s₂ hs₂ hle₂ ⟨hv, ha₂, hw₂⟩ => ?_
    have hhere₂ := ha₂.here hle₂ R
    have hwant₂ : want ≠ 0 → s₂.types.Within (s₂.here R).known want := fun h =>
      hhere₂ ▸ (hwant h).mono hw₂.grows
    refine (Sites.of_yields hs₂ (coerce_yields hs₂.fits (hhere₂ ▸ hv) hwant₂ d.value.span)
      fun I => coerce_keeps v? want d.value.span).bind fun e? s₃ hs₃ hle₃ ⟨he, ha₃, hw₃⟩ => ?_
    cases e? with
    | none => exact .pure hs₃ trivial
    | some e =>
      have hhere₃ := ha₃.here hle₃ R
      have htype : s₃.types.Within (s₃.here R).known (if want = 0 then e.type else want) := by
        rw [hhere₃]
        split
        · exact (he e rfl).within
        · rename_i hne
          exact (hwant₂ hne).mono hw₃.grows
      rw [← hscope₁, ← hle₂.scope, ← hle₃.scope]
      refine .read (named_run s₃ d.name _ _) ((declare_sites hs₃ ?_ ?_ rfl).bind
        fun _ _ hs' _ _ => .pure hs' trivial)
      · exact ⟨⟨fun _ => htype, fun _ => htype.ne_zero, fun h => absurd rfl h, ⟨by simp, by simp⟩,
          fun _ => rfl⟩, fun _ _ => htype.ne_zero, by simp, by simp, by simp⟩
      · exact ⟨⟨rfl, (exportFlag_own exported).1⟩, nofun, rfl⟩
  cases d.type with
  | none => exact hjp 0 s hs rfl fun h => absurd rfl h
  | some t =>
    refine (Sites.of_yields hs (typeExpr_yields hs.fits t) fun I => typeExpr_keeps t).bind
      fun type? s₁ hs₁ hle₁ ⟨htype, ha, _⟩ => hjp _ s₁ hs₁ hle₁.scope ?_
    cases type? with
    | none => exact fun h => absurd rfl h
    | some type => exact fun _ => ha.here hle₁ R ▸ htype type rfl

end Bind

/-! ## Routines -/

theorem Gains.code (hsc : s.scopes.scope? scope = some sc)
    (hfree : ∀ y ∈ sc.index.find sym.name, s.scopes.isRoutine y ∧ sym.kind.isRoutine) {r : Routine}
    (hr : r.hasBody = false) :
    Gains s { s with scopes := s.scopes.bind scope sc sym, routines := s.routines.push r }
      scope sc sym := by
  refine ⟨hsc, rfl, hfree, rfl, rfl, rfl, rfl, rfl, rfl, rfl, List.prefix_refl _, ?_, ?_⟩
  · simp
  · intro i r' hr' hi
    rw [Array.getElem?_push] at hr'
    split at hr'
    · cases hr'
      exact hr
    · simp [Array.getElem?_eq_none hi] at hr'

theorem Gains.takes {r : Routine} (hg : Gains s { s with
      scopes := s.scopes.bind scope sc sym, routines := s.routines.push r } scope sc sym)
    (hown : sym.isOwn s.unit) (hcode : sym.kind.hasCode) :
    Session.Takes { s with scopes := s.scopes.bind scope sc sym, routines := s.routines.push r }
      ⟨s.unit, sym.routine⟩ sym.arity :=
  ⟨_, _, (hg.symbol? _).trans (if_pos rfl), hown, hcode, rfl, rfl⟩

theorem Session.Idle.push (h : s.Idle) {r : Routine} (hsymbol : r.symbol ≠ 0)
    (hr : r.body = [] ∧ r.slots = []) :
    ∀ q ∈ s.routines.push r, q.symbol ≠ 0 ∧ q.body = [] ∧ q.slots = [] := by
  intro q hq
  rcases Array.mem_push.mp hq with hq | rfl
  · exact h q hq
  · exact ⟨hsymbol, hr⟩

theorem Session.Idle.modify (h : s.Idle) (i : Nat) {g : Routine → Routine}
    (hg : ∀ r, (g r).symbol = r.symbol ∧ (g r).body = r.body ∧ (g r).slots = r.slots) :
    ∀ q ∈ s.routines.modify i g, q.symbol ≠ 0 ∧ q.body = [] ∧ q.slots = [] := by
  intro q hq
  obtain ⟨j, hj⟩ := Array.mem_iff_getElem?.mp hq
  rw [Array.getElem?_modify] at hj
  split at hj
  · obtain ⟨r, hr, rfl⟩ := Option.map_eq_some_iff.mp hj
    rw [(hg r).1, (hg r).2.1, (hg r).2.2]
    exact h r (Array.mem_of_getElem? hr)
  · exact h q (Array.mem_of_getElem? hj)

theorem Stands.code (hs : Stands R s) (hnone : s.frame = none)
    (hsc : s.scopes.scope? s.scope = some sc)
    (hfree : ∀ y ∈ sc.index.find sym.name, true = true ∧ s.scopes.isRoutine y)
    (hkind : sym.kind = .procedure ∨ sym.kind = .function) (hown : OwnFits s sym)
    (htype : s.types.Within (s.here R).known sym.type)
    (hsig : sym.sig.Within s.types (s.here R).known) (hroutine : sym.routine = s.routines.size)
    (r : Routine) (hbody : r.hasBody = false) (hblank : r.body = [] ∧ r.slots = []) (hsymbol : r.symbol = s.scopes.symbols.size + 1)
    (howner : r.owner = sym.owner) :
    Stands R { s with scopes := s.scopes.bind s.scope sc sym, routines := s.routines.push r } ∧
      Proceeds s { s with
        scopes := s.scopes.bind s.scope sc sym, routines := s.routines.push r } := by
  have hcode : sym.kind.hasCode ∧ sym.kind.isRoutine ∧ sym.kind ≠ .method ∧ sym.kind ≠ .invalid ∧
      sym.kind ≠ .field ∧ sym.kind ≠ .var ∧ sym.kind ≠ .param := by
    rcases hkind with h | h <;> rw [h] <;> decide
  obtain ⟨hhas, hroutineKind, hmethod, hinvalid, hfield, hvar, hparam⟩ := hcode
  have hg := Gains.code (r := r) hsc (fun y hy => ⟨(hfree y hy).2, hroutineKind⟩) hbody
  have hle : Proceeds s { s with
      scopes := s.scopes.bind s.scope sc sym, routines := s.routines.push r } :=
    .of_outside hg.extends_ rfl rfl hnone rfl fun hidle => hidle.push (hsymbol ▸ Nat.succ_ne_zero _) hblank
  refine ⟨hs.gains hg hle ?_ hown ?_, hle⟩
  · refine ⟨⟨fun _ => htype, fun _ => htype.ne_zero, fun h => absurd hown.owner h, hsig, ?_⟩,
      fun _ _ => htype.ne_zero, ⟨hinvalid, hfield, hmethod⟩, fun _ => .inr ?_, ?_⟩
    · simp [hroutineKind]
    · have htakes := hg.takes hown.own hhas
      rw [Symbol.arity, if_neg hmethod, Nat.add_zero] at htakes
      rw [hown.own.1]
      exact htakes
    · simp [hvar, hparam]
  · exact fun _ _ => ⟨s.routines.size, r, hroutine, by simp, hsymbol, howner⟩

theorem Stands.settles {x : SymbolId} (hs : Stands R s) (h : Settles s s' x sym) :
    Stands R s' ∧ Proceeds s s' := by
  have hext := h.extends_
  have hsited := hs.sited.settles h
  have hscopes : ∀ id, s'.scopes.scope? id = s.scopes.scope? id := by
    intro id
    rw [h.after]
    exact ScopeTable.scope?_setSymbol _ _ _ _
  have hle : Proceeds s s' := by
    obtain ⟨-, rfl⟩ := h
    exact ⟨hext, rfl, rfl, rfl, List.prefix_refl _, id, fun _ => ⟨.refl _, rfl, rfl⟩⟩
  refine ⟨hs.keep hsited hle ?_ hscopes, hle⟩
  rw [h.after]
  exact hs.headed

theorem own_of_mem (h : Sited R s) {name : String} {id : SymbolId}
    (hid : id ∈ s.scopes.lookupLocal s.unitScope name) :
    ∃ sym, s.scopes.symbol? id = some sym ∧ sym.name = name ∧ OwnFits s sym ∧
      SymbolFits (s.outer R) s.types sym := by
  unfold ScopeTable.lookupLocal at hid
  split at hid
  · rename_i sc hsc
    obtain ⟨hkind, hown⟩ := h.own sc hsc
    obtain ⟨sym, hsym, hname, hfits⟩ := hown name id hid
    obtain ⟨sym', hsym', hfits'⟩ := (h.names _ sc name hsc hkind).symbols id hid
    have hsym' : s.scopes.symbol? id = some sym' := hsym'
    rw [hsym, Option.some.injEq] at hsym'
    exact ⟨sym, hsym, hname, hfits, hsym' ▸ hfits'⟩
  · cases hid

theorem PendingFits.own (h : Sited R s) {id : SymbolId} {prev : Symbol} {sig : Signature}
    {decl : Tree.RoutineDecl} {body : Tree.Block}
    (hid : id ∈ s.scopes.lookupLocal s.unitScope decl.header.name.name)
    (hprev : s.scopes.symbol? id = some prev) (hkind : prev.kind.isRoutine)
    (hsig : Bind.SignatureFits (s.outer R) decl.header.params s.types sig)
    (hsel : s.types.selector prev.name prev.sig.params =
      s.types.selector decl.header.name.name sig.params) (hresult : prev.sig.result = sig.result) :
    PendingFits R s { routine := prev.routine.toNat, decl, body, symbol := id, owner := 0, sig } := by
  obtain ⟨sym, hsym, hname, hown, hfits⟩ := own_of_mem h hid
  rw [hprev, Option.some.injEq] at hsym
  subst hsym
  have hcode : prev.kind.hasCode ∧ prev.kind ≠ .method := by
    have hnative := hown.kind
    have hfree := hfits.free
    cases hk : prev.kind <;> simp_all [SymbolKind.isRoutine, SymbolKind.hasCode]
  obtain ⟨i, r, hi, -⟩ := h.routines id prev hprev hown.own hcode.1
  rw [hname] at hsel
  refine ⟨⟨prev, hprev, hown.own, hcode.1, ?_, hown.owner, ?_, ?_, hresult.symm⟩,
    fun hne => absurd rfl hne, hsig.1, hsig.2.symm⟩
  · rw [hi]
    rfl
  · simp [hcode.2]
  · exact (h.titled.length_params hsel).symm

namespace Bind

theorem findM?_run {f : β → Bind Bool} {g : β → Bool} (hf : ∀ x, (f x).run s = .ok (g x, s))
    (xs : List β) : (xs.findM? f).run s = .ok (xs.find? g, s) := by
  induction xs with
  | nil => rfl
  | cons x xs ih =>
    rw [List.findM?, run_read (hf x), List.find?_cons]
    cases g x
    · exact ih
    · rfl

theorem queueBody_sites (hs : Stands R s) (hnone : s.frame = none) {decl : Tree.RoutineDecl} {body : Tree.Block}
    {id : SymbolId} {owner : TypeId} {sig : Signature}
    (hp : PendingFits R s { routine := ((s.scopes.symbol? id).getD default).routine.toNat, decl,
                            body, symbol := id, owner, sig }) :
    Sites R s (queueBody decl body id owner sig) fun _ _ => True := by
  unfold queueBody
  refine .read rfl ?_
  intro _ s' h
  cases h
  refine ⟨hs.keep (hs.sited.queue hp decl.span) ?_ hs.headed fun _ => rfl, ?_, trivial⟩
  all_goals
    refine .still rfl rfl (List.prefix_refl _) rfl rfl (fun _ => rfl) rfl rfl rfl
      (fun hidle => ?_) fun h => absurd hnone h
    exact hidle.modify (g := fun r => { r with hasBody := true, span := decl.span }) _
      fun _ => ⟨rfl, rfl, rfl⟩

theorem forward_sites (hs : Stands R s) (hnone : s.frame = none) {id : SymbolId} {prev : Symbol} {sig : Signature}
    {decl : Tree.RoutineDecl} {body : Tree.Block} {owner : TypeId}
    (hprev : s.scopes.symbol? id = some prev)
    (hp : PendingFits R s { routine := prev.routine.toNat, decl, body, symbol := id, owner, sig }) :
    Sites R s (do settle id prev; queueBody decl body id owner sig) fun _ _ => True := by
  have hsettles : Settles s _ id prev := ⟨hprev, rfl⟩
  obtain ⟨hs₁, hle⟩ := hs.settles hsettles
  refine .step (b := ()) rfl hle (queueBody_sites hs₁ (hle.frame_none hnone) ?_)
  rw [hsettles.symbol?, if_pos rfl]
  exact hp.extend hsettles.extends_

theorem newRoutine_sites (hs : Stands R s) (hnone : s.frame = none) {decl : Tree.RoutineDecl}
    {sig : Signature} (hsig : SignatureFits (s.outer R) decl.header.params s.types sig)
    (flags : SymbolFlags) (hflags : flags.has .imported = false) :
    Sites R s (do
      let type ← intern (·.routine sig)
      let sym ← named decl.header.name (if sig.result = 0 then .procedure else .function) flags
      let routine := (← get).routines.size
      let some id ← declare s.unitScope { sym with type, sig, routine } true | return
      let _ ← newRoutine decl.header.name.text id 0 decl.header.span
      match decl.body with
      | some body => queueBody decl body id 0 sig
      | none => return) fun _ _ => True := by
  refine (Sites.of_yields hs (routineType_yields hs.fits hsig.1)
    fun I => routineType_keeps sig).bind fun type s₁ hs₁ hle₁ ⟨htype, ha, hw⟩ => ?_
  have hnone₁ := hle₁.frame_none hnone
  have hkind : (if sig.result = 0 then SymbolKind.procedure else .function) = .procedure ∨
      (if sig.result = 0 then SymbolKind.procedure else .function) = .function := by
    split <;> simp
  have hnative : (if sig.result = 0 then SymbolKind.procedure else .function) ≠ .native := by
    split <;> decide
  refine .read (named_run s₁ _ _ _) (.read rfl ?_)
  rw [← hle₁.unitScope, ← hs₁.outside hnone₁]
  intro u s' h
  obtain ⟨x?, s₂, hd, h⟩ := run_bind_inv h
  rcases declare_run hd with ⟨sc, hsc, rfl, rfl, hfree⟩ | ⟨rfl, es, rfl, -⟩
  · obtain ⟨i, s₃, hr, h⟩ := run_bind_inv h
    cases hr
    rw [← ha.here hle₁ R] at htype
    obtain ⟨hs₃, hle₃⟩ := hs₁.code hnone₁ hsc hfree hkind ⟨⟨rfl, hflags⟩, hnative, rfl⟩ htype
      (hle₁.signature hsig.1) rfl
      { name := decl.header.name.text, symbol := s₁.scopes.symbols.size + 1, owner := 0,
        span := decl.header.span } rfl ⟨rfl, rfl⟩ rfl rfl
    cases hbody : decl.body with
    | none =>
      rw [hbody] at h
      cases h
      exact ⟨hs₃, hle₃, trivial⟩
    | some body =>
      rw [hbody] at h
      have hnew := ScopeTable.symbol?_bind s₁.scopes s₁.scope sc
        { name := decl.header.name.name, display := decl.header.name.text,
          kind := if sig.result = 0 then .procedure else .function, flags, type,
          span := decl.header.name.span, module := s₁.unit, routine := s₁.routines.size, sig }
        (s₁.scopes.symbols.size + 1)
      rw [if_pos rfl] at hnew
      have hcode : (if sig.result = 0 then SymbolKind.procedure else .function).hasCode ∧
          (if sig.result = 0 then SymbolKind.procedure else .function) ≠ .method := by
        split <;> decide
      refine (queueBody_sites hs₃ hnone₁ ?_ u s' h).imp id (And.imp_left hle₃.trans)
      refine ⟨⟨_, hnew, ⟨rfl, hflags⟩, hcode.1, ?_, rfl, ?_, rfl, rfl⟩, fun hne => absurd rfl hne,
        hle₃.signature (hle₁.signature hsig.1), hsig.2.symm⟩
      · simp only [hnew]
        rfl
      · simp [hcode.2]
  · cases h
    exact ⟨(Sites.reports _ hs₁).1, (Sites.reports _ hs₁).2, trivial⟩

theorem declareRoutine_sites (hs : Stands R s) (hnone : s.frame = none) (d : Tree.RoutineDecl)
    (exported : Bool) : Sites R s (declareRoutine d exported) fun _ _ => True := by
  unfold declareRoutine
  extract_lets h flags jp
  split
  · exact .report hs _ _ _
  have hjp : ∀ s₁, Stands R s₁ → s₁.frame = none → Sites R s₁ (jp ()) fun _ _ => True := by
    intro s₁ hs₁ hnone₁
    refine (Sites.of_yields hs₁ (signature_yields hs₁.fits h.params h.result)
      fun I => signature_keeps _ _).bind fun sig? s₂ hs₂ hle₂ ⟨hsig, ha₂, _⟩ => ?_
    cases sig? with
    | none => exact .pure hs₂ trivial
    | some sig =>
    have hsig := hsig sig rfl
    have hnone₂ := hle₂.frame_none hnone₁
    rw [← ha₂.here hle₂ R] at hsig
    refine .read rfl (.read rfl (.read rfl (.read (findM?_run (fun _ => rfl) _) ?_)))
    split
    · rename_i id hid
      have hmem := List.mem_of_find?_eq_some hid
      have hfound := List.find?_some hid
      obtain ⟨prev, hprev, -⟩ := own_of_mem hs₂.sited hmem
      refine .read rfl ?_
      simp only [hprev, Option.getD_some, Bool.and_eq_true, decide_eq_true_eq] at hfound ⊢
      split
      · split
        · exact .report hs₂ _ _ _
        · rename_i hresult
          exact forward_sites hs₂ hnone₂ hprev (.own hs₂.sited hmem hprev hfound.1 hsig hfound.2
            (not_not.mp hresult))
      · exact .report hs₂ _ _ _
    · exact newRoutine_sites hs₂ hnone₂ hsig flags (exportFlag_forward_own exported d.body.isNone)
  split
  · exact (Sites.report hs _ _ _).bind fun _ s₁ hs₁ hle₁ _ => hjp s₁ hs₁ (hle₁.frame_none hnone)
  · exact hjp s hs hnone

end Bind

/-! ## Classes that are made known -/

theorem isBlank_fits {E : Env} {t : TypeTable} {c : ClassInfo} (hc : c.IsBlank) :
    ClassFits E t c := by
  obtain ⟨hbase, hfields, hmethods, hvmt, -⟩ := hc
  refine ⟨⟨fun hne => absurd hbase hne, ?_, ?_, ?_⟩, ?_, ?_⟩
  · simp [hfields]
  · simp [hmethods]
  · simp [hvmt]
  · simp [hmethods]
  · simp [hvmt]

theorem Sited.newClass (h : Sited R s) (key : ClassKey) (hmodule : key.module = s.unit)
    (hname : IsName key.name) :
    Sited R { s with types := (s.types.newClass key).2 } ∧
      Extends s { s with types := (s.types.newClass key).2 } := by
  obtain ⟨hformed, hgrows⟩ := h.formed.newClass key
  have hinfo : ∀ k, (s.types.newClass key).2.classInfo? k =
      if k = (s.types.newClass key).1 then some { key, type := k } else s.types.classInfo? k :=
    fun _ => h.formed.classInfo?_newClass
  have hext : Extends s { s with types := (s.types.newClass key).2 } := by
    have hold : ∀ id c, s.types.classInfo? id = some c →
        (s.types.newClass key).2.classInfo? id = some c := by
      intro id c hc
      refine (hinfo id).trans ?_
      rw [if_neg, hc]
      rintro rfl
      obtain ⟨i, hi, -⟩ := classInfo?_eq_some.mp hc
      exact absurd (shape?_le hi) (Nat.not_succ_le_self _)
    refine ⟨rfl, List.prefix_refl _, hgrows, fun id c hc _ => hold id c hc, fun hg => ?_, ?_,
      fun x sym hx => ⟨sym.flags, hx, rfl, rfl⟩, List.prefix_refl _, List.prefix_refl _⟩
    · refine hg.grow hold fun id c hc => ?_
      have hc := (hinfo id).symm.trans hc
      split at hc
      · cases hc
        exact .inr ⟨rfl, rfl⟩
      · exact .inl hc
    · intro id c hc
      have hc := (hinfo id).symm.trans hc
      split at hc
      · cases hc
        exact .inl hmodule
      · exact .inr (keyOf?_eq_some.mpr ⟨c, hc, rfl⟩)
  have hclass : ∀ c ∈ (s.types.newClass key).2.classes,
      c ∈ s.types.classes ∨ c = { key, type := (s.types.newClass key).1 } := fun c hc =>
    Array.mem_push.mp hc
  have hsize : s.types.shapes.size ≤ (s.types.newClass key).2.shapes.size := by
    simpa using hgrows.shapes.length_le
  refine ⟨h.retype hext ⟨hformed, ?_, ?_, h.size.trans hsize⟩ rfl rfl rfl rfl rfl rfl, hext⟩
  · intro c hc hknown
    rcases hclass c hc with hc | rfl
    · exact (h.table c hc hknown).extend (hext.env_le R (List.prefix_refl _) none none) hgrows
    · exact isBlank_fits ⟨rfl, rfl, rfl, rfl, rfl⟩
  · intro c hc
    rcases hclass c hc with hc | rfl
    · exact h.titled c hc
    · exact hname

theorem Sited.addHead (h : Sited R s) {c : ClassHead} (hc : HeadFits R s c)
    (hid : c.id ∉ s.classes.map (·.id)) (hscope : c.scope ∉ s.classes.map (·.scope))
    (hname : c.name.name ∉ s.classes.map (·.name.name)) :
    Sited R { s with classes := s.classes ++ [c] } := by
  have hext : Extends s { s with classes := s.classes ++ [c] } :=
    .of_types rfl rfl (List.prefix_refl _) (List.prefix_refl _)
      (List.prefix_append _ _) fun _ _ hx => hx
  have hr : Retains s { s with classes := s.classes ++ [c] } := .of_scopes rfl rfl rfl
  refine ⟨h.toTypesFit.widen hext (.refl _) h.formed, h.toScopesFit.retains hext hr, ⟨?_, ?_⟩,
    h.toCodeFits.retains hext hr rfl rfl⟩
  · intro d hd
    rcases List.mem_append.mp hd with hd | hd
    · exact (h.heads d hd).keep hext id rfl
    · obtain rfl := List.mem_singleton.mp hd
      exact hc.keep hext id rfl
  · obtain ⟨hids, hscopes, hnames⟩ := h.apart
    have happend : ∀ {β : Type} {f : ClassHead → β}, (s.classes.map f).Nodup →
        f c ∉ s.classes.map f → ((s.classes ++ [c]).map f).Nodup := fun hf hc => by
      rw [List.map_append, List.map_singleton, ← List.concat_eq_append]
      exact hf.concat hc
    exact ⟨happend hids hid, happend hscopes hscope, happend hnames hname⟩

theorem Sited.nameClass (h : Sited R s) {name : Tree.Ident} {c : ClassInfo} {id : TypeId}
    (hc : s.types.classInfo? id = some c) (hkey : c.key = ⟨s.unit, name.name⟩)
    (hsc : s.scopes.scope? s.unitScope = some sc) (hfree : sc.index.find name.name = [])
    (sym : Symbol) (hname : sym.name = name.name) (hkind : sym.kind = .classRef) (hown : OwnFits s sym)
    (htype : sym.type = id) (hsig : sym.sig = ⟨[], 0⟩) (hlater : R.size < id)
    (hid : id ∉ s.classes.map (·.id))
    (base : Option Tree.NamedType) (members : List Tree.Member) {scope : ScopeId}
    (hscope : scope = ((s.scopes.bind s.unitScope sc sym).newScope .classBody s.unitScope).1) :
    Sited R { s with
      scopes := ((s.scopes.bind s.unitScope sc sym).newScope .classBody s.unitScope).2
      classes := s.classes ++ [{ id, name, base, members, scope }] } ∧
    Extends s { s with
      scopes := ((s.scopes.bind s.unitScope sc sym).newScope .classBody s.unitScope).2
      classes := s.classes ++ [{ id, name, base, members, scope }] } ∧
    ∃ sc', ((s.scopes.bind s.unitScope sc sym).newScope .classBody s.unitScope).2.scope?
      s.unitScope = some sc' := by
  obtain ⟨houter, -⟩ := h.own sc hsc
  rw [← hname] at hfree
  have hg := Gains.bind sym hsc (fun y hy => by rw [hfree] at hy; cases hy)
    (List.prefix_refl s.globals) s.frame
  have hwithin : s.types.Within (s.outer R).known sym.type := by
    rw [htype]
    exact .classRef hc (.inl ⟨congrArg ClassKey.module hkey, hlater⟩)
  have hfits : SymbolFits (Session.outer { s with scopes := s.scopes.bind s.unitScope sc sym } R)
      s.types sym := by
    refine ⟨⟨fun _ => hwithin, fun _ => hwithin.ne_zero, fun hne => absurd hown.owner hne, ?_,
      fun _ => hsig⟩, fun _ _ => hwithin.ne_zero, ?_, ?_, ?_⟩
    · rw [hsig]
      exact ⟨by simp, by simp⟩
    · simp [hkind]
    · simp [hkind]
    · simp [hkind]
  have hother : ∀ c ∈ s.classes, c.scope = s.unitScope → MemberFits R s c.id sym := by
    intro c hc hsame
    obtain ⟨sc', hsc', hclass, -⟩ := (h.heads c hc).members
    rw [hsame, hsc, Option.some.injEq] at hsc'
    exact absurd (hsc' ▸ hclass) houter.1
  have h₁ := h.gains hg (fun _ => hfits) (fun _ => hown) hother (by simp [hkind, SymbolKind.hasCode])
  have h₂ := h₁.newScope .classBody h₁.placed fun p hp => (h₁.own p hp).1
  have hsize : (s.scopes.bind s.unitScope sc sym).scopes.size = s.scopes.scopes.size :=
    ScopeTable.size_scopes_bind
  have hnew : scope = s.scopes.scopes.size + 1 := by
    rw [hscope, ← hsize]
    rfl
  have hfound : ((s.scopes.bind s.unitScope sc sym).newScope .classBody s.unitScope).2.scope?
      s.unitScope = some { sc with
        index := sc.index.push sym.name (s.scopes.symbols.size + 1)
        symbols := sc.symbols ++ [s.scopes.symbols.size + 1] } := by
    apply ScopeTable.scope?_newScope_of_some
    rw [ScopeTable.scope?_bind hsc, if_pos rfl]
  refine ⟨h₂.addHead ⟨hlater, keyOf?_eq_some.mpr ⟨c, hc, hkey⟩, ?_, ?_⟩ hid ?_ ?_, ?_,
    ⟨_, hfound⟩⟩
  · have hmem := NameIndex.mem_find_push.mpr
      (.inr ⟨rfl, rfl⟩ : s.scopes.symbols.size + 1 ∈ sc.index.find sym.name ∨
        sym.name = sym.name ∧ s.scopes.symbols.size + 1 = s.scopes.symbols.size + 1)
    dsimp only
    rw [ScopeTable.lookupLocal_of_scope? hfound, ← hname]
    exact List.ne_nil_of_mem hmem
  · refine ⟨{ kind := .classBody, parent := s.unitScope }, ?_, rfl, ?_⟩
    · rw [ScopeTable.scope?_newScope, if_pos]
      exact hscope
    · intro name x hx
      cases hx
  · intro hmem
    obtain ⟨d, hd, hsame⟩ := List.mem_map.mp hmem
    obtain ⟨sc', hsc', -⟩ := (h.heads d hd).members
    have hle := ScopeTable.scope?_le hsc'
    rw [hsame, hnew] at hle
    exact absurd hle (Nat.not_succ_le_self _)
  · intro hmem
    obtain ⟨d, hd, hsame⟩ := List.mem_map.mp hmem
    refine (h.heads d hd).named ?_
    rw [hsame, ScopeTable.lookupLocal_of_scope? hsc, ← hname]
    exact hfree
  · exact hg.extends_.trans (.of_types rfl rfl (List.prefix_refl _) (List.prefix_refl _)
      (List.prefix_append _ _)
      fun _ _ hx => hx)

theorem registerClass_sites (hs : Stands R s) (hnone : s.frame = none) (name : Tree.Ident)
    (base : Option Tree.NamedType) (members : List Tree.Member) (exported : Bool)
    (hfree : s.scopes.lookupLocal s.unitScope name.name = []) :
    Sites R s (do
      let id ← Bind.intern (·.newClass ⟨s.unit, name.name⟩)
      let _ ← Bind.declareType s.unitScope name id exported
      let scope ← Bind.newScope .classBody s.unitScope
      modify fun s => { s with classes := s.classes ++ [{ id, name, base, members, scope }] })
      fun _ _ => True := by
  intro u s' h
  obtain ⟨sc, hsc⟩ := hs.rooted
  obtain ⟨h₁, hle₁⟩ := hs.sited.newClass ⟨s.unit, name.name⟩ rfl name.named
  have hinfo : (s.types.newClass ⟨s.unit, name.name⟩).2.classInfo?
      (s.types.newClass ⟨s.unit, name.name⟩).1 =
        some { key := ⟨s.unit, name.name⟩, type := (s.types.newClass ⟨s.unit, name.name⟩).1 } := by
    rw [hs.sited.formed.classInfo?_newClass, if_pos rfl]
  have hkind : (s.types.newClass ⟨s.unit, name.name⟩).2.kind
      (s.types.newClass ⟨s.unit, name.name⟩).1 = .classRef := by
    obtain ⟨i, hi, -⟩ := classInfo?_eq_some.mp hinfo
    exact kind_of_shape? hi
  have hnew : (s.types.newClass ⟨s.unit, name.name⟩).1 ∉ s.classes.map (·.id) := by
    intro hmem
    obtain ⟨d, hd, hsame⟩ := List.mem_map.mp hmem
    obtain ⟨c, hc, -⟩ := keyOf?_eq_some.mp (hs.sited.heads d hd).key
    obtain ⟨i, hi, -⟩ := classInfo?_eq_some.mp hc
    rw [hsame] at hi
    exact absurd (shape?_le hi) (Nat.not_succ_le_self _)
  rw [ScopeTable.lookupLocal_of_scope? hsc] at hfree
  obtain ⟨id, s₁, hx, h⟩ := run_bind_inv h
  cases hx
  obtain ⟨x?, s₂, hx, h⟩ := run_bind_inv h
  unfold Bind.declareType at hx
  rw [run_read rfl, run_read (Bind.named_run _ name _ _)] at hx
  rcases Bind.declare_run hx with ⟨sc', hsc', -, rfl, -⟩ | ⟨-, es, -, htaken⟩
  swap
  · exact absurd hfree (htaken sc hsc).2
  obtain rfl : sc = sc' := Option.some.inj (hsc.symm.trans hsc')
  obtain ⟨scope, s₃, hx, h⟩ := run_bind_inv h
  cases hx
  cases h
  have hnative : (if (s.types.newClass ⟨s.unit, name.name⟩).2.kind
      (s.types.newClass ⟨s.unit, name.name⟩).1 = .classRef then SymbolKind.classRef else .type) ≠
        .native := by
    rw [if_pos hkind]
    decide
  obtain ⟨h', hle', hroot⟩ := h₁.nameClass hinfo rfl hsc hfree
    { name := name.name, display := name.text, kind := if (s.types.newClass ⟨s.unit, name.name⟩).2.kind
        (s.types.newClass ⟨s.unit, name.name⟩).1 = .classRef then .classRef else .type,
      flags := Bind.exportFlag exported, type := (s.types.newClass ⟨s.unit, name.name⟩).1,
      span := name.span, module := s.unit }
    rfl (if_pos hkind) ⟨⟨rfl, (Bind.exportFlag_own exported).1⟩, hnative, rfl⟩ rfl rfl
    (Nat.lt_succ_of_le hs.sited.size) hnew base members rfl
  refine ⟨⟨h', ?_, hroot, fun _ => hs.outside hnone, fun f hf => ?_⟩,
    .of_outside (hle₁.trans hle') rfl rfl hnone rfl id, trivial⟩
  · intro c hc hlater
    rcases Array.mem_push.mp hc with hc | rfl
    · obtain ⟨d, hd, hid⟩ := hs.headed c hc hlater
      exact ⟨d, List.mem_append_left _ hd, hid⟩
    · exact ⟨_, List.mem_append_right _ List.mem_cons_self, rfl⟩
  · have hf : s.frame = some f := hf
    rw [hnone] at hf
    cases hf

theorem registerClasses_sites (hs : Stands R s) (hnone : s.frame = none) (decls : List Tree.Decl)
    (exported : Bool) :
    Sites R s (Bind.registerClasses decls exported) fun _ s' => s'.frame = none := by
  unfold Bind.registerClasses
  refine Sites.forM hs hnone fun d _ s₁ hs₁ hnone₁ => ?_
  split
  · refine .read rfl (.read rfl ?_)
    split
    · exact .read rfl ((Sites.report hs₁ _ _ _).outside hnone₁)
    · rename_i hfree
      exact (registerClass_sites hs₁ hnone₁ _ _ _ exported hfree).outside hnone₁
  · exact .pure hs₁ hnone₁

end Pascaline.Bound
