import Pascaline.Proofs.Typing.Declarations

/-!
# Typed bodies and modules

The bodies of a file without classes keep to the types, and the slots of a routine are those of its
parameters, of its result and of its local variables.

What a module without classes holds once it was bound without errors: its symbols, its variables and
its routines keep to the types, and each routine has the signature of its symbol.
-/

namespace Pascaline.Bound

open TypeTable

variable {R : Realm} {F : RoutineRef → Signature → Prop} {s s₁ s' : Session} {f : Frame}
  {sym : Symbol} {p : PendingBody} {r : Routine} {W W' : World}

/-- All slots have values, and the body keeps to the types. -/
structure Routine.Typed (W : World) (r : Routine) : Prop where
  slots : ∀ sl ∈ r.slots, W.types.Storable sl.type
  body : ∀ c ∈ r.body, c.Typed W (slotTypes r.slots)

/-- The slots of the routine are those of the parameters, of the result and of local variables. -/
structure Routine.Carries (r : Routine) (sig : Signature) : Prop where
  slots : ∃ locals, r.slots.map (·.type) =
    sig.params ++ (if sig.result = 0 then [] else [sig.result]) ++ locals
  params : r.params = sig.params.length
  result : r.result = if sig.result = 0 then none else some r.params

theorem Routine.Typed.mono (h : r.Typed W) (hle : W.Le W') : r.Typed W' :=
  ⟨fun sl hsl => (h.slots sl hsl).mono hle.types, fun c hc => (h.body c hc).mono hle fun _ _ h => h⟩

theorem Yielded.carries (h : Yielded s p r) (hzero : p.owner = 0) : r.Carries p.sig := by
  obtain ⟨_, params, locals, hslots, htypes, -⟩ := h.slots
  have hreceiver : p.receiver = [] := if_neg (not_not.mpr hzero)
  have hresult : (if p.sig.result = 0 then [] else [(⟨"Result", p.sig.result⟩ : Slot)]).map (·.type) =
      if p.sig.result = 0 then [] else [p.sig.result] := by
    split <;> rfl
  refine ⟨⟨locals.map (·.type), ?_⟩, ?_, h.result⟩
  · rw [hslots, hreceiver, List.nil_append, List.map_append, List.map_append, htypes, hresult]
  · rw [h.params, hreceiver, List.length_nil, Nat.zero_add]

namespace Tidy

theorem pending (ht : Tidy F s) (hs : Sited R s) (hp : p ∈ s.bodies) :
    p.owner = 0 ∧ p.sig.Storable s.types := by
  obtain ⟨sym, hsym, hsig⟩ := ht.bodies p hp
  obtain ⟨sym', hsym', -, hcode, -, -, hmethod, -⟩ := (hs.bodies p hp).symbol
  obtain rfl := Option.some.inj (hsym.symm.trans hsym')
  have htyped := ht.symbols _ sym hsym
  have hkind : sym.kind ≠ .method ∧ sym.kind.isRoutine ∧ sym.kind ≠ .native := by
    unfold SymbolTyped at htyped
    cases hk : sym.kind <;> simp_all [SymbolKind.hasCode, SymbolKind.isRoutine]
  refine ⟨by_contra fun hne => hkind.1 (hmethod.mpr hne), ?_⟩
  rw [hsig]
  exact storable_signature ht.plain (htyped.of_isRoutine hkind.2.1 hkind.2.2).1

end Tidy

namespace Bind

/-! ## Frames -/

theorem declareSlot_tidies (ht : Tidy F s) (hframe : s.frame = some f)
    (hkind : sym.kind = .param ∨ sym.kind = .var) (htype : s.types.Storable sym.type) :
    Tidies F s (declareSlot sym) fun _ s' => s'.types = s.types ∧ s'.frame ≠ none := by
  have hslots : ∀ sl ∈ f.slots ++ [⟨sym.display, sym.type⟩], sl ∈ s.slots ∨ s.types.Storable sl.type := by
    intro sl hsl
    rcases List.mem_append.mp hsl with hsl | hsl
    · exact .inl (by simpa [Session.slots, hframe] using hsl)
    · obtain rfl := List.mem_singleton.mp hsl
      exact .inr htype
  intro u s' h
  unfold declareSlot at h
  rw [run_read (x := get) (b := s) rfl] at h
  obtain ⟨_, s₁, hx, h⟩ := run_bind_inv h
  cases hx
  obtain ⟨x?, s₂, hd, h⟩ := run_bind_inv h
  rcases declare_run hd with ⟨sc, hsc, rfl, rfl, hfree⟩ | ⟨rfl, es, rfl, -⟩
  · cases h
    have hg := Gains.bind (s := s)
      { sym with module := s.unit, slot := ((s.frame.map (·.slots)).getD []).length : Symbol } hsc
      (fun y hy => absurd (hfree y hy).1 (by simp)) (List.prefix_refl s.globals)
      (s.frame.map fun f => { f with slots := f.slots ++ [⟨sym.display, sym.type⟩] })
    refine ⟨ht.gains hg ?_ (fun sl hsl => ?_) fun _ => .inl, rfl, by simp [hframe]⟩
    · unfold SymbolTyped
      rcases hkind with hkind | hkind <;> simpa only [hkind] using htype
    · exact hslots sl (by simpa [Session.slots, hframe] using hsl)
  · cases h
    refine ⟨⟨ht.plain, ht.symbols, fun sl hsl => ?_, ht.globals, ht.bodies⟩, rfl, by simp [hframe]⟩
    exact (hslots sl (by simpa [Session.slots, hframe] using hsl)).elim (ht.slots sl) id

theorem declareEach_tidies {ps : List (Tree.Ident × TypeId)} (ht : Tidy F s) (hne : s.frame ≠ none)
    (hps : ∀ q ∈ ps, s.types.Storable q.2) :
    Tidies F s (ps.forM fun (n, type) => declareSlot
      { name := n.name, display := n.text, kind := .param, type, span := n.span })
      fun _ s' => s'.types = s.types ∧ s'.frame ≠ none := by
  induction ps generalizing s with
  | nil => exact .pure ht ⟨rfl, hne⟩
  | cons q ps ih =>
    obtain ⟨f, hf⟩ := Option.ne_none_iff_exists'.mp hne
    intro u s' h
    rw [List.forM] at h
    obtain ⟨_, s₁, hx, h⟩ := run_bind_inv h
    obtain ⟨ht₁, htypes₁, hne₁⟩ :=
      declareSlot_tidies ht hf (.inl rfl) (hps q List.mem_cons_self) _ _ hx
    obtain ⟨ht', htypes', hne'⟩ := ih ht₁ hne₁
      (fun q hq => htypes₁ ▸ hps q (List.mem_cons_of_mem _ hq)) _ _ h
    exact ⟨ht', htypes'.trans htypes₁, hne'⟩

theorem declareParams_tidies (ht : Tidy F s) (hne : s.frame ≠ none) (hzero : p.owner = 0)
    (hsig : p.sig.Storable s.types) :
    Tidies F s (declareParams p) fun _ s' => s'.types = s.types ∧ s'.frame ≠ none := by
  intro n s' h
  unfold declareParams at h
  dsimp only at h
  rw [if_neg (not_not.mpr hzero)] at h
  obtain ⟨_, s₁, hx, h⟩ := run_bind_inv h
  cases h
  exact declareEach_tidies ht hne (fun q hq => hsig.params q.2 (List.of_mem_zip hq).2) _ _ hx

theorem declareResult_tidies (ht : Tidy F s) (hframe : s.frame = some f)
    (hsig : p.sig.Storable s.types) (n : Nat) :
    Tidies F s (declareResult p n) fun _ _ => True := by
  intro result s' h
  unfold declareResult at h
  dsimp only at h
  obtain ⟨_, s₁, hx, h⟩ := run_bind_inv h
  obtain rfl := (congrArg Prod.snd (Except.ok.inj hx)).symm
  have ht₁ : ∀ result, Tidy F { s with frame := s.frame.map ({ · with result }) } := fun _ =>
    ⟨ht.plain, ht.symbols, fun sl hsl => ht.slots sl
      (by simpa [Session.slots, hframe] using hsl), ht.globals, ht.bodies⟩
  split at h
  · rename_i hne
    obtain ⟨_, s₂, hx, h⟩ := run_bind_inv h
    cases h
    exact ⟨(declareSlot_tidies (ht₁ (some n)) (congrArg (Option.map _) hframe) (.inr rfl)
      (hsig.result hne) _ _ hx).1, trivial⟩
  · cases h
    exact ⟨ht₁ _, trivial⟩

/-! ## Bodies -/

theorem boundRoutine_typed (h : Enters R s f) (hslots : f.slots = []) (howner : f.owner = p.owner)
    (hp : PendingFits R s p) (ht : Tidy F s) (hzero : p.owner = 0) (hsig : p.sig.Storable s.types)
    (hrun : (boundRoutine p).run s = .ok (r, s')) :
    Tidy F s' ∧ r.Typed (s'.world R F) := by
  unfold boundRoutine at hrun
  obtain ⟨n, s₁, hparams, hrun⟩ := run_bind_inv hrun
  obtain ⟨result, s₂, hresult, hrun⟩ := run_bind_inv hrun
  obtain ⟨-, hs₂, -⟩ := openFrame_stands h hslots howner hp hparams hresult
  obtain ⟨ht₁, htypes₁, hne₁⟩ := declareParams_tidies ht h.frame_ne hzero hsig _ _ hparams
  obtain ⟨f₁, hf₁⟩ := Option.ne_none_iff_exists'.mp hne₁
  obtain ⟨ht₂, -⟩ := declareResult_tidies ht₁ hf₁ (htypes₁ ▸ hsig) n _ _ hresult
  obtain ⟨_, s₃, hx, hrun⟩ := run_bind_inv hrun
  obtain ⟨hs₃, -, ht₃, -⟩ :=
    (declareLocals_sites hs₂ p.decl.locals).tidy (declareLocals_tidies hs₂ ht₂ _) _ _ hx
  obtain ⟨body, s₄, hx, hrun⟩ := run_bind_inv hrun
  obtain ⟨-, hle₄, ht₄, -, hbody, ha, -⟩ := Sites.of_binds hs₃ ht₃
    (stmts_yields hs₃.fits p.body.body) (stmts_binds (hs₃.typable ht₃) p.body.body)
    (fun I => stmts_keeps _) _ _ hx
  cases hrun
  refine ⟨ht₄, ht₄.slots, fun c hc => (hbody c hc).mono ?_ fun n a hn => ?_⟩
  · exact ⟨.refl _, fun _ _ => hle₄.signs, fun _ _ _ hm => hm.imp_right hle₄.holds⟩
  · change ∃ sl, s'.slots[n]? = some sl ∧ sl.type = a
    rw [ha.slots]
    exact hn

theorem blockRoutine_typed {block : Tree.Block} {i : Nat} {scope : ScopeId}
    (h : Enters R s { scope }) (ht : Tidy F s)
    (hname : (s.routines.getD i default).Nameless)
    (hrun : (blockRoutine i block).run s = .ok (r, s')) :
    Tidy F s' ∧ r.Typed (s'.world R F) := by
  have hs := h.stands ⟨fun hne => absurd rfl hne, nofun⟩
  obtain ⟨body, s₁, hx, hrun⟩ := run_bind_inv hrun
  obtain ⟨-, hle, ht₁, -, hbody, ha, -⟩ := Sites.of_binds hs ht
    (stmts_yields hs.fits block.body) (stmts_binds (hs.typable ht) block.body)
    (fun I => stmts_keeps _) _ _ hx
  rw [← ha.routines] at hname
  cases hrun
  refine ⟨ht₁, ?_, fun c hc => (hbody c hc).mono ?_ ?_⟩
  · intro sl hsl
    have hsl : sl ∈ (s'.routines.getD i default).slots := hsl
    rw [hname.slots] at hsl
    cases hsl
  · exact ⟨.refl _, fun _ _ => hle.signs, fun _ _ _ hm => hm.imp_right hle.holds⟩
  · rintro n a ⟨sl, hsl, -⟩
    have hslots : s.slots = [] := h.slots
    simp [hslots] at hsl

end Bind

/-! ## All bodies -/

/-- All routines keep to the types, those without a body yet as well. -/
def Session.Kept (R : Realm) (F : RoutineRef → Signature → Prop) (s : Session) : Prop :=
  ∀ r ∈ s.routines, r.Typed (s.world R F)

/-- The routine of the body is stored with the signature of the body. -/
def Session.Lodged (s : Session) (p : PendingBody) : Prop :=
  ∃ r, s.routines[p.routine]? = some r ∧ r.symbol = p.symbol ∧ r.Carries p.sig

namespace Stores

variable {i : Nat} {q : PendingBody}

theorem kept (h : Stores R s s' i r) (hr : r.Typed (s'.world R F)) (hs : s.Kept R F) :
    s'.Kept R F := by
  intro q hq
  obtain ⟨j, hj⟩ := Array.mem_iff_getElem?.mp hq
  rw [h.routine?] at hj
  split at hj
  · obtain ⟨-, -, rfl⟩ := Option.map_eq_some_iff.mp hj
    exact hr
  · exact (hs q (Array.mem_of_getElem? hj)).mono (h.world_le R)

theorem lodged_self (h : Stores R s s' p.routine r) (hr : Yielded s' p r) (hs : Stands R s)
    (hp : PendingFits R s p) (hzero : p.owner = 0) : s'.Lodged p := by
  obtain ⟨sym, hsym, hown, hcode, hroutine, -⟩ := hp.symbol
  obtain ⟨j, old, hj, hold, hsymbol, -⟩ := hs.sited.routines _ sym hsym hown hcode
  obtain rfl : p.routine = j := Int.ofNat.inj (hroutine.symm.trans hj)
  refine ⟨r, ?_, ?_, hr.carries hzero⟩
  · rw [h.routine?, if_pos rfl, hold]
    rfl
  · rw [h.symbol, ← hsymbol]
    simp [hold]

/-- What is lodged stays so: a routine has no two symbols, and none has two signatures. -/
theorem lodged (h : Stores R s s' q.routine r) (hq : s'.Lodged q) (hsame : q.routine = p.routine →
    q.symbol = p.symbol ∧ q.sig = p.sig) (hp : s.Lodged p) : s'.Lodged p := by
  by_cases heq : q.routine = p.routine
  · obtain ⟨r', hr', hsymbol, hcarries⟩ := hq
    obtain ⟨hsym, hsig⟩ := hsame heq
    exact ⟨r', heq ▸ hr', hsymbol.trans hsym, hsig ▸ hcarries⟩
  · obtain ⟨r', hr', hrest⟩ := hp
    exact ⟨r', by rw [h.routine?, if_neg heq, hr'], hrest⟩

end Stores

theorem Tidy.same_body (ht : Tidy F s) (hs : Sited R s) {q : PendingBody} (hp : p ∈ s.bodies)
    (hq : q ∈ s.bodies) (h : q.routine = p.routine) : q.symbol = p.symbol ∧ q.sig = p.sig := by
  have hown : ∀ p ∈ s.bodies, ∃ r, s.routines[p.routine]? = some r ∧ r.symbol = p.symbol := by
    intro p hp
    obtain ⟨sym, hsym, hown, hcode, hroutine, -⟩ := (hs.bodies p hp).symbol
    obtain ⟨j, r, hj, hr, hsymbol, -⟩ := hs.routines _ sym hsym hown hcode
    obtain rfl : p.routine = j := Int.ofNat.inj (hroutine.symm.trans hj)
    exact ⟨r, hr, hsymbol⟩
  obtain ⟨r, hr, hsymbol⟩ := hown p hp
  obtain ⟨r', hr', hsymbol'⟩ := hown q hq
  rw [h, hr, Option.some.injEq] at hr'
  subst hr'
  have hsame := hsymbol'.symm.trans hsymbol
  obtain ⟨sym, hsym, hsig⟩ := ht.bodies p hp
  obtain ⟨sym', hsym', hsig'⟩ := ht.bodies q hq
  rw [hsame, hsym, Option.some.injEq] at hsym'
  exact ⟨hsame, by rw [hsig, hsig', hsym']⟩

namespace Bind

theorem leave_tidy {s₂ : Session} {i : Nat} (ht : Tidy F s₂) (hs : s' = { s₂ with
    routines := s₂.routines.set! i r, frame := none, scope := s₂.unitScope }) : Tidy F s' := by
  subst hs
  exact ⟨ht.plain, ht.symbols, (by intro sl hsl; cases hsl), ht.globals, ht.bodies⟩

theorem enter_tidy (ht : Tidy F s) (hslots : f.slots = []) {kind : ScopeKind} {parent : ScopeId}
    (hs : s₁ = { s with scopes := (s.scopes.newScope kind parent).2
                        frame := some f, scope := f.scope }) : Tidy F s₁ := by
  subst hs
  refine ⟨ht.plain, ht.symbols, ?_, ht.globals, ht.bodies⟩
  intro sl hsl
  have hsl : sl ∈ f.slots := hsl
  rw [hslots] at hsl
  cases hsl

theorem routineBody_typed (hs : Stands R s) (hp : p ∈ s.bodies) (ht : Tidy F s) (hkept : s.Kept R F)
    (hrun : (routineBody p).run s = .ok ((), s')) :
    Tidy F s' ∧ s'.Kept R F ∧ s'.Lodged p ∧ ∀ q ∈ s.bodies, s.Lodged q → s'.Lodged q := by
  have hfits := hs.sited.bodies p hp
  obtain ⟨hzero, hsig⟩ := ht.pending hs.sited hp
  unfold routineBody at hrun
  rw [run_read (x := get) (b := s) rfl] at hrun
  obtain ⟨scope, s₁, hx, hrun⟩ := run_bind_inv hrun
  cases hx
  obtain ⟨r, s₂, hstores, ⟨hyielded, ht₂, htyped⟩, hs'⟩ := inFrame_stores
    (P := fun r s₂ => Yielded s₂ p r ∧ Tidy F s₂ ∧ r.Typed (s₂.world R F)) hs rfl
    (fun s₁ h₁ hle₁ hs₁ r s₂ hbody => by
      obtain ⟨hs₂, hle₂, hyielded, hfits₂, hslots, hsymbol, howner, hhas⟩ :=
        boundRoutine_yields h₁ rfl rfl (hfits.extend hle₁.toExtends) hbody
      exact ⟨hs₂, hle₂, ⟨hyielded, boundRoutine_typed h₁ rfl rfl (hfits.extend hle₁.toExtends)
        (enter_tidy ht rfl hs₁) hzero (hsig.mono hle₁.grows) hbody⟩, hfits₂, hslots, hsymbol,
        howner, fun _ => hhas⟩) hrun
  have hself : s'.Lodged p := by
    refine hstores.lodged_self ⟨?_, hyielded.params, hyielded.result⟩ hs hfits hzero
    rw [hs']
    exact hyielded.slots
  refine ⟨leave_tidy ht₂ hs', hstores.kept ?_ hkept, hself, fun q hq hlodged => ?_⟩
  · rw [hs']
    exact htyped
  · exact hstores.lodged hself (fun h => ht.same_body hs.sited hq hp h) hlodged

theorem routineBodies_typed (ps : List PendingBody) (hs : Stands R s) (hnone : s.frame = none)
    (hps : ∀ p ∈ ps, p ∈ s.bodies) (ht : Tidy F s) (hkept : s.Kept R F)
    (hrun : (ps.forM routineBody).run s = .ok ((), s')) :
    Tidy F s' ∧ s'.Kept R F ∧ (∀ p ∈ ps, s'.Lodged p) ∧
      ∀ q ∈ s.bodies, s.Lodged q → s'.Lodged q := by
  induction ps generalizing s with
  | nil =>
    cases hrun
    exact ⟨ht, hkept, by simp, fun _ _ h => h⟩
  | cons p ps ih =>
    rw [List.forM] at hrun
    obtain ⟨_, s₁, hx, hrun⟩ := run_bind_inv hrun
    obtain ⟨h₁, -⟩ := routineBody_fills hs (hps p List.mem_cons_self) hx
    obtain ⟨ht₁, hkept₁, hself, hkeep₁⟩ :=
      routineBody_typed hs (hps p List.mem_cons_self) ht hkept hx
    obtain ⟨ht', hkept', hrest, hkeep'⟩ := ih h₁.stands h₁.frame
      (fun q hq => h₁.bodies ▸ hps q (List.mem_cons_of_mem _ hq)) ht₁ hkept₁ hrun
    refine ⟨ht', hkept', fun q hq => ?_, fun q hq h => ?_⟩
    · rcases List.mem_cons.mp hq with rfl | hq
      · exact hkeep' q (h₁.bodies ▸ hps q List.mem_cons_self) hself
      · exact hrest q hq
    · exact hkeep' q (h₁.bodies ▸ hq) (hkeep₁ q hq h)

theorem fileBody_typed {name : String} {block : Tree.Block} {i : Nat} (hs : Stands R s)
    (hnone : s.frame = none) (ht : Tidy F s) (hkept : s.Kept R F)
    (hrun : (fileBody name block).run s = .ok (i, s')) : Tidy F s' ∧ s'.Kept R F := by
  obtain ⟨rfl, hrun⟩ := fileBody_run hrun
  obtain ⟨hs₁, hext⟩ := pushNameless_stands hs hnone name block
  have hnew : (s.routines.push (namelessRoutine name block)).getD s.routines.size default =
      namelessRoutine name block := by simp
  have ht₁ : Tidy F { s with routines := s.routines.push (namelessRoutine name block) } :=
    ⟨ht.plain, ht.symbols, ht.slots, ht.globals, ht.bodies⟩
  have hkept₁ : Session.Kept R F
      { s with routines := s.routines.push (namelessRoutine name block) } := by
    intro r hr
    rcases Array.mem_push.mp hr with hr | rfl
    · exact (hkept r hr).mono (hext.world_le R)
    · exact ⟨(by intro sl hsl; cases hsl), by intro c hc; cases hc⟩
  obtain ⟨r, s₂, hstores, ⟨ht₂, htyped⟩, hs'⟩ :=
    inFrame_stores (P := fun r s₂ => Tidy F s₂ ∧ r.Typed (s₂.world R F)) hs₁ rfl
      (fun s₁ h₁ _ hs₁ r s₂ hbody => by
        have hsame : s₁.routines.getD s.routines.size default = namelessRoutine name block := by
          rw [hs₁]
          exact hnew
        have hname : (s₁.routines.getD s.routines.size default).Nameless :=
          hsame ▸ ⟨rfl, rfl, rfl, rfl⟩
        obtain ⟨hs₂, hle₂, -, hrest⟩ := blockRoutine_yields h₁ hname hbody
        exact ⟨hs₂, hle₂, blockRoutine_typed h₁ (enter_tidy ht₁ rfl hs₁) hname hbody, hrest⟩) hrun
  refine ⟨leave_tidy ht₂ hs', hstores.kept ?_ hkept₁⟩
  rw [hs']
  exact htyped

end Bind

/-! ## Typed modules -/

variable {T t : TypeTable} {scope : ScopeId} {sc : Scope} {m : Module}

namespace Module

/-- The routine is one that is at hand, or one of the module, with this signature. -/
def Signs (m : Module) (F : RoutineRef → Signature → Prop) (ref : RoutineRef) (sig : Signature) :
    Prop :=
  F ref sig ∨ ∃ x sym, m.scopes.symbol? x = some sym ∧ sym.isOwn m.name ∧ sym.kind.hasCode ∧
    ref = ⟨m.name, sym.routine⟩ ∧ sig = sym.sig

/-- What the code of the module may refer to. -/
def world (m : Module) (R : Realm) (F : RoutineRef → Signature → Prop) (t : TypeTable) : World :=
  ⟨t, m.Signs F, (m.env R []).holds⟩

/-- The module keeps to the types. -/
structure Typed (R : Realm) (F : RoutineRef → Signature → Prop) (t : TypeTable) (m : Module) :
    Prop where
  plain : t.Plain
  symbols : ∀ x sym, m.scopes.symbol? x = some sym → SymbolTyped (m.Signs F) t sym
  globals : ∀ sl ∈ m.globals, t.Storable sl.type
  routines : ∀ r ∈ m.routines, r.Typed (m.world R F t)
  codes : ∀ x sym, m.scopes.symbol? x = some sym → sym.isOwn m.name → sym.kind.hasCode →
    ∃ (i : Nat) (r : Routine), sym.routine = i ∧ m.routines[i]? = some r ∧ r.Carries sym.sig
  starts : ∀ i, m.init = some i ∨ m.main = some i → ∃ r, m.routines[i]? = some r ∧ r.Nameless

end Module

/-! ## Names that are opened -/

theorem Tidy.start (ht : T.Plain) (u : String) : Tidy F { types := T, unit := u } := by
  refine ⟨ht, fun x sym hx => ?_, by simp [Session.slots], by simp, by simp⟩
  have hnone : ({} : ScopeTable).symbol? x = none := by
    unfold ScopeTable.symbol?
    split <;> rfl
  cases hnone.symm.trans hx

theorem Tidy.bindName (ht : Tidy F s) (hsym : SymbolTyped F s.types sym) (scope : ScopeId)
    (sc : Scope) : Tidy F { s with scopes := s.scopes.bind scope sc sym } := by
  have hle : Extends s { s with scopes := s.scopes.bind scope sc sym } := by
    refine .of_types rfl rfl (List.prefix_refl _) (List.prefix_refl _) (List.prefix_refl _)
      fun x old hx => ?_
    rw [ScopeTable.symbol?_bind, if_neg, hx]
    exact Nat.ne_of_lt (Nat.lt_succ_of_le (ScopeTable.symbol?_le hx))
  refine ht.extend hle ht.plain (fun x sym' hx => ?_) (fun _ => .inl) (fun _ => .inl) fun _ => .inl
  rw [ScopeTable.symbol?_bind] at hx
  split at hx
  · cases hx
    exact .inl (hsym.mono (.refl _) fun _ _ => .inl)
  · exact .inr ⟨sym', sym'.flags, hx, rfl⟩

theorem Tidy.rename (ht : Tidy F s) (scopes : ScopeTable)
    (hscopes : scopes.symbol? = s.scopes.symbol?) (unitScope scope : ScopeId)
    (unitScopes : List (String × ScopeId)) :
    Tidy F { s with scopes, unitScope, scope, unitScopes } :=
  ht.same (.of_types rfl rfl (List.prefix_refl _) (List.prefix_refl _) (List.prefix_refl _)
    fun x _ hx => (congrFun hscopes x).trans hx) rfl hscopes (fun _ h => h) rfl rfl

namespace Bind

/-- The scopes around a file are tidy, and no types were entered. -/
structure Airs (F : RoutineRef → Signature → Prop) (T : TypeTable) (s : Session) : Prop where
  tidy : Tidy F s
  types : s.types = T

theorem Airs.newScope {kind : ScopeKind} {parent : ScopeId} (h : Airs F T s)
    (hrun : (newScope kind parent).run s = .ok (scope, s')) : Airs F T s' := by
  cases hrun
  exact ⟨h.tidy.rename (s.scopes.newScope kind parent).2 rfl _ _ _, h.types⟩

theorem Airs.tryDeclare {overload : Bool} {d? : Option ScopeTable.Declared} (h : Airs F T s)
    (hrun : (tryDeclare scope sym overload).run s = .ok (d?, s')) (hsym : SymbolTyped F T sym) :
    Airs F T s' := by
  rcases tryDeclare_run hrun with ⟨sc, -, -, rfl, -⟩ | ⟨rfl, -, -⟩
  · exact ⟨h.tidy.bindName (h.types ▸ hsym) scope sc, h.types⟩
  · exact h

theorem declareBuiltins_airs (h : Airs F T s) (hrun : (declareBuiltins scope).run s = .ok ((), s')) :
    Airs F T s' := by
  have ht : T.Sound := h.types ▸ h.tidy.plain.toSound
  unfold declareBuiltins at hrun
  obtain ⟨_, s₁, htypes, hrun⟩ := run_bind_inv hrun
  have h₁ : Airs F T s₁ := by
    refine forM_run (P := Airs F T) h (fun q hq s₁ s₂ h₁ hx => ?_) htypes
    obtain ⟨_, _, hx, hdone⟩ := run_bind_inv hx
    cases hdone
    refine h₁.tryDeclare hx ?_
    have hbasic : ∀ q ∈ [("integer", TypeTable.integer), ("real", TypeTable.real),
        ("boolean", TypeTable.boolean), ("char", TypeTable.char), ("string", TypeTable.string)],
        T.Storable q.2 := by
      simp only [List.mem_cons, List.not_mem_nil, or_false, forall_eq_or_imp, forall_eq]
      exact ⟨ht.storable_of_basic (i := 3) rfl (by decide),
        ht.storable_of_basic (i := 4) rfl (by decide), ht.storable_of_basic (i := 2) rfl (by decide),
        ht.storable_of_basic (i := 5) rfl (by decide), ht.storable_of_basic (i := 6) rfl (by decide)⟩
    exact hbasic q hq
  refine forM_run (P := Airs F T) h₁ (fun n _ s₁ s₂ h₁ hx => ?_) hrun
  obtain ⟨_, _, hx, hdone⟩ := run_bind_inv hx
  cases hdone
  exact h₁.tryDeclare hx trivial

theorem openUnit_airs {imports : List Import} {parent : ScopeId} {v : Tree.Ident} (h : Airs F T s)
    (himports : ∀ imp ∈ imports, imp.name = v.name → ∀ sym ∈ imp.symbols, SymbolTyped F T sym)
    (hrun : (openUnit imports parent v).run s = .ok (scope, s')) : Airs F T s' := by
  unfold openUnit at hrun
  split at hrun
  · obtain ⟨_, s₁, hx, hrun⟩ := run_bind_inv hrun
    cases hx
    cases hrun
    exact ⟨h.tidy.reports _, h.types⟩
  · rename_i imp himp
    have hname : imp.name = v.name := by simpa using List.find?_some himp
    split at hrun
    · obtain ⟨_, s₁, hx, hrun⟩ := run_bind_inv hrun
      cases hx
      cases hrun
      exact ⟨h.tidy.reports _, h.types⟩
    · obtain ⟨id, s₁, hx, hrun⟩ := run_bind_inv hrun
      have h₁ := h.newScope hx
      obtain ⟨_, s₂, hx, hrun⟩ := run_bind_inv hrun
      have h₂ : Airs F T s₂ := by
        refine forM_run (P := Airs F T) h₁ (fun sym hsym s₃ s₄ h₃ hx => ?_) hx
        obtain ⟨_, _, hx, hdone⟩ := run_bind_inv hx
        cases hdone
        exact h₃.tryDeclare hx (himports imp (List.mem_of_find?_eq_some himp) hname sym hsym)
      obtain ⟨_, s₃, hx, hrun⟩ := run_bind_inv hrun
      cases hx
      cases hrun
      exact ⟨h₂.tidy.rename _ rfl _ _ _, h₂.types⟩

theorem openUnits_airs {imports : List Import} {parent : ScopeId} {us : List Tree.Ident}
    (h : Airs F T s) (himports : ∀ v ∈ us, ∀ imp ∈ imports, imp.name = v.name →
      ∀ sym ∈ imp.symbols, SymbolTyped F T sym)
    (hrun : (us.foldlM (openUnit imports) parent).run s = .ok (scope, s')) : Airs F T s' := by
  induction us generalizing s parent with
  | nil =>
    cases hrun
    exact h
  | cons v us ih =>
    rw [List.foldlM_cons] at hrun
    obtain ⟨id, s₁, hx, hrun⟩ := run_bind_inv hrun
    exact ih (openUnit_airs h (himports v List.mem_cons_self) hx)
      (fun w hw => himports w (List.mem_cons_of_mem _ hw)) hrun

theorem openScopes_airs {imports : List Import} {f : Tree.File} {uses : List String}
    (h : Airs F T s) (himports : ∀ v ∈ f.allUses, ∀ imp ∈ imports, imp.name = v.name →
      ∀ sym ∈ imp.symbols, SymbolTyped F T sym)
    (hrun : (openScopes imports f).run s = .ok (uses, s')) : Airs F T s' := by
  unfold openScopes at hrun
  obtain ⟨builtins, s₁, hx, hrun⟩ := run_bind_inv hrun
  have h₁ := h.newScope hx
  obtain ⟨_, s₂, hx, hrun⟩ := run_bind_inv hrun
  have h₂ := declareBuiltins_airs h₁ hx
  obtain ⟨us, s₃, hx, hrun⟩ := run_bind_inv hrun
  obtain ⟨⟨es, rfl⟩, hsub, -⟩ := distinctUses_run hx
  obtain ⟨innermost, s₄, hx, hrun⟩ := run_bind_inv hrun
  have h₄ := openUnits_airs ⟨h₂.tidy.reports es, h₂.types⟩ (fun v hv => himports v (hsub hv)) hx
  obtain ⟨names, s₅, hx, hrun⟩ := run_bind_inv hrun
  have h₅ := h₄.newScope hx
  obtain ⟨_, s₆, hx, hrun⟩ := run_bind_inv hrun
  have h₆ : Airs F T s₆ := by
    refine forM_run (P := Airs F T) h₅ (fun v _ s₆ s₇ h₆ hx => ?_) hx
    obtain ⟨unit?, s', hx', hx⟩ := run_bind_inv hx
    cases hx'
    split at hx
    · obtain ⟨d?, s', hx', hdone⟩ := run_bind_inv hx
      cases hdone
      exact h₆.tryDeclare hx' trivial
    · cases hx
      exact h₆
  obtain ⟨d?, s₇, hx, hrun⟩ := run_bind_inv hrun
  have h₇ := h₆.tryDeclare hx trivial
  obtain ⟨scope, s₈, hx, hrun⟩ := run_bind_inv hrun
  have h₈ := h₇.newScope hx
  obtain ⟨_, s₉, hx, hrun⟩ := run_bind_inv hrun
  obtain ⟨rfl, rfl⟩ := Prod.mk.inj (Except.ok.inj hrun)
  obtain ⟨-, rfl⟩ := Prod.mk.inj (Except.ok.inj hx)
  exact ⟨h₈.tidy.rename _ rfl _ _ _, h₈.types⟩

/-! ## Bodies -/

/-- All routines keep to the types. Those that were declared have their signatures if there are no
errors, and the body of the file has none. -/
theorem allBodies_typed {f : Tree.File} {body : Option Nat} (hs : Stands R s) (hnone : s.frame = none)
    (hidle : s.Idle) (ht : Tidy F s) (hrun : (allBodies f).run s = .ok (body, s')) :
    Tidy F s' ∧ s'.Kept R F ∧ (s'.errors = [] → ∀ (i : Nat) (r : Routine), s'.routines[i]? = some r →
      r.symbol ≠ 0 → ∃ sym, s'.scopes.symbol? r.symbol = some sym ∧ r.Carries sym.sig) ∧
      ∀ i, body = some i → ∃ r, s'.routines[i]? = some r ∧ r.Nameless := by
  unfold allBodies at hrun
  obtain ⟨es, hcheck, hbodied⟩ := checkBodies_run s
  obtain ⟨_, s₁, hx, hrun⟩ := run_bind_inv hrun
  rw [hcheck] at hx
  obtain ⟨-, rfl⟩ := Prod.mk.inj (Except.ok.inj hx)
  obtain ⟨h₁, hle₁⟩ := Sites.reports es hs
  rw [run_read (x := get) (b := { s with errors := s.errors ++ es }) rfl] at hrun
  obtain ⟨_, s₂, hx, hrun⟩ := run_bind_inv hrun
  obtain ⟨h₂, -⟩ := routineBodies_fill s.bodies h₁ hnone (fun _ hp => hp) hx
  have hkept₁ : Session.Kept R F { s with errors := s.errors ++ es } := by
    intro r hr
    obtain ⟨-, hbody, hslots⟩ := hidle r hr
    refine ⟨?_, ?_⟩
    · simp [hslots]
    · simp [hbody]
  obtain ⟨ht₂, hkept₂, hall, -⟩ :=
    routineBodies_typed s.bodies h₁ hnone (fun _ hp => hp) (ht.reports es) hkept₁ hx
  -- A routine that has a symbol has a body, and that was bound.
  have hcarries₂ : s₂.errors = [] → ∀ (i : Nat) (r : Routine), s₂.routines[i]? = some r →
      ∃ sym, s₂.scopes.symbol? r.symbol = some sym ∧ r.Carries sym.sig := by
    intro hnil i r hi
    have hsymbols := congrArg (·[i]?) h₂.map_symbol
    simp only [Array.getElem?_map, hi, Option.map_some] at hsymbols
    obtain ⟨r₀, hr₀, hsame⟩ := Option.map_eq_some_iff.mp hsymbols.symm
    obtain ⟨hne, -⟩ := hidle r₀ (Array.mem_of_getElem? hr₀)
    have hes : es = [] := (List.append_eq_nil_iff.mp (h₂.errors_nil hnil)).2
    obtain ⟨p, hp, rfl⟩ := hs.sited.bodied i r₀ hr₀
      (hbodied hes r₀ (Array.mem_of_getElem? hr₀) hne) hne
    obtain ⟨r', hr', hsymbol, hcarries⟩ := hall p hp
    obtain rfl := Option.some.inj (hi.symm.trans hr')
    have hp₂ : p ∈ s₂.bodies := h₂.bodies ▸ hp
    obtain ⟨sym, hsym, hsig⟩ := ht₂.bodies p hp₂
    exact ⟨sym, hsymbol ▸ hsym, hsig ▸ hcarries⟩
  cases hblock : f.body with
  | none =>
    rw [hblock] at hrun
    cases hrun
    exact ⟨ht₂, hkept₂, fun hnil i r hi _ => hcarries₂ hnil i r hi, nofun⟩
  | some block =>
    rw [hblock] at hrun
    obtain ⟨i, s₃, hx, hrun⟩ := run_bind_inv hrun
    obtain ⟨rfl, rfl⟩ := Prod.mk.inj (Except.ok.inj hrun)
    obtain ⟨ht₃, hkept₃⟩ := fileBody_typed h₂.stands h₂.frame ht₂ hkept₂ hx
    obtain ⟨hi, -, hle₃, -, -, -, r, hroutines, hnameless⟩ := fileBody_stores h₂.stands h₂.frame
      (h₂.fits (Session.Idle.bodiesFit hidle)) hx
    refine ⟨ht₃, hkept₃, fun hnil j q hj hne => ?_, ?_⟩
    · rw [hroutines, Array.getElem?_push] at hj
      split at hj
      · cases hj
        exact absurd hnameless.symbol hne
      · obtain ⟨sym, hsym, hcarries⟩ := hcarries₂ (hle₃.errors_nil hnil) j q hj
        obtain ⟨flags, hsym', -⟩ := hle₃.symbols _ sym hsym
        exact ⟨_, hsym', hcarries⟩
    · rintro _ ⟨⟩
      exact ⟨r, by rw [hroutines, hi, Array.getElem?_push_size], hnameless⟩

end Bind

/-! ## Modules -/

theorem Module.typed_of_session (hs : Stands R s) (ht : Tidy F s) (hkept : s.Kept R F)
    (hcarries : ∀ (i : Nat) (r : Routine), s.routines[i]? = some r → r.symbol ≠ 0 →
      ∃ sym, s.scopes.symbol? r.symbol = some sym ∧ r.Carries sym.sig)
    (hstarts : ∀ i, m.init = some i ∨ m.main = some i → ∃ r, s.routines[i]? = some r ∧ r.Nameless)
    (hname : m.name = s.unit) (hglobals : m.globals = s.globals)
    (hroutines : m.routines = s.routines.toList) (hscopes : m.scopes = s.scopes) :
    m.Typed R F s.types := by
  have hsigns : s.Signs F = m.Signs F := by
    unfold Session.Signs Module.Signs
    rw [hscopes, hname]
  have hworld : s.world R F = m.world R F s.types := by
    unfold Session.world Module.world Module.env Module.Holds Session.outer Session.env Session.Holds
    rw [hsigns, hglobals, hname]
  refine ⟨ht.plain, ?_, ?_, ?_, ?_, ?_⟩
  · rw [hscopes, ← hsigns]
    exact ht.symbols
  · rw [hglobals]
    exact ht.globals
  · rw [hroutines, ← hworld]
    exact fun r hr => hkept r (Array.mem_toList_iff.mp hr)
  · rw [hscopes, hname, hroutines]
    intro x sym hsym hown hcode
    obtain ⟨i, r, hi, hr, hsymbol, -⟩ := hs.sited.routines x sym hsym hown hcode
    have hne : r.symbol ≠ 0 := by
      rintro hzero
      rw [← hsymbol, hzero] at hsym
      cases hsym
    obtain ⟨sym', hsym', hr'⟩ := hcarries i r hr hne
    rw [hsymbol, hsym, Option.some.injEq] at hsym'
    exact ⟨i, r, hi, by rw [Array.getElem?_toList, hr], hsym' ▸ hr'⟩
  · rw [hroutines]
    intro i hi
    obtain ⟨r, hr, hnameless⟩ := hstarts i hi
    exact ⟨r, by rw [Array.getElem?_toList, hr], hnameless⟩

/-- A module without classes keeps to the types if its file was bound without errors. -/
theorem Module.ofFile_typed {imports : List Import} {path : String} {f : Tree.File} {r : BindResult}
    (ht : T.Plain) (htable : TableFits R.env T) (htitled : T.Titled) (hsize : R.size = T.shapes.size)
    (himports : ∀ v ∈ f.allUses, ∀ imp ∈ imports, imp.name = v.name → ImportFits R T imp)
    (htyped : ∀ v ∈ f.allUses, ∀ imp ∈ imports, imp.name = v.name →
      ∀ sym ∈ imp.symbols, SymbolTyped F T sym)
    (hr : Module.ofFile T imports path f = .ok r) (hplain : r.module.classes = [])
    (hnil : r.errors = []) : r.module.Typed R F r.types := by
  unfold Module.ofFile at hr
  obtain ⟨⟨m, s'⟩, hrun, hr⟩ := except_bind_ok hr
  cases hr
  unfold Bind.file at hrun
  obtain ⟨uses, s₁, hx, hrun⟩ := run_bind_inv hrun
  obtain ⟨h₁, hunit₁, -, hnone₁, hroutines₁, -, -⟩ :=
    Bind.openScopes_stands (Opening.start ht.toFormed htable htitled hsize) hsize himports hx
  have ht₁ := (Bind.openScopes_airs ⟨Tidy.start ht _, rfl⟩ htyped hx).tidy
  obtain ⟨_, s₂, hdecls, hrun⟩ := run_bind_inv hrun
  obtain ⟨h₂, hle₂, hnone₂⟩ := Bind.declarations_site h₁ hnone₁ f _ _ hdecls
  have hidle₁ : s₁.Idle := by
    unfold Session.Idle
    simp [hroutines₁]
  obtain ⟨body, s₃, hx, hrun⟩ := run_bind_inv hrun
  obtain ⟨h₃, hle₃, -⟩ := Bind.allBodies_fill h₂ hnone₂ (hle₂.idle hidle₁) hx
  cases hrun
  have hclasses : s₂.classes = [] := by
    have hnone : s'.classes = [] := List.map_eq_nil_iff.mp hplain
    exact List.prefix_nil.mp (hnone ▸ hle₃.classes)
  have ht₂ := Bind.declarations_tidy h₁ hnone₁ ht₁ hdecls hclasses
  obtain ⟨ht₃, hkept, hcarries, hstarts⟩ :=
    Bind.allBodies_typed h₂ hnone₂ (hle₂.idle hidle₁) ht₂ hx
  refine typed_of_session h₃ ht₃ hkept (hcarries (List.map_eq_nil_iff.mp hnil)) (fun i hi => ?_)
    ((hle₃.unit.trans hle₂.unit).trans hunit₁).symm rfl rfl rfl
  by_cases hunit : f.kind = .unit <;> simp only [hunit, if_true, if_false] at hi <;>
    exact hstarts i (by simpa using hi)

end Pascaline.Bound
