import Pascaline.Proofs.Binding.Members

/-!
# Bodies of routines

A body is bound in a frame of its own, which has the receiver, the parameters and the result of the
routine before its local variables. What came of it is stored in the routine.
-/

namespace Pascaline

/-! ## Frames -/

/-- The receiver of a method has the first slot. -/
def Symbol.receiver (sym : Symbol) : List Bound.Slot :=
  if sym.kind = .method then [⟨"this", sym.owner⟩] else []

/-- The result of a function has a slot. -/
def Symbol.resultSlot (sym : Symbol) : List Bound.Slot :=
  if sym.sig.result = 0 then [] else [⟨"Result", sym.sig.result⟩]

theorem Symbol.length_receiver (sym : Symbol) :
    sym.receiver.length = if sym.kind = .method then 1 else 0 := by
  unfold receiver
  split <;> rfl

/-- A slot of a frame is that of a parameter with a name in the scope. -/
def ScopeTable.NamesParam (T : ScopeTable) (scope : ScopeId) (i : Nat) (sl : Bound.Slot) : Prop :=
  ∃ x sym, T.symbol? x = some sym ∧ sym.scope = scope ∧ sym.kind = .param ∧ sym.slot = i ∧
    sym.display = sl.name ∧ sym.type = sl.type

namespace Bound

open TypeTable

/-- The slots of a routine are those of its receiver, its parameters, its result and its local
variables, in this order. -/
structure Routine.Follows (T : ScopeTable) (sym : Symbol) (r : Routine) : Prop where
  slots : ∃ scope params locals, r.slots = sym.receiver ++ params ++ sym.resultSlot ++ locals ∧
    params.length = sym.sig.params.length ∧
    ∀ i sl, params[i]? = some sl → T.NamesParam scope (sym.receiver.length + i) sl
  params : r.params = sym.arity
  result : r.result = if sym.sig.result = 0 then none else some sym.arity

/-- A routine that cannot be called: the body of a program or the initialization of a unit. -/
structure Routine.Nameless (r : Routine) : Prop where
  symbol : r.symbol = 0
  params : r.params = 0
  result : r.result = none
  slots : r.slots = []

variable {R : Realm} {s s₁ s' : Session} {sc : Scope} {sym : Symbol} {f : Frame}
  {α β : Type} {Q : α → Session → Prop}

namespace Bind

/-! ## Bodies that are missing -/

theorem forIn_reports {f : β → PUnit → Bind (ForInStep PUnit)} {P : β → Prop} (xs : List β)
    (hf : ∀ x s, ∃ es, (f x ⟨⟩).run s = .ok (.yield ⟨⟩, { s with errors := s.errors ++ es }) ∧
      (es = [] → P x)) (s : Session) :
    ∃ es, (forIn xs PUnit.unit f).run s = .ok (⟨⟩, { s with errors := s.errors ++ es }) ∧
      (es = [] → ∀ x ∈ xs, P x) := by
  induction xs generalizing s with
  | nil => exact ⟨[], by simp; rfl, by simp⟩
  | cons x xs ih =>
    obtain ⟨es, hx, hP⟩ := hf x s
    obtain ⟨es', hxs, hP'⟩ := ih { s with errors := s.errors ++ es }
    refine ⟨es ++ es', ?_, fun hnil y hy => ?_⟩
    · rw [List.forIn_cons, StateT.run_bind, hx]
      refine hxs.trans ?_
      rw [List.append_assoc]
    · obtain ⟨hes, hes'⟩ := List.append_eq_nil_iff.mp hnil
      rcases List.mem_cons.mp hy with rfl | hy
      · exact hP hes
      · exact hP' hes' y hy

theorem checkBodies_run (s : Session) :
    ∃ es, checkBodies.run s = .ok ((), { s with errors := s.errors ++ es }) ∧
      (es = [] → ∀ r ∈ s.routines, r.symbol ≠ 0 → r.hasBody) := by
  unfold checkBodies
  rw [run_read (x := get) (b := s) rfl, ← Array.forIn_toList, bind_pure_unit]
  simp only [← Array.mem_toList_iff]
  refine forIn_reports (P := fun (r : Routine) => r.symbol ≠ 0 → r.hasBody) s.routines.toList
    (fun r s => ?_) s
  split
  · exact ⟨[_], rfl, by simp⟩
  · rename_i hgood
    exact ⟨[], by simp; rfl, fun _ hne => by simpa [hne] using hgood⟩

/-! ## Local declarations -/

theorem declareLocals_sites (hs : Stands R s) (decls : List Tree.LocalDecl) :
    Sites R s (declareLocals decls) fun _ _ => True := by
  unfold declareLocals
  refine Sites.forM (P := fun _ => True) hs trivial fun d _ s₁ hs₁ _ => ?_
  refine .read rfl ?_
  extract_lets scope
  split
  · exact declareConst_sites hs₁ _ false
  · exact .report hs₁ _ _ _
  · rename_i d _ _
    refine (Sites.of_yields hs₁ (typeExpr_yields hs₁.fits d.type) fun I => typeExpr_keeps d.type).bind
      fun type? s₂ hs₂ hle₂ ⟨htype, ha₂, _⟩ => ?_
    cases type? with
    | none => exact .pure hs₂ trivial
    | some type =>
      change Sites R s₂ (do let _ ← declareType s₁.scope d.name type false) _
      rw [← hle₂.scope]
      exact (declareType_sites hs₂ d.name (ha₂.here hle₂ R ▸ htype type rfl) false).bind
        fun _ _ hs' _ _ => .pure hs' trivial
  · exact declareVars_sites hs₁ _ false

end Bind

/-! ## Slots of a frame -/

/-- Binding is in the scope of the frame `f`, which gets its slots. -/
structure Enters (R : Realm) (s : Session) (f : Frame) : Prop where
  sited : Sited R s
  headed : s.Headed R
  rooted : ∃ sc, s.scopes.scope? s.unitScope = some sc
  frame : s.frame = some f
  inScope : InScope R s f

theorem Enters.slots (h : Enters R s f) : s.slots = f.slots := by
  unfold Session.slots
  rw [h.frame]
  rfl

theorem Enters.frame_ne (h : Enters R s f) : s.frame ≠ none := by
  rw [h.frame]
  nofun

theorem Enters.stands (h : Enters R s f) (hf : FrameFits (s.here R) s.types f) : Stands R s := by
  refine ⟨h.sited, h.headed, h.rooted, ?_, ?_⟩
  · intro hnone
    rw [h.frame] at hnone
    cases hnone
  · intro f' hf'
    rw [h.frame, Option.some.injEq] at hf'
    subst hf'
    exact ⟨h.inScope, hf⟩

/-- Only types, names and slots were declared. -/
structure Nested (s s' : Session) : Prop extends Extends s s', Inside s s' where
  unitScope : s'.unitScope = s.unitScope

theorem Nested.trans (h : Nested s s₁) (h' : Nested s₁ s') : Nested s s' :=
  ⟨h.toExtends.trans h'.toExtends, h.toInside.trans h'.toInside, h'.unitScope.trans h.unitScope⟩

theorem Proceeds.nested (h : Proceeds s s') (hne : s.frame ≠ none) : Nested s s' :=
  ⟨h.toExtends, h.inside hne, h.unitScope⟩

theorem Enters.mark (h : Enters R s f) {result : Option Nat}
    (hs' : s' = { s with frame := s.frame.map ({ · with result }) }) :
    Enters R s' { f with result } ∧ Nested s s' := by
  subst hs'
  have hext : Extends s { s with frame := s.frame.map ({ · with result }) } :=
    .of_types rfl rfl (List.prefix_refl _) (List.prefix_refl _) (List.prefix_refl _)
      fun _ _ hx => hx
  refine ⟨⟨h.sited.same hext rfl rfl rfl rfl rfl rfl rfl, h.headed, h.rooted, ?_, h.inScope.scope, ?_⟩,
    hext, ⟨.refl _, rfl, rfl⟩, rfl⟩
  · rw [h.frame]
    rfl
  · obtain ⟨sc, hsc, hkind, hnames⟩ := h.inScope.found
    refine ⟨sc, hsc, hkind, fun name => ?_⟩
    exact (hnames name).extend hext (by simp [Session.slots, h.frame]) (.refl _)

theorem Extends.namesParam (hle : Extends s s') {scope : ScopeId} {i : Nat} {sl : Slot}
    (h : s.scopes.NamesParam scope i sl) : s'.scopes.NamesParam scope i sl := by
  obtain ⟨x, sym, hsym, hrest⟩ := h
  obtain ⟨flags, hsym', -⟩ := hle.symbols x sym hsym
  exact ⟨x, _, hsym', hrest⟩

theorem Extends.errors_nil (hle : Extends s s') (h : s'.errors = []) : s.errors = [] :=
  List.prefix_nil.mp (h ▸ hle.errors)

/-- The slot of the receiver of a method. -/
def PendingBody.receiver (p : PendingBody) : List Slot :=
  if p.owner ≠ 0 then [⟨"this", p.owner⟩] else []

/-- What came of a body that was bound. -/
structure Yielded (s : Session) (p : PendingBody) (r : Routine) : Prop where
  slots : ∃ scope params locals,
    r.slots = p.receiver ++ params ++ (if p.sig.result = 0 then [] else [⟨"Result", p.sig.result⟩]) ++
      locals ∧ params.map (·.type) = p.sig.params ∧
    (s.errors = [] → ∀ i sl, params[i]? = some sl →
      s.scopes.NamesParam scope (p.receiver.length + i) sl)
  params : r.params = p.receiver.length + p.sig.params.length
  result : r.result = if p.sig.result = 0 then none else some r.params

namespace Bind

/-- The frame gets one slot more. If no error is reported, a name of the scope stands for it. -/
theorem declareSlot_enters (h : Enters R s f) (sym : Symbol) (hkind : sym.kind = .param ∨ sym.kind = .var)
    (hflags : sym.flags.has .global = false) (howner : sym.owner = 0) (hsig : sym.sig = ⟨[], 0⟩)
    (htype : s.types.Within (s.outer R).known sym.type)
    (hrun : (declareSlot sym).run s = .ok ((), s')) :
    Enters R s' { f with slots := f.slots ++ [⟨sym.display, sym.type⟩] } ∧ Proceeds s s' ∧
      (s'.errors = [] → sym.kind = .param →
        s'.scopes.NamesParam f.scope f.slots.length ⟨sym.display, sym.type⟩) := by
  obtain ⟨sc, hsc, hroutine, hnames⟩ := h.inScope.found
  have hslots := h.slots
  have hframe := h.frame
  have hsc : s.scopes.scope? s.scope = some sc := by rw [h.inScope.scope, hsc]
  have hcode : sym.kind.hasCode = false := by
    rcases hkind with hkind | hkind <;> rw [hkind] <;> rfl
  let grown : Option Frame :=
    s.frame.map fun f => { f with slots := f.slots ++ [⟨sym.display, sym.type⟩] }
  have hgrown : grown = some { f with slots := f.slots ++ [⟨sym.display, sym.type⟩] } := by
    simp [grown, hframe]
  have hfixed : grown.map Frame.fixed = s.frame.map Frame.fixed := by
    simp [hgrown, hframe, Frame.fixed]
  have hprefix : s.slots <+: (grown.map (·.slots)).getD [] := by
    simp [hgrown, hslots]
  unfold declareSlot at hrun
  rw [run_read (x := get) (b := s) rfl] at hrun
  obtain ⟨_, s₁, hx, hrun⟩ := run_bind_inv hrun
  cases hx
  obtain ⟨x?, s₂, hd, hrun⟩ := run_bind_inv hrun
  rcases declare_run hd with ⟨sc', hsc', rfl, rfl, hfree⟩ | ⟨rfl, es, rfl, hes⟩
  · cases hrun
    obtain rfl : sc = sc' := Option.some.inj (hsc.symm.trans hsc')
    let named : Symbol := { sym with module := s.unit, slot := s.slots.length }
    have hg := Gains.bind named hsc (fun y hy => absurd (hfree y hy).1 (by simp))
      (List.prefix_refl s.globals) grown
    let s' : Session := { s with scopes := s.scopes.bind s.scope sc named, frame := grown }
    have hle : Proceeds s s' :=
      ⟨hg.extends_, rfl, rfl, hfixed, hprefix, id, fun _ => ⟨.refl _, rfl, rfl⟩⟩
    have hinner : ¬sc.kind.isOuter := fun hkind => hkind.2 hroutine
    have hnew := hg.symbol? (s.scopes.symbols.size + 1)
    rw [if_pos rfl] at hnew
    refine ⟨⟨h.sited.gains hg (fun hkind => absurd hkind hinner) ?_ ?_ ?_, h.headed, ?_, hgrown, ?_⟩,
      hle, fun _ hparam => ⟨_, _, hnew, h.inScope.scope, hparam, ?_, rfl, rfl⟩⟩
    · intro hscope
      rw [hscope] at hsc
      exact absurd (h.sited.own sc hsc).1 hinner
    · intro c hc hscope
      obtain ⟨sc', hsc', hclass, -⟩ := (h.sited.heads c hc).members
      rw [hscope, hsc, Option.some.injEq] at hsc'
      rw [hsc', hclass] at hroutine
      cases hroutine
    · intro _ hhas
      change sym.kind.hasCode = true at hhas
      rw [hcode] at hhas
      cases hhas
    · obtain ⟨sc', hsc'⟩ := h.rooted
      obtain ⟨sc'', hsc'', -⟩ := hg.scope?_of_some hsc'
      exact ⟨sc'', hsc''⟩
    · have hfound := (hg.scope? f.scope).trans (if_pos h.inScope.scope.symm)
      refine ⟨h.inScope.scope, _, hfound, hroutine, hg.names hnames hle.slots ?_⟩
      have hplace : ∃ sl, s'.slots[((s.slots.length : Nat) : Int).toNat]? = some sl ∧
          sl.type = sym.type := by
        refine ⟨⟨sym.display, sym.type⟩, ?_, rfl⟩
        simp [s', Session.slots, hgrown, hframe]
      refine ⟨⟨fun _ => htype, fun _ => htype.ne_zero, fun hne => absurd howner hne, ?_, fun _ => hsig⟩,
        fun _ _ => htype.ne_zero, ?_, ?_, fun _ => ?_⟩
      · rw [show named.sig = ⟨[], 0⟩ from hsig]
        exact ⟨by simp, by simp⟩
      · rcases hkind with hkind | hkind <;> simp [named, hkind]
      · rcases hkind with hkind | hkind <;> simp [named, hkind]
      · rw [if_neg (by simp [named, hflags])]
        exact hplace
    · exact congrArg (fun slots : List Slot => (slots.length : Int)) hslots
  · cases hrun
    obtain ⟨hes, -⟩ := hes sc hsc
    have hle : Proceeds s { s with frame := grown, errors := s.errors ++ es } :=
      ⟨.of_types rfl rfl (List.prefix_append _ _) (List.prefix_refl _) (List.prefix_refl _)
        fun _ _ hx => hx, rfl, rfl, hfixed, hprefix, id, fun _ => ⟨.refl _, rfl, rfl⟩⟩
    refine ⟨⟨h.sited.same hle.toExtends rfl rfl rfl rfl rfl rfl rfl, h.headed, h.rooted, hgrown,
      h.inScope.extend hle rfl rfl⟩, hle, fun hnil => ?_⟩
    exact absurd (List.append_eq_nil_iff.mp hnil).2 hes

theorem declareEach_enters (h : Enters R s f) (ps : List (Tree.Ident × TypeId))
    (hps : ∀ q ∈ ps, s.types.Within (s.outer R).known q.2)
    (hrun : (ps.forM fun (n, type) => declareSlot
      { name := n.name, display := n.text, kind := .param, type, span := n.span }).run s =
        .ok ((), s')) :
    Enters R s' { f with slots := f.slots ++ ps.map fun q => ⟨q.1.text, q.2⟩ } ∧ Proceeds s s' ∧
      (s'.errors = [] → ∀ i sl, (ps.map fun q => (⟨q.1.text, q.2⟩ : Slot))[i]? = some sl →
        s'.scopes.NamesParam f.scope (f.slots.length + i) sl) := by
  have hlocal : SymbolFlags.has {} .global = false := by decide
  induction ps generalizing s f with
  | nil =>
    cases hrun
    exact ⟨by simpa using h, .refl _, by simp⟩
  | cons q ps ih =>
    rw [List.forM] at hrun
    obtain ⟨_, s₁, hx, hrun⟩ := run_bind_inv hrun
    obtain ⟨h₁, hle₁, hparam⟩ := declareSlot_enters h _ (.inl rfl) hlocal rfl rfl
      (hps q List.mem_cons_self) hx
    obtain ⟨h', hle', hparams⟩ := ih h₁
      (fun q hq => hle₁.within (hps q (List.mem_cons_of_mem _ hq))) hrun
    refine ⟨by simpa using h', hle₁.trans hle', fun hnil i sl hi => ?_⟩
    cases i with
    | zero =>
      rw [List.map_cons, List.getElem?_cons_zero, Option.some.injEq] at hi
      rw [← hi]
      exact hle'.namesParam (hparam (hle'.errors_nil hnil) rfl)
    | succ i =>
      rw [List.map_cons, List.getElem?_cons_succ] at hi
      have := hparams hnil i sl hi
      simp only [List.length_append, List.length_singleton] at this
      rwa [Nat.add_assoc, Nat.add_comm 1 i] at this

theorem declareListed_enters {p : PendingBody} {n : Nat} (h : Enters R s f)
    (hp : PendingFits R s p)
    (hrun : (do
      ((p.decl.header.params.flatMap (·.names)).zip p.sig.params).forM fun (n, type) =>
        declareSlot { name := n.name, display := n.text, kind := .param, type, span := n.span }
      return (((← get).frame.map (·.slots)).getD []).length : Bind Nat).run s = .ok (n, s')) :
    ∃ params, Enters R s' { f with slots := f.slots ++ params } ∧ Proceeds s s' ∧
      params.map (·.type) = p.sig.params ∧ n = f.slots.length + params.length ∧
      (s'.errors = [] → ∀ i sl, params[i]? = some sl →
        s'.scopes.NamesParam f.scope (f.slots.length + i) sl) := by
  obtain ⟨_, s₁, hx, hrun⟩ := run_bind_inv hrun
  obtain ⟨h₁, hle₁, hnamed⟩ := declareEach_enters h _
    (fun q hq => hp.sig.params q.2 (List.of_mem_zip hq).2) hx
  cases hrun
  refine ⟨_, h₁, hle₁, ?_, ?_, hnamed⟩
  · rw [List.map_map]
    exact List.map_snd_zip (Nat.le_of_eq hp.names.symm)
  · rw [← List.length_append]
    exact congrArg List.length h₁.slots

theorem declareParams_enters {p : PendingBody} {n : Nat} (h : Enters R s f) (hslots : f.slots = [])
    (hp : PendingFits R s p) (hrun : (declareParams p).run s = .ok (n, s')) :
    ∃ params, Enters R s' { f with slots := p.receiver ++ params } ∧ Proceeds s s' ∧
      params.map (·.type) = p.sig.params ∧ n = p.receiver.length + params.length ∧
      (s'.errors = [] → ∀ i sl, params[i]? = some sl →
        s'.scopes.NamesParam f.scope (p.receiver.length + i) sl) := by
  have hlocal : SymbolFlags.this.has .global = false := by decide
  unfold declareParams at hrun
  dsimp only at hrun
  unfold PendingBody.receiver
  split at hrun
  · rename_i hne
    obtain ⟨_, s₁, hx, hrun⟩ := run_bind_inv hrun
    obtain ⟨key, hkey, hknown⟩ := hp.owner hne
    obtain ⟨c, hc, rfl⟩ := keyOf?_eq_some.mp hkey
    obtain ⟨h₁, hle₁, -⟩ := declareSlot_enters h _ (.inl rfl) hlocal rfl rfl
      (.classRef hc hknown) hx
    rw [if_pos hne]
    rw [hslots, List.nil_append] at h₁
    obtain ⟨params, h', hle', hrest⟩ := declareListed_enters h₁ (hp.extend hle₁.toExtends) hrun
    exact ⟨params, h', hle₁.trans hle', hrest⟩
  · rename_i hzero
    rw [if_neg hzero, ← hslots]
    exact declareListed_enters h hp hrun

theorem declareResult_enters {p : PendingBody} {params : Nat} {result : Option Nat}
    (h : Enters R s f) (hp : PendingFits R s p)
    (hrun : (declareResult p params).run s = .ok (result, s')) :
    result = (if p.sig.result = 0 then none else some params) ∧
      Enters R s' { f with result, slots := f.slots ++
        if p.sig.result = 0 then [] else [⟨"Result", p.sig.result⟩] } ∧ Nested s s' := by
  have hlocal : SymbolFlags.result.has .global = false := by decide
  unfold declareResult at hrun
  dsimp only at hrun
  obtain ⟨_, s₁, hx, hrun⟩ := run_bind_inv hrun
  obtain ⟨h₁, hle₁⟩ : Enters R s₁ _ ∧ Nested s s₁ :=
    h.mark (congrArg Prod.snd (Except.ok.inj hx)).symm
  by_cases hzero : p.sig.result = 0
  · simp only [hzero, ne_eq, not_true_eq_false, if_true, if_false] at hrun h₁ ⊢
    cases hrun
    exact ⟨rfl, by simpa using h₁, hle₁⟩
  · simp only [hzero, ne_eq, not_false_eq_true, if_true, if_false] at hrun h₁ ⊢
    obtain ⟨_, s₂, hx, hrun⟩ := run_bind_inv hrun
    obtain ⟨h₂, hle₂, -⟩ := declareSlot_enters h₁ _ (.inr rfl) hlocal rfl rfl
      (hle₁.within (hp.sig.result hzero)) hx
    cases hrun
    exact ⟨rfl, h₂, hle₁.trans (hle₂.nested h₁.frame_ne)⟩

/-! ## Bodies -/

/-- The frame of a body before its local names: the receiver, the parameters and the result. -/
theorem openFrame_stands {p : PendingBody} {n : Nat} {result : Option Nat} (h : Enters R s f)
    (hslots : f.slots = []) (howner : f.owner = p.owner) (hp : PendingFits R s p)
    (hparams : (declareParams p).run s = .ok (n, s₁))
    (hresult : (declareResult p n).run s₁ = .ok (result, s')) :
    ∃ params, Stands R s' ∧ Nested s s' ∧ s'.frame ≠ none ∧
      s'.slots = p.receiver ++ params ++
        (if p.sig.result = 0 then [] else [⟨"Result", p.sig.result⟩]) ∧
      params.map (·.type) = p.sig.params ∧ n = p.receiver.length + params.length ∧
      result = (if p.sig.result = 0 then none else some n) ∧
      (s'.errors = [] → ∀ i sl, params[i]? = some sl →
        s'.scopes.NamesParam f.scope (p.receiver.length + i) sl) := by
  obtain ⟨params, h₁, hle₁, htypes, rfl, hnamed⟩ := declareParams_enters h hslots hp hparams
  obtain ⟨hresult, h₂, hle₂⟩ := declareResult_enters h₁ (hp.extend hle₁.toExtends) hresult
  have hslots₂ := h₂.slots
  dsimp only at hslots₂
  have hframe : FrameFits (s'.here R) s'.types { f with
      result, slots := p.receiver ++ params ++
        if p.sig.result = 0 then [] else [⟨"Result", p.sig.result⟩] } := by
    have hp₂ := (hp.extend hle₁.toExtends).extend hle₂.toExtends
    refine ⟨fun hne => ?_, fun n hn => ?_⟩
    · change f.owner ≠ 0 at hne
      rw [howner] at hne
      refine ⟨howner ▸ hp₂.owner hne, ⟨"this", p.owner⟩, ?_, howner.symm⟩
      rw [hslots₂, PendingBody.receiver, if_pos hne]
      rfl
    · change result = some n at hn
      rw [hn] at hresult
      split at hresult
      · cases hresult
      · rename_i hne
        obtain rfl := Option.some.inj hresult
        have hget : (p.receiver ++ params ++ [(⟨"Result", p.sig.result⟩ : Slot)])[
            p.receiver.length + params.length]? = some ⟨"Result", p.sig.result⟩ := by
          rw [← List.length_append, List.getElem?_concat_length]
        simp only [if_neg hne, List.getD_eq_getElem?_getD, hget, Option.getD_some]
        exact ⟨⟨_, by rw [hslots₂, if_neg hne, hget], rfl⟩, hp₂.sig.result hne⟩
  refine ⟨params, h₂.stands hframe, (hle₁.nested h.frame_ne).trans hle₂, h₂.frame_ne, hslots₂,
    htypes, rfl, hresult, fun hnil i sl hi => ?_⟩
  exact hle₂.namesParam (hnamed (hle₂.errors_nil hnil) i sl hi)

theorem boundRoutine_yields {p : PendingBody} {r : Routine} (h : Enters R s f)
    (hslots : f.slots = []) (howner : f.owner = p.owner) (hp : PendingFits R s p)
    (hrun : (boundRoutine p).run s = .ok (r, s')) :
    Stands R s' ∧ Nested s s' ∧ Yielded s' p r ∧ BodyFits (s'.here R) s'.types r.body ∧
      r.slots = s'.slots ∧ r.symbol = (s'.routines.getD p.routine default).symbol ∧
      r.owner = (s'.routines.getD p.routine default).owner ∧
      r.hasBody = (s'.routines.getD p.routine default).hasBody := by
  unfold boundRoutine at hrun
  obtain ⟨n, s₁, hparams, hrun⟩ := run_bind_inv hrun
  obtain ⟨result, s₂, hresult, hrun⟩ := run_bind_inv hrun
  obtain ⟨params, hs₂, hle₂, hne₂, hslots₂, htypes, rfl, rfl, hnamed⟩ :=
    openFrame_stands h hslots howner hp hparams hresult
  obtain ⟨_, s₃, hx, hrun⟩ := run_bind_inv hrun
  obtain ⟨hs₃, hle₃, -⟩ := declareLocals_sites hs₂ _ _ _ hx
  obtain ⟨body, s₄, hx, hrun⟩ := run_bind_inv hrun
  obtain ⟨hs₄, hle₄, hbody, ha, -⟩ := Sites.of_yields hs₃ (stmts_yields hs₃.fits p.body.body)
    (fun I => stmts_keeps _) _ _ hx
  cases hrun
  have hle : Proceeds s₂ s' := hle₃.trans hle₄
  have hnested : Nested s₂ s' := hle.nested hne₂
  obtain ⟨locals, hlocals⟩ := hle.slots
  refine ⟨hs₄, hle₂.trans hnested, ⟨⟨f.scope, params, locals, ?_, htypes, fun hnil i sl hi => ?_⟩,
    ?_, rfl⟩, ?_, rfl, rfl, rfl, rfl⟩
  · rw [← hslots₂, hlocals]
    rfl
  · exact hnested.namesParam (hnamed (hnested.errors_nil hnil) i sl hi)
  · rw [← htypes, List.length_map]
  · rw [ha.here hle₄]
    exact hbody

end Bind

theorem Stands.enter (h : Stands R s)
    (hscope : f.scope = (s.scopes.newScope .routine s.unitScope).1)
    (hs' : s' = { s with scopes := (s.scopes.newScope .routine s.unitScope).2
                         frame := some f, scope := f.scope }) :
    Enters R s' f ∧ Nested s s' := by
  subst hs'
  have hnew : (s.scopes.newScope .routine s.unitScope).2.scope? f.scope =
      some { kind := .routine, parent := s.unitScope } :=
    (ScopeTable.scope?_newScope _ _ _ _).trans (if_pos hscope)
  have hsited := h.sited.newScope .routine h.sited.placed fun sc hsc => (h.sited.own sc hsc).1
  have hext : Extends s { s with scopes := (s.scopes.newScope .routine s.unitScope).2,
                                 frame := some f, scope := f.scope } :=
    .of_types rfl rfl (List.prefix_refl _) (List.prefix_refl _) (List.prefix_refl _)
      fun _ _ hx => hx
  refine ⟨⟨hsited.same (.of_types rfl rfl (List.prefix_refl _) (List.prefix_refl _)
    (List.prefix_refl _) fun _ _ hx => hx) rfl rfl rfl rfl rfl rfl rfl, h.headed, ?_, rfl, rfl,
    _, hnew, rfl, fun _ => .nil⟩,
    hext, ⟨.refl _, rfl, rfl⟩, rfl⟩
  obtain ⟨sc, hsc⟩ := h.rooted
  exact ⟨sc, ScopeTable.scope?_newScope_of_some .routine s.unitScope hsc⟩

theorem Stands.leave (h : Stands R s) {i : Nat} {r : Routine}
    (hsymbol : r.symbol = (s.routines.getD i default).symbol)
    (howner : r.owner = (s.routines.getD i default).owner)
    (hbody : r.symbol ≠ 0 → r.hasBody = (s.routines.getD i default).hasBody)
    (hs' : s' = { s with routines := s.routines.set! i r, frame := none, scope := s.unitScope }) :
    Stands R s' ∧ Extends s s' := by
  subst hs'
  have hget : ∀ (j : Nat), (s.routines.set! i r)[j]? =
      if i = j ∧ j < s.routines.size then some r else s.routines[j]? := by
    intro j
    rw [Array.set!_eq_setIfInBounds, Array.getElem?_setIfInBounds]
    split
    · rename_i hij
      subst hij
      by_cases hlt : i < s.routines.size
      · simp [hlt]
      · simp [hlt]
    · rename_i hij
      simp [hij]
  have hold : ∀ (j : Nat) (q : Routine), s.routines[j]? = some q → i = j →
      s.routines.getD i default = q := by
    rintro j q hq rfl
    simp [hq]
  have hamend : Sited R { s with routines := s.routines.set! i r } := by
    refine h.sited.amend ?_ ?_
    · intro j q hq
      rw [hget]
      split
      · rename_i hij
        rw [hold j q hq hij.1] at hsymbol howner
        exact ⟨r, rfl, hsymbol, howner⟩
      · exact ⟨q, hq, rfl, rfl⟩
    · intro j q hq hhas hne
      rw [hget] at hq
      split at hq
      · rename_i hij
        obtain rfl := Option.some.inj hq
        have hlt := Array.getElem?_eq_getElem hij.2
        rw [hold j _ hlt hij.1] at hsymbol hbody
        exact ⟨_, hlt, (hbody hne).symm.trans hhas, hsymbol.symm⟩
      · exact ⟨q, hq, hhas, rfl⟩
  refine ⟨⟨hamend.same (.of_types rfl rfl (List.prefix_refl _) (List.prefix_refl _)
    (List.prefix_refl _) fun _ _ hx => hx) rfl rfl rfl rfl rfl rfl rfl, h.headed, h.rooted,
    fun _ => rfl, nofun⟩, .of_types rfl rfl (List.prefix_refl _) (List.prefix_refl _)
    (List.prefix_refl _) fun _ _ hx => hx⟩

/-- The body of the routine at `i` was bound, and `r` is what came of it. -/
structure Stores (R : Realm) (s s' : Session) (i : Nat) (r : Routine) : Prop
    extends Extends s s' where
  stands : Stands R s'
  frame : s'.frame = none
  widens : s.types.Widens s'.types
  unitScope : s'.unitScope = s.unitScope
  bodies : s'.bodies = s.bodies
  routines : s'.routines = s.routines.set! i r
  symbol : r.symbol = (s.routines.getD i default).symbol
  fits : BodyFits (s'.env R r.slots none) s'.types r.body

namespace Bind

/-- A body is bound in a frame of its own; `P` holds of what comes of it. -/
theorem inFrame_stores {i : Nat} {x : Bind Routine} {P : Routine → Session → Prop}
    (hs : Stands R s) (hscope : f.scope = (s.scopes.newScope .routine s.unitScope).1)
    (hx : ∀ s₁, Enters R s₁ f → Nested s s₁ →
      s₁ = { s with scopes := (s.scopes.newScope .routine s.unitScope).2
                    frame := some f, scope := f.scope } → ∀ r s₂, x.run s₁ = .ok (r, s₂) →
      Stands R s₂ ∧ Nested s₁ s₂ ∧ P r s₂ ∧ BodyFits (s₂.here R) s₂.types r.body ∧
        r.slots = s₂.slots ∧ r.symbol = (s₂.routines.getD i default).symbol ∧
        r.owner = (s₂.routines.getD i default).owner ∧
        (r.symbol ≠ 0 → r.hasBody = (s₂.routines.getD i default).hasBody))
    (hrun : (inFrame i f x).run { s with scopes := (s.scopes.newScope .routine s.unitScope).2 } =
      .ok ((), s')) :
    ∃ r s₂, Stores R s s' i r ∧ P r s₂ ∧ s' = { s₂ with
      routines := s₂.routines.set! i r, frame := none, scope := s₂.unitScope } := by
  unfold inFrame at hrun
  obtain ⟨_, s₁, hmove, hrun⟩ := run_bind_inv hrun
  have hs₁ := (congrArg Prod.snd (Except.ok.inj hmove)).symm
  obtain ⟨h₁, hle₁⟩ : Enters R s₁ f ∧ Nested s s₁ := hs.enter hscope hs₁
  obtain ⟨r, s₂, hbody, hrun⟩ := run_bind_inv hrun
  obtain ⟨hs₂, hle₂, hP, hfits, hslots, hsymbol, howner, hhas⟩ := hx s₁ h₁ hle₁ hs₁ r s₂ hbody
  have hs' := (congrArg Prod.snd (Except.ok.inj hrun)).symm
  obtain ⟨h', hle'⟩ : Stands R s' ∧ Extends s₂ s' := hs₂.leave hsymbol howner hhas hs'
  have hle := hle₁.trans hle₂
  obtain rfl : s' = { s₂ with routines := s₂.routines.set! i r, frame := none, scope := s₂.unitScope } :=
    hs'
  refine ⟨r, s₂, ⟨hle.toExtends.trans hle', h', rfl, hle.widens, hle.unitScope, hle.bodies, ?_, ?_, ?_⟩,
    hP, rfl⟩
  · exact congrArg (·.set! i r) hle.routines
  · rw [hsymbol, hle.routines]
  · rw [hslots]
    exact fun st hst e he => (hfits st hst e he).mono
      (hle'.env_le R (List.prefix_refl _) _ _) (.refl _)

theorem routineBody_stores {p : PendingBody} (hs : Stands R s) (hp : PendingFits R s p)
    (hrun : (routineBody p).run s = .ok ((), s')) :
    ∃ r, Stores R s s' p.routine r ∧ Yielded s' p r := by
  unfold routineBody at hrun
  rw [run_read (x := get) (b := s) rfl] at hrun
  obtain ⟨scope, s₁, hx, hrun⟩ := run_bind_inv hrun
  cases hx
  obtain ⟨r, s₂, hstores, hyielded, rfl⟩ :=
    inFrame_stores (P := fun r s₂ => Yielded s₂ p r) hs rfl (fun s₁ h₁ hle₁ _ r s₂ hbody => by
      obtain ⟨hs₂, hle₂, hyielded, hfits, hslots, hsymbol, howner, hhas⟩ :=
        boundRoutine_yields h₁ rfl rfl (hp.extend hle₁.toExtends) hbody
      exact ⟨hs₂, hle₂, hyielded, hfits, hslots, hsymbol, howner, fun _ => hhas⟩) hrun
  exact ⟨r, hstores, hyielded.slots, hyielded.params, hyielded.result⟩

end Bind

/-! ## All bodies -/

/-- What was bound of bodies so far fits. -/
def Session.BodiesFit (R : Realm) (s : Session) : Prop :=
  ∀ r ∈ s.routines, BodyFits (s.env R r.slots none) s.types r.body

/-- The routine of the body is stored, and laid out as its symbol says if there are no errors. -/
def Session.Bodied (s : Session) (p : PendingBody) : Prop :=
  ∃ r sym, s.routines[p.routine]? = some r ∧ s.scopes.symbol? r.symbol = some sym ∧
    (s.errors = [] → r.Follows s.scopes sym)

theorem Session.Idle.bodiesFit (h : s.Idle) : s.BodiesFit R := by
  intro r hr
  rw [(h r hr).2.1]
  exact .nil

namespace Stores

variable {i : Nat} {r : Routine} {p q : PendingBody}

theorem routine? (h : Stores R s s' i r) (j : Nat) :
    s'.routines[j]? = if i = j then s.routines[j]?.map fun _ => r else s.routines[j]? := by
  rw [h.routines, Array.set!_eq_setIfInBounds, Array.getElem?_setIfInBounds]
  split
  · rename_i hij
    subst hij
    by_cases hlt : i < s.routines.size
    · simp [hlt]
    · simp [hlt]
  · rfl

theorem map_symbol (h : Stores R s s' i r) :
    s'.routines.map (·.symbol) = s.routines.map (·.symbol) := by
  refine Array.ext_getElem? fun j => ?_
  rw [Array.getElem?_map, Array.getElem?_map, h.routine?]
  split
  · rename_i hij
    subst hij
    cases hj : s.routines[i]? with
    | none => rfl
    | some old => simp [h.symbol, hj]
  · rfl

theorem bodiesFit (h : Stores R s s' i r) (hs : s.BodiesFit R) : s'.BodiesFit R := by
  intro q hq
  obtain ⟨j, hj⟩ := Array.mem_iff_getElem?.mp hq
  rw [h.routine?] at hj
  split at hj
  · obtain ⟨-, -, rfl⟩ := Option.map_eq_some_iff.mp hj
    exact h.fits
  · exact fun st hst e he => (hs q (Array.mem_of_getElem? hj) st hst e he).mono
      (h.env_le R (List.prefix_refl _) _ _) h.widens

theorem bodied (h : Stores R s s' q.routine r) (hq : s'.Bodied q) (hp : s.Bodied p) :
    s'.Bodied p := by
  by_cases hsame : q.routine = p.routine
  · unfold Session.Bodied at hq ⊢
    rwa [← hsame]
  · obtain ⟨r', sym, hr', hsym, hfollows⟩ := hp
    obtain ⟨flags, hsym', -⟩ := h.symbols _ _ hsym
    refine ⟨r', _, by rw [h.routine?, if_neg hsame, hr'], hsym', fun hnil => ?_⟩
    obtain ⟨⟨scope, params, locals, hslots, hlength, hnamed⟩, hparams, hresult⟩ :=
      hfollows (h.errors_nil hnil)
    exact ⟨⟨scope, params, locals, hslots, hlength,
      fun i sl hi => h.toExtends.namesParam (hnamed i sl hi)⟩, hparams, hresult⟩

theorem bodied_self (h : Stores R s s' p.routine r) (hr : Yielded s' p r) (hs : Stands R s)
    (hp : PendingFits R s p) : s'.Bodied p := by
  obtain ⟨sym, hsym, hmodule, hcode, hroutine, howner, hmethod, hlength, hresult⟩ := hp.symbol
  obtain ⟨j, old, hj, hold, hsymbol, -⟩ := hs.sited.routines _ sym hsym hmodule hcode
  obtain rfl : p.routine = j := Int.ofNat.inj (hroutine.symm.trans hj)
  obtain ⟨flags, hsym', -⟩ := h.symbols _ _ hsym
  have hself : r.symbol = p.symbol := by
    rw [h.symbol, ← hsymbol]
    simp [hold]
  have hreceiver : p.receiver = Symbol.receiver { sym with flags } := by
    unfold PendingBody.receiver Symbol.receiver
    by_cases hkind : sym.kind = .method
    · rw [if_pos (hmethod.mp hkind), if_pos hkind, howner]
    · rw [if_neg fun hne => hkind (hmethod.mpr hne), if_neg hkind]
  have hparams : r.params = Symbol.arity { sym with flags } := by
    rw [hr.params, hreceiver, Symbol.length_receiver, hlength, Nat.add_comm]
    rfl
  refine ⟨r, _, ?_, by rw [hself, hsym'], fun hnil => ⟨?_, hparams, ?_⟩⟩
  · rw [h.routine?, if_pos rfl, hold]
    rfl
  · obtain ⟨scope, params, locals, hslots, htypes, hnamed⟩ := hr.slots
    refine ⟨scope, params, locals, ?_, ?_, ?_⟩
    · rw [hslots, hreceiver, hresult]
      rfl
    · rw [← hlength, ← htypes, List.length_map]
    · rw [← hreceiver]
      exact hnamed hnil
  · rw [hr.result, hresult, hparams]

end Stores

/-- Bodies were bound and stored. -/
structure Fills (R : Realm) (s s' : Session) : Prop extends Extends s s' where
  stands : Stands R s'
  frame : s'.frame = none
  widens : s.types.Widens s'.types
  unitScope : s'.unitScope = s.unitScope
  bodies : s'.bodies = s.bodies
  map_symbol : s'.routines.map (·.symbol) = s.routines.map (·.symbol)
  fits : s.BodiesFit R → s'.BodiesFit R
  bodied : ∀ p, s.Bodied p → s'.Bodied p

theorem Fills.refl (hs : Stands R s) (hnone : s.frame = none) : Fills R s s :=
  ⟨.refl s, hs, hnone, .refl _, rfl, rfl, rfl, id, fun _ => id⟩

theorem Fills.trans (h : Fills R s s₁) (h' : Fills R s₁ s') : Fills R s s' :=
  ⟨h.toExtends.trans h'.toExtends, h'.stands, h'.frame, h.widens.trans h'.widens,
    h'.unitScope.trans h.unitScope, h'.bodies.trans h.bodies, h'.map_symbol.trans h.map_symbol,
    fun hb => h'.fits (h.fits hb), fun p hp => h'.bodied p (h.bodied p hp)⟩

namespace Bind

theorem routineBody_fills {p : PendingBody} (hs : Stands R s) (hp : p ∈ s.bodies)
    (hrun : (routineBody p).run s = .ok ((), s')) : Fills R s s' ∧ s'.Bodied p := by
  have hfits := hs.sited.bodies p hp
  obtain ⟨r, hstores, hyielded⟩ := routineBody_stores hs hfits hrun
  have hself := hstores.bodied_self hyielded hs hfits
  exact ⟨⟨hstores.toExtends, hstores.stands, hstores.frame, hstores.widens, hstores.unitScope,
    hstores.bodies, hstores.map_symbol, hstores.bodiesFit, fun _ => hstores.bodied hself⟩, hself⟩

theorem routineBodies_fill (ps : List PendingBody) (hs : Stands R s) (hnone : s.frame = none)
    (hps : ∀ p ∈ ps, p ∈ s.bodies) (hrun : (ps.forM routineBody).run s = .ok ((), s')) :
    Fills R s s' ∧ ∀ p ∈ ps, s'.Bodied p := by
  induction ps generalizing s with
  | nil =>
    cases hrun
    exact ⟨.refl hs hnone, by simp⟩
  | cons p ps ih =>
    rw [List.forM] at hrun
    obtain ⟨_, s₁, hx, hrun⟩ := run_bind_inv hrun
    obtain ⟨h₁, hself⟩ := routineBody_fills hs (hps p List.mem_cons_self) hx
    obtain ⟨h', hrest⟩ := ih h₁.stands h₁.frame
      (fun q hq => h₁.bodies ▸ hps q (List.mem_cons_of_mem _ hq)) hrun
    refine ⟨h₁.trans h', fun q hq => ?_⟩
    rcases List.mem_cons.mp hq with rfl | hq
    · exact h'.bodied q hself
    · exact hrest q hq

/-- The routine that a file starts with, before its body is bound. -/
def namelessRoutine (name : String) (block : Tree.Block) : Routine :=
  { name, symbol := 0, owner := 0, span := block.span }

/-- Binds the body of a file in the frame that is at hand. -/
def blockRoutine (i : Nat) (block : Tree.Block) : Bind Routine := do
  let body ← stmts block.body
  let s ← get
  return { s.routines.getD i default with body, hasBody := true }

/-- The routine of the file is added, and its body is bound in a frame of its own. -/
theorem fileBody_run {name : String} {block : Tree.Block} {i : Nat}
    (hrun : (fileBody name block).run s = .ok (i, s')) : i = s.routines.size ∧
      (inFrame i { scope := (s.scopes.newScope .routine s.unitScope).1 } (blockRoutine i block)).run
        { s with routines := s.routines.push (namelessRoutine name block)
                 scopes := (s.scopes.newScope .routine s.unitScope).2 } = .ok ((), s') := by
  unfold fileBody at hrun
  obtain ⟨_, s₁, hx, hrun⟩ := run_bind_inv hrun
  obtain ⟨rfl, rfl⟩ := Prod.mk.inj (Except.ok.inj hx)
  obtain ⟨_, s₁, hx, hrun⟩ := run_bind_inv hrun
  cases hx
  obtain ⟨scope, s₁, hx, hrun⟩ := run_bind_inv hrun
  cases hx
  obtain ⟨_, s₁, hx, hrun⟩ := run_bind_inv hrun
  obtain ⟨rfl, rfl⟩ := Prod.mk.inj (Except.ok.inj hrun)
  exact ⟨rfl, hx⟩

theorem pushNameless_stands (hs : Stands R s) (hnone : s.frame = none) (name : String)
    (block : Tree.Block) :
    Stands R { s with routines := s.routines.push (namelessRoutine name block) } ∧
      Extends s { s with routines := s.routines.push (namelessRoutine name block) } := by
  refine ⟨⟨hs.sited.amend ?_ ?_, hs.headed, hs.rooted, hs.outside, fun f hf => ?_⟩,
    .of_types rfl rfl (List.prefix_refl _) (List.prefix_refl _) (List.prefix_refl _)
      fun _ _ hx => hx⟩
  · intro j r hr
    have hlt := (Array.getElem?_eq_some_iff.mp hr).1
    exact ⟨r, by rw [Array.getElem?_push, if_neg (Nat.ne_of_lt hlt), hr], rfl, rfl⟩
  · intro j r hr hhas hne
    rw [Array.getElem?_push] at hr
    split at hr
    · cases hr
      exact absurd rfl hne
    · exact ⟨r, hr, hhas, rfl⟩
  · have hf : s.frame = some f := hf
    rw [hnone] at hf
    cases hf

theorem blockRoutine_yields {block : Tree.Block} {i : Nat} {scope : ScopeId} {r : Routine}
    (h : Enters R s { scope }) (hname : (s.routines.getD i default).Nameless)
    (hrun : (blockRoutine i block).run s = .ok (r, s')) :
    Stands R s' ∧ Nested s s' ∧ r.Nameless ∧ BodyFits (s'.here R) s'.types r.body ∧
      r.slots = s'.slots ∧ r.symbol = (s'.routines.getD i default).symbol ∧
      r.owner = (s'.routines.getD i default).owner ∧
      (r.symbol ≠ 0 → r.hasBody = (s'.routines.getD i default).hasBody) := by
  have hs := h.stands ⟨fun hne => absurd rfl hne, nofun⟩
  obtain ⟨body, s₁, hx, hrun⟩ := run_bind_inv hrun
  obtain ⟨hs₁, hle₁, hfits, ha, -⟩ := Sites.of_yields hs (stmts_yields hs.fits block.body)
    (fun I => stmts_keeps _) _ _ hx
  rw [← ha.routines] at hname
  cases hrun
  refine ⟨hs₁, hle₁.nested h.frame_ne, ⟨hname.1, hname.2, hname.3, hname.4⟩, ?_, ?_, rfl, rfl,
    fun hne => absurd hname.symbol hne⟩
  · rw [ha.here hle₁]
    exact hfits
  · rw [ha.slots]
    exact hname.slots.trans h.slots.symm

/-- The body of a program, or the initialization of a unit, is one routine more. It has no slots. -/
theorem fileBody_stores {name : String} {block : Tree.Block} {i : Nat} (hs : Stands R s)
    (hnone : s.frame = none) (hb : s.BodiesFit R)
    (hrun : (fileBody name block).run s = .ok (i, s')) :
    i = s.routines.size ∧ Stands R s' ∧ Extends s s' ∧ s.types.Widens s'.types ∧
      s'.unitScope = s.unitScope ∧ s'.BodiesFit R ∧
      ∃ r, s'.routines = s.routines.push r ∧ r.Nameless := by
  obtain ⟨rfl, hrun⟩ := fileBody_run hrun
  obtain ⟨hs₁, hext⟩ := pushNameless_stands hs hnone name block
  have hnew : (s.routines.push (namelessRoutine name block)).getD s.routines.size default =
      namelessRoutine name block := by simp
  have hb₁ : Session.BodiesFit R
      { s with routines := s.routines.push (namelessRoutine name block) } := by
    intro r hr
    rcases Array.mem_push.mp hr with hr | rfl
    · exact fun st hst e he => (hb r hr st hst e he).mono
        (hext.env_le R (List.prefix_refl _) _ _) (.refl _)
    · exact .nil
  obtain ⟨r, s₂, hstores, hnameless, -⟩ :=
    inFrame_stores (P := fun r _ => r.Nameless) hs₁ rfl (fun s₁ h₁ _ hs₁ r s₂ hbody => by
      have hsame : s₁.routines.getD s.routines.size default = namelessRoutine name block := by
        rw [hs₁]
        exact hnew
      exact blockRoutine_yields h₁ (hsame ▸ ⟨rfl, rfl, rfl, rfl⟩) hbody) hrun
  refine ⟨rfl, hstores.stands, hext.trans hstores.toExtends, hstores.widens, hstores.unitScope,
    hstores.bodiesFit hb₁, r, ?_, hnameless⟩
  rw [hstores.routines]
  refine Array.toList_inj.mp ?_
  simp [← Array.length_toList]

end Bind

end Bound

end Pascaline
