import Pascaline.Proofs.Binding.Environment

/-!
# Names and calls

What the names and calls in an expression are bound to. `Yields E s x Q` says of an action `x` that
the session `s` agrees with the environment `E` after it as before, that it has entered types at
most, and that `Q` holds of its result.
-/

namespace Pascaline.Bound

open TypeTable

variable {E : Env} {s : Session} {t t' : TypeTable} {α β : Type} {P Q : TypeTable → α → Prop}

/-- The action changes nothing and comes to an end. -/
def Reads (x : Bind α) : Prop := ∀ s, ∃ a, x.run s = .ok (a, s)

namespace Reads

theorem pure (a : α) : Reads (pure a) := fun _ => ⟨a, rfl⟩

theorem bind {x : Bind β} {f : β → Bind α} (hx : Reads x) (hf : ∀ b, Reads (f b)) :
    Reads (x >>= f) := by
  intro s
  obtain ⟨b, hb⟩ := hx s
  obtain ⟨a, ha⟩ := hf b s
  refine ⟨a, ?_⟩
  rw [StateT.run_bind, hb]
  exact ha

theorem filterMapM {f : β → Bind (Option α)} (hf : ∀ b, Reads (f b)) (xs : List β) :
    Reads (xs.filterMapM f) := by
  induction xs with
  | nil => exact .pure _
  | cons x xs ih =>
    rw [List.filterMapM_cons]
    refine .bind (hf x) fun a? => ?_
    cases a? with
    | none => exact ih
    | some a => exact .bind ih fun as => .pure _

end Reads

def Yields (E : Env) (s : Session) (x : Bind α) (Q : TypeTable → α → Prop) : Prop :=
  ∀ a s', x.run s = .ok (a, s') → Fits E s' ∧ s.types.Widens s'.types ∧ Q s'.types a

theorem run_read {x : Bind β} {f : β → Bind α} {b : β} (hx : x.run s = .ok (b, s)) :
    (x >>= f).run s = (f b).run s := by
  rw [StateT.run_bind, hx]
  rfl

/-- What holds of a result, if there is one. -/
def IfSome (Q : TypeTable → α → Prop) (t : TypeTable) (a? : Option α) : Prop :=
  ∀ a, a? = some a → Q t a

namespace Yields

theorem pure {a : α} (hs : Fits E s) (ha : Q s.types a) : Yields E s (pure a) Q := by
  intro b s' h
  cases h
  exact ⟨hs, .refl _, ha⟩

theorem none (hs : Fits E s) : Yields E s (Pure.pure none) (IfSome Q) :=
  pure hs fun _ h => by cases h

theorem some {a : α} (hs : Fits E s) (ha : Q s.types a) :
    Yields E s (Pure.pure (Option.some a)) (IfSome Q) :=
  pure hs fun b h => by
    cases h
    exact ha

theorem bind {x : Bind β} {f : β → Bind α} {P : TypeTable → β → Prop} (hx : Yields E s x P)
    (hf : ∀ b s₁, Fits E s₁ → s.types.Widens s₁.types → P s₁.types b → Yields E s₁ (f b) Q) :
    Yields E s (x >>= f) Q := by
  intro a s' h
  obtain ⟨⟨b, s₁⟩, hrun, h⟩ := except_bind_ok h
  obtain ⟨hs₁, hle, hb⟩ := hx b s₁ hrun
  obtain ⟨hs', hle', ha⟩ := hf b s₁ hs₁ hle hb a s' h
  exact ⟨hs', hle.trans hle', ha⟩

theorem bindSome {x : Bind (Option β)} {f : Option β → Bind (Option α)}
    {P : TypeTable → β → Prop} (hx : Yields E s x (IfSome P)) (hnone : f .none = Pure.pure .none)
    (hf : ∀ b s₁, Fits E s₁ → s.types.Widens s₁.types → P s₁.types b →
      Yields E s₁ (f (.some b)) (IfSome Q)) : Yields E s (x >>= f) (IfSome Q) := by
  refine hx.bind fun b? s₁ hs₁ hle hb => ?_
  cases b? with
  | none =>
    rw [hnone]
    exact none hs₁
  | some b => exact hf b s₁ hs₁ hle (hb b rfl)

theorem bindBody {x : Bind (Option β)} {f : Option β → Bind (List Stmt)}
    {P : TypeTable → β → Prop} (hx : Yields E s x (IfSome P))
    (hf : ∀ b s₁, Fits E s₁ → s.types.Widens s₁.types → P s₁.types b →
      Yields E s₁ (f (.some b)) fun t ss => BodyFits E t ss)
    (hnone : f .none = Pure.pure [] := by rfl) :
    Yields E s (x >>= f) fun t ss => BodyFits E t ss := by
  refine hx.bind fun b? s₁ hs₁ hle hb => ?_
  cases b? with
  | none =>
    rw [hnone]
    exact pure hs₁ StmtsFit.nil
  | some b => exact hf b s₁ hs₁ hle (hb b rfl)

theorem read {x : Bind β} {f : β → Bind α} {b : β} (hx : x.run s = .ok (b, s))
    (hf : Yields E s (f b) Q) : Yields E s (x >>= f) Q := by
  intro a s' h
  rw [run_read hx] at h
  exact hf a s' h

theorem look {x : Bind β} {f : β → Bind α} (hx : Reads x)
    (hf : ∀ b, x.run s = .ok (b, s) → Yields E s (f b) Q) : Yields E s (x >>= f) Q := by
  obtain ⟨b, hb⟩ := hx s
  exact read hb (hf b hb)

theorem imp {x : Bind α} (hx : Yields E s x P) (h : ∀ t a, P t a → Q t a) : Yields E s x Q := by
  intro a s' hrun
  obtain ⟨hs', hle, ha⟩ := hx a s' hrun
  exact ⟨hs', hle, h _ _ ha⟩

end Yields

/-! ## Sessions -/

namespace Bind

theorem report_yields (hs : Fits E s) (e : BindError) (span : Span) (notes : List Note) :
    Yields E s (report e span notes) fun _ _ => True := by
  intro _ s' h
  cases h
  exact ⟨⟨hs.formed, hs.table, hs.scopes, hs.names, hs.parents, hs.scope, hs.units, hs.frame⟩,
    .refl _, trivial⟩

theorem fail_yields (hs : Fits E s) (e : BindError) (span : Span) (notes : List Note) :
    Yields E s (fail e span notes) (IfSome Q) :=
  (report_yields hs e span notes).bind fun _ _ hs _ _ => .none hs

theorem pointer_yields {elem : TypeId} (hs : Fits E s) (helem : s.types.Within E.known elem) :
    Yields E s (intern (·.pointer elem)) fun t id => t.Within E.known id := by
  intro id s' hrun
  have h := hs.formed.intern_within (S := E.known) (s := .pointer elem)
    (by simpa [TypeShape.parts] using fun _ => helem) (by simp)
  cases hrun
  exact ⟨hs.widen h.formed h.widens, h.widens, .pointer h.shape (helem.mono h.grows)⟩

theorem arrayShape_yields {elem : TypeId} {n : Option Nat} {f : TypeTable → TypeId × TypeTable}
    (hs : Fits E s) (helem : s.types.Within E.known elem)
    (hf : f s.types = s.types.intern (.array elem n)) :
    Yields E s (intern f) fun t id => t.Within E.known id := by
  intro id s' hrun
  have h := hs.formed.intern_within (S := E.known) (s := .array elem n)
    (by simpa [TypeShape.parts] using fun _ => helem) (by simp)
  rw [← hf] at h
  cases hrun
  exact ⟨hs.widen h.formed h.widens, h.widens, .array h.shape (helem.mono h.grows)⟩

theorem routineType_yields {sig : Signature} (hs : Fits E s) (hsig : sig.Within s.types E.known) :
    Yields E s (intern (·.routine sig)) fun t id => t.Within E.known id := by
  intro id s' hrun
  have h := hs.formed.intern_within (S := E.known) (s := .routine sig) (by
    intro p hp hne
    rcases List.mem_cons.mp hp with rfl | hp
    · exact hsig.result hne
    · exact hsig.params p hp) (by simp)
  have hsig' := hsig.mono h.grows
  cases hrun
  exact ⟨hs.widen h.formed h.widens, h.widens, .routine h.shape hsig'.params hsig'.result⟩

/-! ## Coercions -/

theorem intToReal_fits {e : Expr} (ht : t.Formed) (he : e.Fits E t) : (intToReal e).Fits E t := by
  unfold intToReal
  split
  · exact .const ht.within_real
  · exact .convert he ht.within_real

theorem toReal_fits {e : Expr} (ht : t.Formed) (he : e.Fits E t) : (toReal t e).Fits E t := by
  unfold toReal
  split
  · exact intToReal_fits ht he
  · exact he

theorem charToString_fits {e : Expr} (ht : t.Formed) (he : e.Fits E t) :
    (charToString t e).Fits E t := by
  unfold charToString
  split
  · split
    · exact .const ht.within_string
    · exact .convert he ht.within_string
  · exact he

theorem coerce_fits {e e' : Expr} {target : TypeId} (ht : t.Formed) (he : e.Fits E t)
    (htarget : target ≠ 0 → t.Within E.known target) (h : Bound.coerce t e target = .ok e') :
    e'.Fits E t := by
  unfold Bound.coerce at h
  split at h
  · cases h
    exact he
  · rename_i hne
    split at h
    · cases h
      exact .const (htarget hne)
    · split at h
      · cases h
        exact he
      · split at h
        · cases h
          exact intToReal_fits ht he
        · cases h
          exact he
      · split at h <;> cases h

theorem coerce_yields {e? : Option Expr} {target : TypeId} (hs : Fits E s)
    (he : IfSome (Expr.Fits E) s.types e?) (htarget : target ≠ 0 → s.types.Within E.known target)
    (span : Span) : Yields E s (coerce e? target span) (IfSome (Expr.Fits E)) := by
  unfold coerce
  split
  · exact .none hs
  · rename_i e
    refine .read rfl ?_
    split
    · rename_i e' hcoerce
      exact .some hs (coerce_fits hs.formed (he e rfl) htarget hcoerce)
    · exact fail_yields hs _ _ _

theorem asOperand_yields {e? : Option Expr} (hs : Fits E s)
    (he : IfSome (Expr.Fits E) s.types e?) (span : Span) :
    Yields E s (asOperand e? span) (IfSome (Expr.Fits E)) := by
  unfold asOperand
  split
  · split
    · exact fail_yields hs _ _ _
    · exact .pure hs he
  · exact .none hs

theorem asConstant_yields {e? : Option Expr} (hs : Fits E s)
    (he : IfSome (Expr.Fits E) s.types e?) (span : Span) :
    Yields E s (asConstant e? span) (IfSome (Expr.Fits E)) := by
  unfold asConstant
  split
  · split
    · exact .pure hs he
    · exact fail_yields hs _ _ _
  · exact .none hs

theorem constantly_yields {x : Bind α}
    (hx : Yields E { s with inConst := true } x Q) : Yields E s (constantly x) Q := by
  intro a s' h
  have h : (x.run { s with inConst := true } >>= fun r =>
      .ok (r.1, { r.2 with inConst := s.inConst })) = .ok (a, s') := h
  obtain ⟨⟨b, s₁⟩, hrun, h⟩ := except_bind_ok h
  obtain ⟨hs₁, hle, hb⟩ := hx b s₁ hrun
  cases h
  exact ⟨hs₁.constant _, hle, hb⟩

end Bind

/-! ## Names -/

/-- What a name denotes is there. -/
def ResolutionFits (E : Env) (s : Session) : Resolution → Prop
  | .nothing => True
  | .symbols x xs => NamesFit E s.types (x :: xs)
  | .field f => ∃ fr, s.frame = some fr ∧ fr.owner ≠ 0 ∧ FieldFits E s.types fr.owner f
  | .methods ms => ∀ m ∈ ms, MethodFits E s.types m

theorem walk_fits (hs : Fits E s) (name : String) {fuel : Nat} {id : ScopeId}
    (hid : E.opens id) : ResolutionFits E s (Resolution.walk s name fuel id) := by
  induction fuel generalizing id with
  | zero => trivial
  | succ fuel ih =>
    rw [Resolution.walk]
    split
    · trivial
    · rename_i scope hscope
      rw [hs.scopes] at hscope
      have houtward := ih (hs.parents id scope hid hscope)
      have hnames := hs.names id scope name hid hscope
      dsimp only
      split
      · rename_i x xs hfind
        rw [hfind] at hnames
        exact hnames
      · split
        · rename_i fr hfr
          split
          · rename_i howner
            simp only [Bool.and_eq_true, decide_eq_true_eq] at howner
            obtain ⟨hclass, -⟩ := (hs.frame fr hfr).owner howner.2
            split
            · rename_i f hf
              exact ⟨fr, hfr, howner.2, hs.table.lookupField? hs.formed hclass hf⟩
            · split
              · exact houtward
              · exact hs.table.lookupMethods hs.formed hclass name
          · exact houtward
        · exact houtward

theorem resolve_fits (hs : Fits E s) (name : String) :
    ResolutionFits E s (Resolution.walk s name (s.scopes.scopes.size + 1) s.scope) :=
  walk_fits hs name hs.scope

theorem lookupLocal_fits (hs : Fits E s) {id : ScopeId} (hid : E.opens id) (name : String) :
    NamesFit E s.types (s.scopes.lookupLocal id name) := by
  unfold ScopeTable.lookupLocal
  split
  · rename_i sc hsc
    rw [hs.scopes] at hsc
    exact hs.names id sc name hid hsc
  · exact .nil

theorem ofSymbols_fits {ids : List SymbolId} (h : NamesFit E s.types ids) :
    ResolutionFits E s (Resolution.ofSymbols ids) := by
  cases ids with
  | nil => trivial
  | cons x xs => exact h

theorem opens_of_lookup (hs : Fits E s) {unit : String} {id : ScopeId}
    (h : s.unitScopes.lookup unit = some id) : E.opens id := by
  obtain ⟨l₁, l₂, heq, -⟩ := List.lookup_eq_some_iff.mp h
  exact hs.units (unit, id) (by simp [heq])

theorem NamesFit.routines {x : SymbolId} {xs : List SymbolId} {sym : Symbol}
    (h : NamesFit E t (x :: xs)) (hsym : E.scopes.symbol? x = some sym)
    (hkind : sym.kind.isRoutine) : ∀ y ∈ x :: xs, E.scopes.isRoutine y := by
  cases xs with
  | nil => simpa [ScopeTable.isRoutine, hsym] using hkind
  | cons y ys => exact h.overloads (by simp)

namespace Bind

theorem unitNamed?_reads (e : Tree.Expr) : Reads (unitNamed? e) := by
  unfold unitNamed?
  split
  · refine .bind (fun s => ⟨_, rfl⟩) fun res => ?_
    split
    · exact .bind (fun s => ⟨_, rfl⟩) fun sym => .pure _
    · exact .pure _
  · exact .pure _

end Bind

/-! ## Calls -/

/-- One of the routines that a call may mean is there. -/
def CandidateFits (E : Env) (t : TypeTable) (c : Candidate) : Prop :=
  match c.target with
  | .routine x => ∃ sym, E.scopes.symbol? x = some sym ∧ SymbolFits E t sym ∧
      (sym.kind = .procedure ∨ sym.kind = .function) ∧ c.sig = sym.sig
  | .method m => c.sig = m.sig ∧ MethodFits E t m
  | .native _ => True

def CalleeFits (E : Env) (t : TypeTable) : Bind.Callee → Prop
  | .overloads cands _ => ∀ c ∈ cands, CandidateFits E t c
  | .methods object cands _ _ => object.Fits E t ∧ ∀ c ∈ cands, CandidateFits E t c
  | .value routine sig => routine.Fits E t ∧ sig.Within t E.known
  | .inherited field => field.Fits E t

theorem CandidateFits.mono {c : Candidate} (h : CandidateFits E t c) (hle : t.Grows t') :
    CandidateFits E t' c := by
  unfold CandidateFits at h ⊢
  split at h
  · obtain ⟨sym, hsym, hfits, hkind, hsig⟩ := h
    exact ⟨sym, hsym, hfits.mono hle, hkind, hsig⟩
  · exact ⟨h.1, h.2.mono hle⟩
  · trivial

theorem Env.Le.refl (E : Env) : E.Le E :=
  ⟨fun _ _ h => h, fun _ _ h => h, fun _ _ _ h => h, fun _ _ h => h⟩

theorem Expr.Fits.widen {e : Expr} (h : e.Fits E t) (hle : t.Widens t') : e.Fits E t' :=
  h.mono (.refl E) hle

theorem CalleeFits.mono {c : Bind.Callee} (h : CalleeFits E t c) (hle : t.Widens t') :
    CalleeFits E t' c := by
  cases c with
  | overloads cands id => exact fun c hc => (h c hc).mono hle.grows
  | methods object cands id viaBase =>
    exact ⟨h.1.widen hle, fun c hc => (h.2 c hc).mono hle.grows⟩
  | value routine sig => exact ⟨h.1.widen hle, h.2.mono hle.grows⟩
  | inherited field => exact Expr.Fits.widen h hle

theorem choose?_mem {cands : List Candidate} {args : List Expr} {c : Candidate}
    (h : Candidate.choose? t cands args = some c) : c ∈ cands ∧ c.arity args.length := by
  unfold Candidate.choose? at h
  have hfind : ∀ atLeast, cands.find? (fun c => c.arity args.length && c.fits t atLeast args) =
      some c → c ∈ cands ∧ c.arity args.length := by
    intro atLeast hc
    have hp := List.find?_some hc
    rw [Bool.and_eq_true] at hp
    exact ⟨List.mem_of_find?_eq_some hc, hp.1⟩
  dsimp only at h
  cases hexact : cands.find? fun c => c.arity args.length && c.fits t .exact args with
  | some c' =>
    rw [hexact] at h
    cases h
    exact hfind _ hexact
  | none =>
    rw [hexact] at h
    exact hfind _ h

theorem fitArgs_fits {args : List Expr} {params : List TypeId} (ht : t.Formed)
    (hargs : ∀ a ∈ args, a.Fits E t) (hparams : ∀ p ∈ params, t.Within E.known p) :
    ∀ a ∈ Bind.fitArgs t args params, a.Fits E t := by
  intro a ha
  obtain ⟨⟨a, p⟩, hap, rfl⟩ := List.mem_map.mp ha
  obtain ⟨ha, hp⟩ := List.of_mem_zip hap
  dsimp only
  split
  · rename_i e he
    exact Bind.coerce_fits ht (hargs a ha) (fun _ => hparams p hp) he
  · exact hargs a ha

theorem length_fitArgs {args : List Expr} {params : List TypeId}
    (h : params.length = args.length) : (Bind.fitArgs t args params).length = params.length := by
  simp [Bind.fitArgs, h]

theorem callType_within {sig : Signature} (ht : t.Formed) (hsig : sig.Within t E.known) :
    t.Within E.known (Bind.callType sig) := by
  unfold Bind.callType
  split
  · exact ht.within_void
  · rename_i hne
    exact hsig.result hne

theorem nativeResult_within {n : Native} {args : List Expr} (ht : t.Formed)
    (hargs : ∀ a ∈ args, a.Fits E t) (hcount : n.arity args.length) :
    t.Within E.known (nativeResult n args) := by
  -- A routine whose result has the type of its first argument has one.
  have hfirst : n.result = .sameAsFirst → args ≠ [] := by
    rintro hresult rfl
    cases n <;> first | exact absurd hcount (by decide) | cases hresult
  unfold nativeResult
  split
  · exact ht.within_void
  · exact ht.within_integer
  · exact ht.within_real
  · exact ht.within_char
  · exact ht.within_string
  · exact ht.within_boolean
  · cases args with
    | nil => exact absurd rfl (hfirst ‹_›)
    | cons a as => exact (hargs a List.mem_cons_self).within

namespace Bind

theorem mapM_run {f : β → Bind α} {g : β → α} (hf : ∀ x, (f x).run s = .ok (g x, s))
    (xs : List β) : (xs.mapM f).run s = .ok (xs.map g, s) := by
  induction xs with
  | nil => rfl
  | cons x xs ih =>
    rw [List.mapM_cons, StateT.run_bind, hf x]
    show ((xs.mapM f).run s >>= _) = _
    rw [ih]
    rfl

theorem literal_yields (hs : Fits E s) (kind : Tree.LitKind) (text : Bytes) (span : Span) :
    Yields E s (literal kind text span) (IfSome (Expr.Fits E)) := by
  have ht := hs.formed
  unfold literal
  extract_lets const
  cases kind with
  | int =>
    dsimp only
    split
    · exact .some hs (.const ht.within_integer)
    · exact fail_yields hs _ _ _
  | real =>
    dsimp only
    split
    · exact .some hs (.const ht.within_real)
    · exact fail_yields hs _ _ _
  | string => exact .some hs (.const ht.within_string)
  | char =>
    dsimp only
    split
    · exact .some hs (.const ht.within_char)
    · exact .some hs (.const ht.within_string)
  | bool => exact .some hs (.const ht.within_boolean)
  | nil => exact .some hs (.const ht.within_nil)

theorem storage_fits {id : SymbolId} {sym : Symbol} (hsym : SymbolFits E t sym)
    (hkind : sym.kind = .var ∨ sym.kind = .param) (span : Span) :
    (storage id sym span).Fits E t := by
  have htype : t.Within E.known sym.type :=
    hsym.within.type (hsym.typed (by rintro h; simp [h] at hkind) (by rintro h; simp [h] at hkind))
  have hplace := hsym.place hkind
  unfold storage
  split
  · rename_i hglobal
    rw [if_pos hglobal] at hplace
    exact .unitVar hplace (.inl rfl) htype
  · rename_i hglobal
    rw [if_neg hglobal] at hplace
    exact .frameVar hplace (.inl rfl) htype

theorem routineValue_yields (hs : Fits E s) {ids : List SymbolId} (hids : NamesFit E s.types ids)
    (hroutines : ∀ x ∈ ids, E.scopes.isRoutine x) (id : Tree.Ident) (want : TypeId) :
    Yields E s (routineValue ids id want) (IfSome (Expr.Fits E)) := by
  unfold routineValue
  refine .read (mapM_run (fun _ => rfl) ids) ?_
  extract_lets own
  split
  · rename_i sym _ hfind
    have hmem := List.mem_of_find?_eq_some hfind
    obtain ⟨hmem, hnative⟩ := List.mem_filter.mp hmem
    obtain ⟨x, hx, rfl⟩ := List.mem_map.mp hmem
    obtain ⟨sym, hsym, hfits⟩ := hids.symbols x hx
    have hkind := hroutines x hx
    rw [hs.scopes, hsym] at hnative ⊢
    simp only [ScopeTable.isRoutine, hsym, Option.any_some] at hkind
    simp only [Option.getD_some, bne_iff_ne, ne_eq] at hnative ⊢
    have hroutine : sym.kind = .procedure ∨ sym.kind = .function := by
      have hfree := hfits.free
      cases hk : sym.kind <;> simp_all [SymbolKind.isRoutine]
    refine .some hs (.routine (hfits.routine hroutine) (hfits.within.type (hfits.typed ?_ hnative)))
    rintro h
    simp [h] at hroutine
  · refine .read rfl ?_
    refine .read rfl ?_
    exact fail_yields hs _ _ _
  · exact fail_yields hs _ _ _

theorem calleeOfSymbols_yields (hs : Fits E s) {ids : List SymbolId}
    (hids : NamesFit E s.types ids) (id : Tree.Ident) :
    Yields E s (calleeOfSymbols ids id) (IfSome (CalleeFits E)) := by
  unfold calleeOfSymbols
  refine .read (mapM_run (fun _ => rfl) ids) ?_
  extract_lets cands
  split
  · exact fail_yields hs _ _ _
  · refine .some hs ?_
    intro c hc
    obtain ⟨⟨x, sym⟩, hxs, hcand⟩ := List.mem_filterMap.mp hc
    obtain ⟨y, hy, heq⟩ := List.mem_map.mp hxs
    obtain ⟨sym', hsym, hfits⟩ := hids.symbols y hy
    rw [hs.scopes, hsym] at heq
    cases heq
    simp only [Option.getD_some] at hcand
    split at hcand
    · obtain ⟨n, -, rfl⟩ := Option.map_eq_some_iff.mp hcand
      trivial
    · rename_i hnative
      split at hcand
      · rename_i hkind
        cases hcand
        refine ⟨_, hsym, hfits, ?_, rfl⟩
        have hfree := hfits.free
        cases hk : sym'.kind <;> simp_all [SymbolKind.isRoutine]
      · cases hcand

theorem calleeOfMethods_yields {object : Expr} {ms : List Method} (hs : Fits E s)
    (hobject : object.Fits E s.types) (hms : ∀ m ∈ ms, MethodFits E s.types m) (id : Tree.Ident)
    (viaBase : Bool) (span : Span) :
    Yields E s (calleeOfMethods object ms id viaBase span) (IfSome (CalleeFits E)) := by
  unfold calleeOfMethods
  refine .read rfl ?_
  split
  · exact fail_yields hs _ _ _
  · refine .some hs ⟨hobject, fun c hc => ?_⟩
    obtain ⟨m, hm, rfl⟩ := List.mem_map.mp hc
    exact ⟨rfl, hms m hm⟩

theorem calleeOfValue_yields {routine : Expr} (hs : Fits E s) (hroutine : routine.Fits E s.types)
    (count : Nat) (span : Span) :
    Yields E s (calleeOfValue routine count span) (IfSome (CalleeFits E)) := by
  unfold calleeOfValue
  refine .read rfl ?_
  split
  · exact .read rfl (fail_yields hs _ _ _)
  · rename_i sig hsig
    split
    · exact .read rfl (fail_yields hs _ _ _)
    · refine .read rfl ?_
      split
      · exact fail_yields hs _ _ _
      · refine .some hs ⟨hroutine, hroutine.within.signature ?_⟩
        unfold TypeTable.signature? at hsig
        split at hsig
        · cases hsig
          assumption
        · cases hsig

theorem calleeOfResolved_yields {x : SymbolId} {xs : List SymbolId} (hs : Fits E s)
    (hids : NamesFit E s.types (x :: xs)) (id : Tree.Ident) (count : Nat) (span : Span) :
    Yields E s (calleeOfResolved x xs id count span) (IfSome (CalleeFits E)) := by
  obtain ⟨sym, hsym, hfits⟩ := hids.symbols x List.mem_cons_self
  unfold calleeOfResolved
  refine .read rfl ?_
  rw [hs.scopes, hsym, Option.getD_some]
  split
  · exact calleeOfValue_yields hs (storage_fits hfits (.inl ‹_›) _) _ _
  · exact calleeOfValue_yields hs (storage_fits hfits (.inr ‹_›) _) _ _
  · rename_i hkind
    exact calleeOfValue_yields hs
      (.const (hfits.within.type (hfits.typed (by simp [hkind]) (by simp [hkind])))) _ _
  · exact fail_yields hs _ _ _
  · exact fail_yields hs _ _ _
  · exact fail_yields hs _ _ _
  · exact calleeOfSymbols_yields hs hids id

theorem thisExpr_yields (hs : Fits E s) (span : Span) :
    Yields E s (thisExpr span) (IfSome fun t e => e.Fits E t ∧
      ∃ fr, s.frame = some fr ∧ fr.owner ≠ 0 ∧ e.type = fr.owner) := by
  unfold thisExpr
  refine .read rfl ?_
  split
  · rename_i fr hfr
    split
    · exact fail_yields hs _ _ _
    · rename_i howner
      refine .read rfl ?_
      obtain ⟨⟨key, hkey, hknown⟩, hslot⟩ := (hs.frame fr hfr).owner howner
      obtain ⟨c, hc, rfl⟩ := keyOf?_eq_some.mp hkey
      exact .some hs ⟨.frameVar hslot (.inl rfl) (.classRef hc hknown), fr, hfr, howner, rfl⟩
  · exact fail_yields hs _ _ _

theorem fieldOf_fits {object : Expr} {f : Field} {id : TypeId} {c : ClassInfo}
    (hobject : object.Fits E t) (hc : t.classOf? object.type = some c)
    (hf : FieldFits E t id f) (habove : ∀ d, t.Above id d → t.Above c.type d) (span : Span) :
    (fieldOf object f span).Fits E t := by
  obtain ⟨d, g, hd, hg⟩ := hf.member
  exact .field hobject hc ⟨d, g, habove d hd, hg⟩ (.inl rfl) hf.type

theorem classOf?_of_classInfo? {id : TypeId} {c : ClassInfo} (h : t.classInfo? id = some c) :
    t.classOf? id = some c := by
  obtain ⟨i, hi, -⟩ := classInfo?_eq_some.mp h
  unfold TypeTable.classOf?
  rw [hi]
  exact h

theorem thisField_fits {this : Expr} {f : Field} {id : TypeId} (ht : t.Formed)
    (hthis : this.Fits E t) (hid : this.type = id) (hf : FieldFits E t id f) (span : Span) :
    (fieldOf this f span).Fits E t := by
  obtain ⟨d, g, hd, hg⟩ := hf.member
  obtain ⟨c, hc⟩ := hd.exists_class
  refine fieldOf_fits hthis (classOf?_of_classInfo? (hid ▸ hc)) hf ?_ span
  rw [ht.type_eq hc]
  exact fun d h => h

theorem isClass_of_within {id : TypeId} {c : ClassInfo} (hid : t.Within E.known id)
    (hc : t.classInfo? id = some c) : t.IsClass E.known id :=
  ⟨c.key, keyOf?_eq_some.mpr ⟨c, hc, rfl⟩, hid.module hc⟩

theorem isClass_of_classOf? {id : TypeId} {c : ClassInfo} (ht : t.Formed)
    (hid : t.Within E.known id) (hc : t.classOf? id = some c) : t.IsClass E.known c.type := by
  unfold TypeTable.classOf? at hc
  split at hc
  · rename_i elem hs
    rw [ht.type_eq hc]
    exact isClass_of_within (hid.elem hs) hc
  · rw [ht.type_eq hc]
    exact isClass_of_within hid hc

theorem calleeOfBase_yields (hs : Fits E s) (baseSpan : Span) (name : Tree.Ident) (span : Span) :
    Yields E s (calleeOfBase baseSpan name span) (IfSome (CalleeFits E)) := by
  unfold calleeOfBase
  refine (thisExpr_yields hs baseSpan).bindSome rfl fun this s₁ hs₁ hle hthis => ?_
  obtain ⟨hthis, fr, hfr, howner, htype⟩ := hthis
  refine .read rfl ?_
  extract_lets own
  split
  · exact fail_yields hs₁ _ _ _
  · rename_i hbase
    obtain ⟨⟨key, hkey, hknown⟩, -⟩ := (hs.frame fr hfr).owner howner
    obtain ⟨c, hc, -⟩ := keyOf?_eq_some.mp (hle.grows.keyOf? hkey)
    have hown : own = c := by simp [own, htype, hc]
    have hclass : s₁.types.IsClass E.known c.base :=
      (hs₁.table.above hs₁.formed ⟨key, hle.grows.keyOf? hkey, hknown⟩ (.self hc)).within.base
        (hown ▸ hbase)
    split
    · rename_i f hf
      rw [hown] at hf
      refine .some hs₁ (fieldOf_fits hthis (classOf?_of_classInfo? (htype ▸ hc))
        (hs₁.table.lookupField? hs₁.formed hclass hf) ?_ span)
      rw [hs₁.formed.type_eq hc]
      exact fun d hd => .base hc hd
    · exact fail_yields hs₁ _ _ _
    · refine calleeOfMethods_yields hs₁ hthis ?_ name true span
      rw [hown]
      exact hs₁.table.lookupMethods hs₁.formed hclass _

theorem chooseOverload_yields (hs : Fits E s) (cands : List Candidate) (args : List Expr)
    (name : String) (span : Span) :
    Yields E s (chooseOverload cands args name span)
      (IfSome fun _ c => c ∈ cands ∧ c.arity args.length) := by
  unfold chooseOverload
  refine .read rfl ?_
  split
  · rename_i c hc
    exact .some hs (choose?_mem hc)
  · refine .look (.filterMapM (fun c => ?_) cands) fun notes _ => fail_yields hs _ _ _
    split
    · exact .bind (fun s => ⟨_, rfl⟩) fun _ => .pure _
    · exact .pure _
    · exact .pure _

theorem nativeCall_yields {n : Native} {args : List Expr} (hs : Fits E s)
    (hargs : ∀ a ∈ args, a.Fits E s.types) (hcount : n.arity args.length) (span : Span) :
    Yields E s (nativeCall n args span) (IfSome (Expr.Fits E)) := by
  have hresult := nativeResult_within (E := E) hs.formed hargs hcount
  unfold nativeCall
  extract_lets result call
  have hcall : Yields E s call (IfSome (Expr.Fits E)) := by
    refine .read rfl ?_
    split
    · exact fail_yields hs _ _ _
    · exact .some hs (.callNative hargs hresult)
  split
  · split
    · exact .some hs (.const hresult)
    · intro a s' h
      cases h
    · exact hcall
  · exact hcall

theorem apply_yields {callee : Callee} {args : List Expr} (hs : Fits E s)
    (hcallee : CalleeFits E s.types callee) (hargs : ∀ a ∈ args, a.Fits E s.types)
    (span : Span) : Yields E s (callee.apply args span) (IfSome (Expr.Fits E)) := by
  unfold Callee.apply
  split
  · rename_i cands id
    refine (chooseOverload_yields hs cands args id.text span).bindSome rfl
      fun c s₁ hs₁ hle hc => ?_
    obtain ⟨hmem, hcount⟩ := hc
    have hfits := CandidateFits.mono (hcallee c hmem) hle.grows
    have hargs₁ : ∀ a ∈ args, a.Fits E s₁.types := fun a ha => (hargs a ha).widen hle
    unfold CandidateFits at hfits
    unfold Candidate.arity at hcount
    split at hfits
    · rename_i x htarget
      obtain ⟨sym, hsym, hfits, hkind, hsig⟩ := hfits
      simp only [htarget] at hcount ⊢
      refine .read rfl ?_
      rw [hs₁.scopes, hsym, Option.getD_some]
      refine .read rfl ?_
      split
      · exact fail_yields hs₁ _ _ _
      · refine .read rfl ?_
        have hlen := length_fitArgs (t := s₁.types) (eq_of_beq hcount)
        have hsigW : c.sig.Within s₁.types E.known := hsig ▸ hfits.within.sig
        refine .some hs₁ (.call (fitArgs_fits hs₁.formed hargs₁ hsigW.params) ?_
          (callType_within hs₁.formed hsigW))
        rw [hlen, hsig]
        exact hfits.routine hkind
    · rename_i m htarget
      simp only [htarget]
      exact .none hs₁
    · rename_i n htarget
      simp only [htarget] at hcount ⊢
      exact nativeCall_yields hs₁ hargs₁ hcount span
  · rename_i object cands id viaBase
    refine (chooseOverload_yields hs cands args id.text span).bindSome rfl
      fun c s₁ hs₁ hle hc => ?_
    obtain ⟨hmem, hcount⟩ := hc
    have hfits := CandidateFits.mono (hcallee.2 c hmem) hle.grows
    have hargs₁ : ∀ a ∈ args, a.Fits E s₁.types := fun a ha => (hargs a ha).widen hle
    unfold CandidateFits at hfits
    unfold Candidate.arity at hcount
    split at hfits
    case h_2 m htarget =>
      obtain ⟨hsig, hm⟩ := hfits
      simp only [htarget] at hcount ⊢
      refine .read rfl ?_
      have hcount : m.sig.params.length = args.length := hsig ▸ eq_of_beq hcount
      have hall : ∀ a ∈ object :: fitArgs s₁.types args m.sig.params, a.Fits E s₁.types := by
        intro a ha
        rcases List.mem_cons.mp ha with rfl | ha
        · exact hcallee.1.widen hle
        · exact fitArgs_fits hs₁.formed hargs₁ hm.sig.params a ha
      have htype := callType_within hs₁.formed hm.sig
      split
      · exact .some hs₁ (.callVirtual hall htype)
      · refine .some hs₁ (.call hall ?_ htype)
        rw [List.length_cons, length_fitArgs hcount]
        exact hm.routine
    all_goals
      rename_i htarget
      simp only [htarget]
      exact .none hs₁
  · exact .some hs (.callValue hcallee.1 hargs (callType_within hs.formed hcallee.2))
  · exact .some hs hcallee

theorem applyBare_yields {callee? : Option Callee} (hs : Fits E s)
    (hcallee : IfSome (CalleeFits E) s.types callee?) (span : Span) :
    Yields E s (applyBare callee? span) (IfSome (Expr.Fits E)) := by
  unfold applyBare
  split
  · exact apply_yields hs (hcallee _ rfl) (by simp) span
  · exact .none hs

/-! ## Values of names -/

theorem nameValue_yields {res : Resolution} (hs : Fits E s) (hres : ResolutionFits E s res)
    (id : Tree.Ident) (want : TypeId) :
    Yields E s (nameValue res id want) (IfSome (Expr.Fits E)) := by
  unfold nameValue
  split
  · exact fail_yields hs _ _ _
  · rename_i f
    obtain ⟨fr, hfr, howner, hf⟩ := hres
    refine (thisExpr_yields hs id.span).bindSome rfl fun this s₁ hs₁ hle hthis => ?_
    obtain ⟨hthis, fr', hfr', -, htype⟩ := hthis
    rw [hfr, Option.some.injEq] at hfr'
    subst hfr'
    exact .some hs₁ (thisField_fits hs₁.formed hthis htype (hf.mono hle) _)
  · rename_i ms
    refine (thisExpr_yields hs id.span).bindSome rfl fun this s₁ hs₁ hle hthis => ?_
    refine (calleeOfMethods_yields hs₁ hthis.1 (fun m hm => (hres m hm).mono hle.grows) id false
      id.span).bind fun callee? s₂ hs₂ _ hcallee => ?_
    exact applyBare_yields hs₂ hcallee _
  · rename_i x xs
    obtain ⟨sym, hsym, hfits⟩ := hres.symbols x List.mem_cons_self
    refine .read rfl ?_
    rw [hs.scopes, hsym, Option.getD_some]
    split
    · rename_i hkind
      exact .some hs
        (.const (hfits.within.type (hfits.typed (by simp [hkind]) (by simp [hkind]))))
    · exact .some hs (storage_fits hfits (.inl ‹_›) _)
    · exact .some hs (storage_fits hfits (.inr ‹_›) _)
    · exact fail_yields hs _ _ _
    · exact fail_yields hs _ _ _
    · exact fail_yields hs _ _ _
    · refine .read rfl ?_
      split
      · refine routineValue_yields hs hres (hres.routines hsym ?_) id want
        have hfree := hfits.free
        cases hk : sym.kind <;> simp_all [SymbolKind.isRoutine]
      · refine (calleeOfSymbols_yields hs hres id).bind fun callee? s₁ hs₁ _ hcallee => ?_
        exact applyBare_yields hs₁ hcallee _

theorem resolveIn_yields (hs : Fits E s) (unit name : String) :
    ∃ res, (resolveIn unit name).run s = .ok (res, s) ∧ ResolutionFits E s res := by
  unfold resolveIn
  rw [StateT.run_bind, show (scopeOfUnit? unit).run s = .ok (s.unitScopes.lookup unit, s) from rfl]
  cases hunit : s.unitScopes.lookup unit with
  | none => exact ⟨_, rfl, trivial⟩
  | some scope =>
    exact ⟨_, rfl, ofSymbols_fits (lookupLocal_fits hs (opens_of_lookup hs hunit) name)⟩

theorem exportValue_yields (hs : Fits E s) (unit : String) (name : Tree.Ident) (want : TypeId) :
    Yields E s (exportValue unit name want) (IfSome (Expr.Fits E)) := by
  obtain ⟨res, hrun, hres⟩ := resolveIn_yields hs unit name.name
  unfold exportValue
  refine .read hrun ?_
  split
  · exact fail_yields hs _ _ _
  · exact nameValue_yields hs hres name want

theorem memberValue_yields {object : Expr} (hs : Fits E s) (hobject : object.Fits E s.types)
    (name : Tree.Ident) (span : Span) :
    Yields E s (memberValue object name span) (IfSome (Expr.Fits E)) := by
  unfold memberValue
  refine .read rfl ?_
  split
  · exact fail_yields hs _ _ _
  · rename_i c hc
    have hclass := isClass_of_classOf? hs.formed hobject.within hc
    split
    · rename_i f _ hf
      exact .some hs (fieldOf_fits hobject hc (hs.table.lookupField? hs.formed hclass hf)
        (fun _ h => h) span)
    · exact fail_yields hs _ _ _
    · refine (calleeOfMethods_yields hs hobject (hs.table.lookupMethods hs.formed hclass _) name
        false span).bind fun callee? s₁ hs₁ _ hcallee => ?_
      exact applyBare_yields hs₁ hcallee _

theorem calleeOfMember_yields {object : Expr} (hs : Fits E s) (hobject : object.Fits E s.types)
    (name : Tree.Ident) (memberSpan : Span) (count : Nat) (span : Span) :
    Yields E s (calleeOfMember object name memberSpan count span) (IfSome (CalleeFits E)) := by
  unfold calleeOfMember
  refine .read rfl ?_
  split
  · exact fail_yields hs _ _ _
  · rename_i c hc
    have hclass := isClass_of_classOf? hs.formed hobject.within hc
    split
    · rename_i f _ hf
      exact calleeOfValue_yields hs (fieldOf_fits hobject hc
        (hs.table.lookupField? hs.formed hclass hf) (fun _ h => h) _) _ _
    · exact fail_yields hs _ _ _
    · exact calleeOfMethods_yields hs hobject (hs.table.lookupMethods hs.formed hclass _) name
        false span

theorem calleeOfName_yields (hs : Fits E s) (id : Tree.Ident) (count : Nat) (span : Span) :
    Yields E s (calleeOfName id count span) (IfSome (CalleeFits E)) := by
  have hres := resolve_fits hs id.name
  unfold calleeOfName
  refine .read rfl ?_
  generalize Resolution.walk s id.name (s.scopes.scopes.size + 1) s.scope = res at hres ⊢
  split
  · exact fail_yields hs _ _ _
  · rename_i ms
    refine (thisExpr_yields hs id.span).bindSome rfl fun this s₁ hs₁ hle hthis => ?_
    exact calleeOfMethods_yields hs₁ hthis.1 (fun m hm => (hres m hm).mono hle.grows) id false span
  · rename_i f
    obtain ⟨fr, hfr, howner, hf⟩ := hres
    refine (thisExpr_yields hs id.span).bindSome rfl fun this s₁ hs₁ hle hthis => ?_
    obtain ⟨hthis, fr', hfr', -, htype⟩ := hthis
    rw [hfr, Option.some.injEq] at hfr'
    subst hfr'
    exact calleeOfValue_yields hs₁ (thisField_fits hs₁.formed hthis htype (hf.mono hle) _) _ _
  · exact calleeOfResolved_yields hs hres id count span

theorem calleeOfExport_yields (hs : Fits E s) (unit : String) (name : Tree.Ident) (count : Nat)
    (span : Span) : Yields E s (calleeOfExport unit name count span) (IfSome (CalleeFits E)) := by
  obtain ⟨res, hrun, hres⟩ := resolveIn_yields hs unit name.name
  unfold calleeOfExport
  refine .read hrun ?_
  split
  · exact calleeOfResolved_yields hs hres name count span
  · exact fail_yields hs _ _ _

theorem addressOf_yields (hs : Fits E s) (target : Tree.Expr) (span : Span) (want : TypeId) :
    Yields E s (addressOf target span want) (IfSome (Expr.Fits E)) := by
  unfold addressOf
  refine .read rfl ?_
  extract_lets want' value
  have hvalue : ∀ res id, ResolutionFits E s res →
      Yields E s (value res id) (IfSome (Expr.Fits E)) := by
    intro res id hres
    simp only [value]
    split
    · exact fail_yields hs _ _ _
    · rename_i x xs
      obtain ⟨sym, hsym, hfits⟩ := hres.symbols x List.mem_cons_self
      refine .read rfl ?_
      rw [hs.scopes, hsym, Option.getD_some]
      split
      · rename_i hkind
        rw [Bool.and_eq_true] at hkind
        exact routineValue_yields hs hres (hres.routines hsym hkind.1) id want'
      · exact fail_yields hs _ _ _
    · exact fail_yields hs _ _ _
  split
  · exact .read rfl (hvalue _ _ (resolve_fits hs _))
  · rename_i x id _
    refine .look (unitNamed?_reads x) fun unit? _ => ?_
    cases unit? with
    | none => exact fail_yields hs _ _ _
    | some unit =>
      obtain ⟨res, hrun, hres⟩ := resolveIn_yields hs unit id.name
      exact .read hrun (hvalue _ _ hres)
  · exact fail_yields hs _ _ _

/-! ## Operators -/

theorem mkUnary_fits {e : Expr} (op : UnaryOp) (he : e.Fits E t) (span : Span) :
    (mkUnary op e span).Fits E t := by
  unfold mkUnary
  split
  · exact .const he.within
  · exact .unary he he.within

theorem unaryExpr_yields {x : Expr} (hs : Fits E s) (hx : x.Fits E s.types) (op : Tree.UnaryOp)
    (span : Span) : Yields E s (unaryExpr op x span) (IfSome (Expr.Fits E)) := by
  unfold unaryExpr
  refine .read rfl ?_
  extract_lets k
  split
  all_goals split
  · exact .some hs hx
  · exact .read rfl (fail_yields hs _ _ _)
  · exact .some hs (mkUnary_fits _ hx span)
  · exact .read rfl (fail_yields hs _ _ _)
  · exact .some hs (mkUnary_fits _ hx span)
  · exact .read rfl (fail_yields hs _ _ _)

theorem mkBinary_fits {l r : Expr} {result : TypeId} (op : BinaryOp) (hl : l.Fits E t)
    (hr : r.Fits E t) (hresult : t.Within E.known result) (span : Span) :
    (mkBinary op l r result span).Fits E t := by
  unfold mkBinary
  split
  · split
    · exact .const hresult
    · exact .binary hl hr hresult
  · exact .binary hl hr hresult

theorem typeBinary_fits {op : BinaryOp} {l r l' r' : Expr} {result : TypeId} (ht : t.Formed)
    (hl : l.Fits E t) (hr : r.Fits E t) (h : typeBinary t op l r = some (l', r', result)) :
    l'.Fits E t ∧ r'.Fits E t ∧ t.Within E.known result := by
  have hboolean := ht.within_boolean (S := E.known)
  have hinteger := ht.within_integer (S := E.known)
  unfold typeBinary at h
  dsimp only at h
  -- the operands enter the operator as they are, as reals or as texts
  cases op <;> dsimp only at h
  all_goals (repeat' split at h) <;> cases h
  all_goals first
    | exact ⟨hl, hr, hinteger⟩
    | exact ⟨hl, hr, hboolean⟩
    | exact ⟨toReal_fits ht hl, toReal_fits ht hr, ht.within_real⟩
    | exact ⟨toReal_fits ht hl, toReal_fits ht hr, hboolean⟩
    | exact ⟨charToString_fits ht hl, charToString_fits ht hr, ht.within_string⟩
    | exact ⟨charToString_fits ht hl, charToString_fits ht hr, hboolean⟩

end Bind

end Pascaline.Bound
