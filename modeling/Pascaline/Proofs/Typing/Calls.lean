import Pascaline.Proofs.Binding.Overloads
import Pascaline.Proofs.Typing.Trees

/-!
# Typed names and calls

What the names and calls in an expression are bound to has its type, in a program without classes.
-/

namespace Pascaline.Bound

open TypeTable

/-! ## Environments with types -/

/-- What names may stand for, and which signature each routine has. -/
structure Setting extends Env where
  sign : RoutineRef → Signature → Prop

/-- What code that is bound in the setting can refer to. -/
def Setting.world (G : Setting) (t : TypeTable) : World := ⟨t, G.sign, G.holds⟩

/-- What the symbol stands for has the type of the symbol. There are no members. -/
def SymbolTyped (sign : RoutineRef → Signature → Prop) (t : TypeTable) (sym : Symbol) : Prop :=
  match sym.kind with
  | .const => t.Has .none sym.type sym.const
  | .var | .param | .type => t.Storable sym.type
  | .procedure | .function =>
    t.shape? sym.type = some (.routine sym.sig) ∧ sign ⟨sym.module, sym.routine⟩ sym.sig
  | .native | .unit => True
  | .field | .method | .classRef | .invalid => False

/-- The symbols and the slots of the setting have types of the table. -/
structure Setting.Settled (G : Setting) (t : TypeTable) : Prop where
  plain : t.Plain
  symbols : ∀ x sym, G.scopes.symbol? x = some sym → SymbolTyped G.sign t sym
  slots : ∀ n a, G.slot n a → t.Storable a

/-- The session agrees with the setting. -/
structure Typable (G : Setting) (s : Session) : Prop extends Fits G.toEnv s, G.Settled s.types

variable {G : Setting} {s : Session} {t t' : TypeTable} {α β : Type} {P Q : TypeTable → α → Prop}
  {sign sign' : RoutineRef → Signature → Prop} {sym : Symbol} {e e' x : Expr} {a b : TypeId}

theorem SymbolTyped.mono (h : SymbolTyped sign t sym) (hle : t.Grows t')
    (hsign : ∀ ref sig, sign ref sig → sign' ref sig) : SymbolTyped sign' t' sym := by
  unfold SymbolTyped at h ⊢
  split <;> simp only [*] at h ⊢
  · exact h.mono hle (.refl _)
  · exact h.mono hle
  · exact h.mono hle
  · exact h.mono hle
  · exact ⟨hle.shape? h.1, hsign _ _ h.2⟩
  · exact ⟨hle.shape? h.1, hsign _ _ h.2⟩

theorem SymbolTyped.of_isRoutine (h : SymbolTyped sign t sym) (hkind : sym.kind.isRoutine)
    (hnative : sym.kind ≠ .native) :
    t.shape? sym.type = some (.routine sym.sig) ∧ sign ⟨sym.module, sym.routine⟩ sym.sig := by
  unfold SymbolTyped at h
  cases hk : sym.kind <;> simp_all [SymbolKind.isRoutine]

theorem Setting.Settled.mono (h : G.Settled t) (hle : t.Grows t') (ht' : t'.Plain) : G.Settled t' :=
  ⟨ht', fun x sym hx => (h.symbols x sym hx).mono hle fun _ _ hr => hr,
    fun n a hn => (h.slots n a hn).mono hle⟩

/-- The expression denotes values of its type. -/
def Setting.Types (G : Setting) (t : TypeTable) (e : Expr) : Prop := e.Typed (G.world t) G.slot

theorem Setting.Types.widen (h : G.Types t e) (hle : t.Widens t') : G.Types t' e :=
  Expr.Typed.mono h (World.le_of_grows hle.grows _ _) fun _ _ h => h

/-! ## Actions -/

/-- After the action the session agrees with the setting as before, it has entered types at most,
and `Q` holds of its result. -/
def Binds (G : Setting) (s : Session) (x : Bind α) (Q : TypeTable → α → Prop) : Prop :=
  Yields G.toEnv s x fun t a => t.Plain ∧ Q t a

theorem Typable.next {s₁ : Session} (hs : Typable G s) (hs₁ : Fits G.toEnv s₁)
    (hle : s.types.Widens s₁.types) (ht : s₁.types.Plain) : Typable G s₁ :=
  ⟨hs₁, hs.toSettled.mono hle.grows ht⟩

namespace Binds

theorem pure {a : α} (hs : Typable G s) (ha : Q s.types a) : Binds G s (pure a) Q :=
  Yields.pure hs.toFits ⟨hs.plain, ha⟩

theorem none (hs : Typable G s) : Binds G s (Pure.pure none) (IfSome Q) :=
  pure hs fun _ h => by cases h

theorem some {a : α} (hs : Typable G s) (ha : Q s.types a) :
    Binds G s (Pure.pure (Option.some a)) (IfSome Q) :=
  pure hs fun b h => by
    cases h
    exact ha

theorem bind {x : Bind β} {f : β → Bind α} {P : TypeTable → β → Prop} (hs : Typable G s)
    (hx : Binds G s x P)
    (hf : ∀ b s₁, Typable G s₁ → s.types.Widens s₁.types → P s₁.types b → Binds G s₁ (f b) Q) :
    Binds G s (x >>= f) Q :=
  Yields.bind hx fun b s₁ hs₁ hle hb => hf b s₁ (hs.next hs₁ hle hb.1) hle hb.2

theorem bindSome {x : Bind (Option β)} {f : Option β → Bind (Option α)} {P : TypeTable → β → Prop}
    (hs : Typable G s) (hx : Binds G s x (IfSome P)) (hnone : f .none = Pure.pure .none)
    (hf : ∀ b s₁, Typable G s₁ → s.types.Widens s₁.types → P s₁.types b →
      Binds G s₁ (f (.some b)) (IfSome Q)) : Binds G s (x >>= f) (IfSome Q) := by
  refine bind hs hx fun b? s₁ hs₁ hle hb => ?_
  cases b? with
  | none =>
    rw [hnone]
    exact none hs₁
  | some b => exact hf b s₁ hs₁ hle (hb b rfl)

theorem read {x : Bind β} {f : β → Bind α} {b : β} (hx : x.run s = .ok (b, s))
    (hf : Binds G s (f b) Q) : Binds G s (x >>= f) Q :=
  Yields.read hx hf

theorem look {x : Bind β} {f : β → Bind α} (hx : Reads x)
    (hf : ∀ b, x.run s = .ok (b, s) → Binds G s (f b) Q) : Binds G s (x >>= f) Q :=
  Yields.look hx hf

theorem imp {x : Bind α} (hx : Binds G s x P) (h : ∀ t a, t.Plain → P t a → Q t a) :
    Binds G s x Q :=
  Yields.imp hx fun t a ha => ⟨ha.1, h t a ha.1 ha.2⟩

end Binds

namespace Bind

theorem report_binds (hs : Typable G s) (e : BindError) (span : Span) (notes : List Note) :
    Binds G s (report e span notes) fun _ _ => True := by
  intro a s' h
  obtain ⟨hs', hle, -⟩ := report_yields hs.toFits e span notes a s' h
  cases h
  exact ⟨hs', hle, hs.plain, trivial⟩

theorem fail_binds (hs : Typable G s) (e : BindError) (span : Span) (notes : List Note) :
    Binds G s (fail e span notes) (IfSome Q) :=
  (report_binds hs e span notes).bind hs fun _ _ hs _ _ => .none hs

theorem intern_binds {f : TypeTable → TypeId × TypeTable} {shape : TypeShape} (hs : Typable G s)
    (hshape : shape.Regular s.types) (hf : f s.types = s.types.intern shape) :
    Binds G s (intern f) fun t id => t.shape? id = some shape := by
  obtain ⟨hplain, h⟩ := hs.plain.intern hshape
  rw [← hf] at hplain h
  intro id s' hrun
  cases hrun
  exact ⟨hs.toFits.widen hplain.toFormed h.widens, h.widens, hplain, h.shape⟩

/-! ## Coercions -/

/-- The expression has its type, and fits a place of another type as it is. -/
def FitsPlace (G : Setting) (a : TypeId) (t : TypeTable) (e : Expr) : Prop :=
  G.Types t e ∧ t.Fits e.type a

theorem coerce_binds {e? : Option Expr} (hs : Typable G s) (he : IfSome G.Types s.types e?)
    (ha : s.types.Storable a) (span : Span) :
    Binds G s (coerce e? a span) (IfSome (FitsPlace G a)) := by
  unfold coerce
  split
  · exact .none hs
  · rename_i e
    refine .read rfl ?_
    split
    · rename_i e' hcoerce
      exact .some hs (coerce_typed (W := G.world s.types) hs.plain (he e rfl) ha hcoerce)
    · exact fail_binds hs _ _ _

/-- The expression has its type, and it is no call of a procedure. -/
def IsOperand (G : Setting) (t : TypeTable) (e : Expr) : Prop := G.Types t e ∧ e.type ≠ void

theorem IsOperand.widen (h : IsOperand G t e) (hle : t.Widens t') : IsOperand G t' e :=
  ⟨h.1.widen hle, h.2⟩

theorem asOperand_binds {e? : Option Expr} (hs : Typable G s) (he : IfSome G.Types s.types e?)
    (span : Span) : Binds G s (asOperand e? span) (IfSome (IsOperand G)) := by
  unfold asOperand
  split
  · split
    · exact fail_binds hs _ _ _
    · rename_i e hvoid
      exact .some hs ⟨he e rfl, hvoid⟩
  · exact .none hs

theorem asConstant_binds {e? : Option Expr} (hs : Typable G s) (he : IfSome G.Types s.types e?)
    (span : Span) :
    Binds G s (asConstant e? span) (IfSome fun t e => G.Types t e ∧ e.const?.isSome) := by
  unfold asConstant
  split
  · split
    · rename_i e hconst
      exact .some hs ⟨he e rfl, hconst⟩
    · exact fail_binds hs _ _ _
  · exact .none hs

theorem Typable.constant (hs : Typable G s) (b : Bool) : Typable G { s with inConst := b } :=
  ⟨hs.toFits.constant b, hs.toSettled⟩

theorem constantly_binds {x : Bind α} (hx : Binds G { s with inConst := true } x Q) :
    Binds G s (constantly x) Q :=
  constantly_yields hx

end Bind

/-! ## Names -/

theorem chainFrom_of_plain (ht : t.Plain) (fuel : Nat) (id : TypeId) : t.chainFrom fuel id = [] := by
  cases fuel with
  | zero => rfl
  | succ fuel => rw [chainFrom, ht.classInfo?_eq_none]

theorem lookupField?_of_plain (ht : t.Plain) (id : TypeId) (name : String) :
    t.lookupField? id name = none := by
  rw [TypeTable.lookupField?, chain, chainFrom_of_plain ht]
  rfl

theorem lookupMethods_of_plain (ht : t.Plain) (id : TypeId) (name : String) :
    t.lookupMethods id name = [] := by
  rw [TypeTable.lookupMethods, chain, chainFrom_of_plain ht]
  rfl

/-- No name denotes a member. -/
def ResolutionTyped (G : Setting) (t : TypeTable) : Resolution → Prop
  | .nothing => True
  | .symbols x xs => NamesFit G.toEnv t (x :: xs)
  | .field _ | .methods _ => False

theorem walk_typed (hs : Typable G s) (name : String) {fuel : Nat} {id : ScopeId}
    (hid : G.opens id) : ResolutionTyped G s.types (Resolution.walk s name fuel id) := by
  induction fuel generalizing id with
  | zero => trivial
  | succ fuel ih =>
    rw [Resolution.walk]
    split
    · trivial
    · rename_i scope hscope
      rw [hs.scopes] at hscope
      have houtward := ih (hs.parents id scope hid hscope)
      have hnames := hs.names id scope name hid hscope
      dsimp only
      split
      · rename_i x xs hfind
        rw [hfind] at hnames
        exact hnames
      · split
        · rw [lookupField?_of_plain hs.plain, lookupMethods_of_plain hs.plain]
          simpa using houtward
        · exact houtward

theorem resolve_typed (hs : Typable G s) (name : String) :
    ResolutionTyped G s.types (Resolution.walk s name (s.scopes.scopes.size + 1) s.scope) :=
  walk_typed hs name hs.scope

theorem ofSymbols_typed {ids : List SymbolId} (h : NamesFit G.toEnv t ids) :
    ResolutionTyped G t (Resolution.ofSymbols ids) := by
  cases ids with
  | nil => trivial
  | cons x xs => exact h

/-! ## Calls -/

/-- A routine that a call may mean has the signature that the call goes by. -/
def CandidateTyped (G : Setting) (t : TypeTable) (c : Candidate) : Prop :=
  match c.target with
  | .routine x => ∃ sym, G.scopes.symbol? x = some sym ∧ c.sig = sym.sig ∧
      t.shape? sym.type = some (.routine sym.sig) ∧ G.sign ⟨sym.module, sym.routine⟩ sym.sig
  | .method _ => False
  | .native _ => True

/-- A routine value that is called takes as many arguments as it gets. -/
def CalleeTyped (G : Setting) (count : Nat) (t : TypeTable) : Bind.Callee → Prop
  | .overloads cands _ => ∀ c ∈ cands, CandidateTyped G t c
  | .value f sig =>
    G.Types t f ∧ t.shape? f.type = some (.routine sig) ∧ sig.params.length = count
  | .methods .. | .inherited _ => False

theorem CandidateTyped.mono {c : Candidate} (h : CandidateTyped G t c) (hle : t.Grows t') :
    CandidateTyped G t' c := by
  unfold CandidateTyped at h ⊢
  split at h
  · obtain ⟨sym, hsym, hsig, htype, href⟩ := h
    exact ⟨sym, hsym, hsig, hle.shape? htype, href⟩
  · exact h.elim
  · trivial

theorem CalleeTyped.mono {count : Nat} {c : Bind.Callee} (h : CalleeTyped G count t c)
    (hle : t.Widens t') : CalleeTyped G count t' c := by
  cases c with
  | overloads cands id => exact fun c hc => (h c hc).mono hle.grows
  | value f sig => exact ⟨h.1.widen hle, hle.grows.shape? h.2.1, h.2.2⟩
  | methods | inherited => exact h.elim

theorem fitArgs_typed (ht : t.Plain) {args : List Expr} {params : List TypeId}
    (hargs : ∀ e ∈ args, G.Types t e) (hparams : ∀ p ∈ params, t.Storable p)
    (hfits : List.Forall₂ (fun e p => accepts t e p ≠ .incompatible) args params) :
    (∀ e ∈ Bind.fitArgs t args params, G.Types t e) ∧
      List.Forall₂ (fun (e : Expr) p => t.Fits e.type p) (Bind.fitArgs t args params) params := by
  induction hfits with
  | nil => exact ⟨by simp [Bind.fitArgs], .nil⟩
  | @cons e p args params he _ ih =>
    obtain ⟨hall, hpass⟩ := ih (fun e he => hargs e (List.mem_cons_of_mem _ he))
      fun p hp => hparams p (List.mem_cons_of_mem _ hp)
    obtain ⟨e', hcoerce⟩ := coerce_eq_ok_iff.mpr (.inr he)
    obtain ⟨htyped, hfit⟩ := coerce_typed (W := G.world t) ht (hargs e List.mem_cons_self)
      (hparams p List.mem_cons_self) hcoerce
    have hcons : Bind.fitArgs t (e :: args) (p :: params) = e' :: Bind.fitArgs t args params := by
      simp [Bind.fitArgs, hcoerce]
    rw [hcons]
    exact ⟨List.forall_mem_cons.mpr ⟨htyped, hall⟩, .cons hfit hpass⟩

namespace Bind

theorem literal_binds (hs : Typable G s) (kind : Tree.LitKind) (text : Bytes) (span : Span) :
    Binds G s (literal kind text span) (IfSome G.Types) := by
  have ht := hs.plain.toSound
  have hconst : ∀ {v : Value} {a : TypeId}, s.types.Has .none a v →
      G.Types s.types (.const v a span) := fun hv => .const hv
  unfold literal
  extract_lets const
  cases kind with
  | int =>
    dsimp only
    split
    · exact .some hs (hconst (ht.has_integer.mpr ⟨_, rfl⟩))
    · exact fail_binds hs _ _ _
  | real =>
    dsimp only
    split
    · exact .some hs (hconst (ht.has_real.mpr ⟨_, rfl⟩))
    · exact fail_binds hs _ _ _
  | string => exact .some hs (hconst (ht.has_string.mpr ⟨_, rfl⟩))
  | char =>
    dsimp only
    split
    · exact .some hs (hconst (ht.has_char.mpr ⟨_, rfl⟩))
    · exact .some hs (hconst (ht.has_string.mpr ⟨_, rfl⟩))
  | bool => exact .some hs (hconst (ht.has_ofBool _))
  | nil => exact .some hs (hconst ((has_iff ht.shape?_nil).mpr (.nil rfl)))

theorem storage_typed {id : SymbolId} (hfits : SymbolFits G.toEnv t sym)
    (htyped : SymbolTyped G.sign t sym) (hkind : sym.kind = .var ∨ sym.kind = .param)
    (span : Span) : G.Types t (storage id sym span) := by
  have htype : t.Storable sym.type := by
    unfold SymbolTyped at htyped
    rcases hkind with hkind | hkind <;> simpa only [hkind] using htyped
  have hplace := hfits.place hkind
  unfold storage
  split
  · rename_i hglobal
    rw [if_pos hglobal] at hplace
    exact .unitVar hplace htype
  · rename_i hglobal
    rw [if_neg hglobal] at hplace
    exact .frameVar hplace htype

theorem routineValue_binds (hs : Typable G s) {ids : List SymbolId}
    (hids : NamesFit G.toEnv s.types ids) (hroutines : ∀ x ∈ ids, G.scopes.isRoutine x)
    (id : Tree.Ident) (want : TypeId) :
    Binds G s (routineValue ids id want) (IfSome G.Types) := by
  unfold routineValue
  refine .read (mapM_run (fun _ => rfl) ids) ?_
  extract_lets own
  split
  · rename_i sym _ hfind
    obtain ⟨hmem, hnative⟩ := List.mem_filter.mp (List.mem_of_find?_eq_some hfind)
    obtain ⟨x, hx, rfl⟩ := List.mem_map.mp hmem
    obtain ⟨sym, hsym, -⟩ := hids.symbols x hx
    have hkind := hroutines x hx
    rw [hs.scopes, hsym] at hnative ⊢
    simp only [ScopeTable.isRoutine, hsym, Option.any_some] at hkind
    simp only [Option.getD_some, bne_iff_ne, ne_eq] at hnative ⊢
    obtain ⟨htype, href⟩ := (hs.symbols x sym hsym).of_isRoutine hkind hnative
    exact .some hs (.routine href htype)
  · refine .read rfl ?_
    refine .read rfl ?_
    exact fail_binds hs _ _ _
  · exact fail_binds hs _ _ _

theorem calleeOfSymbols_binds (hs : Typable G s) {ids : List SymbolId}
    (hids : NamesFit G.toEnv s.types ids) (id : Tree.Ident) (count : Nat) :
    Binds G s (calleeOfSymbols ids id) (IfSome (CalleeTyped G count)) := by
  unfold calleeOfSymbols
  refine .read (mapM_run (fun _ => rfl) ids) ?_
  extract_lets cands
  split
  · exact fail_binds hs _ _ _
  · refine .some hs ?_
    intro c hc
    obtain ⟨⟨x, sym⟩, hxs, hcand⟩ := List.mem_filterMap.mp hc
    obtain ⟨y, hy, heq⟩ := List.mem_map.mp hxs
    obtain ⟨sym', hsym, -⟩ := hids.symbols y hy
    rw [hs.scopes, hsym] at heq
    cases heq
    simp only [Option.getD_some] at hcand
    split at hcand
    · obtain ⟨n, -, rfl⟩ := Option.map_eq_some_iff.mp hcand
      trivial
    · rename_i hnative
      split at hcand
      · rename_i hkind
        cases hcand
        exact ⟨_, hsym, rfl, (hs.symbols _ _ hsym).of_isRoutine hkind hnative⟩
      · cases hcand

theorem calleeOfValue_binds {f : Expr} (hs : Typable G s) (hf : G.Types s.types f) (count : Nat)
    (span : Span) : Binds G s (calleeOfValue f count span) (IfSome (CalleeTyped G count)) := by
  unfold calleeOfValue
  refine .read rfl ?_
  split
  · exact .read rfl (fail_binds hs _ _ _)
  · rename_i sig hsig
    split
    · exact .read rfl (fail_binds hs _ _ _)
    · rename_i hcount
      refine .read rfl ?_
      split
      · exact fail_binds hs _ _ _
      · exact .some hs ⟨hf, signature?_eq_some.mp hsig, not_not.mp hcount⟩

theorem calleeOfResolved_binds {x : SymbolId} {xs : List SymbolId} (hs : Typable G s)
    (hids : NamesFit G.toEnv s.types (x :: xs)) (id : Tree.Ident) (count : Nat) (span : Span) :
    Binds G s (calleeOfResolved x xs id count span) (IfSome (CalleeTyped G count)) := by
  obtain ⟨sym, hsym, hfits⟩ := hids.symbols x List.mem_cons_self
  have htyped := hs.symbols x sym hsym
  unfold calleeOfResolved
  refine .read rfl ?_
  rw [hs.scopes, hsym, Option.getD_some]
  split
  · exact calleeOfValue_binds hs (storage_typed hfits htyped (.inl ‹_›) _) _ _
  · exact calleeOfValue_binds hs (storage_typed hfits htyped (.inr ‹_›) _) _ _
  · rename_i hkind
    unfold SymbolTyped at htyped
    simp only [hkind] at htyped
    exact calleeOfValue_binds hs (.const htyped) _ _
  · exact fail_binds hs _ _ _
  · exact fail_binds hs _ _ _
  · exact fail_binds hs _ _ _
  · exact calleeOfSymbols_binds hs hids id count

theorem thisExpr_binds (hs : Typable G s) (span : Span) :
    Binds G s (thisExpr span) (IfSome fun _ _ => False) := by
  unfold thisExpr
  refine .read rfl ?_
  split
  · rename_i f hf
    split
    · exact fail_binds hs _ _ _
    · rename_i howner
      obtain ⟨⟨key, hkey, -⟩, -⟩ := (hs.frame f hf).owner howner
      obtain ⟨c, hc, -⟩ := keyOf?_eq_some.mp hkey
      rw [hs.plain.classInfo?_eq_none] at hc
      cases hc
  · exact fail_binds hs _ _ _

theorem calleeOfBase_binds (hs : Typable G s) (baseSpan : Span) (name : Tree.Ident) (span : Span)
    (count : Nat) : Binds G s (calleeOfBase baseSpan name span) (IfSome (CalleeTyped G count)) := by
  unfold calleeOfBase
  exact (thisExpr_binds hs baseSpan).bindSome hs rfl fun _ _ _ _ h => h.elim

theorem chooseOverload_binds (hs : Typable G s) (cands : List Candidate) (args : List Expr)
    (name : String) (span : Span) :
    Binds G s (chooseOverload cands args name span)
      (IfSome fun t c => c ∈ cands ∧ c.Applies t args) := by
  unfold chooseOverload
  refine .read rfl ?_
  split
  · rename_i c hc
    exact .some hs ⟨(choose?_mem hc).1, Candidate.applies_of_choose? hc⟩
  · refine .look (.filterMapM (fun c => ?_) cands) fun notes _ => fail_binds hs _ _ _
    split
    · exact .bind (fun s => ⟨_, rfl⟩) fun _ => .pure _
    · exact .pure _
    · exact .pure _

theorem constants_typed {args : List Expr} (hargs : ∀ e ∈ args, G.Types t e) {vs : List Value}
    (hvs : args.mapM (·.const?) = some vs) :
    List.Forall₂ (t.Has .none) (args.map (·.type)) vs := by
  induction args generalizing vs with
  | nil =>
    cases hvs
    exact .nil
  | cons e args ih =>
    simp only [List.mapM_cons, Option.bind_eq_bind, Option.bind_eq_some_iff] at hvs
    obtain ⟨v, hv, vs', hvs', h⟩ := hvs
    cases h
    exact .cons (const?_typed (hargs e List.mem_cons_self) hv)
      (ih (fun e he => hargs e (List.mem_cons_of_mem _ he)) hvs')

theorem native_constants (ht : t.Plain) {n : Native} {args : List Expr}
    (hargs : ∀ e ∈ args, G.Types t e) (hn : n.Accepts t (args.map (·.type)))
    (hpure : n.isPure = true) {vs : List Value} (hvs : args.mapM (·.const?) = some vs)
    {r : NativeReturn} (hr : n.call {} vs = .ok r) : t.Has .none (nativeResult n args) r.value := by
  rw [nativeResult_eq]
  refine Native.call_has ht.toSound hn ?_ hr ?_
  · exact constants_typed hargs hvs
  · intro hvoid
    cases n <;> first | exact absurd hpure (by decide) | exact absurd hvoid (by decide)

theorem nativeCall_binds {n : Native} {args : List Expr} (hs : Typable G s)
    (hargs : ∀ e ∈ args, G.Types s.types e) (hn : n.Accepts s.types (args.map (·.type)))
    (span : Span) : Binds G s (nativeCall n args span) (IfSome G.Types) := by
  unfold nativeCall
  extract_lets result call
  have hcall : Binds G s call (IfSome G.Types) := by
    refine .read rfl ?_
    split
    · exact fail_binds hs _ _ _
    · refine .some hs ?_
      simp only [result, nativeResult_eq]
      exact .callNative hargs hn
  split
  · rename_i vs hpure hvs
    split
    · exact .some hs (.const (native_constants hs.plain hargs hn hpure hvs ‹_›))
    · intro a s' h
      cases h
    · exact hcall
  · exact hcall

theorem apply_binds {callee : Callee} {args : List Expr} (hs : Typable G s)
    (hcallee : CalleeTyped G args.length s.types callee) (hargs : ∀ e ∈ args, G.Types s.types e)
    (hvalue : ∀ f sig, callee = .value f sig → Passes s.types args sig)
    (span : Span) : Binds G s (callee.apply args span) (IfSome G.Types) := by
  unfold Callee.apply
  split
  · rename_i cands id
    refine (chooseOverload_binds hs cands args id.text span).bindSome hs rfl
      fun c s₁ hs₁ hle hc => ?_
    obtain ⟨hmem, happlies⟩ := hc
    have hcand := CandidateTyped.mono (hcallee c hmem) hle.grows
    have hargs₁ : ∀ e ∈ args, G.Types s₁.types e := fun e he => (hargs e he).widen hle
    unfold CandidateTyped at hcand
    unfold Candidate.Applies Candidate.Takes at happlies
    split at hcand
    · rename_i x htarget
      obtain ⟨sym, hsym, hsig, htype, href⟩ := hcand
      simp only [htarget] at happlies ⊢
      refine .read rfl ?_
      rw [hs₁.scopes, hsym, Option.getD_some]
      refine .read rfl ?_
      split
      · exact fail_binds hs₁ _ _ _
      · refine .read rfl ?_
        have hstorable := storable_signature hs₁.plain htype
        rw [hsig] at happlies ⊢
        obtain ⟨hall, hpass⟩ := fitArgs_typed hs₁.plain hargs₁ hstorable.params happlies
        exact .some hs₁ (.call href hstorable hall hpass)
    · exact hcand.elim
    · rename_i n htarget
      simp only [htarget] at happlies ⊢
      refine nativeCall_binds hs₁ hargs₁ ⟨?_, ?_⟩ span
      · rw [List.length_map]
        exact happlies.1
      · intro i a ha
        rw [List.getElem?_map, Option.map_eq_some_iff] at ha
        obtain ⟨e, he, rfl⟩ := ha
        exact happlies.2 e i (List.mem_zipIdx_iff_getElem?.mpr he)
  · exact hcallee.elim
  · rename_i f sig
    exact .some hs (.callValue hcallee.1 hcallee.2.1 hargs (hvalue f sig rfl))
  · exact hcallee.elim

theorem applyBare_binds {callee? : Option Callee} (hs : Typable G s)
    (hcallee : IfSome (CalleeTyped G 0) s.types callee?) (span : Span) :
    Binds G s (applyBare callee? span) (IfSome G.Types) := by
  unfold applyBare
  split
  · rename_i callee
    have hnone : CalleeTyped G ([] : List Expr).length s.types callee := hcallee _ rfl
    refine apply_binds hs hnone (by simp) ?_ span
    rintro f sig rfl
    obtain ⟨-, -, hcount⟩ := hcallee _ rfl
    rw [Passes, List.length_eq_zero_iff.mp hcount]
    exact .nil
  · exact .none hs

/-! ## Values of names -/

theorem nameValue_binds {res : Resolution} (hs : Typable G s)
    (hres : ResolutionTyped G s.types res) (id : Tree.Ident) (want : TypeId) :
    Binds G s (nameValue res id want) (IfSome G.Types) := by
  unfold nameValue
  split
  · exact fail_binds hs _ _ _
  · exact hres.elim
  · exact hres.elim
  · rename_i x xs
    obtain ⟨sym, hsym, hfits⟩ := hres.symbols x List.mem_cons_self
    have htyped := hs.symbols x sym hsym
    refine .read rfl ?_
    rw [hs.scopes, hsym, Option.getD_some]
    split
    · rename_i hkind
      unfold SymbolTyped at htyped
      simp only [hkind] at htyped
      exact .some hs (.const htyped)
    · exact .some hs (storage_typed hfits htyped (.inl ‹_›) _)
    · exact .some hs (storage_typed hfits htyped (.inr ‹_›) _)
    · exact fail_binds hs _ _ _
    · exact fail_binds hs _ _ _
    · exact fail_binds hs _ _ _
    · refine .read rfl ?_
      split
      · refine routineValue_binds hs hres (hres.routines hsym ?_) id want
        have hfree := hfits.free
        cases hk : sym.kind <;> simp_all [SymbolKind.isRoutine]
      · refine (calleeOfSymbols_binds hs hres id 0).bind hs fun callee? s₁ hs₁ _ hcallee => ?_
        exact applyBare_binds hs₁ hcallee _

theorem resolveIn_typed (hs : Typable G s) (unit name : String) :
    ∃ res, (resolveIn unit name).run s = .ok (res, s) ∧ ResolutionTyped G s.types res := by
  unfold resolveIn
  rw [StateT.run_bind, show (scopeOfUnit? unit).run s = .ok (s.unitScopes.lookup unit, s) from rfl]
  cases hunit : s.unitScopes.lookup unit with
  | none => exact ⟨_, rfl, trivial⟩
  | some scope =>
    exact ⟨_, rfl, ofSymbols_typed
      (lookupLocal_fits hs.toFits (opens_of_lookup hs.toFits hunit) name)⟩

theorem exportValue_binds (hs : Typable G s) (unit : String) (name : Tree.Ident) (want : TypeId) :
    Binds G s (exportValue unit name want) (IfSome G.Types) := by
  obtain ⟨res, hrun, hres⟩ := resolveIn_typed hs unit name.name
  unfold exportValue
  refine .read hrun ?_
  split
  · exact fail_binds hs _ _ _
  · exact nameValue_binds hs hres name want

theorem memberValue_binds (hs : Typable G s) (object : Expr) (name : Tree.Ident) (span : Span) :
    Binds G s (memberValue object name span) (IfSome G.Types) := by
  unfold memberValue
  refine .read rfl ?_
  rw [hs.plain.classOf?_eq_none]
  exact fail_binds hs _ _ _

theorem calleeOfMember_binds (hs : Typable G s) (object : Expr) (name : Tree.Ident)
    (memberSpan : Span) (count : Nat) (span : Span) :
    Binds G s (calleeOfMember object name memberSpan count span)
      (IfSome (CalleeTyped G count)) := by
  unfold calleeOfMember
  refine .read rfl ?_
  rw [hs.plain.classOf?_eq_none]
  exact fail_binds hs _ _ _

theorem calleeOfName_binds (hs : Typable G s) (id : Tree.Ident) (count : Nat) (span : Span) :
    Binds G s (calleeOfName id count span) (IfSome (CalleeTyped G count)) := by
  have hres := resolve_typed hs id.name
  unfold calleeOfName
  refine .read rfl ?_
  generalize Resolution.walk s id.name (s.scopes.scopes.size + 1) s.scope = res at hres ⊢
  split
  · exact fail_binds hs _ _ _
  · exact hres.elim
  · exact hres.elim
  · exact calleeOfResolved_binds hs hres id count span

theorem calleeOfExport_binds (hs : Typable G s) (unit : String) (name : Tree.Ident) (count : Nat)
    (span : Span) :
    Binds G s (calleeOfExport unit name count span) (IfSome (CalleeTyped G count)) := by
  obtain ⟨res, hrun, hres⟩ := resolveIn_typed hs unit name.name
  unfold calleeOfExport
  refine .read hrun ?_
  split
  · exact calleeOfResolved_binds hs hres name count span
  · exact fail_binds hs _ _ _

theorem addressOf_binds (hs : Typable G s) (target : Tree.Expr) (span : Span) (want : TypeId) :
    Binds G s (addressOf target span want) (IfSome G.Types) := by
  unfold addressOf
  refine .read rfl ?_
  extract_lets want' value
  have hvalue : ∀ res id, ResolutionTyped G s.types res →
      Binds G s (value res id) (IfSome G.Types) := by
    intro res id hres
    simp only [value]
    split
    · exact fail_binds hs _ _ _
    · rename_i x xs
      obtain ⟨sym, hsym, -⟩ := hres.symbols x List.mem_cons_self
      refine .read rfl ?_
      rw [hs.scopes, hsym, Option.getD_some]
      split
      · rename_i hkind
        rw [Bool.and_eq_true] at hkind
        exact routineValue_binds hs hres (hres.routines hsym hkind.1) id want'
      · exact fail_binds hs _ _ _
    · exact fail_binds hs _ _ _
  split
  · exact .read rfl (hvalue _ _ (resolve_typed hs _))
  · rename_i x id _
    refine .look (unitNamed?_reads x) fun unit? _ => ?_
    cases unit? with
    | none => exact fail_binds hs _ _ _
    | some unit =>
      obtain ⟨res, hrun, hres⟩ := resolveIn_typed hs unit id.name
      exact .read hrun (hvalue _ _ hres)
  · exact fail_binds hs _ _ _

/-! ## Operators -/

theorem unaryExpr_binds {x : Expr} (hs : Typable G s) (hx : G.Types s.types x) (op : Tree.UnaryOp)
    (span : Span) : Binds G s (unaryExpr op x span) (IfSome G.Types) := by
  have ht := hs.plain.toSound
  have hmk : ∀ {op : UnaryOp}, op.Types x.type → G.Types s.types (mkUnary op x span) :=
    fun hop => mkUnary_typed (W := G.world s.types) ht hx hop span
  unfold unaryExpr
  refine .read rfl ?_
  extract_lets k
  split
  · split
    · exact .some hs hx
    · exact .read rfl (fail_binds hs _ _ _)
  · split
    · rename_i hnum
      simp only [TypeKind.isNumeric, Bool.or_eq_true, decide_eq_true_eq] at hnum
      exact .some hs (hmk (hnum.imp ht.eq_integer ht.eq_real))
    · exact .read rfl (fail_binds hs _ _ _)
  · split
    · rename_i hkind
      simp only [Bool.or_eq_true, decide_eq_true_eq] at hkind
      exact .some hs (hmk (hkind.imp ht.eq_boolean ht.eq_integer))
    · exact .read rfl (fail_binds hs _ _ _)

theorem binaryExpr_binds {l r : Expr} (hs : Typable G s) (hl : IsOperand G s.types l)
    (hr : IsOperand G s.types r) (op : BinaryOp) (span : Span) :
    Binds G s (binaryExpr op l r span) (IfSome G.Types) := by
  have ht := hs.plain.toSound
  unfold binaryExpr
  refine .read rfl ?_
  split
  · exact fail_binds hs _ _ _
  · rename_i l' r' result htyped
    obtain ⟨b, c, hops, hb, hc, hop⟩ :=
      typeBinary_typed (W := G.world s.types) ht hl.1 hr.1 hl.2 hr.2 htyped
    refine .some hs (mkBinary_typed (W := G.world s.types) ht hops.left hops.right ?_ ?_ ?_ span)
    · exact hops.leftType ▸ hb
    · exact hops.rightType ▸ hc
    · rw [hops.leftType, hops.rightType]
      simpa only [joinOp, decide_eq_true_eq, Bool.and_eq_true] using hop

end Bind

end Pascaline.Bound
