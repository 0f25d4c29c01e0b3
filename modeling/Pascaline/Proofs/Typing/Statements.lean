import Pascaline.Proofs.Binding.Statements
import Pascaline.Proofs.Typing.Calls

/-!
# Typed expressions and statements

Every expression that is bound has its type, every type that is written has values, and statements
store values where they fit, in a program without classes.
-/

namespace Pascaline.Bound

open TypeTable

variable {G : Setting} {s : Session} {t t' : TypeTable} {a : TypeId} {α : Type}
  {Q : TypeTable → α → Prop}

namespace Bind

/-! ## Parts of expressions -/

theorem indexExpr_binds {x i : Expr} (hs : Typable G s) (hx : G.Types s.types x)
    (hi : G.Types s.types i) (objectSpan indexSpan span : Span) :
    Binds G s (indexExpr x i objectSpan indexSpan span) (IfSome G.Types) := by
  unfold indexExpr
  have hindex : IfSome G.Types s.types (some i) := fun _ h => by cases h; exact hi
  have hint : s.types.Storable integer := hs.plain.storable_of_basic (i := 3) rfl (by decide)
  refine (coerce_binds hs hindex hint indexSpan).bindSome hs rfl fun i' s₁ hs₁ hle hi' => ?_
  have ht := hs₁.plain.toSound
  have hit : i'.type = integer := ht.eq_of_fits hi'.2 ht.shape?_integer rfl
  have hx₁ := hx.widen hle
  refine .read rfl ?_
  split
  · rename_i hshape
    split
    · exact .some hs₁ (.const (ht.has_char.mpr ⟨_, rfl⟩))
    · exact .some hs₁ (.character hx₁ hi'.1 (ht.distinct _ _ _ hshape ht.shape?_string) hit)
  · rename_i elem n hshape
    refine .read rfl ?_
    split
    · exact fail_binds hs₁ _ _ _
    · exact .some hs₁ (.element hx₁ hi'.1 hshape hit)
  · exact .read rfl (fail_binds hs₁ _ _ _)

theorem derefExpr_binds {p : Expr} (hs : Typable G s) (hp : G.Types s.types p) (span : Span) :
    Binds G s (derefExpr p span) (IfSome G.Types) := by
  unfold derefExpr
  refine .read rfl ?_
  split
  · rename_i elem hshape
    refine .read rfl ?_
    rw [if_neg (hs.plain.kind_ne_classRef elem)]
    exact .some hs (.deref hp hshape)
  · exact .read rfl (fail_binds hs _ _ _)

/-! ## Types -/

theorem namedType_binds (hs : Typable G s) (n : Tree.NamedType) :
    Binds G s (namedType n) (IfSome fun t id => t.Storable id) := by
  obtain ⟨ids, hids, hrun⟩ := typeSymbol?_run hs.toFits n
  unfold namedType
  refine .read hrun ?_
  cases ids with
  | cons x xs =>
    obtain ⟨sym, hsym, -⟩ := hids.symbols x List.mem_cons_self
    have htyped := hs.symbols x sym hsym
    simp only [List.head?_cons, Option.map_some]
    rw [hs.scopes, hsym, Option.getD_some]
    split
    · rename_i hkind
      refine .some hs ?_
      unfold SymbolTyped at htyped
      cases hk : sym.kind <;> simp_all [SymbolKind.isTypeName]
    · exact fail_binds hs _ _ _
  | nil =>
    simp only [List.head?_nil, Option.map_none]
    cases n.unit with
    | some unit =>
      refine .read rfl ?_
      split
      · exact fail_binds hs _ _ _
      · exact fail_binds hs _ _ _
    | none => exact fail_binds hs _ _ _

theorem arrayLength_binds (hs : Typable G s) (e : Expr) (span : Span) :
    Binds G s (arrayLength e span) (IfSome fun _ _ => True) := by
  unfold arrayLength
  split
  · split
    · exact .some hs trivial
    · exact fail_binds hs _ _ _
  · exact .read rfl (fail_binds hs _ _ _)

theorem array_binds {elem : TypeId} {n : Option Nat} {f : TypeTable → TypeId × TypeTable}
    (hs : Typable G s) (helem : s.types.Storable elem)
    (hf : f s.types = s.types.intern (.array elem n)) :
    Binds G s (intern f) fun t id => t.shape? id = some (.array elem n) :=
  intern_binds hs helem hf

theorem pointer_binds {elem : TypeId} (hs : Typable G s) (helem : s.types.Storable elem) :
    Binds G s (intern (·.pointer elem)) fun t id => t.shape? id = some (.pointer elem) :=
  intern_binds hs helem rfl

/-! ## Arguments -/

theorem allBound_typed {args? : List (Option Expr)} {args : List Expr}
    (h : ∀ e? ∈ args?, IfSome G.Types t e?) (hargs : allBound args? = some args) :
    ∀ e ∈ args, G.Types t e := by
  obtain rfl := allBound_eq hargs
  exact fun e he => h (some e) (List.mem_map_of_mem he) e rfl

/-- Arguments of their types that fit the parameters. -/
def ArgsPass (G : Setting) (params : List TypeId) (t : TypeTable) (args : List Expr) : Prop :=
  (∀ e ∈ args, G.Types t e) ∧ List.Forall₂ (fun (e : Expr) p => t.Fits e.type p) args params

theorem passArgs_binds {args : List Tree.Expr} {callee? : Option Callee}
    (hloose : ∀ {s : Session}, Typable G s → ∀ wants, Binds G s (looseArgs wants args) fun t es =>
      es.length = args.length ∧ ∀ e? ∈ es, IfSome G.Types t e?)
    (hexact : ∀ {s : Session}, Typable G s → ∀ params, (∀ p ∈ params, s.types.Storable p) →
      params.length = args.length →
      Binds G s (exactArgs params args) (IfSome (ArgsPass G params)))
    (hs : Typable G s) (hcallee : IfSome (CalleeTyped G args.length) s.types callee?)
    (span : Span) : Binds G s (passArgs args span callee?) (IfSome G.Types) := by
  unfold passArgs
  split
  · exact .none hs
  · exact (hcallee _ rfl).elim
  · rename_i f sig
    obtain ⟨hf, hft, hcount⟩ := hcallee _ rfl
    have hparams := (storable_signature hs.plain hft).params
    refine (hexact hs sig.params hparams hcount).bindSome hs rfl fun bound s₁ hs₁ hle hbound => ?_
    obtain ⟨hbound, hpass⟩ := hbound
    have hcallee : CalleeTyped G bound.length s₁.types (.value f sig) :=
      ⟨hf.widen hle, hle.grows.shape? hft, hpass.length_eq.symm⟩
    refine apply_binds hs₁ hcallee hbound ?_ span
    rintro f' sig' ⟨⟩
    exact hpass
  · rename_i c _ hvalue
    refine .read rfl ?_
    refine (hloose hs _).bind hs fun es s₁ hs₁ hle hes => ?_
    split
    · rename_i bound hbound
      have hlength : bound.length = args.length := by
        rw [← hes.1, allBound_eq hbound, List.length_map]
      refine apply_binds hs₁ ?_ (allBound_typed hes.2 hbound) ?_ span
      · rw [hlength]
        exact (hcallee c rfl).mono hle
      · rintro f sig rfl
        exact absurd rfl (hvalue f sig)
    · exact .none hs₁

/-! ## Expressions -/

theorem newArray_binds {elem : TypeId} {length : Expr} (hs : Typable G s)
    (helem : s.types.Storable elem) (hlength : FitsPlace G integer s.types length) (span : Span) :
    Binds G s (intern (·.dynamicArray elem) >>= fun id =>
      pure (some (.newArray elem length id span))) (IfSome G.Types) := by
  have ht := hs.plain.toSound
  have hlt : length.type = integer := ht.eq_of_fits hlength.2 ht.shape?_integer rfl
  refine (array_binds hs helem rfl).bind hs fun id s₁ hs₁ hle₁ hid => ?_
  exact .some hs₁ (.newArray (hlength.1.widen hle₁) hlt hid)

theorem routineOf_binds {ps? : Option (List TypeId)} {r? : Option TypeId} (hs : Typable G s)
    (hps : IfSome (fun t ps => ∀ p ∈ ps, t.Storable p) s.types ps?)
    (hr : IfSome (fun t r => r ≠ 0 → t.Storable r) s.types r?) :
    Binds G s (routineOf ps? r?) (IfSome fun t id => t.Storable id) := by
  unfold routineOf
  split
  · rename_i ps r
    have hsig : Signature.Storable ⟨ps, r⟩ s.types := ⟨hps ps rfl, hr r rfl⟩
    refine (intern_binds hs (show (TypeShape.routine ⟨ps, r⟩).Regular s.types from hsig) rfl).bind hs
      fun id s₁ hs₁ _ hid => ?_
    exact .some hs₁ ⟨_, hid, by simp⟩
  · exact .none hs

mutual

theorem expr_binds {s : Session} (hs : Typable G s) (want : TypeId) (e : Tree.Expr) :
    Binds G s (expr want e) (IfSome G.Types) := by
  cases e with
  | literal k text span =>
    unfold expr
    exact literal_binds hs k text span
  | name id =>
    unfold expr
    exact .read rfl (nameValue_binds hs (resolve_typed hs id.name) id want)
  | thisRef span =>
    unfold expr
    refine .read rfl ?_
    split
    · exact fail_binds hs _ _ _
    · exact (thisExpr_binds hs span).imp fun t e? _ h e he => (h e he).elim
  | baseRef span =>
    unfold expr
    exact (thisExpr_binds hs span).bindSome hs rfl fun _ _ _ _ h => h.elim
  | unary op x span =>
    unfold expr
    refine (expr_binds hs 0 x).bind hs fun x? s₁ hs₁ _ hx => ?_
    refine (asOperand_binds hs₁ hx x.span).bindSome hs₁ rfl fun x' s₂ hs₂ _ hx' => ?_
    exact unaryExpr_binds hs₂ hx'.1 op span
  | binary op l r span =>
    unfold expr
    refine (expr_binds hs 0 l).bind hs fun l? s₁ hs₁ _ hl => ?_
    refine (asOperand_binds hs₁ hl l.span).bind hs₁ fun l? s₂ hs₂ _ hl => ?_
    refine (expr_binds hs₂ 0 r).bind hs₂ fun r? s₃ hs₃ hle₃ hr => ?_
    refine (asOperand_binds hs₃ hr r.span).bind hs₃ fun r? s₄ hs₄ hle₄ hr => ?_
    split
    · exact binaryExpr_binds hs₄ ((hl _ rfl).widen (hle₃.trans hle₄)) (hr _ rfl) _ span
    · exact .none hs₄
  | member x name span =>
    unfold expr
    refine .look (unitNamed?_reads x) fun unit? _ => ?_
    cases unit? with
    | some unit => exact exportValue_binds hs unit name want
    | none =>
      dsimp only
      split
      · refine (calleeOfBase_binds hs _ name span 0).bind hs fun callee? s₁ hs₁ _ hcallee => ?_
        exact applyBare_binds hs₁ hcallee span
      · refine (expr_binds hs 0 x).bindSome hs rfl fun object s₁ hs₁ _ _ => ?_
        exact memberValue_binds hs₁ object name span
  | index x i span =>
    unfold expr
    refine (expr_binds hs 0 x).bind hs fun x? s₁ hs₁ _ hx => ?_
    refine (asOperand_binds hs₁ hx x.span).bind hs₁ fun x? s₂ hs₂ _ hx => ?_
    refine (expr_binds hs₂ 0 i).bind hs₂ fun i? s₃ hs₃ hle₃ hi => ?_
    refine (asOperand_binds hs₃ hi i.span).bind hs₃ fun i? s₄ hs₄ hle₄ hi => ?_
    split
    · exact indexExpr_binds hs₄ ((hx _ rfl).widen (hle₃.trans hle₄)).1 (hi _ rfl).1 _ _ _
    · exact .none hs₄
  | call callee args span =>
    have hpass : ∀ {s : Session} {callee? : Option Callee}, Typable G s →
        IfSome (CalleeTyped G args.length) s.types callee? →
        Binds G s (passArgs args span callee?) (IfSome G.Types) := fun hs hcallee =>
      passArgs_binds (fun hs wants => looseArgs_binds hs wants args)
        (fun hs _ hparams hcount => exactArgs_binds hs hparams args hcount) hs hcallee span
    have hvalue := expr_binds hs 0 callee
    cases callee with
    | name id =>
      unfold expr
      exact (calleeOfName_binds hs id args.length span).bind hs fun _ _ hs₁ _ h => hpass hs₁ h
    | member x name memberSpan =>
      unfold expr
      refine .look (unitNamed?_reads x) fun unit? _ => ?_
      cases unit? with
      | some unit =>
        exact (calleeOfExport_binds hs unit name args.length span).bind hs
          fun _ _ hs₁ _ h => hpass hs₁ h
      | none =>
        dsimp only
        split
        · exact (calleeOfBase_binds hs _ name span _).bind hs fun _ _ hs₁ _ h => hpass hs₁ h
        · refine (expr_binds hs 0 x).bindSome hs rfl fun object s₁ hs₁ _ _ => ?_
          exact (calleeOfMember_binds hs₁ object name memberSpan args.length span).bind hs₁
            fun _ _ hs₂ _ h => hpass hs₂ h
    | _ =>
      unfold expr
      refine hvalue.bindSome hs rfl fun routine s₁ hs₁ _ hroutine => ?_
      exact (calleeOfValue_binds hs₁ hroutine args.length span).bind hs₁
        fun _ _ hs₂ _ h => hpass hs₂ h
  | deref x span =>
    unfold expr
    refine (expr_binds hs 0 x).bind hs fun x? s₁ hs₁ _ hx => ?_
    refine (asOperand_binds hs₁ hx x.span).bindSome hs₁ rfl fun x' s₂ hs₂ _ hx' => ?_
    exact derefExpr_binds hs₂ hx'.1 span
  | alloc type args size span =>
    unfold expr
    refine .read rfl ?_
    split
    · exact fail_binds hs _ _ _
    refine (typeExpr_binds hs type).bindSome hs rfl fun elem s₁ hs₁ hle₁ helem => ?_
    cases size with
    | some n =>
      refine (expr_binds hs₁ 0 n).bind hs₁ fun n? s₂ hs₂ hle₂ hn => ?_
      refine (asOperand_binds hs₂ hn n.span).bind hs₂ fun n? s₃ hs₃ hle₃ hn => ?_
      have hint : s₃.types.Storable integer := hs₃.plain.storable_of_basic (i := 3) rfl (by decide)
      have hn' : IfSome G.Types s₃.types n? := fun e he => (hn e he).1
      refine (coerce_binds hs₃ hn' hint n.span).bindSome hs₃ rfl fun length s₄ hs₄ hle₄ hlength => ?_
      have helem₄ := ((helem.mono hle₂.grows).mono hle₃.grows).mono hle₄.grows
      have harray := newArray_binds hs₄ helem₄ hlength span
      dsimp only
      split
      · split
        · exact fail_binds hs₄ _ _ _
        · exact harray
      · exact harray
    | none =>
      refine .read rfl ?_
      rw [if_neg (hs₁.plain.kind_ne_classRef elem)]
      split
      · refine (pointer_binds hs₁ helem).bind hs₁ fun id s₂ hs₂ _ hid => ?_
        exact .some hs₂ (.newCell hid)
      · exact .read rfl (fail_binds hs₁ _ _ _)
  | addr x span =>
    unfold expr
    exact addressOf_binds hs x span want

theorem looseArgs_binds {s : Session} (hs : Typable G s) (wants : List TypeId)
    (args : List Tree.Expr) :
    Binds G s (looseArgs wants args) fun t es =>
      es.length = args.length ∧ ∀ e? ∈ es, IfSome G.Types t e? := by
  cases args with
  | nil =>
    unfold looseArgs
    exact .pure hs ⟨rfl, by simp⟩
  | cons a as =>
    unfold looseArgs
    refine (expr_binds hs (wants.headD 0) a).bind hs fun e? s₁ hs₁ _ he => ?_
    refine (looseArgs_binds hs₁ wants.tail as).bind hs₁ fun es s₂ hs₂ hle₂ hes => ?_
    refine .pure hs₂ ⟨by simp [hes.1], ?_⟩
    intro e? he?
    rcases List.mem_cons.mp he? with rfl | he?
    · exact fun e h => (he e h).widen hle₂
    · exact hes.2 e? he?

theorem exactArgs_binds {s : Session} (hs : Typable G s) {params : List TypeId}
    (hparams : ∀ p ∈ params, s.types.Storable p) (args : List Tree.Expr)
    (hcount : params.length = args.length) :
    Binds G s (exactArgs params args) (IfSome (ArgsPass G params)) := by
  match params, args, hcount with
  | [], [], _ =>
    unfold exactArgs
    exact .some hs ⟨by simp, .nil⟩
  | p :: ps, a :: as, hcount =>
    unfold exactArgs
    refine (expr_binds hs p a).bind hs fun e? s₁ hs₁ hle₁ he => ?_
    have hp := (hparams p List.mem_cons_self).mono hle₁.grows
    refine (coerce_binds hs₁ he hp a.span).bindSome hs₁ rfl fun e s₂ hs₂ hle₂ he => ?_
    have htail : ∀ p ∈ ps, s₂.types.Storable p := fun p hp =>
      (hparams p (List.mem_cons_of_mem _ hp)).mono (hle₁.trans hle₂).grows
    refine (exactArgs_binds hs₂ htail as (by simpa using hcount)).bindSome hs₂ rfl
      fun es s₃ hs₃ hle₃ hes => ?_
    refine .some hs₃ ⟨fun e' he' => ?_, .cons (he.2.mono hle₃.grows) hes.2⟩
    rcases List.mem_cons.mp he' with rfl | he'
    · exact he.1.widen hle₃
    · exact hes.1 e' he'

theorem typeExpr_binds {s : Session} (hs : Typable G s) (type : Tree.TypeExpr) :
    Binds G s (typeExpr type) (IfSome fun t id => t.Storable id) := by
  cases type with
  | named n =>
    unfold typeExpr
    exact namedType_binds hs n
  | array length elem span =>
    unfold typeExpr
    refine (typeExpr_binds hs elem).bindSome hs rfl fun e s₁ hs₁ _ he => ?_
    cases length with
    | none =>
      refine (array_binds hs₁ he rfl).bind hs₁ fun id s₂ hs₂ _ hid => ?_
      exact .some hs₂ ⟨_, hid, by simp⟩
    | some n =>
      refine (constantly_binds (expr_binds (Typable.constant hs₁ true) integer n)).bind hs₁
        fun n? s₂ hs₂ hle₂ hn => ?_
      refine (asConstant_binds hs₂ hn n.span).bindSome hs₂ rfl fun bound s₃ hs₃ hle₃ _ => ?_
      refine (arrayLength_binds hs₃ bound n.span).bindSome hs₃ rfl fun k s₄ hs₄ hle₄ _ => ?_
      have he₄ := ((he.mono hle₂.grows).mono hle₃.grows).mono hle₄.grows
      refine (array_binds hs₄ he₄ rfl).bind hs₄ fun id s₅ hs₅ _ hid => ?_
      exact .some hs₅ ⟨_, hid, by simp⟩
  | pointer elem span =>
    unfold typeExpr
    refine (typeExpr_binds hs elem).bindSome hs rfl fun e s₁ hs₁ _ he => ?_
    refine (pointer_binds hs₁ he).bind hs₁ fun id s₂ hs₂ _ hid => ?_
    exact .some hs₂ ⟨_, hid, by simp⟩
  | routine params result span =>
    unfold typeExpr
    refine (paramTypes_binds hs params).bind hs fun ps? s₁ hs₁ hle₁ hps => ?_
    cases result with
    | none =>
      refine Binds.read rfl ?_
      refine routineOf_binds hs₁ (fun ps h => (hps ps h).1) ?_
      rintro r ⟨⟩ hne
      exact absurd rfl hne
    | some r =>
      refine (typeExpr_binds hs₁ r).bind hs₁ fun r? s₂ hs₂ hle₂ hr => ?_
      exact routineOf_binds hs₂ (fun ps h p hp => ((hps ps h).1 p hp).mono hle₂.grows)
        fun id h _ => hr id h
  | classBody base members span =>
    unfold typeExpr
    exact fail_binds hs _ _ _

theorem paramTypes_binds {s : Session} (hs : Typable G s) (params : List Tree.Param) :
    Binds G s (paramTypes params) (IfSome fun t ps =>
      (∀ p ∈ ps, t.Storable p) ∧ ps.length = (params.flatMap (·.names)).length) := by
  match params with
  | [] =>
    unfold paramTypes
    exact .some hs ⟨by simp, rfl⟩
  | ⟨names, type, span⟩ :: ps =>
    unfold paramTypes
    refine (typeExpr_binds hs type).bind hs fun t? s₁ hs₁ hle₁ ht => ?_
    refine (paramTypes_binds hs₁ ps).bind hs₁ fun ts? s₂ hs₂ hle₂ hts => ?_
    split
    · rename_i id ts
      obtain ⟨hstorable, hlength⟩ := hts ts rfl
      refine .some hs₂ ⟨?_, by simp [hlength]⟩
      intro p hp
      rcases List.mem_append.mp hp with hp | hp
      · rw [List.eq_of_mem_replicate hp]
        exact (ht id rfl).mono hle₂.grows
      · exact hstorable p hp
    · exact .none hs₂

end

/-! ## Headers and values -/

/-- The types of the signature have values, with a parameter for each name. -/
def SignatureTyped (params : List Tree.Param) (t : TypeTable) (sig : Signature) : Prop :=
  sig.Storable t ∧ sig.params.length = (params.flatMap (·.names)).length

theorem signature_binds (hs : Typable G s) (params : List Tree.Param)
    (result : Option Tree.TypeExpr) :
    Binds G s (signature params result) (IfSome (SignatureTyped params)) := by
  unfold signature
  refine (paramTypes_binds hs params).bind hs fun ps? s₁ hs₁ hle₁ hps => ?_
  cases result with
  | none =>
    refine .read rfl ?_
    dsimp only
    split
    · rename_i ps r hr
      cases hr
      exact .some hs₁ ⟨⟨(hps ps rfl).1, fun h => absurd rfl h⟩, (hps ps rfl).2⟩
    · exact .none hs₁
  | some r =>
    refine (typeExpr_binds hs₁ r).bind hs₁ fun r? s₂ hs₂ hle₂ hr => ?_
    dsimp only
    split
    · rename_i ps r
      obtain ⟨hstorable, hlength⟩ := hps ps rfl
      exact .some hs₂ ⟨⟨fun p hp => (hstorable p hp).mono hle₂.grows, fun _ => hr r rfl⟩, hlength⟩
    · exact .none hs₂

theorem operand_binds (hs : Typable G s) (e : Tree.Expr) :
    Binds G s (operand e) (IfSome (IsOperand G)) := by
  unfold operand
  refine (expr_binds hs 0 e).bind hs fun e? s₁ hs₁ _ he => ?_
  exact asOperand_binds hs₁ he e.span

theorem constant_binds (hs : Typable G s) (e : Tree.Expr) (want : TypeId) :
    Binds G s (constant e want) (IfSome fun t e => G.Types t e ∧ e.const?.isSome) := by
  unfold constant
  refine (constantly_binds (expr_binds (Typable.constant hs true) want e)).bind hs
    fun e? s₁ hs₁ _ he => ?_
  exact asConstant_binds hs₁ he e.span

/-! ## Parts of statements -/

theorem resultTarget?_binds (hs : Typable G s) (e : Tree.Expr) :
    Binds G s (resultTarget? e)
      (IfSome fun t e => G.Types t e ∧ isAddressable e = true ∧ t.Storable e.type) := by
  unfold resultTarget?
  split
  · refine .read rfl ?_
    split
    · rename_i f hf
      split
      · rename_i slot hslot
        refine .read rfl ?_
        split
        · obtain ⟨hplace, -⟩ := (hs.frame f hf).result slot hslot
          have htype := hs.slots _ _ hplace
          exact .some hs ⟨.frameVar hplace htype, rfl, htype⟩
        · exact .none hs
      · exact .none hs
    · exact .none hs
  · exact .none hs

theorem storable_of_isAddressable {e : Expr} (ht : t.Plain) (he : G.Types t e)
    (h : isAddressable e = true) : t.Storable e.type := by
  cases he with
  | frameVar _ ha | unitVar _ ha => exact ha
  | element _ _ hxt _ => exact storable_elem ht hxt
  | deref _ hpt => exact storable_pointee ht hpt
  | _ => cases h

theorem target_binds (hs : Typable G s) (e : Tree.Expr) :
    Binds G s (target e)
      (IfSome fun t e => G.Types t e ∧ isAddressable e = true ∧ t.Storable e.type) := by
  unfold target
  refine (resultTarget?_binds hs e).bind hs fun r? s₁ hs₁ _ hr => ?_
  split
  · exact .pure hs₁ hr
  · refine (expr_binds hs₁ 0 e).bindSome hs₁ rfl fun t s₂ hs₂ _ ht => ?_
    dsimp only
    split
    · exact fail_binds hs₂ _ _ _
    · rename_i hplace
      have hplace : isAddressable t = true := by simpa using hplace
      have htyped := storable_of_isAddressable hs₂.plain ht hplace
      split
      · refine .read rfl ?_
        split
        · exact fail_binds hs₂ _ _ _
        · exact .some hs₂ ⟨ht, hplace, htyped⟩
      · exact .some hs₂ ⟨ht, hplace, htyped⟩

theorem condition_binds (hs : Typable G s) (e : Tree.Expr) :
    Binds G s (condition e) (IfSome fun t e => G.Types t e ∧ e.type = boolean) := by
  unfold condition
  refine (operand_binds hs e).bind hs fun e? s₁ hs₁ _ he => ?_
  have hbool : s₁.types.Storable boolean := hs₁.plain.storable_of_basic (i := 2) rfl (by decide)
  refine (coerce_binds hs₁ (fun e h => (he e h).1) hbool e.span).imp fun t e? ht h e he => ?_
  exact ⟨(h e he).1, ht.eq_of_fits (h e he).2 ht.shape?_boolean rfl⟩

theorem Typable.loops (hs : Typable G s) (g : Nat → Nat) :
    Typable G { s with frame := s.frame.map fun fr => { fr with loops := g fr.loops } } :=
  ⟨hs.toFits.loops g, hs.toSettled⟩

theorem inLoop_binds {x : Bind α} (hs : Typable G s)
    (hx : ∀ {s : Session}, Typable G s → Binds G s x Q) : Binds G s (inLoop x) Q := by
  intro a s' h
  have h : (x.run { s with frame := s.frame.map fun fr => { fr with loops := fr.loops + 1 } } >>=
      fun r => .ok (r.1, { r.2 with
        frame := r.2.frame.map fun fr => { fr with loops := fr.loops - 1 } })) = .ok (a, s') := h
  obtain ⟨⟨b, s₁⟩, hrun, h⟩ := except_bind_ok h
  obtain ⟨hs₁, hle, hb⟩ := hx (Typable.loops hs (· + 1)) b s₁ hrun
  cases h
  exact ⟨hs₁.loops (· - 1), hle, hb⟩

theorem ordinal_of_kind (ht : t.Sound) (h : (t.kind a).isOrdinal = true) : Ordinal a := by
  simp only [TypeKind.isOrdinal, Bool.or_eq_true, decide_eq_true_eq] at h
  rcases h with (h | h) | h
  all_goals first
    | exact .inl (ht.eq_boolean h)
    | exact .inr (.inl (ht.eq_integer h))
    | exact .inr (.inr (ht.eq_char h))

theorem Ordinal.eq_of_fits (ht : t.Sound) (h : Ordinal a) {b : TypeId} (hfits : t.Fits b a) :
    b = a := by
  rcases h with rfl | rfl | rfl
  · exact ht.eq_of_fits hfits ht.shape?_boolean rfl
  · exact ht.eq_of_fits hfits ht.shape?_integer rfl
  · exact ht.eq_of_fits hfits ht.shape?_char rfl

theorem loopVariable_binds (hs : Typable G s) (id : Tree.Ident) :
    Binds G s (loopVariable id) (IfSome fun t e => G.Types t e ∧ Ordinal e.type) := by
  have hres := resolve_typed hs id.name
  unfold loopVariable
  refine .read rfl ?_
  generalize Resolution.walk s id.name (s.scopes.scopes.size + 1) s.scope = res at hres ⊢
  split
  · exact fail_binds hs _ _ _
  · exact fail_binds hs _ _ _
  · exact fail_binds hs _ _ _
  · rename_i x xs
    obtain ⟨sym, hsym, hfits⟩ := hres.symbols x List.mem_cons_self
    refine .read rfl ?_
    rw [hs.scopes, hsym, Option.getD_some]
    split
    · exact fail_binds hs _ _ _
    · rename_i hkind
      have hkind : sym.kind = .var ∨ sym.kind = .param := by
        cases hk : sym.kind <;> simp_all
      refine .read rfl ?_
      split
      · exact .read rfl (fail_binds hs _ _ _)
      · rename_i hordinal
        have htype : (storage x sym id.span).type = sym.type := by
          unfold storage
          split <;> rfl
        refine .some hs ⟨storage_typed hfits (hs.symbols x sym hsym) hkind _, ?_⟩
        rw [htype]
        exact ordinal_of_kind hs.plain.toSound (by simpa using hordinal)

theorem caseLabels_binds (hs : Typable G s) (ha : s.types.Storable a)
    (seen : List (Value × Span)) (labels : List Tree.Expr) :
    Binds G s (caseLabels a seen labels) fun t r =>
      ∀ v ∈ r.1, ∃ b, t.Has .none b v := by
  induction labels generalizing s seen with
  | nil =>
    unfold caseLabels
    exact .pure hs (by simp)
  | cons l ls ih =>
    unfold caseLabels
    refine (constant_binds hs l a).bind hs fun e? s₁ hs₁ hle₁ he => ?_
    refine (coerce_binds hs₁ (fun e h => (he e h).1) (ha.mono hle₁.grows) l.span).bind hs₁
      fun e? s₂ hs₂ hle₂ he => ?_
    have ha₂ := (ha.mono hle₁.grows).mono hle₂.grows
    split
    · exact ih hs₂ ha₂ seen
    · rename_i v hv
      obtain ⟨e, rfl, hv⟩ := Option.bind_eq_some_iff.mp hv
      have hhas : s₂.types.Has .none e.type v := const?_typed (he e rfl).1 hv
      split
      · refine (report_binds hs₂ _ _ _).bind hs₂ fun _ s₃ hs₃ hle₃ _ => ?_
        exact ih hs₃ (ha₂.mono hle₃.grows) seen
      · refine (ih hs₂ ha₂ _).bind hs₂ fun r s₃ hs₃ hle₃ hr => ?_
        refine .pure hs₃ fun w hw => ?_
        rcases List.mem_cons.mp hw with rfl | hw
        · exact ⟨_, hhas.mono hle₃.grows (.refl _)⟩
        · exact hr w hw

/-! ## Statements -/

/-- All statements keep to the types. -/
def BodyTyped (G : Setting) (t : TypeTable) (body : List Stmt) : Prop :=
  ∀ c ∈ body, c.Typed (G.world t) G.slot

theorem BodyTyped.nil : BodyTyped G t [] := fun _ h => by cases h

theorem BodyTyped.single {c : Stmt} (h : c.Typed (G.world t) G.slot) : BodyTyped G t [c] := by
  simpa [BodyTyped] using h

theorem BodyTyped.append {body body' : List Stmt} (h : BodyTyped G t body)
    (h' : BodyTyped G t body') : BodyTyped G t (body ++ body') :=
  fun c hc => (List.mem_append.mp hc).elim (h c) (h' c)

theorem BodyTyped.widen {body : List Stmt} (h : BodyTyped G t body) (hle : t.Widens t') :
    BodyTyped G t' body :=
  fun c hc => (h c hc).mono (World.le_of_grows hle.grows _ _) fun _ _ h => h

/-- The labels of the arms are values, and the arms keep to the types. -/
def ArmsTyped (G : Setting) (t : TypeTable) (arms : List CaseArm) : Prop :=
  ∀ labels body, .arm labels body ∈ arms →
    (∀ v ∈ labels, ∃ b, t.Has .none b v) ∧ BodyTyped G t body

theorem ArmsTyped.widen {arms : List CaseArm} (h : ArmsTyped G t arms) (hle : t.Widens t') :
    ArmsTyped G t' arms := by
  intro labels body hmem
  obtain ⟨hlabels, hbody⟩ := h labels body hmem
  refine ⟨fun v hv => ?_, hbody.widen hle⟩
  obtain ⟨b, hb⟩ := hlabels v hv
  exact ⟨b, hb.mono hle.grows (.refl _)⟩

end Bind

theorem Binds.bindBody {β : Type} {x : Bind (Option β)} {f : Option β → Bind (List Stmt)}
    {P : TypeTable → β → Prop} (hs : Typable G s) (hx : Binds G s x (IfSome P))
    (hf : ∀ b s₁, Typable G s₁ → s.types.Widens s₁.types → P s₁.types b →
      Binds G s₁ (f (.some b)) (Bind.BodyTyped G))
    (hnone : f .none = Pure.pure [] := by rfl) : Binds G s (x >>= f) (Bind.BodyTyped G) := by
  refine hx.bind hs fun b? s₁ hs₁ hle hb => ?_
  cases b? with
  | none =>
    rw [hnone]
    exact .pure hs₁ Bind.BodyTyped.nil
  | some b => exact hf b s₁ hs₁ hle (hb b rfl)

namespace Bind

theorem jump_binds (hs : Typable G s) (kind : Tree.JumpKind) (span : Span) :
    Binds G s (jump kind span) (BodyTyped G) := by
  unfold jump
  refine .read rfl ?_
  extract_lets inside
  split
  · exact .pure hs (.single .exit)
  all_goals
    split
    · refine .pure hs (.single ?_)
      split
      · exact .break
      · exact .continue
    · exact (report_binds hs _ _ _).bind hs fun _ s₁ hs₁ _ _ => .pure hs₁ .nil

mutual

theorem stmt_binds {s : Session} (hs : Typable G s) (st : Tree.Stmt) :
    Binds G s (stmt st) (BodyTyped G) := by
  cases st with
  | empty span =>
    unfold stmt
    exact .pure hs .nil
  | compound body span =>
    unfold stmt
    exact stmts_binds hs body
  | assign place value span =>
    unfold stmt
    refine (target_binds hs place).bind hs fun x? s₁ hs₁ _ hx => ?_
    split
    · refine (operand_binds hs₁ value).bind hs₁ fun _ s₂ hs₂ _ _ => ?_
      exact .pure hs₂ .nil
    · rename_i x
      obtain ⟨hx, hplace, htype⟩ := hx x rfl
      refine (expr_binds hs₁ x.type value).bind hs₁ fun v? s₂ hs₂ hle₂ hv => ?_
      refine (coerce_binds hs₂ hv (htype.mono hle₂.grows) value.span).bindBody hs₂
        fun v s₃ hs₃ hle₃ hv => ?_
      exact .pure hs₃ (.single (.assign ((hx.widen hle₂).widen hle₃) hv.1 hplace hv.2))
  | call call span =>
    unfold stmt
    refine (expr_binds hs 0 call).bindBody hs fun e s₁ hs₁ _ he => ?_
    dsimp only
    split
    · exact .pure hs₁ (.single (.expr he))
    · exact (report_binds hs₁ _ _ _).bind hs₁ fun _ s₂ hs₂ _ _ => .pure hs₂ .nil
  | ifThen cond yes no span =>
    unfold stmt
    refine (condition_binds hs cond).bind hs fun c? s₁ hs₁ _ hc => ?_
    refine (stmt_binds hs₁ yes).bind hs₁ fun y s₂ hs₂ hle₂ hy => ?_
    cases no with
    | none =>
      refine .read rfl ?_
      cases c? with
      | none => exact .pure hs₂ .nil
      | some c =>
        obtain ⟨hc, hct⟩ := hc c rfl
        exact .pure hs₂ (.single (.ifElse (hc.widen hle₂) hct hy BodyTyped.nil))
    | some no =>
      refine (stmt_binds hs₂ no).bind hs₂ fun n s₃ hs₃ hle₃ hn => ?_
      cases c? with
      | none => exact .pure hs₃ .nil
      | some c =>
        obtain ⟨hc, hct⟩ := hc c rfl
        exact .pure hs₃ (.single
          (.ifElse ((hc.widen hle₂).widen hle₃) hct (hy.widen hle₃) hn))
  | whileDo cond body span =>
    unfold stmt
    refine (condition_binds hs cond).bind hs fun c? s₁ hs₁ _ hc => ?_
    refine (inLoop_binds hs₁ fun hs => stmt_binds hs body).bind hs₁ fun b s₂ hs₂ hle₂ hb => ?_
    split
    · rename_i c
      obtain ⟨hc, hct⟩ := hc c rfl
      exact .pure hs₂ (.single (.whileDo (hc.widen hle₂) hct hb))
    · exact .pure hs₂ .nil
  | repeatUntil body cond span =>
    unfold stmt
    refine (inLoop_binds hs fun hs => stmts_binds hs body).bind hs fun b s₁ hs₁ _ hb => ?_
    refine (condition_binds hs₁ cond).bindBody hs₁ fun c s₂ hs₂ hle₂ hc => ?_
    exact .pure hs₂ (.single (.repeatUntil hc.1 hc.2 (hb.widen hle₂)))
  | forTo var first last down body span =>
    unfold stmt
    refine (loopVariable_binds hs var).bindBody hs fun v s₁ hs₁ _ hv => ?_
    obtain ⟨hv, hvt⟩ := hv
    have hordinal : ∀ {s : Session}, Typable G s → s.types.Storable v.type :=
      fun hs => Ordinal.storable hs.plain.toSound hvt
    refine (operand_binds hs₁ first).bind hs₁ fun a? s₂ hs₂ hle₂ ha => ?_
    refine (coerce_binds hs₂ (fun e h => (ha e h).1) (hordinal hs₂) first.span).bind hs₂
      fun a? s₃ hs₃ hle₃ ha => ?_
    refine (operand_binds hs₃ last).bind hs₃ fun z? s₄ hs₄ hle₄ hz => ?_
    refine (coerce_binds hs₄ (fun e h => (hz e h).1) (hordinal hs₄) last.span).bind hs₄
      fun z? s₅ hs₅ hle₅ hz => ?_
    refine (inLoop_binds hs₅ fun hs => stmt_binds hs body).bind hs₅ fun b s₆ hs₆ hle₆ hb => ?_
    split
    · rename_i a z
      have hle₄₆ := (hle₄.trans hle₅).trans hle₆
      have hle₂₆ := (hle₂.trans hle₃).trans hle₄₆
      obtain ⟨ha, hat⟩ := ha a rfl
      obtain ⟨hz, hzt⟩ := hz z rfl
      exact .pure hs₆ (.single (.forTo (hv.widen hle₂₆) hvt (ha.widen hle₄₆)
        (Ordinal.eq_of_fits hs₃.plain.toSound hvt hat) (hz.widen hle₆)
        (Ordinal.eq_of_fits hs₅.plain.toSound hvt hzt) hb))
    · exact .pure hs₆ .nil
  | caseOf subject arms otherwise span =>
    unfold stmt
    refine (operand_binds hs subject).bindBody hs fun e s₁ hs₁ _ he => ?_
    refine .read rfl ?_
    split
    · refine .read rfl ?_
      exact (report_binds hs₁ _ _ _).bind hs₁ fun _ s₂ hs₂ _ _ => .pure hs₂ .nil
    · rename_i hordinal
      have het : Ordinal e.type := ordinal_of_kind hs₁.plain.toSound (by simpa using hordinal)
      refine (caseArms_binds hs₁ (Ordinal.storable hs₁.plain.toSound het) [] arms).bind hs₁
        fun as s₂ hs₂ hle₂ has => ?_
      refine (stmts_binds hs₂ otherwise).bind hs₂ fun o s₃ hs₃ hle₃ ho => ?_
      have has₃ := has.widen hle₃
      exact .pure hs₃ (.single (.caseOf ((he.1.widen hle₂).widen hle₃) het
        (fun labels body h => (has₃ labels body h).1) (fun labels body h => (has₃ labels body h).2)
        ho))
  | jump kind span =>
    unfold stmt
    exact jump_binds hs kind span

theorem stmts_binds {s : Session} (hs : Typable G s) (ss : List Tree.Stmt) :
    Binds G s (stmts ss) (BodyTyped G) := by
  cases ss with
  | nil =>
    unfold stmts
    exact .pure hs .nil
  | cons st ss =>
    unfold stmts
    refine (stmt_binds hs st).bind hs fun bound s₁ hs₁ _ hbound => ?_
    refine (stmts_binds hs₁ ss).bind hs₁ fun rest s₂ hs₂ hle₂ hrest => ?_
    exact .pure hs₂ (.append (hbound.widen hle₂) hrest)

theorem caseArms_binds {s : Session} (hs : Typable G s) {a : TypeId} (ha : s.types.Storable a)
    (seen : List (Value × Span)) (arms : List Tree.CaseArm) :
    Binds G s (caseArms a seen arms) (ArmsTyped G) := by
  match arms with
  | [] =>
    unfold caseArms
    exact .pure hs fun _ _ h => by cases h
  | ⟨labels, body, span⟩ :: arms =>
    unfold caseArms
    refine (caseLabels_binds hs ha seen labels).bind hs fun r s₁ hs₁ hle₁ hr => ?_
    refine (stmt_binds hs₁ body).bind hs₁ fun b s₂ hs₂ hle₂ hb => ?_
    refine (caseArms_binds hs₂ ((ha.mono hle₁.grows).mono hle₂.grows) r.2 arms).bind hs₂
      fun as s₃ hs₃ hle₃ has => ?_
    refine .pure hs₃ fun labels' body' hmem => ?_
    rcases List.mem_cons.mp hmem with heq | hmem
    · cases heq
      refine ⟨fun v hv => ?_, hb.widen hle₃⟩
      obtain ⟨c, hc⟩ := hr v hv
      exact ⟨c, hc.mono (hle₂.trans hle₃).grows (.refl _)⟩
    · exact has labels' body' hmem

end

end Bind

end Pascaline.Bound
