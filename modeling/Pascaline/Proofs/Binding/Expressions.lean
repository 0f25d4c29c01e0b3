import Pascaline.Proofs.Binding.Calls

/-!
# Expressions, types and statements

Every expression that is bound fits the environment, every type is made of known classes,
and the statements of a body hold no other expressions.
-/

namespace Pascaline.Bound.Bind

open TypeTable

variable {E : Env} {s : Session} {t t' : TypeTable}

/-! ## Operators -/

theorem binaryExpr_yields {l r : Expr} (hs : Fits E s) (hl : l.Fits E s.types)
    (hr : r.Fits E s.types) (op : BinaryOp) (span : Span) :
    Yields E s (binaryExpr op l r span) (IfSome (Expr.Fits E)) := by
  unfold binaryExpr
  refine .read rfl ?_
  split
  · exact fail_yields hs _ _ _
  · rename_i l' r' result htyped
    obtain ⟨hl', hr', hresult⟩ := typeBinary_fits hs.formed hl hr htyped
    exact .some hs (mkBinary_fits _ hl' hr' hresult span)

theorem indexExpr_yields {x i : Expr} (hs : Fits E s) (hx : x.Fits E s.types)
    (hi : i.Fits E s.types) (objectSpan indexSpan span : Span) :
    Yields E s (indexExpr x i objectSpan indexSpan span) (IfSome (Expr.Fits E)) := by
  unfold indexExpr
  have hindex : IfSome (Expr.Fits E) s.types (some i) := fun _ h => by cases h; exact hi
  refine (coerce_yields hs hindex (fun _ => hs.formed.within_integer) indexSpan).bindSome rfl fun i' s₁ hs₁ hle hi' => ?_
  refine .read rfl ?_
  split
  · split
    · exact .some hs₁ (.const hs₁.formed.within_char)
    · exact .some hs₁ (.character (hx.widen hle) hi' hs₁.formed.within_char)
  · rename_i elem n hshape
    refine .read rfl ?_
    split
    · exact fail_yields hs₁ _ _ _
    · exact .some hs₁ (.element (hx.widen hle) hi' ((hx.widen hle).within.arrayElem hshape))
  · exact .read rfl (fail_yields hs₁ _ _ _)

theorem derefExpr_yields {p : Expr} (hs : Fits E s) (hp : p.Fits E s.types) (span : Span) :
    Yields E s (derefExpr p span) (IfSome (Expr.Fits E)) := by
  unfold derefExpr
  refine .read rfl ?_
  split
  · rename_i elem hshape
    refine .read rfl ?_
    split
    · rename_i hkind
      exact .some hs (hp.relabel hshape hkind)
    · exact .some hs (.deref hp (hp.within.elem hshape))
  · exact .read rfl (fail_yields hs _ _ _)

/-! ## Types -/

theorem walk_opens (hs : Fits E s) {found : Scope → Bool} {fuel : Nat} {id id' : ScopeId}
    (hid : E.opens id) (h : s.scopes.walk found fuel id = .ok (some id')) : E.opens id' := by
  induction fuel generalizing id with
  | zero => cases h
  | succ fuel ih =>
    rw [ScopeTable.walk] at h
    split at h
    · cases h
    · split at h
      · cases h
      · rename_i sc hsc
        split at h
        · cases h
          exact hid
        · rw [hs.scopes] at hsc
          exact ih (hs.parents id sc hid hsc) h

theorem lookup_fits (hs : Fits E s) (name : String) :
    NamesFit E s.types (((s.scopes.lookup s.scope name).toOption.map (·.1)).getD []) := by
  unfold ScopeTable.lookup
  cases hwalk : s.scopes.walk (fun s => !(s.index.find name).isEmpty) (s.scopes.scopes.size + 1)
      s.scope with
  | error e => exact .nil
  | ok id? =>
    cases id? with
    | none => exact .nil
    | some id => exact lookupLocal_fits hs (walk_opens hs hs.scope hwalk) name

theorem typeSymbol?_run (hs : Fits E s) (n : Tree.NamedType) :
    ∃ ids, NamesFit E s.types ids ∧ (typeSymbol? n).run s =
      .ok (ids.head?.map fun x => (s.scopes.symbol? x).getD default, s) := by
  unfold typeSymbol?
  cases n.unit with
  | some unit =>
    cases hunit : s.unitScopes.lookup unit.name with
    | none =>
      refine ⟨[], .nil, (run_read (b := none) ?_).trans rfl⟩
      rw [← hunit]
      rfl
    | some scope =>
      refine ⟨_, lookupLocal_fits hs (opens_of_lookup hs hunit) n.name.name,
        (run_read (b := some scope) ?_).trans ((run_read rfl).trans ?_)⟩
      · rw [← hunit]
        rfl
      · cases s.scopes.lookupLocal scope n.name.name <;> rfl
  | none =>
    refine ⟨_, lookup_fits hs n.name.name, (run_read rfl).trans ((run_read rfl).trans ?_)⟩
    cases ((s.scopes.lookup s.scope n.name.name).toOption.map (·.1)).getD [] <;> rfl

theorem namedType_yields (hs : Fits E s) (n : Tree.NamedType) :
    Yields E s (namedType n) (IfSome fun t id => t.Within E.known id) := by
  obtain ⟨ids, hids, hrun⟩ := typeSymbol?_run hs n
  unfold namedType
  refine .read hrun ?_
  cases ids with
  | cons x xs =>
    obtain ⟨sym, hsym, hfits⟩ := hids.symbols x List.mem_cons_self
    simp only [List.head?_cons, Option.map_some]
    rw [hs.scopes, hsym, Option.getD_some]
    split
    · rename_i hkind
      exact .some hs (hfits.within.type (hfits.within.typeName hkind))
    · exact fail_yields hs _ _ _
  | nil =>
    simp only [List.head?_nil, Option.map_none]
    cases n.unit with
    | some unit =>
      refine .read rfl ?_
      split
      · exact fail_yields hs _ _ _
      · exact fail_yields hs _ _ _
    | none => exact fail_yields hs _ _ _

theorem arrayLength_yields (hs : Fits E s) (e : Expr) (span : Span) :
    Yields E s (arrayLength e span) (IfSome fun _ _ => True) := by
  unfold arrayLength
  split
  · split
    · exact .some hs trivial
    · exact fail_yields hs _ _ _
  · exact .read rfl (fail_yields hs _ _ _)

theorem constructors_fit (h : TableFits E t) (ht : t.Formed) {id : TypeId}
    (hid : t.IsClass E.known id) : ∀ m ∈ constructors t id, MethodFits E t m := by
  intro m hm
  obtain ⟨d, hd, hmem⟩ : ∃ d ∈ t.chain id, m ∈ d.methods := by simpa using mem_foldl_addVisible hm
  exact h.method ht hid (above_of_mem_chainFrom hd) hmem

/-! ## Arguments -/

/-- All arguments fit, and they are as many. -/
def ArgsFit (E : Env) (count : Nat) (t : TypeTable) (args : List Expr) : Prop :=
  args.length = count ∧ ∀ a ∈ args, a.Fits E t

theorem allBound_eq {args? : List (Option Expr)} {args : List Expr}
    (h : allBound args? = some args) : args? = args.map some := by
  induction args? generalizing args with
  | nil =>
    cases h
    rfl
  | cons e? es ih =>
    cases e? with
    | none => cases h
    | some e =>
      simp only [allBound, List.mapM_cons, id, Option.bind_eq_bind, Option.bind_some,
        Option.bind_eq_some_iff] at h
      obtain ⟨as, has, h⟩ := h
      cases h
      rw [ih has]
      rfl

theorem allBound_fits {count : Nat} {args? : List (Option Expr)} {args : List Expr}
    (hlength : args?.length = count) (h : ∀ e? ∈ args?, IfSome (Expr.Fits E) t e?)
    (hargs : allBound args? = some args) : ArgsFit E count t args := by
  obtain rfl := allBound_eq hargs
  refine ⟨by simpa using hlength, fun a ha => ?_⟩
  exact h (some a) (List.mem_map_of_mem ha) a rfl

/-- What a call does once it is known what it calls. -/
def passArgs (args : List Tree.Expr) (span : Span) (callee? : Option Callee) :
    Bind (Option Expr) := do
  match callee? with
  | none => return none
  | some (.inherited field) => return some field
  | some (.value routine sig) =>
    let some bound ← exactArgs sig.params args | return none
    Callee.apply (.value routine sig) bound span
  | some c =>
    let cands := match c with
      | .overloads cands _ | .methods _ cands _ _ => cands
      | _ => []
    let some bound := allBound (← looseArgs (Candidate.wanted (← types) cands args.length) args)
      | return none
    c.apply bound span

theorem passArgs_yields {args : List Tree.Expr} {callee? : Option Callee}
    (hloose : ∀ {s : Session}, Fits E s → ∀ wants, Yields E s (looseArgs wants args) fun t es =>
      es.length = args.length ∧ ∀ e? ∈ es, IfSome (Expr.Fits E) t e?)
    (hexact : ∀ {s : Session}, Fits E s → ∀ params, (∀ p ∈ params, s.types.Within E.known p) →
      Yields E s (exactArgs params args) (IfSome fun t es => ∀ e ∈ es, e.Fits E t))
    (hs : Fits E s) (hcallee : IfSome (CalleeFits E) s.types callee?) (span : Span) :
    Yields E s (passArgs args span callee?) (IfSome (Expr.Fits E)) := by
  unfold passArgs
  split
  · exact .none hs
  · exact .some hs (hcallee _ rfl)
  · rename_i routine sig
    obtain ⟨hroutine, hsig⟩ := hcallee _ rfl
    refine (hexact hs sig.params hsig.params).bindSome rfl fun bound s₁ hs₁ hle hbound => ?_
    have hvalue : CalleeFits E s₁.types (.value routine sig) :=
      ⟨hroutine.widen hle, hsig.mono hle.grows⟩
    exact apply_yields hs₁ hvalue hbound span
  · rename_i c _ _
    refine .read rfl ?_
    refine (hloose hs _).bind fun es s₁ hs₁ hle hes => ?_
    split
    · rename_i bound hbound
      exact apply_yields hs₁ ((hcallee c rfl).mono hle) (allBound_fits hes.1 hes.2 hbound).2 span
    · exact .none hs₁

/-! ## Allocations -/

theorem newArray_yields {elem : TypeId} {length : Expr} (hs : Fits E s)
    (helem : s.types.Within E.known elem) (hlength : length.Fits E s.types) (span : Span) :
    Yields E s (intern (·.dynamicArray elem) >>= fun id =>
      pure (some (.newArray elem length id span))) (IfSome (Expr.Fits E)) := by
  refine (arrayShape_yields hs helem rfl).bind fun id s₁ hs₁ hle₁ hid => ?_
  exact .some hs₁ (.newArray (hlength.widen hle₁) hid)

theorem class_of_kind {id : TypeId} (ht : t.Formed) (hid : t.Within E.known id)
    (hkind : t.kind id = .classRef) : t.IsClass E.known id ∧
      ∃ k, t.keyOf? k = some ((t.classInfo? id).getD default).key ∧
        E.known k ((t.classInfo? id).getD default).key.module := by
  obtain ⟨shape, hshape, hk⟩ := exists_shape_of_kind hkind (by decide)
  cases shape with
  | classRef i =>
    obtain ⟨c, -, hc⟩ := ht.exists_class hshape
    rw [hc, Option.getD_some]
    exact ⟨isClass_of_within hid hc, id, keyOf?_eq_some.mpr ⟨c, hc, rfl⟩, hid.module hc⟩
  | routine sig =>
    simp only [TypeShape.kind] at hk
    split at hk <;> cases hk
  | _ => cases hk

/-- A new object that one of several constructors is called on. -/
def construct (ms : List Method) (key : ClassKey) (elem : TypeId) (args : List Expr)
    (span : Span) : Bind (Option Expr) := do
  let some c ← chooseOverload (ms.map Candidate.ofMethod) args key.name span | return none
  match c.target with
  | .method m =>
    return some (.newObject key (some m.routine) (fitArgs (← types) args m.sig.params) elem span)
  | _ => return none

theorem construct_yields {ms : List Method} {key : ClassKey} {elem : TypeId} {args : List Expr}
    (hs : Fits E s) (hms : ∀ m ∈ ms, MethodFits E t m) (hle : t.Widens s.types)
    (hkey : ∃ k, t.keyOf? k = some key ∧ E.known k key.module) (helem : t.Within E.known elem)
    (hargs : ∀ a ∈ args, a.Fits E s.types) (span : Span) :
    Yields E s (construct ms key elem args span) (IfSome (Expr.Fits E)) := by
  unfold construct
  refine (chooseOverload_yields hs _ args key.name span).bindSome rfl fun c s₁ hs₁ hle₁ hc => ?_
  obtain ⟨hmem, hcount⟩ := hc
  obtain ⟨m, hm, rfl⟩ := List.mem_map.mp hmem
  have hfits := (hms m hm).mono (hle.trans hle₁).grows
  have hlength : m.sig.params.length = args.length := eq_of_beq hcount
  obtain ⟨k, hk, hknown⟩ := hkey
  refine .read rfl (.some hs₁ (.newObject ⟨k, (hle.trans hle₁).grows.keyOf? hk, hknown⟩ ?_
    (fitArgs_fits hs₁.formed (fun a ha => (hargs a ha).widen hle₁) hfits.sig.params)
    (helem.mono (hle.trans hle₁).grows)))
  rintro r ⟨⟩
  rw [length_fitArgs hlength]
  exact hfits.routine

/-! ## Expressions -/

/-- The type of a routine, if its parts are known. -/
def routineOf : Option (List TypeId) → Option TypeId → Bind (Option TypeId)
  | some ps, some r => do return some (← intern (·.routine ⟨ps, r⟩))
  | _, _ => return none

/-- The parameters are made of known classes, and there is one for each name. -/
def ParamsFit (E : Env) (params : List Tree.Param) (t : TypeTable) (ps : List TypeId) : Prop :=
  (∀ p ∈ ps, t.Within E.known p) ∧ ps.length = (params.flatMap (·.names)).length

mutual

theorem expr_yields {s : Session} (hs : Fits E s) (want : TypeId) (e : Tree.Expr) :
    Yields E s (expr want e) (IfSome (Expr.Fits E)) := by
  cases e with
  | literal k text span =>
    unfold expr
    exact literal_yields hs k text span
  | name id =>
    unfold expr
    exact .read rfl (nameValue_yields hs (resolve_fits hs id.name) id want)
  | thisRef span =>
    unfold expr
    refine .read rfl ?_
    split
    · exact fail_yields hs _ _ _
    · exact (thisExpr_yields hs span).imp fun t e? h e he => (h e he).1
  | baseRef span =>
    unfold expr
    exact (thisExpr_yields hs span).bindSome rfl fun _ s₁ hs₁ _ _ => fail_yields hs₁ _ _ _
  | unary op x span =>
    unfold expr
    refine (expr_yields hs 0 x).bind fun x? s₁ hs₁ _ hx => ?_
    refine (asOperand_yields hs₁ hx x.span).bindSome rfl fun x' s₂ hs₂ _ hx' => ?_
    exact unaryExpr_yields hs₂ hx' op span
  | binary op l r span =>
    unfold expr
    refine (expr_yields hs 0 l).bind fun l? s₁ hs₁ _ hl => ?_
    refine (asOperand_yields hs₁ hl l.span).bind fun l? s₂ hs₂ _ hl => ?_
    refine (expr_yields hs₂ 0 r).bind fun r? s₃ hs₃ hle₃ hr => ?_
    refine (asOperand_yields hs₃ hr r.span).bind fun r? s₄ hs₄ hle₄ hr => ?_
    split
    · exact binaryExpr_yields hs₄ ((hl _ rfl).widen (hle₃.trans hle₄)) (hr _ rfl) _ span
    · exact .none hs₄
  | member x name span =>
    unfold expr
    refine .look (unitNamed?_reads x) fun unit? _ => ?_
    cases unit? with
    | some unit => exact exportValue_yields hs unit name want
    | none =>
      dsimp only
      split
      · refine (calleeOfBase_yields hs _ name span).bind fun callee? s₁ hs₁ _ hcallee => ?_
        exact applyBare_yields hs₁ hcallee span
      · refine (expr_yields hs 0 x).bindSome rfl fun object s₁ hs₁ _ hobject => ?_
        exact memberValue_yields hs₁ hobject name span
  | index x i span =>
    unfold expr
    refine (expr_yields hs 0 x).bind fun x? s₁ hs₁ _ hx => ?_
    refine (asOperand_yields hs₁ hx x.span).bind fun x? s₂ hs₂ _ hx => ?_
    refine (expr_yields hs₂ 0 i).bind fun i? s₃ hs₃ hle₃ hi => ?_
    refine (asOperand_yields hs₃ hi i.span).bind fun i? s₄ hs₄ hle₄ hi => ?_
    split
    · exact indexExpr_yields hs₄ ((hx _ rfl).widen (hle₃.trans hle₄)) (hi _ rfl) _ _ _
    · exact .none hs₄
  | call callee args span =>
    have hpass : ∀ {s : Session} {callee? : Option Callee}, Fits E s →
        IfSome (CalleeFits E) s.types callee? →
        Yields E s (passArgs args span callee?) (IfSome (Expr.Fits E)) := fun hs hcallee =>
      passArgs_yields (fun hs wants => looseArgs_yields hs wants args)
        (fun hs _ hparams => exactArgs_yields hs hparams args) hs hcallee span
    have hvalue := expr_yields hs 0 callee
    cases callee with
    | name id =>
      unfold expr
      exact (calleeOfName_yields hs id args.length span).bind fun _ _ hs₁ _ h => hpass hs₁ h
    | member x name memberSpan =>
      unfold expr
      refine .look (unitNamed?_reads x) fun unit? _ => ?_
      cases unit? with
      | some unit =>
        exact (calleeOfExport_yields hs unit name args.length span).bind
          fun _ _ hs₁ _ h => hpass hs₁ h
      | none =>
        dsimp only
        split
        · exact (calleeOfBase_yields hs _ name span).bind fun _ _ hs₁ _ h => hpass hs₁ h
        · refine (expr_yields hs 0 x).bindSome rfl fun object s₁ hs₁ _ hobject => ?_
          exact (calleeOfMember_yields hs₁ hobject name memberSpan args.length span).bind
            fun _ _ hs₂ _ h => hpass hs₂ h
    | _ =>
      unfold expr
      refine hvalue.bindSome rfl fun routine s₁ hs₁ _ hroutine => ?_
      exact (calleeOfValue_yields hs₁ hroutine args.length span).bind
        fun _ _ hs₂ _ h => hpass hs₂ h
  | deref x span =>
    unfold expr
    refine (expr_yields hs 0 x).bind fun x? s₁ hs₁ _ hx => ?_
    refine (asOperand_yields hs₁ hx x.span).bindSome rfl fun x' s₂ hs₂ _ hx' => ?_
    exact derefExpr_yields hs₂ hx' span
  | alloc type args size span =>
    unfold expr
    refine .read rfl ?_
    split
    · exact fail_yields hs _ _ _
    refine (typeExpr_yields hs type).bindSome rfl fun elem s₁ hs₁ hle₁ helem => ?_
    cases size with
    | some n =>
      refine (expr_yields hs₁ 0 n).bind fun n? s₂ hs₂ hle₂ hn => ?_
      refine (asOperand_yields hs₂ hn n.span).bind fun n? s₃ hs₃ hle₃ hn => ?_
      refine (coerce_yields hs₃ hn (fun _ => hs₃.formed.within_integer) n.span).bindSome rfl
        fun length s₄ hs₄ hle₄ hlength => ?_
      have helem₄ := ((helem.mono hle₂.grows).mono hle₃.grows).mono hle₄.grows
      have harray := newArray_yields hs₄ helem₄ hlength span
      dsimp only
      split
      · split
        · exact fail_yields hs₄ _ _ _
        · exact harray
      · exact harray
    | none =>
      refine .read rfl ?_
      split
      · rename_i hkind
        obtain ⟨hclass, hkey⟩ := class_of_kind hs₁.formed helem hkind
        refine .read rfl ?_
        extract_lets key cands
        split
        · split
          · exact .some hs₁ (.newObject hkey (by simp) (by simp) helem)
          · exact fail_yields hs₁ _ _ _
        refine (looseArgs_yields hs₁ _ args).bind fun es s₂ hs₂ hle₂ hes => ?_
        split
        · rename_i bound hbound
          exact construct_yields hs₂ (constructors_fit hs₁.table hs₁.formed hclass) hle₂ hkey helem
            (allBound_fits hes.1 hes.2 hbound).2 span
        · exact .none hs₂
      · split
        · refine (pointer_yields hs₁ helem).bind fun id s₂ hs₂ _ hid => ?_
          exact .some hs₂ (.newCell hid)
        · exact .read rfl (fail_yields hs₁ _ _ _)
  | addr x span =>
    unfold expr
    exact addressOf_yields hs x span want

theorem looseArgs_yields {s : Session} (hs : Fits E s) (wants : List TypeId)
    (args : List Tree.Expr) :
    Yields E s (looseArgs wants args) fun t es =>
      es.length = args.length ∧ ∀ e? ∈ es, IfSome (Expr.Fits E) t e? := by
  cases args with
  | nil =>
    unfold looseArgs
    exact .pure hs ⟨rfl, by simp⟩
  | cons a as =>
    unfold looseArgs
    refine (expr_yields hs (wants.headD 0) a).bind fun e? s₁ hs₁ _ he => ?_
    refine (looseArgs_yields hs₁ wants.tail as).bind fun es s₂ hs₂ hle₂ hes => ?_
    refine .pure hs₂ ⟨by simp [hes.1], ?_⟩
    intro e? he?
    rcases List.mem_cons.mp he? with rfl | he?
    · exact fun e h => (he e h).widen hle₂
    · exact hes.2 e? he?

theorem exactArgs_yields {s : Session} (hs : Fits E s) {params : List TypeId}
    (hparams : ∀ p ∈ params, s.types.Within E.known p) (args : List Tree.Expr) :
    Yields E s (exactArgs params args) (IfSome fun t es => ∀ e ∈ es, e.Fits E t) := by
  cases args with
  | nil =>
    unfold exactArgs
    exact .some hs (by simp)
  | cons a as =>
    unfold exactArgs
    have hwant : params.headD 0 ≠ 0 → s.types.Within E.known (params.headD 0) := by
      cases params with
      | nil => exact fun h => absurd rfl h
      | cons p ps => exact fun _ => hparams p List.mem_cons_self
    refine (expr_yields hs (params.headD 0) a).bind fun e? s₁ hs₁ hle₁ he => ?_
    refine (coerce_yields hs₁ he (fun hne => (hwant hne).mono hle₁.grows) a.span).bindSome rfl
      fun e s₂ hs₂ hle₂ he => ?_
    have htail : ∀ p ∈ params.tail, s₂.types.Within E.known p := fun p hp =>
      ((hparams p (List.mem_of_mem_tail hp)).mono hle₁.grows).mono hle₂.grows
    refine (exactArgs_yields hs₂ htail as).bindSome rfl fun es s₃ hs₃ hle₃ hes => ?_
    refine .some hs₃ fun e' he' => ?_
    rcases List.mem_cons.mp he' with rfl | he'
    · exact he.widen hle₃
    · exact hes e' he'

theorem typeExpr_yields {s : Session} (hs : Fits E s) (type : Tree.TypeExpr) :
    Yields E s (typeExpr type) (IfSome fun t id => t.Within E.known id) := by
  cases type with
  | named n =>
    unfold typeExpr
    exact namedType_yields hs n
  | array length elem span =>
    unfold typeExpr
    refine (typeExpr_yields hs elem).bindSome rfl fun e s₁ hs₁ _ he => ?_
    cases length with
    | none =>
      refine (arrayShape_yields hs₁ he rfl).bind fun id s₂ hs₂ _ hid => ?_
      exact .some hs₂ hid
    | some n =>
      refine (constantly_yields (expr_yields (hs₁.constant true) TypeTable.integer n)).bind
        fun n? s₂ hs₂ hle₂ hn => ?_
      refine (asConstant_yields hs₂ hn n.span).bindSome rfl fun bound s₃ hs₃ hle₃ _ => ?_
      refine (arrayLength_yields hs₃ bound n.span).bindSome rfl fun k s₄ hs₄ hle₄ _ => ?_
      have he₄ := ((he.mono hle₂.grows).mono hle₃.grows).mono hle₄.grows
      refine (arrayShape_yields hs₄ he₄ rfl).bind fun id s₅ hs₅ _ hid => ?_
      exact .some hs₅ hid
  | pointer elem span =>
    unfold typeExpr
    refine (typeExpr_yields hs elem).bindSome rfl fun e s₁ hs₁ _ he => ?_
    refine (pointer_yields hs₁ he).bind fun id s₂ hs₂ _ hid => ?_
    exact .some hs₂ hid
  | routine params result span =>
    unfold typeExpr
    refine (paramTypes_yields hs params).bind fun ps? s₁ hs₁ hle₁ hps => ?_
    have hresult : ∀ r? s₂, Fits E s₂ → s₁.types.Widens s₂.types →
        IfSome (fun t id => id ≠ 0 → t.Within E.known id) s₂.types r? →
        Yields E s₂ (routineOf ps? r?) (IfSome fun t id => t.Within E.known id) := by
      intro r? s₂ hs₂ hle₂ hr
      unfold routineOf
      split
      · rename_i ps r
        refine (routineType_yields hs₂ ⟨fun p hp => ((hps ps rfl).1 p hp).mono hle₂.grows,
          hr r rfl⟩).bind fun id s₃ hs₃ _ hid => ?_
        exact .some hs₃ hid
      · exact .none hs₂
    cases result with
    | none =>
      refine Yields.read rfl ?_
      exact hresult (some 0) s₁ hs₁ (.refl _) (fun _ h => by cases h; exact fun h => absurd rfl h)
    | some r =>
      refine (typeExpr_yields hs₁ r).bind fun r? s₂ hs₂ hle₂ hr => ?_
      exact hresult r? s₂ hs₂ hle₂ fun id h _ => hr id h
  | classBody base members span =>
    unfold typeExpr
    exact fail_yields hs _ _ _

theorem paramTypes_yields {s : Session} (hs : Fits E s) (params : List Tree.Param) :
    Yields E s (paramTypes params) (IfSome (ParamsFit E params)) := by
  match params with
  | [] =>
    unfold paramTypes
    exact .some hs ⟨by simp, rfl⟩
  | ⟨names, type, span⟩ :: ps =>
    unfold paramTypes
    refine (typeExpr_yields hs type).bind fun t? s₁ hs₁ hle₁ ht => ?_
    refine (paramTypes_yields hs₁ ps).bind fun ts? s₂ hs₂ hle₂ hts => ?_
    split
    · rename_i id ts
      obtain ⟨hwithin, hlength⟩ := hts ts rfl
      refine .some hs₂ ⟨?_, by simp [hlength]⟩
      intro p hp
      rcases List.mem_append.mp hp with hp | hp
      · rw [List.eq_of_mem_replicate hp]
        exact (ht id rfl).mono hle₂.grows
      · exact hwithin p hp
    · exact .none hs₂

end

end Pascaline.Bound.Bind
