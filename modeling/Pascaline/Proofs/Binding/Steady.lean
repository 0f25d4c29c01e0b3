import Mathlib
import Pascaline.Bound.Declaration

/-!
# What binding an expression or a statement leaves alone

Expressions and statements declare nothing: while they are bound, types are entered, errors are
reported and the place in the text moves, and all else in the session stays. `Keeps I x` says so of
an action `x` for a property `I` of sessions that looks at nothing else.
-/

set_option mvcgen.warning false

namespace Pascaline.Bound

open Std.Do

/-- The property looks neither at the errors nor at where in the text binding stands, and types may
be entered without harm. -/
structure Steady (I : Session → Prop) : Prop where
  errors {s : Session} (e : BindReport) : I s → I { s with errors := s.errors ++ [e] }
  types {s : Session} (shape : TypeShape) : I s → I { s with types := (s.types.intern shape).2 }
  inConst {s : Session} (b : Bool) : I s → I { s with inConst := b }
  loops {s : Session} (g : Nat → Nat) :
    I s → I { s with frame := s.frame.map fun f => { f with loops := g f.loops } }

structure Steadily (I : Session → Prop) (s : Session) : Prop where
  steady : Steady I
  holds : I s

namespace Steadily

variable {I : Session → Prop} {s : Session}

theorem errors (h : Steadily I s) (e : BindReport) :
    Steadily I { s with errors := s.errors ++ [e] } :=
  ⟨h.steady, h.steady.errors e h.holds⟩

theorem types (h : Steadily I s) (shape : TypeShape) :
    Steadily I { s with types := (s.types.intern shape).2 } :=
  ⟨h.steady, h.steady.types shape h.holds⟩

theorem inConst (h : Steadily I s) (b : Bool) : Steadily I { s with inConst := b } :=
  ⟨h.steady, h.steady.inConst b h.holds⟩

theorem loops (h : Steadily I s) (g : Nat → Nat) :
    Steadily I { s with frame := s.frame.map fun f => { f with loops := g f.loops } } :=
  ⟨h.steady, h.steady.loops g h.holds⟩

end Steadily

abbrev Keeps {α : Type} (I : Session → Prop) (x : Bind α) : Prop :=
  ⦃fun s => ⌜Steadily I s⌝⦄ x ⦃⇓? _ s => ⌜Steadily I s⌝⦄

namespace Bind

variable {I : Session → Prop} {α β : Type}

theorem of_run {x : Bind α} {P : Session → Prop} {Q : α → Session → Prop}
    (hx : ⦃fun s => ⌜P s⌝⦄ x ⦃⇓? a s => ⌜Q a s⌝⦄) {s s' : Session} {a : α} (hs : P s)
    (h : x.run s = .ok (a, s')) : Q a s' := by
  have hx : (wp⟦x.run s⟧ (fun r => ⌜Q r.1 r.2⌝, ExceptConds.true)).down := hx s hs
  rw [h] at hx
  exact hx

/-! ## Sessions -/

@[spec] theorem report_keeps (e : BindError) (span : Span) (notes : List Note) :
    Keeps I (report e span notes) := by
  mvcgen [report]
  exact Steadily.errors ‹_› _

@[spec] theorem fail_keeps (e : BindError) (span : Span) (notes : List Note) :
    Keeps I (fail e span notes : Bind (Option α)) := by
  mvcgen [fail]

@[spec] theorem types_keeps : Keeps I types := by
  mvcgen [types]

@[spec] theorem kindOf_keeps (id : TypeId) : Keeps I (kindOf id) := by
  mvcgen [kindOf]

@[spec] theorem render_keeps (id : TypeId) : Keeps I (render id) := by
  mvcgen [render]

@[spec] theorem pointer_keeps (elem : TypeId) : Keeps I (intern (·.pointer elem)) := by
  mvcgen [intern]
  exact Steadily.types ‹_› _

@[spec] theorem array_keeps (elem : TypeId) (n : Nat) : Keeps I (intern (·.array elem n)) := by
  mvcgen [intern]
  exact Steadily.types ‹_› _

@[spec] theorem dynamicArray_keeps (elem : TypeId) : Keeps I (intern (·.dynamicArray elem)) := by
  mvcgen [intern]
  exact Steadily.types ‹_› _

@[spec] theorem routineType_keeps (sig : Signature) : Keeps I (intern (·.routine sig)) := by
  mvcgen [intern]
  exact Steadily.types ‹_› _

@[spec] theorem symbol_keeps (id : SymbolId) : Keeps I (symbol id) := by
  mvcgen [symbol]

@[spec] theorem lookupLocal_keeps (scope : ScopeId) (name : String) :
    Keeps I (lookupLocal scope name) := by
  mvcgen [lookupLocal]

@[spec] theorem coerce_keeps (e : Option Expr) (target : TypeId) (span : Span) :
    Keeps I (coerce e target span) := by
  mvcgen [coerce]

@[spec] theorem asOperand_keeps (e : Option Expr) (span : Span) : Keeps I (asOperand e span) := by
  mvcgen [asOperand]

@[spec] theorem asConstant_keeps (e : Option Expr) (span : Span) : Keeps I (asConstant e span) := by
  mvcgen [asConstant]

theorem constantly_keeps {x : Bind α} (hx : Keeps I x) : Keeps I (constantly x) := by
  mvcgen [constantly, hx]
  · exact Steadily.inConst ‹_› true
  · exact Steadily.inConst ‹_› _

@[spec] theorem resolve_keeps (name : String) : Keeps I (resolve name) := by
  mvcgen [resolve]

@[spec] theorem scopeOfUnit?_keeps (unit : String) : Keeps I (scopeOfUnit? unit) := by
  mvcgen [scopeOfUnit?]

@[spec] theorem resolveIn_keeps (unit name : String) : Keeps I (resolveIn unit name) := by
  mvcgen [resolveIn]

@[spec] theorem unitNamed?_keeps (e : Tree.Expr) : Keeps I (unitNamed? e) := by
  mvcgen [unitNamed?]

@[spec] theorem thisExpr_keeps (span : Span) : Keeps I (thisExpr span) := by
  mvcgen [thisExpr]

/-! ## Lists -/

@[spec] theorem mapM_keeps {f : α → Bind β} (hf : ∀ a, Keeps I (f a)) (xs : List α) :
    Keeps I (xs.mapM f) := by
  induction xs with
  | nil => mvcgen
  | cons x xs ih =>
    rw [List.mapM_cons]
    mvcgen [hf, ih]

@[spec] theorem filterMapM_keeps {f : α → Bind (Option β)} (hf : ∀ a, Keeps I (f a)) (xs : List α) :
    Keeps I (xs.filterMapM f) := by
  induction xs with
  | nil => mvcgen
  | cons x xs ih =>
    rw [List.filterMapM_cons]
    mvcgen [hf, ih]

@[spec] theorem forM_keeps {f : α → Bind PUnit} (hf : ∀ a, Keeps I (f a)) (xs : List α) :
    Keeps I (xs.forM f) := by
  induction xs with
  | nil => mvcgen [List.forM]
  | cons x xs ih => mvcgen [List.forM, hf, ih]

@[spec] theorem findM?_keeps {f : α → Bind Bool} (hf : ∀ a, Keeps I (f a)) (xs : List α) :
    Keeps I (xs.findM? f) := by
  induction xs with
  | nil => mvcgen [List.findM?]
  | cons x xs ih => mvcgen [List.findM?, hf, ih]

@[spec] theorem foldlM_keeps {f : β → α → Bind β} (hf : ∀ b a, Keeps I (f b a)) (b : β)
    (xs : List α) : Keeps I (xs.foldlM f b) := by
  induction xs generalizing b with
  | nil => exact Triple.pure b .rfl
  | cons x xs ih =>
    rw [List.foldlM_cons]
    exact Triple.bind _ _ (hf b x) ih

/-! ## Parts of expressions -/

@[spec] theorem literal_keeps (kind : Tree.LitKind) (text : Bytes) (span : Span) :
    Keeps I (literal kind text span) := by
  mvcgen [literal]

@[spec] theorem routineValue_keeps (ids : List SymbolId) (id : Tree.Ident) (want : TypeId) :
    Keeps I (routineValue ids id want) := by
  mvcgen [routineValue]

@[spec] theorem calleeOfSymbols_keeps (ids : List SymbolId) (id : Tree.Ident) :
    Keeps I (calleeOfSymbols ids id) := by
  mvcgen [calleeOfSymbols]

@[spec] theorem calleeOfMethods_keeps (object : Expr) (ms : List Method) (id : Tree.Ident)
    (viaBase : Bool) (span : Span) : Keeps I (calleeOfMethods object ms id viaBase span) := by
  mvcgen [calleeOfMethods]

@[spec] theorem calleeOfValue_keeps (routine : Expr) (count : Nat) (span : Span) :
    Keeps I (calleeOfValue routine count span) := by
  mvcgen [calleeOfValue]

@[spec] theorem calleeOfResolved_keeps (x : SymbolId) (xs : List SymbolId) (id : Tree.Ident)
    (count : Nat) (span : Span) : Keeps I (calleeOfResolved x xs id count span) := by
  mvcgen [calleeOfResolved]

@[spec] theorem calleeOfBase_keeps (baseSpan : Span) (name : Tree.Ident) (span : Span) :
    Keeps I (calleeOfBase baseSpan name span) := by
  mvcgen [calleeOfBase]

@[spec] theorem chooseOverload_keeps (cands : List Candidate) (args : List Expr) (name : String)
    (span : Span) : Keeps I (chooseOverload cands args name span) := by
  mvcgen [chooseOverload]

@[spec] theorem nativeCall_keeps (n : Native) (args : List Expr) (span : Span) :
    Keeps I (nativeCall n args span) := by
  unfold nativeCall
  split
  · split
    · mvcgen
    · intro s _
      trivial
    · mvcgen
  · mvcgen

@[spec] theorem apply_keeps (callee : Callee) (args : List Expr) (span : Span) :
    Keeps I (callee.apply args span) := by
  mvcgen [Callee.apply]

@[spec] theorem applyBare_keeps (callee : Option Callee) (span : Span) :
    Keeps I (applyBare callee span) := by
  mvcgen [applyBare]

@[spec] theorem nameValue_keeps (res : Resolution) (id : Tree.Ident) (want : TypeId) :
    Keeps I (nameValue res id want) := by
  mvcgen [nameValue]

@[spec] theorem exportValue_keeps (unit : String) (name : Tree.Ident) (want : TypeId) :
    Keeps I (exportValue unit name want) := by
  mvcgen [exportValue]

@[spec] theorem memberValue_keeps (object : Expr) (name : Tree.Ident) (span : Span) :
    Keeps I (memberValue object name span) := by
  mvcgen [memberValue]

@[spec] theorem calleeOfMember_keeps (object : Expr) (name : Tree.Ident) (memberSpan : Span)
    (count : Nat) (span : Span) : Keeps I (calleeOfMember object name memberSpan count span) := by
  mvcgen [calleeOfMember]

@[spec] theorem calleeOfName_keeps (id : Tree.Ident) (count : Nat) (span : Span) :
    Keeps I (calleeOfName id count span) := by
  mvcgen [calleeOfName]

@[spec] theorem calleeOfExport_keeps (unit : String) (name : Tree.Ident) (count : Nat)
    (span : Span) : Keeps I (calleeOfExport unit name count span) := by
  mvcgen [calleeOfExport]

@[spec] theorem addressOf_keeps (target : Tree.Expr) (span : Span) (want : TypeId) :
    Keeps I (addressOf target span want) := by
  mvcgen [addressOf]

@[spec] theorem unaryExpr_keeps (op : Tree.UnaryOp) (x : Expr) (span : Span) :
    Keeps I (unaryExpr op x span) := by
  mvcgen [unaryExpr]

@[spec] theorem binaryExpr_keeps (op : BinaryOp) (l r : Expr) (span : Span) :
    Keeps I (binaryExpr op l r span) := by
  mvcgen [binaryExpr]

@[spec] theorem indexExpr_keeps (x i : Expr) (objectSpan indexSpan span : Span) :
    Keeps I (indexExpr x i objectSpan indexSpan span) := by
  mvcgen [indexExpr]

@[spec] theorem derefExpr_keeps (p : Expr) (span : Span) : Keeps I (derefExpr p span) := by
  mvcgen [derefExpr]

@[spec] theorem typeSymbol?_keeps (n : Tree.NamedType) : Keeps I (typeSymbol? n) := by
  mvcgen [typeSymbol?]

@[spec] theorem namedType_keeps (n : Tree.NamedType) : Keeps I (namedType n) := by
  mvcgen [namedType]

@[spec] theorem arrayLength_keeps (e : Expr) (span : Span) : Keeps I (arrayLength e span) := by
  mvcgen [arrayLength]

/-! ## Expressions and types -/

mutual

@[spec] theorem expr_keeps (want : TypeId) (e : Tree.Expr) : Keeps I (expr want e) := by
  cases e with
  | literal k text span => mvcgen [expr]
  | name id => mvcgen [expr]
  | thisRef span => mvcgen [expr]
  | baseRef span => mvcgen [expr]
  | unary op x span =>
    have hx := expr_keeps 0 x
    mvcgen [expr, hx]
  | binary op l r span =>
    have hl := expr_keeps 0 l
    have hr := expr_keeps 0 r
    mvcgen [expr, hl, hr]
  | member x name span =>
    have hx := expr_keeps 0 x
    unfold expr
    refine Triple.bind _ _ (unitNamed?_keeps x) ?_
    intro unit?
    split
    · mvcgen
    · split
      · mvcgen
      · mvcgen [hx]
  | index x i span =>
    have hx := expr_keeps 0 x
    have hi := expr_keeps 0 i
    mvcgen [expr, hx, hi]
  | call callee args span =>
    have hloose := fun wants => looseArgs_keeps wants args
    have hexact := fun params => exactArgs_keeps params args
    have hcallee := expr_keeps 0 callee
    cases callee with
    | name id => mvcgen [expr, hloose, hexact]
    | member x name memberSpan =>
      have hx := expr_keeps 0 x
      unfold expr
      dsimp only
      refine Triple.bind _ _ (unitNamed?_keeps x) ?_
      intro unit?
      split
      · mvcgen [hloose, hexact]
      · split
        · mvcgen [hloose, hexact]
        · mvcgen [hx, hloose, hexact]
    | _ =>
      unfold expr
      dsimp only
      mvcgen [hcallee, hloose, hexact]
  | deref x span =>
    have hx := expr_keeps 0 x
    mvcgen [expr, hx]
  | alloc type args size span =>
    have htype := typeExpr_keeps type
    have hargs := fun wants => looseArgs_keeps wants args
    cases size with
    | none => mvcgen [expr, htype, hargs]
    | some n =>
      have hn := expr_keeps 0 n
      mvcgen [expr, htype, hn]
  | addr x span => mvcgen [expr]

theorem looseArgs_keeps (wants : List TypeId) (args : List Tree.Expr) :
    Keeps I (looseArgs wants args) := by
  cases args with
  | nil => mvcgen [looseArgs]
  | cons a as =>
    have ha := expr_keeps (wants.headD 0) a
    have has := looseArgs_keeps wants.tail as
    mvcgen [looseArgs, ha, has]

theorem exactArgs_keeps (params : List TypeId) (args : List Tree.Expr) :
    Keeps I (exactArgs params args) := by
  cases args with
  | nil => mvcgen [exactArgs]
  | cons a as =>
    have ha := expr_keeps (params.headD 0) a
    have has := exactArgs_keeps params.tail as
    mvcgen [exactArgs, ha, has]

@[spec] theorem typeExpr_keeps (t : Tree.TypeExpr) : Keeps I (typeExpr t) := by
  cases t with
  | named n => mvcgen [typeExpr]
  | array length elem span =>
    have helem := typeExpr_keeps elem
    cases length with
    | none => mvcgen [typeExpr, helem]
    | some n =>
      have hn := constantly_keeps (expr_keeps TypeTable.integer n)
      mvcgen [typeExpr, helem, hn]
  | pointer elem span =>
    have helem := typeExpr_keeps elem
    mvcgen [typeExpr, helem]
  | routine params result span =>
    have hparams := paramTypes_keeps params
    cases result with
    | none => mvcgen [typeExpr, hparams]
    | some r =>
      have hr := typeExpr_keeps r
      mvcgen [typeExpr, hparams, hr]
  | classBody base members span => mvcgen [typeExpr]

@[spec] theorem paramTypes_keeps (params : List Tree.Param) : Keeps I (paramTypes params) := by
  match params with
  | [] => mvcgen [paramTypes]
  | ⟨names, type, span⟩ :: ps =>
    have ht := typeExpr_keeps type
    have hps := paramTypes_keeps ps
    mvcgen [paramTypes, ht, hps]

end

@[spec] theorem signature_keeps (params : List Tree.Param) (result : Option Tree.TypeExpr) :
    Keeps I (signature params result) := by
  mvcgen [signature]

@[spec] theorem operand_keeps (e : Tree.Expr) : Keeps I (operand e) := by
  mvcgen [operand]

@[spec] theorem constant_keeps (e : Tree.Expr) (want : TypeId) : Keeps I (constant e want) := by
  have he := constantly_keeps (I := I) (expr_keeps want e)
  mvcgen [constant, he]

/-! ## Statements -/

@[spec] theorem resultTarget?_keeps (e : Tree.Expr) : Keeps I (resultTarget? e) := by
  mvcgen [resultTarget?]

@[spec] theorem target_keeps (e : Tree.Expr) : Keeps I (target e) := by
  mvcgen [target]

@[spec] theorem condition_keeps (e : Tree.Expr) : Keeps I (condition e) := by
  mvcgen [condition]

theorem inLoop_keeps {x : Bind α} (hx : Keeps I x) : Keeps I (inLoop x) := by
  mvcgen [inLoop, hx]
  · exact Steadily.loops ‹_› (· + 1)
  · exact Steadily.loops ‹_› (· - 1)

@[spec] theorem loopVariable_keeps (id : Tree.Ident) : Keeps I (loopVariable id) := by
  mvcgen [loopVariable]

@[spec] theorem caseLabels_keeps (type : TypeId) (seen : List (Value × Span))
    (labels : List Tree.Expr) : Keeps I (caseLabels type seen labels) := by
  induction labels generalizing seen with
  | nil => mvcgen [caseLabels]
  | cons l ls ih => mvcgen [caseLabels, ih]

@[spec] theorem jump_keeps (kind : Tree.JumpKind) (span : Span) : Keeps I (jump kind span) := by
  mvcgen [jump]

mutual

@[spec] theorem stmt_keeps (s : Tree.Stmt) : Keeps I (stmt s) := by
  cases s with
  | empty span => mvcgen [stmt]
  | compound body span =>
    have hbody := stmts_keeps body
    mvcgen [stmt, hbody]
  | assign place value span => mvcgen [stmt]
  | call call span => mvcgen [stmt]
  | ifThen cond yes no span =>
    have hyes := stmt_keeps yes
    cases no with
    | none => mvcgen [stmt, hyes]
    | some no =>
      have hno := stmt_keeps no
      mvcgen [stmt, hyes, hno]
  | whileDo cond body span =>
    have hbody := inLoop_keeps (stmt_keeps body)
    mvcgen [stmt, hbody]
  | repeatUntil body cond span =>
    have hbody := inLoop_keeps (stmts_keeps body)
    mvcgen [stmt, hbody]
  | forTo var first last down body span =>
    have hbody := inLoop_keeps (stmt_keeps body)
    mvcgen [stmt, hbody]
  | caseOf subject arms otherwise span =>
    have harms := fun type seen => caseArms_keeps type seen arms
    have hotherwise := stmts_keeps otherwise
    mvcgen [stmt, harms, hotherwise]
  | jump kind span => mvcgen [stmt]

@[spec] theorem stmts_keeps (ss : List Tree.Stmt) : Keeps I (stmts ss) := by
  cases ss with
  | nil => mvcgen [stmts]
  | cons s ss =>
    have hs := stmt_keeps s
    have hss := stmts_keeps ss
    mvcgen [stmts, hs, hss]

theorem caseArms_keeps (type : TypeId) (seen : List (Value × Span)) (arms : List Tree.CaseArm) :
    Keeps I (caseArms type seen arms) := by
  match arms with
  | [] => mvcgen [caseArms]
  | ⟨labels, body, span⟩ :: arms =>
    have hbody := stmt_keeps body
    have harms := fun seen => caseArms_keeps type seen arms
    mvcgen [caseArms, hbody, harms]

end

end Bind

end Pascaline.Bound
