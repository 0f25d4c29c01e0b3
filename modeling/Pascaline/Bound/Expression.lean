import Pascaline.Bound.Session
import Pascaline.Text.LetterCase

/-!
# Binding expressions and types

An expression is bound from its parts outward. `want` is the type expected of it, 0 when none is:
it only decides whether the name of a routine is a call or a value, and callers still coerce.
Expressions and types refer to each other, since array lengths are expressions and allocations
name types.
-/

namespace Pascaline.Bound.Bind

/-! ## Leaves -/

def literal (kind : Tree.LitKind) (text : Bytes) (span : Span) : Bind (Option Expr) := do
  let const := fun (v : Value) (t : TypeId) => (pure (some (.const v t span)) : Bind (Option Expr))
  match kind with
  | .int =>
    match Bytes.int64? text with
    | some n => const (.int (Int64.ofInt n)) TypeTable.integer
    | none => fail (.integerRange text) span
  | .real =>
    match (RealText.read? text).filter (!·.isInf) with
    | some x => const (.real x) TypeTable.real
    | none => fail (.malformedReal text) span
  | .string => const (.string text) TypeTable.string
  | .char =>
    match Utf8.chars text with
    | [c] => const (.char (Int64.ofNat c.toNat)) TypeTable.char
    | _ => const (.string text) TypeTable.string
  | .bool => const (.ofBool (lowerText (Utf8.toString text) == "true")) TypeTable.boolean
  | .nil => const .nil TypeTable.nil

/-- A variable or parameter. -/
def storage (id : SymbolId) (sym : Symbol) (span : Span) : Expr :=
  if sym.flags.has .global then .unitVar sym.module sym.slot sym.type span
  else .frameVar id sym.slot.toNat sym.type span

def fieldOf (object : Expr) (f : Field) (span : Span) : Expr := .field object f.offset f.type span

/-- The routine among those of one name whose type is `want`, or the first if none is wanted. -/
def routineValue (ids : List SymbolId) (id : Tree.Ident) (want : TypeId) : Bind (Option Expr) := do
  let own := (← ids.mapM symbol).filter (·.kind != .native)
  match own.find? (fun s => want == 0 || s.type == want), own.head? with
  | some s, _ => return some (.routine ⟨s.module, s.routine⟩ s.type id.span)
  | none, some s => fail (.mismatch (← render s.type) (← render want)) id.span
  | none, none => fail (.notARoutineValue id.text) id.span

/-! ## Calls -/

/-- What a call calls. -/
inductive Callee where
  | overloads (cands : List Candidate) (id : Tree.Ident)
  /-- Methods of an object; those reached through `base` are not dispatched. -/
  | methods (object : Expr) (cands : List Candidate) (id : Tree.Ident) (viaBase : Bool)
  /-- A routine value. -/
  | value (routine : Expr) (sig : Signature)
  /-- An inherited field: a call of it is the field, and its arguments are not looked at. -/
  | inherited (field : Expr)

def calleeOfSymbols (ids : List SymbolId) (id : Tree.Ident) : Bind (Option Callee) := do
  let syms ← ids.mapM fun x => return (x, ← symbol x)
  let cands := syms.filterMap fun (x, sym) =>
    if sym.kind = .native then (Native.ofName? sym.native).map fun n => ⟨.native n, ⟨[], 0⟩⟩
    else if sym.kind.isRoutine then some ⟨.routine x, sym.sig⟩
    else none
  if cands.isEmpty then fail (.notCallable id.text) id.span else return some (.overloads cands id)

def calleeOfMethods (object : Expr) (ms : List Method) (id : Tree.Ident) (viaBase : Bool)
    (span : Span) : Bind (Option Callee) := do
  if (← get).inConst then fail .methodCallNotConstant span
  else return some (.methods object (ms.map .ofMethod) id viaBase)

def calleeOfValue (routine : Expr) (count : Nat) (span : Span) : Bind (Option Callee) := do
  match (← types).signature? routine.type with
  | none => fail (.notCallable (← render routine.type)) routine.span
  | some sig =>
    if sig.params.length ≠ count then
      fail (.argumentCount (← render routine.type) sig.params.length count) span
    else if (← get).inConst then fail .callNotConstant span
    else return some (.value routine sig)

/-- The routines of a name, or a variable that holds one. -/
def calleeOfResolved (x : SymbolId) (xs : List SymbolId) (id : Tree.Ident) (count : Nat)
    (span : Span) : Bind (Option Callee) := do
  let sym ← symbol x
  match sym.kind with
  | .var | .param => calleeOfValue (storage x sym id.span) count span
  | .const => calleeOfValue (.const sym.const sym.type id.span) count span
  | .type | .classRef | .unit => fail (.symbolNotCallable sym.kind sym.display) id.span
  | _ => calleeOfSymbols (x :: xs) id

/-- An inherited member, reached through `base`. -/
def calleeOfBase (baseSpan : Span) (name : Tree.Ident) (span : Span) : Bind (Option Callee) := do
  let some this ← thisExpr baseSpan | return none
  let t ← types
  let own := (t.classInfo? this.type).getD default
  if own.base = 0 then fail (.noBaseClass own.key.name) baseSpan
  else
    match t.lookupMethods own.base name.name, t.lookupField? own.base name.name with
    | [], some f => return some (.inherited (fieldOf this f span))
    | [], none =>
      let base := (t.classInfo? own.base).getD default
      fail (.noSuchMember base.key.name name.text) name.span
    | ms, _ => calleeOfMethods this ms name true span

/-- A call has the type of the result, or none. -/
def callType (sig : Signature) : TypeId := if sig.result = 0 then TypeTable.void else sig.result

/-- The candidate that the arguments fit; without one, the candidates are listed. -/
def chooseOverload (cands : List Candidate) (args : List Expr) (name : String) (span : Span) :
    Bind (Option Candidate) := do
  let t ← types
  match Candidate.choose? t cands args with
  | some c => return some c
  | none =>
    let notes ← cands.filterMapM fun c => do
      match c.target with
      | .routine x =>
        let sym ← symbol x
        return some ⟨sym.span, utf8 ("candidate: " ++ t.render sym.type)⟩
      | .method m => return some ⟨{}, utf8 ("candidate: " ++ m.selector)⟩
      | .native _ => return none
    fail (.noOverload name (args.map fun a => t.render a.type)) span notes

/-- The arguments as the parameters take them; that they fit was found before. -/
def fitArgs (t : TypeTable) (args : List Expr) (params : List TypeId) : List Expr :=
  (args.zip params).map fun (a, p) =>
    match Bound.coerce t a p with
    | .ok e => e
    | .error _ => a

/-- A call of a built-in routine; a pure one of constants is worked out if it succeeds. -/
def nativeCall (n : Native) (args : List Expr) (span : Span) : Bind (Option Expr) := do
  let result := nativeResult n args
  let call : Bind (Option Expr) := do
    if (← get).inConst then fail (.callOfNotConstant n.name) span
    else return some (.callNative n args result span)
  match n.isPure, args.mapM (·.const?) with
  | true, some vs =>
    match n.call {} vs with
    | .ok r => return some (.const r.value result span)
    | .error .breakdown => throw .breakdown
    | .error _ => call
  | _, _ => call

/-- Calls a routine or method with bound arguments. -/
def Callee.apply (callee : Callee) (args : List Expr) (span : Span) : Bind (Option Expr) := do
  match callee with
  | .overloads cands id =>
    let some c ← chooseOverload cands args id.text span | return none
    match c.target with
    | .native n => nativeCall n args span
    | .method _ => return none
    | .routine x =>
      let sym ← symbol x
      if (← get).inConst then fail (.callOfNotConstant sym.display) span
      else
        return some (.call ⟨sym.module, sym.routine⟩ (fitArgs (← types) args c.sig.params)
          (callType c.sig) span)
  | .methods object cands id viaBase =>
    let some c ← chooseOverload cands args id.text span | return none
    match c.target with
    | .method m =>
      let args := object :: fitArgs (← types) args m.sig.params
      if 0 ≤ m.slot && !viaBase then
        return some (.callVirtual m.slot.toNat args (callType m.sig) span)
      else return some (.call m.routine args (callType m.sig) span)
    | _ => return none
  | .value routine sig => return some (.callValue routine args (callType sig) span)
  | .inherited field => return some field

/-- A call without arguments. -/
def applyBare (callee : Option Callee) (span : Span) : Bind (Option Expr) := do
  match callee with
  | some c => c.apply [] span
  | none => return none

/-! ## Names -/

/-- A name used as a value: a routine is called without arguments unless a routine is wanted. -/
def nameValue (res : Resolution) (id : Tree.Ident) (want : TypeId) : Bind (Option Expr) := do
  match res with
  | .nothing => fail (.undeclared id.text) id.span
  | .field f =>
    let some this ← thisExpr id.span | return none
    return some (fieldOf this f id.span)
  | .methods ms =>
    let some this ← thisExpr id.span | return none
    applyBare (← calleeOfMethods this ms id false id.span) id.span
  | .symbols x xs =>
    let sym ← symbol x
    match sym.kind with
    | .const => return some (.const sym.const sym.type id.span)
    | .var | .param => return some (storage x sym id.span)
    | .type | .classRef => fail (.typeAsValue id.text) id.span
    | .unit => fail (.unitAsValue id.text) id.span
    | _ =>
      if (← kindOf want).isRoutine then routineValue (x :: xs) id want
      else applyBare (← calleeOfSymbols (x :: xs) id) id.span

/-- A name of a unit used as a value. -/
def exportValue (unit : String) (name : Tree.Ident) (want : TypeId) : Bind (Option Expr) := do
  match ← resolveIn unit name.name with
  | .nothing => fail (.notExported unit name.text) name.span
  | res => nameValue res name want

/-- A member of an object used as a value; methods are called without arguments. -/
def memberValue (object : Expr) (name : Tree.Ident) (span : Span) : Bind (Option Expr) := do
  let t ← types
  match t.classOf? object.type with
  | none => fail (.noMembers (t.render object.type)) name.span
  | some c =>
    match t.lookupField? c.type name.name, t.lookupMethods c.type name.name with
    | some f, _ => return some (fieldOf object f span)
    | none, [] => fail (.noSuchMember c.key.name name.text) name.span
    | none, ms => applyBare (← calleeOfMethods object ms name false span) span

/-- A member of an object that is called; methods come before fields. -/
def calleeOfMember (object : Expr) (name : Tree.Ident) (memberSpan : Span) (count : Nat)
    (span : Span) : Bind (Option Callee) := do
  let t ← types
  match t.classOf? object.type with
  | none => fail (.noMembers (t.render object.type)) name.span
  | some c =>
    match t.lookupMethods c.type name.name, t.lookupField? c.type name.name with
    | [], some f => calleeOfValue (fieldOf object f memberSpan) count span
    | [], none => fail (.noSuchMember c.key.name name.text) name.span
    | ms, _ => calleeOfMethods object ms name false span

def calleeOfName (id : Tree.Ident) (count : Nat) (span : Span) : Bind (Option Callee) := do
  match ← resolve id.name with
  | .nothing => fail (.undeclared id.text) id.span
  | .methods ms =>
    let some this ← thisExpr id.span | return none
    calleeOfMethods this ms id false span
  | .field f =>
    let some this ← thisExpr id.span | return none
    calleeOfValue (fieldOf this f id.span) count span
  | .symbols x xs => calleeOfResolved x xs id count span

def calleeOfExport (unit : String) (name : Tree.Ident) (count : Nat) (span : Span) :
    Bind (Option Callee) := do
  match ← resolveIn unit name.name with
  | .symbols x xs => calleeOfResolved x xs name count span
  | _ => fail (.notExported unit name.text) name.span

/-- The routine after `@`, by name or by unit and name. -/
def addressOf (target : Tree.Expr) (span : Span) (want : TypeId) : Bind (Option Expr) := do
  let want := if (← kindOf want).isRoutine then want else 0
  let value := fun (res : Resolution) (id : Tree.Ident) => do
    match res with
    | .nothing => fail (.undeclared id.text) id.span
    | .symbols x xs =>
      let kind := (← symbol x).kind
      if kind.isRoutine && kind != .method then routineValue (x :: xs) id want
      else fail .notAddressable span
    | _ => fail .notAddressable span
  match target with
  | .name id => value (← resolve id.name) id
  | .member x id _ =>
    match ← unitNamed? x with
    | some unit => value (← resolveIn unit id.name) id
    | none => fail .notAddressable span
  | _ => fail .notAddressable span

/-! ## Operators -/

def unaryExpr (op : Tree.UnaryOp) (x : Expr) (span : Span) : Bind (Option Expr) := do
  let k ← kindOf x.type
  let bad := do fail (.unaryOperand op (← render x.type)) span
  match op with
  | .plus => if k.isNumeric then return some x else bad
  | .minus => if k.isNumeric then return some (mkUnary .neg x span) else bad
  | .not => if k = .boolean || k = .integer then return some (mkUnary .not x span) else bad

def binaryExpr (op : BinaryOp) (l r : Expr) (span : Span) : Bind (Option Expr) := do
  let t ← types
  match typeBinary t op l r with
  | none => fail (.binaryOperands op (t.render l.type) (t.render r.type)) span
  | some (l, r, result) =>
    let op := if op = .add && result = TypeTable.string then .concat else op
    return some (mkBinary op l r result span)

/-- The character of a constant text at a constant index inside it. -/
def constChar? (x i : Expr) : Option Char :=
  match x.const?, i.const? with
  | some (.string s), some (.int n) => if n < 0 then none else (Utf8.chars s)[n.toInt.toNat]?
  | _, _ => none

def indexExpr (x i : Expr) (objectSpan indexSpan span : Span) : Bind (Option Expr) := do
  let some i ← coerce (some i) TypeTable.integer indexSpan | return none
  match (← types).shape? x.type with
  | some .string =>
    match constChar? x i with
    | some c => return some (.const (.char (Int64.ofNat c.toNat)) TypeTable.char span)
    | none => return some (.character x i TypeTable.char span)
  | some (.array elem _) =>
    if (← get).inConst then fail .elementNotConstant span
    else return some (.element x i elem span)
  | _ => fail (.notIndexable (← render x.type)) objectSpan

/-- A pointer to a class already is the object, so following it only changes the type. -/
def derefExpr (p : Expr) (span : Span) : Bind (Option Expr) := do
  match (← types).shape? p.type with
  | some (.pointer elem) =>
    if (← kindOf elem) = .classRef then return some (p.relabel elem span)
    else return some (.deref p elem span)
  | _ => fail (.notAPointer (← render p.type)) span

/-- The constructors that a class shows, the most derived first. -/
def constructors (t : TypeTable) (id : TypeId) : List Method :=
  (t.chain id).foldl
    (fun seen c => TypeTable.addVisible seen (c.methods.filter (·.kind == .constructor))) []

/-! ## Types -/

/-- The symbol that a type name means, without any report. -/
def typeSymbol? (n : Tree.NamedType) : Bind (Option Symbol) := do
  let ids ← match n.unit with
    | some unit =>
      match ← scopeOfUnit? unit.name with
      | some scope => lookupLocal scope n.name.name
      | none => pure []
    | none =>
      let s ← get
      pure (((s.scopes.lookup s.scope n.name.name).toOption.map (·.1)).getD [])
  match ids with
  | x :: _ => return some (← symbol x)
  | [] => return none

def namedType (n : Tree.NamedType) : Bind (Option TypeId) := do
  match ← typeSymbol? n, n.unit with
  | some sym, _ =>
    if sym.kind.isTypeName then return some sym.type
    else fail (.notAType n.name.text sym.kind) n.name.span [⟨sym.span, utf8 "declared here"⟩]
  | none, some unit =>
    if (← scopeOfUnit? unit.name).isNone then fail (.unknownUnit unit.text) unit.span
    else fail (.typeNotExported unit.text n.name.text) n.name.span
  | none, none => fail (.undeclaredType n.name.text) n.name.span

/-- A length is a positive constant that fits 32 bits and is not the mark of dynamic arrays. -/
def arrayLength (e : Expr) (span : Span) : Bind (Option Nat) := do
  match e.const? with
  | some (.int n) =>
    if 0 < n.toInt && n.toInt < TypeTable.dynamicLength then return some n.toInt.toNat
    else fail (.lengthOutOfRange n) span
  | _ => fail (.lengthNotInteger (← render e.type)) span

/-! ## Expressions -/

/-- All arguments, if none of them failed. -/
def allBound (args : List (Option Expr)) : Option (List Expr) := args.mapM id

mutual

/-- Binds an expression; nothing is returned after an error. -/
def expr (want : TypeId) : Tree.Expr → Bind (Option Expr)
  | .literal k text span => literal k text span
  | .name id => do nameValue (← resolve id.name) id want
  | .thisRef span => do
    if (← get).inConst then fail .thisNotConstant span else thisExpr span
  | .baseRef span => do
    let some _ ← thisExpr span | return none
    fail .bareBase span
  | .unary op x span => do
    let some x ← asOperand (← expr 0 x) x.span | return none
    unaryExpr op x span
  | .binary op l r span => do
    let left ← asOperand (← expr 0 l) l.span
    let right ← asOperand (← expr 0 r) r.span
    match left, right with
    | some l, some r => binaryExpr (.ofTree op) l r span
    | _, _ => return none
  | .member x name span => do
    match ← unitNamed? x with
    | some unit => exportValue unit name want
    | none =>
      match x with
      | .baseRef baseSpan => applyBare (← calleeOfBase baseSpan name span) span
      | other =>
        let some object ← expr 0 other | return none
        memberValue object name span
  | .index x i span => do
    let object ← asOperand (← expr 0 x) x.span
    let index ← asOperand (← expr 0 i) i.span
    match object, index with
    | some o, some n => indexExpr o n x.span i.span span
    | _, _ => return none
  | .call callee args span => do
    let callee ← match callee with
      | .name id => calleeOfName id args.length span
      | .member x name memberSpan => do
        match ← unitNamed? x with
        | some unit => calleeOfExport unit name args.length span
        | none =>
          match x with
          | .baseRef baseSpan => calleeOfBase baseSpan name span
          | other =>
            let some object ← expr 0 other | return none
            calleeOfMember object name memberSpan args.length span
      | other => do
        let some routine ← expr 0 other | return none
        calleeOfValue routine args.length span
    match callee with
    | none => return none
    | some (.inherited field) => return some field
    | some (.value routine sig) =>
      let some bound ← exactArgs sig.params args | return none
      Callee.apply (.value routine sig) bound span
    | some c =>
      let cands := match c with
        | .overloads cands _ | .methods _ cands _ _ => cands
        | _ => []
      let some bound := allBound (← looseArgs (Candidate.wanted (← types) cands args.length) args)
        | return none
      c.apply bound span
  | .deref x span => do
    let some p ← asOperand (← expr 0 x) x.span | return none
    derefExpr p span
  | .alloc type args size span => do
    if (← get).inConst then fail .allocationNotConstant span
    else
      let some elem ← typeExpr type | return none
      match size with
      | some n =>
        let length ← asOperand (← expr 0 n) n.span
        let some length ← coerce length TypeTable.integer n.span | return none
        match length.const? with
        | some (.int k) =>
          if k < 0 then fail (.lengthNegative k) n.span
          else return some (.newArray elem length (← intern (·.dynamicArray elem)) span)
        | _ => return some (.newArray elem length (← intern (·.dynamicArray elem)) span)
      | none =>
        if (← kindOf elem) = .classRef then
          let t ← types
          let key := ((t.classInfo? elem).getD default).key
          let cands := (constructors t elem).map Candidate.ofMethod
          if cands.isEmpty then
            if args.isEmpty then return some (.newObject key none [] elem span)
            else fail (.noConstructorWithArgs key.name) span
          else
            let some bound := allBound (← looseArgs (Candidate.wanted t cands args.length) args)
              | return none
            let some c ← chooseOverload cands bound key.name span | return none
            match c.target with
            | .method m =>
              return some
                (.newObject key (some m.routine) (fitArgs (← types) bound m.sig.params) elem span)
            | _ => return none
        else if args.isEmpty then
          return some (.newCell elem (← intern (·.pointer elem)) span)
        else fail (.noConstructor (← render elem)) type.span
  | .addr x span => addressOf x span want

/-- Binds arguments for overloads: all of them, whatever fails. -/
def looseArgs (wants : List TypeId) : List Tree.Expr → Bind (List (Option Expr))
  | [] => return []
  | a :: as => do
    let e ← expr (wants.headD 0) a
    return e :: (← looseArgs wants.tail as)

/-- Binds arguments for known parameters, up to the first failure. -/
def exactArgs (params : List TypeId) : List Tree.Expr → Bind (Option (List Expr))
  | [] => return some []
  | a :: as => do
    let want := params.headD 0
    let some e ← coerce (← expr want a) want a.span | return none
    let some es ← exactArgs params.tail as | return none
    return some (e :: es)

/-- The type that a type expression means. -/
def typeExpr : Tree.TypeExpr → Bind (Option TypeId)
  | .named n => namedType n
  | .array length elem _ => do
    let some e ← typeExpr elem | return none
    match length with
    | none => return some (← intern (·.dynamicArray e))
    | some n =>
      let bound ← asConstant (← constantly (expr TypeTable.integer n)) n.span
      let some bound := bound | return none
      let some k ← arrayLength bound n.span | return none
      return some (← intern (·.array e k))
  | .pointer elem _ => do
    let some e ← typeExpr elem | return none
    return some (← intern (·.pointer e))
  | .routine params result _ => do
    let ps ← paramTypes params
    let res ← match result with
      | some r => typeExpr r
      | none => pure (some 0)
    match ps, res with
    | some ps, some r => return some (← intern (·.routine ⟨ps, r⟩))
    | _, _ => return none
  | .classBody _ _ span => fail .classInExpression span

/-- The types of all parameters, one for each name; a failure does not hide the next. -/
def paramTypes : List Tree.Param → Bind (Option (List TypeId))
  | [] => return some []
  | ⟨names, type, _⟩ :: ps => do
    let t ← typeExpr type
    let rest ← paramTypes ps
    match t, rest with
    | some t, some ts => return some (List.replicate names.length t ++ ts)
    | _, _ => return none

end

/-- The signature of a routine header. -/
def signature (params : List Tree.Param) (result : Option Tree.TypeExpr) :
    Bind (Option Signature) := do
  let ps ← paramTypes params
  let res ← match result with
    | some r => typeExpr r
    | none => pure (some 0)
  match ps, res with
  | some params, some result => return some ⟨params, result⟩
  | _, _ => return none

/-- Binds an expression that must be a value. -/
def operand (e : Tree.Expr) : Bind (Option Expr) := do asOperand (← expr 0 e) e.span

/-- Binds an expression that must be constant. -/
def constant (e : Tree.Expr) (want : TypeId) : Bind (Option Expr) := do
  asConstant (← constantly (expr want e)) e.span

end Pascaline.Bound.Bind
