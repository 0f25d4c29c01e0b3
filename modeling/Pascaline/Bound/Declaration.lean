import Pascaline.Bound.Statement

/-!
# Binding files

Classes are made known before anything else, so that declarations may refer to them in any order.
Then all declarations are entered, classes are laid out, method bodies are attached to their
classes, and at last the bodies are bound, when every name is known.
-/

namespace Pascaline.Bound

namespace Bind

def exportFlag (exported : Bool) : SymbolFlags := if exported then .exported else {}

/-! ## Symbols -/

/-- A symbol of the unit at hand under the name it is declared by. -/
def named (name : Tree.Ident) (kind : SymbolKind) (flags : SymbolFlags) : Bind Symbol := do
  return { name := name.name, display := name.text, kind, flags, span := name.span,
           module := (← get).unit }

def declareType (scope : ScopeId) (name : Tree.Ident) (type : TypeId) (exported : Bool) :
    Bind (Option SymbolId) := do
  let kind := if (← kindOf type) = .classRef then .classRef else .type
  declare scope { ← named name kind (exportFlag exported) with type } false

/-- A variable takes the next slot of the routine at hand or, outside of one, of the unit. -/
def declareVar (scope : ScopeId) (name : Tree.Ident) (type : TypeId) (exported : Bool) :
    Bind Unit := do
  let s ← get
  let slot : Slot := ⟨name.text, type⟩
  match s.frame with
  | none =>
    let sym ← named name .var ((exportFlag exported).union .global)
    if (← declare scope { sym with type, slot := s.globals.length } false).isSome then
      modify fun s => { s with globals := s.globals ++ [slot] }
  | some f =>
    let sym ← named name .var (exportFlag exported)
    if (← declare scope { sym with type, slot := f.slots.length } false).isSome then
      modify fun s => { s with frame := s.frame.map fun f => { f with slots := f.slots ++ [slot] } }

def declareVars (scope : ScopeId) (d : Tree.VarDecl) (exported : Bool) : Bind Unit := do
  let some type ← typeExpr d.type | return
  d.names.forM fun name => declareVar scope name type exported

/-- A constant; one whose type cannot be made out takes the type of its value. -/
def declareConst (scope : ScopeId) (d : Tree.ConstDecl) (exported : Bool) : Bind Unit := do
  let want ← match d.type with
    | some t => pure ((← typeExpr t).getD 0)
    | none => pure 0
  let some e ← coerce (← constant d.value want) want d.value.span | return
  let sym ← named d.name .const (exportFlag exported)
  let type := if want = 0 then e.type else want
  let _ ← declare scope { sym with type, const := e.const?.getD .invalid } false

def newRoutine (name : String) (sym : SymbolId) (owner : TypeId) (span : Span) : Bind Nat :=
  modifyGet fun s =>
    (s.routines.size, { s with routines := s.routines.push { name, symbol := sym, owner, span } })

/-- Keeps a body until all declarations are known. -/
def queueBody (decl : Tree.RoutineDecl) (body : Tree.Block) (id : SymbolId) (owner : TypeId)
    (sig : Signature) : Bind Unit := do
  let routine := (← symbol id).routine.toNat
  modify fun s => { s with
    routines := s.routines.modify routine fun r => { r with hasBody := true, span := decl.span }
    bodies := s.bodies ++ [{ routine, decl, body, symbol := id, owner, sig }] }

/-- A symbol that waited for its body has found it. -/
def settle (id : SymbolId) (sym : Symbol) : Bind Unit :=
  modify fun s => { s with
    scopes := s.scopes.setSymbol id { sym with flags := sym.flags.without .forward } }

/-! ## Routines -/

/-- A routine of the unit. A body may follow an earlier declaration of the same parameters;
otherwise the same name needs other parameters. -/
def declareRoutine (d : Tree.RoutineDecl) (exported : Bool) : Bind Unit := do
  let h := d.header
  if h.kind = .constructor then report (.constructorOutsideClass h.name.text) h.name.span
  else
    if h.isVirtual || h.isOverride then report .directiveOutsideClass h.name.span
    let some sig ← signature h.params h.result | return
    let t ← types
    let sel := t.selector h.name.name sig.params
    let scope := (← get).unitScope
    let earlier ← (← lookupLocal scope h.name.name).findM? fun id => do
      let sym ← symbol id
      return sym.kind.isRoutine && t.selector sym.name sym.sig.params = sel
    match earlier with
    | some id =>
      let prev ← symbol id
      match prev.flags.has .forward, d.body with
      | true, some body =>
        if prev.sig.result ≠ sig.result then
          report (.resultDiffers h.name.text) h.span [⟨prev.span, utf8 "declared here"⟩]
        else
          settle id prev
          queueBody d body id 0 sig
      | _, _ => report (.taken sel) h.name.span [⟨prev.span, utf8 "previous declaration"⟩]
    | none =>
      let kind := if sig.result = 0 then .procedure else .function
      let type ← intern (·.routine sig)
      let flags := (exportFlag exported).union (if d.body.isNone then .forward else {})
      let sym ← named h.name kind flags
      let routine := (← get).routines.size
      let some id ← declare scope { sym with type, sig, routine } true | return
      let _ ← newRoutine h.name.text id 0 h.span
      match d.body with
      | some body => queueBody d body id 0 sig
      | none => return

/-! ## Classes -/

/-- Makes the classes among declarations known by name. -/
def registerClasses (decls : List Tree.Decl) (exported : Bool) : Bind Unit :=
  decls.forM fun d => do
    match d with
    | .plain (.type ⟨name, .classBody base members _, _⟩) =>
      let s ← get
      match ← lookupLocal s.unitScope name.name with
      | prev :: _ =>
        let other ← symbol prev
        report (.typeTaken name.text) name.span [⟨other.span, utf8 "previous declaration"⟩]
      | [] =>
        let id ← intern (·.newClass ⟨s.unit, name.name⟩)
        let _ ← declareType s.unitScope name id exported
        let scope ← newScope .classBody s.unitScope
        modify fun s => { s with classes := s.classes ++ [{ id, name, base, members, scope }] }
    | _ => return

/-- Declares a method header in its class; the same name needs other parameters. -/
def declareMethod (c : ClassHead) (h : Tree.Header) (sig : Signature) :
    Bind (Option SymbolId) := do
  let t ← types
  let key := ((t.classInfo? c.id).getD default).key
  let type ← intern (·.routine sig)
  let sel := t.selector h.name.name sig.params
  let clash ← (← lookupLocal c.scope h.name.name).findM? fun id => do
    let sym ← symbol id
    return sym.kind ≠ .method || t.selector sym.name sym.sig.params = sel
  match clash with
  | some id =>
    let prev ← symbol id
    fail (.takenInClass sel) h.name.span [⟨prev.span, utf8 "previous declaration"⟩]
  | none =>
    let sym ← named h.name .method .forward
    let routine := (← get).routines.size
    let some id ← declare c.scope { sym with type, sig, owner := c.id, routine } true | return none
    let _ ← newRoutine (key.name ++ "." ++ h.name.text) id c.id h.span
    return some id

def methodKind : Tree.RoutineKind → MethodKind
  | .procedure => .procedure
  | .function => .function
  | .constructor => .constructor

def fieldSpecs (c : ClassHead) (d : Tree.VarDecl) : Bind (List FieldSpec) := do
  let some type ← typeExpr d.type | return []
  d.names.filterMapM fun name => do
    let sym ← named name .field {}
    if (← declare c.scope { sym with type, owner := c.id } false).isSome then
      return some ⟨name.name, type, name.span⟩
    else return none

def methodSpec (c : ClassHead) (h : Tree.Header) : Bind (Option MethodSpec) := do
  let some sig ← signature h.params h.result | return none
  let some id ← declareMethod c h sig | return none
  return some { name := h.name.name, kind := methodKind h.kind, sig,
                isVirtual := h.isVirtual, isOverride := h.isOverride,
                routine := ⟨(← get).unit, (← symbol id).routine⟩, span := h.name.span }

/-- Resolves the base and the members of a class. -/
def classDecl (c : ClassHead) : Bind ClassDecl := do
  let base ← match c.base with
    | some b => do pure (((← typeSymbol? b).map (·.type)).getD 0)
    | none => pure 0
  let (fields, methods) ← c.members.foldlM (fun (fs, ms) m => do
    match m with
    | .field d => return (fs ++ (← fieldSpecs c d), ms)
    | .method h => return (fs, ms ++ (← methodSpec c h).toList)) ([], [])
  return { id := c.id, baseName := (c.base.map (·.name.text)).getD "", base, fields, methods,
           span := (c.base.map (·.span)).getD c.name.span }

def layoutClasses : Bind Unit := do
  let classes := (← get).classes
  let decls ← classes.mapM classDecl
  let errors ← modifyGet fun s =>
    let (types, es) := Layout.layoutAll decls s.types (classes.map (·.id))
    (es, { s with types })
  errors.forM fun e => report (.layout e) e.span

/-- Attaches a method body to its declaration in the class. -/
def attachMethod (d : Tree.RoutineDecl) (owner : Tree.Ident) : Bind Unit := do
  let h := d.header
  match (← get).classes.find? (·.name.name == owner.name) with
  | none => report (.notAnOwnClass owner.text) owner.span
  | some c =>
    let some sig ← signature h.params h.result | return
    let t ← types
    let sel := t.selector h.name.name sig.params
    let declared ← (← lookupLocal c.scope h.name.name).findM? fun id => do
      let sym ← symbol id
      return sym.kind = .method && t.selector sym.name sym.sig.params = sel
    match declared with
    | none => report (.noSuchMethod c.name.text sel) h.name.span
    | some id =>
      let sym ← symbol id
      let methods := ((t.classInfo? c.id).getD default).methods
      let kind := ((methods.find? (·.selector == sel)).map (·.kind)).getD .none
      if !sym.flags.has .forward then report (.implementedTwice c.name.text sel) h.name.span
      else if sym.sig.result ≠ sig.result || methodKind h.kind ≠ kind then
        report (.implementationDiffers c.name.text h.name.text) h.span
          [⟨sym.span, utf8 "declared here"⟩]
      else
        match d.body with
        | none => report (.bodyMissing c.name.text h.name.text) h.name.span
        | some body =>
          if h.isVirtual || h.isOverride then report .directiveOnBody h.name.span
          settle id sym
          queueBody d body id c.id sig

/-! ## Declarations -/

def declareAll (decls : List Tree.Decl) (exported : Bool) : Bind Unit :=
  decls.forM fun d => do
    let scope := (← get).unitScope
    match d with
    | .plain (.const d) => declareConst scope d exported
    | .plain (.type ⟨_, .classBody .., _⟩) => return
    | .plain (.type d) =>
      let some type ← typeExpr d.type | return
      let _ ← declareType scope d.name type exported
    | .plain (.var d) => declareVars scope d exported
    | .routine d =>
      if d.header.owner.isSome then modify fun s => { s with methods := s.methods ++ [d] }
      else declareRoutine d exported

def declareLocals (decls : List Tree.LocalDecl) : Bind Unit :=
  decls.forM fun d => do
    let scope := (← get).scope
    match d with
    | .const d => declareConst scope d false
    | .type ⟨name, .classBody .., _⟩ => report (.localClass name.text) name.span
    | .type d =>
      let some type ← typeExpr d.type | return
      let _ ← declareType scope d.name type false
    | .var d => declareVars scope d false

/-- Every routine that was declared needs a body. -/
def checkBodies : Bind Unit := do
  for r in (← get).routines do
    if !r.hasBody && r.symbol ≠ 0 then
      report (.neverImplemented r.name) (← symbol r.symbol).span

/-! ## Bodies -/

/-- Adds a slot to the routine at hand, whether its name is free or not. -/
def declareSlot (sym : Symbol) : Bind Unit := do
  let s ← get
  let slots := (s.frame.map (·.slots)).getD []
  modify fun s => { s with frame := s.frame.map fun f =>
    { f with slots := f.slots ++ [⟨sym.display, sym.type⟩] } }
  let _ ← declare s.scope { sym with module := s.unit, slot := slots.length } false

/-- Binds a body in a scope of its own and stores what came of it. -/
def inFrame (routine : Nat) (frame : Frame) (bindBody : Bind Routine) : Bind Unit := do
  modify fun s => { s with frame := some frame, scope := frame.scope }
  let r ← bindBody
  modify fun s => { s with
    routines := s.routines.set! routine r
    frame := none
    scope := s.unitScope }

/-- Gives the receiver and the parameters of a routine their slots, and counts them. -/
def declareParams (p : PendingBody) : Bind Nat := do
  let h := p.decl.header
  if p.owner ≠ 0 then
    declareSlot { name := "this", display := "this", kind := .param, flags := .this,
                  type := p.owner, span := h.span }
  let names := h.params.flatMap (·.names)
  (names.zip p.sig.params).forM fun (n, type) =>
    declareSlot { name := n.name, display := n.text, kind := .param, type, span := n.span }
  return (((← get).frame.map (·.slots)).getD []).length

/-- Gives the result of a function the slot behind its parameters. -/
def declareResult (p : PendingBody) (params : Nat) : Bind (Option Nat) := do
  let result := if p.sig.result = 0 then none else some params
  modify fun s => { s with frame := s.frame.map ({ · with result }) }
  if p.sig.result ≠ 0 then
    declareSlot { name := "result", display := "Result", kind := .var, flags := .result,
                  type := p.sig.result, span := p.decl.header.span }
  return result

/-- Binds a body in the frame that is at hand. -/
def boundRoutine (p : PendingBody) : Bind Routine := do
  let params ← declareParams p
  let result ← declareResult p params
  declareLocals p.decl.locals
  let body ← stmts p.body.body
  let s ← get
  return { s.routines.getD p.routine default with
           params, result, slots := (s.frame.map (·.slots)).getD [], body }

def routineBody (p : PendingBody) : Bind Unit := do
  let s ← get
  let scope ← newScope .routine s.unitScope
  inFrame p.routine { scope, owner := p.owner, function := p.symbol } (boundRoutine p)

/-- Binds the body of a program or the initialization of a unit. -/
def fileBody (name : String) (block : Tree.Block) : Bind Nat := do
  let routine ← newRoutine name 0 0 block.span
  let scope ← newScope .routine (← get).unitScope
  inFrame routine { scope } do
    let body ← stmts block.body
    let s ← get
    return { s.routines.getD routine default with body, hasBody := true }
  return routine

/-! ## Scopes of a file -/

def declareBuiltins (scope : ScopeId) : Bind Unit := do
  let types := [("integer", TypeTable.integer), ("real", TypeTable.real),
    ("boolean", TypeTable.boolean), ("char", TypeTable.char), ("string", TypeTable.string)]
  types.forM fun (name, type) => do
    let _ ← tryDeclare scope
      { name, display := name, kind := .type, type, flags := .builtin } false
  Native.all.forM fun n => do
    let _ ← tryDeclare scope
      { name := n.name, display := n.name, kind := .native, native := n.name, flags := .builtin } true

/-- Keeps the first use of every unit and reports the others. -/
def distinctUses : (seen : List Tree.Ident) → List Tree.Ident → Bind (List Tree.Ident)
  | _, [] => return []
  | seen, u :: us => do
    match seen.find? (·.name == u.name) with
    | some first =>
      report (.listedTwice u.text) u.span [⟨first.span, utf8 "first listed here"⟩]
      distinctUses seen us
    | none => return u :: (← distinctUses (u :: seen) us)

/-- Opens the scope of a used unit inside `parent`, and returns the innermost scope. -/
def openUnit (imports : List Import) (parent : ScopeId) (u : Tree.Ident) : Bind ScopeId := do
  match imports.find? (·.name == u.name) with
  | none =>
    report (.unknownUnit u.text) u.span
    return parent
  | some imp =>
    if imp.kind = .program then
      report (.programUsed u.text) u.span
      return parent
    else
      let scope ← newScope .exports parent
      imp.symbols.forM fun sym => do
        let _ ← tryDeclare scope { sym with flags := sym.flags.union .imported } true
      modify fun s => { s with unitScopes := s.unitScopes ++ [(u.name, scope)] }
      return scope

/-- Nests the scopes of a file: built-in names outermost, then the units in the order of their
use, the names of units, and the unit itself. Returns the units used. -/
def openScopes (imports : List Import) (file : Tree.File) : Bind (List String) := do
  let builtins ← newScope .builtin 0
  declareBuiltins builtins
  let uses ← distinctUses [] file.allUses
  let innermost ← uses.foldlM (openUnit imports) builtins
  let names ← newScope .block innermost
  let unitSymbol := fun (u : Tree.Ident) =>
    ({ name := u.name, display := u.text, kind := .unit, module := u.name, span := u.span } : Symbol)
  uses.forM fun u => do
    if (← scopeOfUnit? u.name).isSome then
      let _ ← tryDeclare names (unitSymbol u) false
  let _ ← tryDeclare names (unitSymbol file.name) false
  let scope ← newScope .unit names
  modify fun s => { s with
    unitScope := scope, scope, unitScopes := (file.name.name, scope) :: s.unitScopes }
  return uses.map (·.name)

/-- Enters the declarations of a file, lays out its classes and attaches their method bodies. -/
def declarations (f : Tree.File) : Bind Unit := do
  registerClasses f.interface true
  registerClasses f.implementation false
  declareAll f.interface true
  declareAll f.implementation false
  layoutClasses
  (← get).methods.forM fun d =>
    match d.header.owner with
    | some owner => attachMethod d owner
    | none => return

/-- Binds the bodies of a file, its own at last, and returns the number of that one. -/
def allBodies (f : Tree.File) : Bind (Option Nat) := do
  checkBodies
  (← get).bodies.forM routineBody
  match f.body with
  | some block =>
    let name := if f.kind = .unit then "initialization" else "main"
    return some (← fileBody name block)
  | none => return none

/-- Binds a whole file. -/
def file (imports : List Import) (path : String) (f : Tree.File) : Bind Module := do
  let uses ← openScopes imports f
  declarations f
  let body ← allBodies f
  let s ← get
  let own := ((s.scopes.scope? s.unitScope).map (·.symbols)).getD []
  let isExported := fun id => (s.scopes.symbol? id).any (·.flags.has .exported)
  return { name := f.name.name, display := f.name.text, kind := f.kind, path,
           file := f.span.file, uses, globals := s.globals, routines := s.routines.toList,
           init := if f.kind = .unit then body else none,
           main := if f.kind = .unit then none else body,
           classes := s.classes.map (·.id),
           exports := own.filter isExported, privates := own.filter (!isExported ·),
           scopes := s.scopes }

end Bind

/-- What binding a file yields: the module, which means nothing if there are errors, and the types
of the session. -/
structure BindResult where
  module : Module
  types : TypeTable
  errors : List Diagnostic

/-- Binds a file against the units it may use. -/
def Module.ofFile (types : TypeTable) (imports : List Import) (path : String) (f : Tree.File) :
    Except Breakdown BindResult := do
  let (module, s) ← (Bind.file imports path f).run { types, unit := f.name.name }
  return ⟨module, s.types, s.errors.map (·.diagnostic)⟩

end Pascaline.Bound
