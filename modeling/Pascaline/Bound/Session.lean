import Pascaline.Bound.Coercion

/-!
# The state of binding

What is known while a file is bound: the types, the scopes, what was declared so far, the errors,
and the routine whose body is at hand.
-/

namespace Pascaline.Bound

/-- A class that the file declares. -/
structure ClassHead where
  id : TypeId
  name : Tree.Ident
  base : Option Tree.NamedType
  members : List Tree.Member
  scope : ScopeId

/-- A body that waits until all declarations are known. -/
structure PendingBody where
  routine : Nat
  decl : Tree.RoutineDecl
  body : Tree.Block
  symbol : SymbolId
  owner : TypeId
  sig : Signature

/-- The routine whose body is being bound. `owner` is its class, 0 for none, and `function` the
symbol by whose name its result is assigned. -/
structure Frame where
  scope : ScopeId
  owner : TypeId := 0
  function : SymbolId := 0
  result : Option Nat := none
  loops : Nat := 0
  slots : List Slot := []

structure Session where
  types : TypeTable
  scopes : ScopeTable := {}
  unit : String
  unitScope : ScopeId := 0
  /-- The scope of each unit that can be named. -/
  unitScopes : List (String × ScopeId) := []
  scope : ScopeId := 0
  frame : Option Frame := none
  /-- Whether the expression at hand must be constant. -/
  inConst : Bool := false
  globals : List Slot := []
  routines : Array Routine := #[]
  classes : List ClassHead := []
  methods : List Tree.RoutineDecl := []
  bodies : List PendingBody := []
  errors : List BindReport := []

/-- A built-in routine broke down while a constant was worked out. -/
inductive Breakdown where
  | breakdown
deriving Repr

/-- Binding changes the session and, but for a breakdown, goes on after every error. -/
abbrev Bind (α : Type) := StateT Session (Except Breakdown) α

namespace Bind

def report (e : BindError) (span : Span) (notes : List Note := []) : Bind Unit :=
  modify fun s => { s with errors := s.errors ++ [⟨e, span, notes⟩] }

/-- Reports an error in place of a result. -/
def fail {α : Type} (e : BindError) (span : Span) (notes : List Note := []) : Bind (Option α) := do
  report e span notes
  return none

def types : Bind TypeTable := do return (← get).types

def kindOf (id : TypeId) : Bind TypeKind := do return (← types).kind id

/-- The text of a type in messages. -/
def render (id : TypeId) : Bind String := do return (← types).render id

/-- Enters a type. -/
def intern (f : TypeTable → TypeId × TypeTable) : Bind TypeId :=
  modifyGet fun s =>
    let (id, types) := f s.types
    (id, { s with types })

def symbol (id : SymbolId) : Bind Symbol := do
  return ((← get).scopes.symbol? id).getD default

def newScope (kind : ScopeKind) (parent : ScopeId) : Bind ScopeId :=
  modifyGet fun s =>
    let (id, scopes) := s.scopes.newScope kind parent
    (id, { s with scopes })

def lookupLocal (scope : ScopeId) (name : String) : Bind (List SymbolId) := do
  return (← get).scopes.lookupLocal scope name

/-- Binds a symbol if its name is free, and otherwise says what stands in the way. -/
def tryDeclare (scope : ScopeId) (sym : Symbol) (overload : Bool) :
    Bind (Option ScopeTable.Declared) :=
  modifyGet fun s =>
    match s.scopes.declare scope sym overload with
    | .ok (d, scopes) => (some d, { s with scopes })
    | .error _ => (none, s)

/-- Binds a symbol, or reports that its name is taken. -/
def declare (scope : ScopeId) (sym : Symbol) (overload : Bool) : Bind (Option SymbolId) := do
  match ← tryDeclare scope sym overload with
  | some (.bound id) => return some id
  | some (.conflict previous) =>
    let other ← symbol previous
    fail (.takenInScope sym.display sym.kind.isTypeName) sym.span
      [⟨other.span, utf8 "previous declaration"⟩]
  | none => return none

/-- Makes an expression fit a type, or reports at `span` that it does not. -/
def coerce (e : Option Expr) (target : TypeId) (span : Span) : Bind (Option Expr) := do
  match e with
  | none => return none
  | some e =>
    match Bound.coerce (← types) e target with
    | .ok e => return some e
    | .error err => fail err span

/-- Rejects calls of procedures where a value is wanted. -/
def asOperand (e : Option Expr) (span : Span) : Bind (Option Expr) := do
  match e with
  | some x => if x.type = TypeTable.void then fail .procedureAsValue span else return e
  | none => return none

/-- Runs an action in a constant position. -/
def constantly {α : Type} (x : Bind α) : Bind α := do
  let before := (← get).inConst
  modify ({ · with inConst := true })
  let a ← x
  modify ({ · with inConst := before })
  return a

/-- Rejects what was not worked out to a constant. -/
def asConstant (e : Option Expr) (span : Span) : Bind (Option Expr) := do
  match e with
  | some x => if x.const?.isSome then return e else fail .notConstant span
  | none => return none

end Bind

/-! ## Names -/

/-- What a name denotes. Inside a method the members of its class and of the bases come after the
parameters and local variables and before the names of the unit. -/
inductive Resolution where
  | nothing
  | symbols (first : SymbolId) (others : List SymbolId)
  | field (f : Field)
  | methods (ms : List Method)

namespace Resolution

def ofSymbols : List SymbolId → Resolution
  | [] => nothing
  | x :: xs => symbols x xs

/-- Looks a name up from a scope outward; `fuel` bounds the number of scopes. -/
def walk (s : Session) (name : String) : (fuel : Nat) → ScopeId → Resolution
  | 0, _ => nothing
  | fuel + 1, id =>
    match s.scopes.scope? id with
    | none => nothing
    | some scope =>
      let outward := walk s name fuel scope.parent
      match scope.index.find name with
      | x :: xs => symbols x xs
      | [] =>
        match s.frame with
        | some f =>
          if f.scope = id && f.owner ≠ 0 then
            match s.types.lookupField? f.owner name with
            | some f => .field f
            | none =>
              match s.types.lookupMethods f.owner name with
              | [] => outward
              | ms => methods ms
          else outward
        | none => outward

end Resolution

namespace Bind

def resolve (name : String) : Bind Resolution := do
  let s ← get
  return Resolution.walk s name (s.scopes.scopes.size + 1) s.scope

def scopeOfUnit? (unit : String) : Bind (Option ScopeId) := do
  return (← get).unitScopes.lookup unit

/-- A name among those that a unit exports. -/
def resolveIn (unit name : String) : Bind Resolution := do
  match ← scopeOfUnit? unit with
  | some scope => return Resolution.ofSymbols (← lookupLocal scope name)
  | none => return .nothing

/-- The unit that an expression names, if it is the name of a unit. -/
def unitNamed? : Tree.Expr → Bind (Option String)
  | .name id => do
    match ← resolve id.name with
    | .symbols x _ =>
      let sym ← symbol x
      return if sym.kind = .unit then some sym.module else none
    | _ => return none
  | _ => return none

/-- The receiver of the method at hand. -/
def thisExpr (span : Span) : Bind (Option Expr) := do
  match (← get).frame with
  | some f =>
    if f.owner = 0 then fail .thisOutsideMethod span
    else return some (.frameVar ((← lookupLocal f.scope "this").headD 0) 0 f.owner span)
  | none => fail .thisOutsideMethod span

end Bind

end Pascaline.Bound
