import Pascaline.Source.Span
import Pascaline.Text.Quoted
import Pascaline.Types
import Pascaline.Value

/-!
# Scopes and symbols

A name is bound in a scope, and scopes are nested. One name may have several bindings in a scope
only if all are routines. Scopes and symbols are numbered from 1 in the order of their making; a
scope keeps its symbols in order and, beside that, an index by name. The 32 bits of the numbers are
a capacity that is not modelled.
-/

namespace Pascaline

abbrev ScopeId := Nat

abbrev SymbolId := Nat

inductive SymbolKind where
  | invalid | const | var | param | field | type | procedure | function | method | classRef
  | native | unit
deriving Repr, DecidableEq, Inhabited

namespace SymbolKind

def all : List SymbolKind :=
  [invalid, const, var, param, field, type, procedure, function, method, classRef, native, unit]

def render : SymbolKind → String
  | invalid => "invalid" | const => "constant" | var => "variable" | param => "parameter"
  | field => "field" | type => "type" | procedure => "procedure" | function => "function"
  | method => "method" | classRef => "class" | native => "native" | unit => "unit"

def number (k : SymbolKind) : Nat := all.findIdx (· = k)

def ofNumber (n : Nat) : SymbolKind := all.getD n invalid

/-- Kinds that can be called and overloaded. -/
def isRoutine : SymbolKind → Bool
  | procedure | function | method | native => true
  | _ => false

def isTypeName : SymbolKind → Bool
  | type | classRef => true
  | _ => false

end SymbolKind

/-- Attributes of a symbol, one bit each. -/
structure SymbolFlags where
  bits : UInt16 := 0
deriving Repr, DecidableEq, Inhabited

namespace SymbolFlags

def exported : SymbolFlags := ⟨1⟩

def imported : SymbolFlags := ⟨2⟩

def builtin : SymbolFlags := ⟨4⟩

/-- Stored with the unit, not in a frame. -/
def global : SymbolFlags := ⟨8⟩

/-- A routine that still waits for its body. -/
def forward : SymbolFlags := ⟨16⟩

/-- The variable that holds the result of a function. -/
def result : SymbolFlags := ⟨32⟩

def this : SymbolFlags := ⟨64⟩

def labels : List (SymbolFlags × String) :=
  [(exported, "exported"), (imported, "imported"), (builtin, "builtin"), (global, "global"),
   (forward, "forward"), (result, "result"), (this, "this")]

/-- Whether all the flags of the mask are set. -/
def has (f mask : SymbolFlags) : Bool := f.bits &&& mask.bits == mask.bits

def union (f g : SymbolFlags) : SymbolFlags := ⟨f.bits ||| g.bits⟩

def without (f g : SymbolFlags) : SymbolFlags := ⟨f.bits &&& g.bits.complement⟩

/-- The labels of the flags that are set. -/
def render (f : SymbolFlags) : List String :=
  (labels.filter fun (g, _) => f.bits &&& g.bits != 0).map (·.2)

end SymbolFlags

/-- What a name stands for. `slot` is the place of a variable in its frame or unit; `routine` is
the number of a routine in its unit. -/
structure Symbol where
  name : String
  display : String := ""
  kind : SymbolKind
  flags : SymbolFlags := {}
  type : TypeId := 0
  scope : ScopeId := 0
  span : Span := {}
  module : String := ""
  const : Value := .invalid
  slot : Int := 0
  routine : Int := 0
  owner : TypeId := 0
  native : String := ""
  sig : Signature := ⟨[], 0⟩
deriving Repr, Inhabited

inductive ScopeKind where
  | invalid | builtin | exports | unit | classBody | routine | block
deriving Repr, DecidableEq, Inhabited

namespace ScopeKind

def all : List ScopeKind := [invalid, builtin, exports, unit, classBody, routine, block]

def render : ScopeKind → String
  | invalid => "invalid" | builtin => "builtin" | exports => "exports" | unit => "unit"
  | classBody => "class" | routine => "routine" | block => "block"

def ofName (s : String) : ScopeKind := (all.find? (·.render == s)).getD invalid

end ScopeKind

/-! ## The index by name -/

/-- The symbols of each name, in the order of their declaration. -/
structure NameIndex where
  entries : List (String × List SymbolId) := []
deriving Repr, Inhabited

namespace NameIndex

def find (x : NameIndex) (name : String) : List SymbolId := (x.entries.lookup name).getD []

/-- Adds a symbol behind those of the same name. -/
def pushEntry (name : String) (id : SymbolId) :
    List (String × List SymbolId) → List (String × List SymbolId)
  | [] => [(name, [id])]
  | (n, ids) :: rest =>
    if n = name then (n, ids ++ [id]) :: rest else (n, ids) :: pushEntry name id rest

def push (x : NameIndex) (name : String) (id : SymbolId) : NameIndex :=
  ⟨pushEntry name id x.entries⟩

end NameIndex

/-- A scope; `parent` is 0 for an outermost one. -/
structure Scope where
  kind : ScopeKind
  parent : ScopeId
  index : NameIndex := {}
  symbols : List SymbolId := []
deriving Repr, Inhabited

/-! ## The table -/

/-- What may be wrong with a table or a request to it. -/
inductive ScopeError where
  | unknownScope (scope : ScopeId)
  | brokenChain
  | danglingParent (scope parent : ScopeId)
  | danglingSymbol (scope : ScopeId) (symbol : SymbolId)
  | misplaced (name : String) (claimed indexed : ScopeId)
deriving Repr, DecidableEq

def ScopeError.message : ScopeError → String
  | unknownScope s => "declare into invalid scope " ++ decimal s
  | brokenChain => "broken scope chain"
  | danglingParent s p => "scope " ++ decimal s ++ ": dangling parent " ++ decimal p
  | danglingSymbol s x => "scope " ++ decimal s ++ ": dangling symbol " ++ decimal x
  | misplaced n c i =>
    "symbol " ++ quoted n ++ ": scope " ++ decimal c ++ ", indexed in " ++ decimal i

/-- All scopes and symbols of a session; number `i + 1` stands at position `i`. -/
structure ScopeTable where
  scopes : Array Scope := #[]
  symbols : Array Symbol := #[]
deriving Inhabited

namespace ScopeTable

def scope? (t : ScopeTable) (id : ScopeId) : Option Scope :=
  if id = 0 then none else t.scopes[id - 1]?

def symbol? (t : ScopeTable) (id : SymbolId) : Option Symbol :=
  if id = 0 then none else t.symbols[id - 1]?

/-- Opens a scope below a parent. -/
def newScope (t : ScopeTable) (kind : ScopeKind) (parent : ScopeId) : ScopeId × ScopeTable :=
  (t.scopes.size + 1, { t with scopes := t.scopes.push { kind, parent } })

/-- Replaces a symbol. -/
def setSymbol (t : ScopeTable) (id : SymbolId) (s : Symbol) : ScopeTable :=
  if id = 0 then t else { t with symbols := t.symbols.set! (id - 1) s }

def isRoutine (t : ScopeTable) (id : SymbolId) : Bool :=
  (t.symbol? id).any (·.kind.isRoutine)

/-- The bindings of a name in one scope. -/
def lookupLocal (t : ScopeTable) (scope : ScopeId) (name : String) : List SymbolId :=
  match t.scope? scope with
  | some s => s.index.find name
  | none => []

/-- What declaring a name does: it is bound, or an earlier binding stands in the way. -/
inductive Declared where
  | bound (id : SymbolId)
  | conflict (previous : SymbolId)
deriving Repr, DecidableEq

/-- Binds a symbol in a scope. Another binding of the name is in the way, unless both the caller
allows overloads and the binding is a routine. -/
def declare (t : ScopeTable) (scope : ScopeId) (sym : Symbol) (overload : Bool) :
    Except ScopeError (Declared × ScopeTable) :=
  match t.scope? scope with
  | none => .error (.unknownScope scope)
  | some s =>
    match (s.index.find sym.name).find? (fun prev => !overload || !t.isRoutine prev) with
    | some prev => .ok (.conflict prev, t)
    | none =>
      let id := t.symbols.size + 1
      let s := { s with index := s.index.push sym.name id, symbols := s.symbols ++ [id] }
      .ok (.bound id,
        { scopes := t.scopes.set! (scope - 1) s, symbols := t.symbols.push { sym with scope } })

/-- Walks outward from a scope to the first that satisfies a test; `fuel` bounds the way. -/
def walk (t : ScopeTable) (found : Scope → Bool) :
    (fuel : Nat) → ScopeId → Except ScopeError (Option ScopeId)
  | 0, _ => .error .brokenChain
  | fuel + 1, id =>
    if id = 0 then .ok none
    else match t.scope? id with
      | none => .error .brokenChain
      | some s => if found s then .ok (some id) else walk t found fuel s.parent

/-- The bindings of a name in the nearest scope that has any, and that scope. -/
def lookup (t : ScopeTable) (scope : ScopeId) (name : String) :
    Except ScopeError (List SymbolId × ScopeId) := do
  match ← t.walk (fun s => !(s.index.find name).isEmpty) (t.scopes.size + 1) scope with
  | some id => return (t.lookupLocal id name, id)
  | none => return ([], 0)

/-- The nearest scope of a kind. -/
def enclosing (t : ScopeTable) (scope : ScopeId) (kind : ScopeKind) :
    Except ScopeError ScopeId := do
  return (← t.walk (·.kind == kind) (t.scopes.size + 1) scope).getD 0

/-- Checks one scope: its parent exists, and its symbols exist and point back at it. -/
def validateScope (t : ScopeTable) (id : ScopeId) (s : Scope) : Except ScopeError Unit := do
  if s.parent ≠ 0 && (t.scope? s.parent).isNone then throw (.danglingParent id s.parent)
  for x in s.symbols do
    match t.symbol? x with
    | none => throw (.danglingSymbol id x)
    | some sym => if sym.scope ≠ id then throw (.misplaced sym.name sym.scope id)

/-- The first fault of the table. -/
def validate (t : ScopeTable) : Except ScopeError Unit :=
  t.scopes.toList.zipIdx.forM fun (s, i) => t.validateScope (i + 1) s

end ScopeTable

end Pascaline
