import Pascaline.Native
import Pascaline.Scope
import Pascaline.Tree

/-!
# Bound trees

A file after its names are resolved and its types checked: every expression has its type, every
variable its storage, every call its target, and every implicit conversion is written out.
-/

namespace Pascaline.Bound

inductive UnaryOp where
  | neg | not
deriving Repr, DecidableEq

/-- Binary operators; joining texts is apart from adding numbers. -/
inductive BinaryOp where
  | add | sub | mul | quot | div | mod | and | or | xor | shl | shr | concat
  | eq | ne | lt | le | gt | ge
deriving Repr, DecidableEq

namespace BinaryOp

/-- How messages write the operator. -/
def symbol : BinaryOp → String
  | add => "+" | sub => "-" | mul => "*" | quot => "/" | div => "div" | mod => "mod"
  | and => "and" | or => "or" | xor => "xor" | shl => "shl" | shr => "shr" | concat => "+s"
  | eq => "=" | ne => "<>" | lt => "<" | le => "<=" | gt => ">" | ge => ">="

def ofTree : Tree.BinaryOp → BinaryOp
  | .eq => eq | .ne => ne | .lt => lt | .le => le | .gt => gt | .ge => ge
  | .add => add | .sub => sub | .or => or | .xor => xor
  | .mul => mul | .quot => quot | .div => div | .mod => mod | .and => and | .shl => shl
  | .shr => shr

end BinaryOp

/-- Conversions that the source does not write. -/
inductive Conversion where
  | intToReal | charToString
deriving Repr, DecidableEq

/-- A bound expression. A method call passes the receiver as its first argument. -/
inductive Expr where
  | const (value : Value) (type : TypeId) (span : Span)
  /-- A slot of the frame; `symbol` is 0 for a result that is named by its function. -/
  | frameVar (symbol : SymbolId) (slot : Nat) (type : TypeId) (span : Span)
  /-- A slot of a unit. -/
  | unitVar (module : String) (slot : Int) (type : TypeId) (span : Span)
  | field (object : Expr) (offset : Nat) (type : TypeId) (span : Span)
  | element (array index : Expr) (type : TypeId) (span : Span)
  | character (text index : Expr) (type : TypeId) (span : Span)
  /-- What a pointer to something other than an object points at. -/
  | deref (pointer : Expr) (type : TypeId) (span : Span)
  | unary (op : UnaryOp) (operand : Expr) (type : TypeId) (span : Span)
  | binary (op : BinaryOp) (left right : Expr) (type : TypeId) (span : Span)
  | convert (conv : Conversion) (operand : Expr) (type : TypeId) (span : Span)
  | call (routine : RoutineRef) (args : List Expr) (type : TypeId) (span : Span)
  /-- A call through a place of the receiver's dispatch table. -/
  | callVirtual (slot : Nat) (args : List Expr) (type : TypeId) (span : Span)
  | callNative (routine : Native) (args : List Expr) (type : TypeId) (span : Span)
  /-- A call of a routine value. -/
  | callValue (callee : Expr) (args : List Expr) (type : TypeId) (span : Span)
  | newObject (key : ClassKey) (constructor : Option RoutineRef) (args : List Expr)
      (type : TypeId) (span : Span)
  | newArray (elem : TypeId) (length : Expr) (type : TypeId) (span : Span)
  | newCell (elem : TypeId) (type : TypeId) (span : Span)
  | routine (ref : RoutineRef) (type : TypeId) (span : Span)
deriving Inhabited

namespace Expr

def type : Expr → TypeId
  | const _ t _ | frameVar _ _ t _ | unitVar _ _ t _ | field _ _ t _ | element _ _ t _
  | character _ _ t _ | deref _ t _ | unary _ _ t _ | binary _ _ _ t _ | convert _ _ t _
  | call _ _ t _ | callVirtual _ _ t _ | callNative _ _ t _ | callValue _ _ t _
  | newObject _ _ _ t _ | newArray _ _ t _ | newCell _ t _ | routine _ t _ => t

def span : Expr → Span
  | const _ _ s | frameVar _ _ _ s | unitVar _ _ _ s | field _ _ _ s | element _ _ _ s
  | character _ _ _ s | deref _ _ s | unary _ _ _ s | binary _ _ _ _ s | convert _ _ _ s
  | call _ _ _ s | callVirtual _ _ _ s | callNative _ _ _ s | callValue _ _ _ s
  | newObject _ _ _ _ s | newArray _ _ _ s | newCell _ _ s | routine _ _ s => s

/-- The same expression under another type and at another place. -/
def relabel (t : TypeId) (s : Span) : Expr → Expr
  | const v _ _ => const v t s
  | frameVar x n _ _ => frameVar x n t s
  | unitVar m n _ _ => unitVar m n t s
  | field o n _ _ => field o n t s
  | element a i _ _ => element a i t s
  | character a i _ _ => character a i t s
  | deref p _ _ => deref p t s
  | unary o x _ _ => unary o x t s
  | binary o l r _ _ => binary o l r t s
  | convert c x _ _ => convert c x t s
  | call r as _ _ => call r as t s
  | callVirtual n as _ _ => callVirtual n as t s
  | callNative n as _ _ => callNative n as t s
  | callValue f as _ _ => callValue f as t s
  | newObject k c as _ _ => newObject k c as t s
  | newArray e n _ _ => newArray e n t s
  | newCell e _ _ => newCell e t s
  | routine r _ _ => routine r t s

/-- The value of a constant. -/
def const? : Expr → Option Value
  | const v _ _ => some v
  | _ => none

def isCall : Expr → Bool
  | call .. | callVirtual .. | callNative .. | callValue .. => true
  | _ => false

/-- What the kind of an expression is called. -/
def kindName : Expr → String
  | const .. => "Const" | frameVar .. => "Local" | unitVar .. => "Global" | field .. => "Field"
  | element .. | character .. => "Index" | deref .. => "Deref" | unary .. => "Unary"
  | binary .. => "Binary" | convert .. => "Convert"
  | call .. | callVirtual .. | callNative .. | callValue .. => "Call"
  | newObject .. => "NewObject" | newArray .. => "NewArray" | newCell .. => "NewCell"
  | routine .. => "Routine"

end Expr

mutual

inductive Stmt where
  | assign (target value : Expr) (span : Span)
  /-- A call for its effect; a result is dropped. -/
  | expr (call : Expr) (span : Span)
  | ifElse (cond : Expr) (yes no : List Stmt) (span : Span)
  | whileDo (cond : Expr) (body : List Stmt) (span : Span)
  | repeatUntil (body : List Stmt) (cond : Expr) (span : Span)
  | forTo (var first last : Expr) (down : Bool) (body : List Stmt) (span : Span)
  | caseOf (subject : Expr) (arms : List CaseArm) (otherwise : List Stmt) (span : Span)
  | exit (span : Span)
  | break (span : Span)
  | continue (span : Span)

/-- The statements that a list of constants selects. -/
inductive CaseArm where
  | arm (labels : List Value) (body : List Stmt)

end

namespace Stmt

def span : Stmt → Span
  | assign _ _ s | expr _ s | ifElse _ _ _ s | whileDo _ _ s | repeatUntil _ _ s
  | forTo _ _ _ _ _ s | caseOf _ _ _ s | exit s | .break s | .continue s => s

def kindName : Stmt → String
  | assign .. => "Assign" | expr .. => "Expr" | ifElse .. => "If" | whileDo .. => "While"
  | repeatUntil .. => "Repeat" | forTo .. => "For" | caseOf .. => "Case" | exit _ => "Exit"
  | .break _ => "Break" | .continue _ => "Continue"

/-- The expressions that stand directly in a statement. -/
def exprs : Stmt → List Expr
  | assign t v _ => [t, v]
  | expr e _ | ifElse e _ _ _ | whileDo e _ _ | repeatUntil _ e _ | caseOf e _ _ _ => [e]
  | forTo v a b _ _ _ => [v, a, b]
  | exit _ | .break _ | .continue _ => []

mutual

/-- A statement and all those inside it, in the order of the text. -/
def flatten : Stmt → List Stmt
  | s@(ifElse _ yes no _) => s :: (flattenAll yes ++ flattenAll no)
  | s@(whileDo _ body _) => s :: flattenAll body
  | s@(repeatUntil body _ _) => s :: flattenAll body
  | s@(forTo _ _ _ _ body _) => s :: flattenAll body
  | s@(caseOf _ arms otherwise _) => s :: (flattenArms arms ++ flattenAll otherwise)
  | s => [s]

def flattenAll : List Stmt → List Stmt
  | [] => []
  | s :: ss => flatten s ++ flattenAll ss

def flattenArms : List CaseArm → List Stmt
  | [] => []
  | .arm _ body :: arms => flattenAll body ++ flattenArms arms

end

end Stmt

/-- A place of a frame or of a unit. -/
structure Slot where
  name : String
  type : TypeId
deriving Repr, DecidableEq, Inhabited

/-- A bound routine. Its slots are the receiver of a method, the parameters, the result of a
function, and the local variables, in this order; `params` counts the first two. -/
structure Routine where
  name : String
  symbol : SymbolId
  params : Nat := 0
  result : Option Nat := none
  slots : List Slot := []
  body : List Stmt := []
  owner : TypeId
  span : Span
  hasBody : Bool := false
deriving Inhabited

/-- A bound program or unit. `init` is the routine that initializes a unit, `main` the body of a
program. -/
structure Module where
  name : String
  display : String
  kind : Tree.FileKind
  path : String
  file : Nat
  uses : List String
  globals : List Slot
  routines : List Routine
  init : Option Nat
  main : Option Nat
  classes : List TypeId
  exports : List SymbolId
  privates : List SymbolId
  scopes : ScopeTable
deriving Inhabited

/-- What an importing file sees of a compiled unit. -/
structure Import where
  name : String
  kind : Tree.FileKind
  symbols : List Symbol
deriving Inhabited

end Pascaline.Bound
