import Pascaline.Token.Name

/-!
# Source trees

A parsed file: names are as written and folded, nothing is resolved yet.
-/

namespace Pascaline.Tree

/-- An occurrence of a name: `name` is the folded spelling used for look-up, `text` the one
written. -/
structure Ident where
  name : String
  text : String
  span : Span
  named : IsName name
deriving Repr, DecidableEq

inductive LitKind where
  | int | real | string | char | bool | nil
deriving Repr, DecidableEq

inductive UnaryOp where
  | plus | minus | not
deriving Repr, DecidableEq

namespace UnaryOp

def token : UnaryOp → TokenKind
  | plus => .punct .plus
  | minus => .punct .minus
  | not => .keyword .kwNot

def all : List UnaryOp := [plus, minus, not]

def ofToken? (k : TokenKind) : Option UnaryOp := all.find? (·.token = k)

end UnaryOp

inductive BinaryOp where
  | eq | ne | lt | le | gt | ge
  | add | sub | or | xor
  | mul | quot | div | mod | and | shl | shr
deriving Repr, DecidableEq

namespace BinaryOp

def token : BinaryOp → TokenKind
  | eq => .punct .eq | ne => .punct .notEq | lt => .punct .lt | le => .punct .ltEq
  | gt => .punct .gt | ge => .punct .gtEq
  | add => .punct .plus | sub => .punct .minus | or => .keyword .kwOr | xor => .keyword .kwXor
  | mul => .punct .star | quot => .punct .slash | div => .keyword .kwDiv | mod => .keyword .kwMod
  | and => .keyword .kwAnd | shl => .keyword .kwShl | shr => .keyword .kwShr

/-- The operators that bind loosest. -/
def relational : List BinaryOp := [eq, ne, lt, le, gt, ge]

def additive : List BinaryOp := [add, sub, or, xor]

/-- The operators that bind tightest. -/
def multiplicative : List BinaryOp := [mul, quot, div, mod, and, shl, shr]

end BinaryOp

inductive RoutineKind where
  | procedure | function | constructor
deriving Repr, DecidableEq

def RoutineKind.render : RoutineKind → String
  | procedure => "procedure"
  | function => "function"
  | constructor => "constructor"

/-- A type referred to by name, maybe by the unit that declares it. -/
structure NamedType where
  unit : Option Ident
  name : Ident
  span : Span
deriving Repr, DecidableEq

mutual

inductive Expr where
  /-- `text` is what the literal denotes, in decimal for integers. -/
  | literal (kind : LitKind) (text : Bytes) (span : Span)
  | name (id : Ident)
  | thisRef (span : Span)
  | baseRef (span : Span)
  | unary (op : UnaryOp) (operand : Expr) (span : Span)
  | binary (op : BinaryOp) (left right : Expr) (span : Span)
  | member (object : Expr) (name : Ident) (span : Span)
  | index (object index : Expr) (span : Span)
  | call (callee : Expr) (args : List Expr) (span : Span)
  | deref (pointer : Expr) (span : Span)
  | alloc (type : TypeExpr) (args : List Expr) (size : Option Expr) (span : Span)
  | addr (routine : Expr) (span : Span)

inductive TypeExpr where
  | named (type : NamedType)
  /-- Without a length the array is dynamic. -/
  | array (length : Option Expr) (elem : TypeExpr) (span : Span)
  | pointer (elem : TypeExpr) (span : Span)
  | routine (params : List Param) (result : Option TypeExpr) (span : Span)
  | classBody (base : Option NamedType) (members : List Member) (span : Span)

/-- Parameters that share a type. -/
structure Param where
  names : List Ident
  type : TypeExpr
  span : Span

/-- Variables or fields that share a type. -/
structure VarDecl where
  names : List Ident
  type : TypeExpr
  span : Span

/-- The signature of a routine. `owner` names the class of a method defined outside it. -/
structure Header where
  kind : RoutineKind
  owner : Option Ident
  name : Ident
  params : List Param
  result : Option TypeExpr
  isVirtual : Bool
  isOverride : Bool
  span : Span

inductive Member where
  | field (decl : VarDecl)
  | method (header : Header)

end

namespace Expr

def span : Expr → Span
  | literal _ _ s | thisRef s | baseRef s | unary _ _ s | binary _ _ _ s | member _ _ s
  | index _ _ s | call _ _ s | deref _ s | alloc _ _ _ s | addr _ s => s
  | name id => id.span

end Expr

namespace TypeExpr

def span : TypeExpr → Span
  | named t => t.span
  | array _ _ s | pointer _ s | routine _ _ s | classBody _ _ s => s

end TypeExpr

inductive JumpKind where
  | exit | break | continue
deriving Repr, DecidableEq

def JumpKind.word : JumpKind → String
  | exit => "exit"
  | .break => "break"
  | .continue => "continue"

mutual

inductive Stmt where
  | compound (body : List Stmt) (span : Span)
  | assign (target value : Expr) (span : Span)
  /-- An expression evaluated for its effect. -/
  | call (call : Expr) (span : Span)
  | ifThen (cond : Expr) (yes : Stmt) (no : Option Stmt) (span : Span)
  | whileDo (cond : Expr) (body : Stmt) (span : Span)
  | repeatUntil (body : List Stmt) (cond : Expr) (span : Span)
  | forTo (var : Ident) (first last : Expr) (down : Bool) (body : Stmt) (span : Span)
  /-- An empty `otherwise` is the same as none. -/
  | caseOf (subject : Expr) (arms : List CaseArm) (otherwise : List Stmt) (span : Span)
  | jump (kind : JumpKind) (span : Span)
  | empty (span : Span)

structure CaseArm where
  labels : List Expr
  body : Stmt
  span : Span

end

namespace Stmt

def span : Stmt → Span
  | compound _ s | assign _ _ s | call _ s | ifThen _ _ _ s | whileDo _ _ s | repeatUntil _ _ s
  | forTo _ _ _ _ _ s | caseOf _ _ _ s | jump _ s | empty s => s

end Stmt

/-- Statements between `begin` and `end`. -/
structure Block where
  body : List Stmt
  span : Span

structure ConstDecl where
  name : Ident
  type : Option TypeExpr
  value : Expr
  span : Span

structure TypeDecl where
  name : Ident
  type : TypeExpr
  span : Span

/-- A declaration that may stand inside a routine. -/
inductive LocalDecl where
  | const (decl : ConstDecl)
  | type (decl : TypeDecl)
  | var (decl : VarDecl)

def LocalDecl.span : LocalDecl → Span
  | const d => d.span
  | type d => d.span
  | var d => d.span

/-- A routine; one without a body is declared only. -/
structure RoutineDecl where
  header : Header
  locals : List LocalDecl
  body : Option Block
  span : Span

inductive Decl where
  | plain (decl : LocalDecl)
  | routine (decl : RoutineDecl)

def Decl.span : Decl → Span
  | plain d => d.span
  | routine d => d.span

inductive FileKind where
  | program | unit
deriving Repr, DecidableEq, Inhabited

def FileKind.render : FileKind → String
  | program => "program"
  | unit => "unit"

/-- One compilation unit. A program has no interface part, and its body is the main block; the
body of a unit initializes it. -/
structure File where
  kind : FileKind
  name : Ident
  uses : List Ident
  interface : List Decl
  implUses : List Ident
  implementation : List Decl
  body : Option Block
  span : Span

/-- The units used by either part, in the order written. -/
def File.allUses (f : File) : List Ident := f.uses ++ f.implUses

end Pascaline.Tree
