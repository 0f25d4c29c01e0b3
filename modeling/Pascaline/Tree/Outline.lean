import Pascaline.Text.Json
import Pascaline.Tree

/-!
# Outlines of trees

A parsed file as a document for other programs. Every node is a list: its kind, where it starts and
ends, and its parts.
-/

namespace Pascaline.Tree

open JsonDoc (str)

namespace Outline

def place (s : Span) : JsonDoc := .list [.int s.start, .int s.stop]

def node (kind : String) (s : Span) (parts : List JsonDoc) : JsonDoc :=
  .list (str kind :: place s :: parts)

/-- A name as it is compared and as it is written. -/
def ident (i : Ident) : JsonDoc := .list [str i.name, str i.text, .int i.span.start, .int i.span.stop]

def idents (is : List Ident) : JsonDoc := .list (is.map ident)

/-- A part that may be missing. -/
def part {α : Type} (f : α → JsonDoc) : Option α → JsonDoc
  | some a => f a
  | none => .null

def litKind : LitKind → String
  | .int => "int"
  | .real => "real"
  | .string => "string"
  | .char => "char"
  | .bool => "bool"
  | .nil => "nil"

def named (t : NamedType) : JsonDoc := node "named" t.span [part ident t.unit, ident t.name]

mutual

def expr : Expr → JsonDoc
  | .literal k t s => node "lit" s [str (litKind k), .text t]
  | .name i => node "name" i.span [ident i]
  | .thisRef s => node "this" s []
  | .baseRef s => node "base" s []
  | .unary o x s => node "unary" s [str o.token.render, expr x]
  | .binary o l r s => node "binary" s [str o.token.render, expr l, expr r]
  | .member x n s => node "member" s [expr x, ident n]
  | .index x i s => node "index" s [expr x, expr i]
  | .call f xs s => node "call" s [expr f, .list (exprs xs)]
  | .deref x s => node "deref" s [expr x]
  | .alloc t xs n s => node "new" s [type t, .list (exprs xs), match n with
      | some n => expr n
      | none => .null]
  | .addr x s => node "addr" s [expr x]

def exprs : List Expr → List JsonDoc
  | [] => []
  | x :: xs => expr x :: exprs xs

def type : TypeExpr → JsonDoc
  | .named t => named t
  | .array n e s => node "array" s [match n with
      | some n => expr n
      | none => .null, type e]
  | .pointer e s => node "pointer" s [type e]
  | .routine ps r s => node "proc" s [.list (params ps), match r with
      | some r => type r
      | none => .null]
  | .classBody b ms s => node "class" s [part named b, .list (members ms)]

def params : List Param → List JsonDoc
  | [] => []
  | ⟨names, t, s⟩ :: ps => .list [place s, idents names, type t] :: params ps

def varDecl : VarDecl → JsonDoc
  | ⟨names, t, s⟩ => node "var" s [idents names, type t]

def header : Header → JsonDoc
  | ⟨kind, owner, name, ps, r, isVirtual, isOverride, s⟩ =>
    node kind.render s [part ident owner, ident name, .list (params ps), match r with
      | some r => type r
      | none => .null, .bool isVirtual, .bool isOverride]

def members : List Member → List JsonDoc
  | [] => []
  | .field d :: ms => varDecl d :: members ms
  | .method h :: ms => header h :: members ms

end

mutual

def stmt : Stmt → JsonDoc
  | .compound xs s => node "compound" s [.list (stmts xs)]
  | .assign t v s => node "assign" s [expr t, expr v]
  | .call c s => node "callstmt" s [expr c]
  | .ifThen c y n s => node "if" s [expr c, stmt y, match n with
      | some n => stmt n
      | none => .null]
  | .whileDo c b s => node "while" s [expr c, stmt b]
  | .repeatUntil b c s => node "repeat" s [.list (stmts b), expr c]
  | .forTo v a b d x s => node "for" s [ident v, expr a, expr b, .bool d, stmt x]
  | .caseOf x as o s =>
    node "case" s [expr x, .list (arms as), if o.isEmpty then .null else .list (stmts o)]
  | .jump k s => node "jump" s [str k.word]
  | .empty s => node "empty" s []

def stmts : List Stmt → List JsonDoc
  | [] => []
  | x :: xs => stmt x :: stmts xs

def arms : List CaseArm → List JsonDoc
  | [] => []
  | ⟨labels, body, s⟩ :: as => .list [place s, .list (exprs labels), stmt body] :: arms as

end

def block (b : Block) : JsonDoc := stmt (.compound b.body b.span)

def localDecl : LocalDecl → JsonDoc
  | .const d => node "const" d.span [ident d.name, part type d.type, expr d.value]
  | .type d => node "type" d.span [ident d.name, type d.type]
  | .var d => varDecl d

def decl : Decl → JsonDoc
  | .plain d => localDecl d
  | .routine d =>
    node "routine" d.span [header d.header, .list (d.locals.map localDecl), part block d.body]

end Outline

/-- The outline of a file. -/
def File.outline (f : File) : JsonDoc :=
  .object [("kind", str f.kind.render), ("name", Outline.ident f.name), ("uses", Outline.idents f.uses),
    ("impl_uses", Outline.idents f.implUses), ("interface", .list (f.interface.map Outline.decl)),
    ("implementation", .list (f.implementation.map Outline.decl)),
    ("body", Outline.part Outline.block f.body), ("span", Outline.place f.span)]

end Pascaline.Tree
