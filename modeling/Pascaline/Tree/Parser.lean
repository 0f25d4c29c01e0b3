import Pascaline.Token.Lexer
import Pascaline.Tree

/-!
# From tokens to trees

Recursive descent with one token of look-ahead. The first error ends the parse: a file with a
syntax error is never bound. Every parser takes `fuel`, which bounds the depth of its calls;
`File.parse` gives enough for the tokens at hand, and no caller sees it.
-/

namespace Pascaline.Tree

/-- Why a file does not parse, with the token that stood in the way. -/
inductive SyntaxError where
  | expected (kind : TokenKind) (code : Code) (found : Token)
  | expectedIdentifier (found : Token)
  | expectedType (found : Token)
  | expectedExpression (found : Token)
  | expectedHeader (found : Token)
  | expectedDirection (found : Token)
  | unexpectedInClass (found : Token)
  | nestedRoutine (found : Token)
  | trailingInput (found : Token)
  | nestingTooDeep (found : Token)
deriving Repr, DecidableEq

/-- How messages name a token: identifiers and literals with their spelling. -/
def describe (t : Token) : Bytes :=
  match t.kind with
  | .identifier => utf8 "identifier " ++ Quoted.encode t.text
  | .intLit | .realLit | .stringLit | .charLit => utf8 (t.kind.render ++ " ") ++ t.text
  | k => utf8 k.render

namespace SyntaxError

def unexpectedToken : Code := ⟨2001⟩

def expectIdentifier : Code := ⟨2002⟩

def expectType : Code := ⟨2003⟩

def expectExpression : Code := ⟨2004⟩

def expectSemicolon : Code := ⟨2005⟩

def expectEnd : Code := ⟨2006⟩

def badHeader : Code := ⟨2007⟩

def code : SyntaxError → Code
  | expected _ c _ => c
  | expectedIdentifier _ => expectIdentifier
  | expectedType _ => expectType
  | expectedExpression _ => expectExpression
  | expectedHeader _ => badHeader
  | expectedDirection _ | unexpectedInClass _ | nestedRoutine _ | nestingTooDeep _ =>
    unexpectedToken
  | trailingInput _ => ⟨2008⟩

def found : SyntaxError → Token
  | expected _ _ t | expectedIdentifier t | expectedType t | expectedExpression t
  | expectedHeader t | expectedDirection t | unexpectedInClass t | nestedRoutine t
  | trailingInput t | nestingTooDeep t => t

def message (e : SyntaxError) : Bytes :=
  let found := describe e.found
  let wanted (what : String) : Bytes := utf8 ("expected " ++ what ++ ", found ") ++ found
  match e with
  | expected k _ _ => wanted k.render
  | expectedIdentifier _ => wanted "identifier"
  | expectedType _ => wanted "type"
  | expectedExpression _ => wanted "expression"
  | expectedHeader _ => wanted "'program' or 'unit'"
  | expectedDirection _ => wanted "'to' or 'downto'"
  | unexpectedInClass _ => utf8 "unexpected " ++ found ++ utf8 " in class body"
  | nestedRoutine _ => utf8 "nested routines are not supported"
  | trailingInput _ => utf8 "unexpected " ++ found ++ utf8 " after end of file"
  | nestingTooDeep _ => utf8 "nesting too deep"

def diagnostic (e : SyntaxError) : Diagnostic := .error e.code e.found.span e.message

end SyntaxError

/-! ## The parser state -/

/-- The tokens ahead, of which the last is the end of the file, and the span of the token taken
last. -/
structure Input where
  ahead : List Token
  eof : Token
  last : Span
  named : ∀ t ∈ eof :: ahead, t.Named

namespace Input

theorem named_next (s : Input) : (s.ahead.headD s.eof).Named := by
  refine s.named _ ?_
  cases s.ahead with
  | nil => exact List.mem_cons_self
  | cons t ts => exact List.mem_cons_of_mem _ List.mem_cons_self

theorem named_rest (s : Input) : ∀ t ∈ s.eof :: s.ahead.drop 1, t.Named :=
  fun t ht => s.named t ((List.Sublist.cons_cons s.eof (List.drop_sublist 1 s.ahead)).subset ht)

end Input

/-- A parser takes tokens or fails. -/
abbrev Parser (α : Type) := StateT Input (Except SyntaxError) α

namespace Parser

/-- The next token, which is not taken. -/
def next : Parser { t : Token // t.Named } := do
  let s ← get
  return ⟨s.ahead.headD s.eof, s.named_next⟩

def peek : Parser Token := do return (← next).val

/-- The token after the next one. -/
def peekSecond : Parser Token := do
  let s ← get
  return (s.ahead.drop 1).headD s.eof

def atKind (k : TokenKind) : Parser Bool := do return (← peek).kind = k

def atWord (k : Keyword) : Parser Bool := atKind (.keyword k)

def atPunct (p : Punct) : Parser Bool := atKind (.punct p)

def atAny (ks : List TokenKind) : Parser Bool := do return ks.contains (← peek).kind

/-- Takes the next token; the end of the file is never taken away. -/
def advance : Parser Token := do
  let s : Input ← get
  let t : Token := s.ahead.headD s.eof
  if t.kind = .endOfFile then set { s with last := t.span }
  else set { s with ahead := s.ahead.drop 1, last := t.span, named := s.named_rest }
  return t

/-- Takes the next token if it is of the given kind. -/
def accept (k : TokenKind) : Parser Bool := do
  if ← atKind k then
    let _ ← advance
    return true
  else return false

def acceptWord (k : Keyword) : Parser Bool := accept (.keyword k)

def acceptPunct (p : Punct) : Parser Bool := accept (.punct p)

def fail {α : Type} (e : Token → SyntaxError) : Parser α := do throw (e (← peek))

def expect (k : TokenKind) (code : Code) : Parser Token := do
  if ← atKind k then advance else fail (.expected k code)

def expectWord (k : Keyword) (code : Code) : Parser Unit := do
  let _ ← expect (.keyword k) code

def expectPunct (p : Punct) (code : Code) : Parser Unit := do
  let _ ← expect (.punct p) code

def semicolon : Parser Unit := expectPunct .semicolon SyntaxError.expectSemicolon

def ident : Parser Ident := do
  let ⟨t, named⟩ ← next
  if h : t.kind = .identifier then
    let _ ← advance
    return ⟨Utf8.toString t.value, Utf8.toString t.text, t.span, named h⟩
  else fail .expectedIdentifier

/-- From the start of a construct to the token taken last. -/
def spanFrom (start : Span) : Parser Span := do return start.cover (← get).last

/-- Further names, each after a comma. -/
def moreIdents : (fuel : Nat) → Parser (List Ident)
  | 0 => fail .nestingTooDeep
  | fuel + 1 => do
    if ← acceptPunct .comma then
      let i ← ident
      return i :: (← moreIdents fuel)
    else return []

def identList (fuel : Nat) : Parser (List Ident) := do
  let i ← ident
  return i :: (← moreIdents fuel)

/-- A type by name. A name after a point belongs to the unit named before it. -/
def namedType : Parser NamedType := do
  let start := (← peek).span
  let first ← ident
  if (← atPunct .dot) && (← peekSecond).kind = .identifier then
    let _ ← advance
    let name ← ident
    return ⟨some first, name, ← spanFrom start⟩
  else return ⟨none, first, ← spanFrom start⟩

/-- The base class between parentheses, which may be absent. -/
def classBase : Parser (Option NamedType) := do
  if ← acceptPunct .lParen then
    let t ← namedType
    expectPunct .rParen SyntaxError.unexpectedToken
    return some t
  else return none

/-- The routine words that may start a header. -/
def routineWords : List TokenKind :=
  [.keyword .kwProcedure, .keyword .kwFunction, .keyword .kwConstructor]

def routineKind (k : TokenKind) : RoutineKind :=
  if k = .keyword .kwProcedure then .procedure
  else if k = .keyword .kwFunction then .function
  else .constructor

/-- `virtual` and `override`, each with its semicolon, in any order and number. -/
def directives : (fuel : Nat) → (isVirtual isOverride : Bool) → Parser (Bool × Bool)
  | 0, _, _ => fail .nestingTooDeep
  | fuel + 1, v, o => do
    if ← acceptWord .kwVirtual then
      semicolon
      directives fuel true o
    else if ← acceptWord .kwOverride then
      semicolon
      directives fuel v true
    else return (v, o)

/-- Whether the next token is one of the operators. -/
def operator? (ops : List BinaryOp) : Parser (Option BinaryOp) := do
  let t ← peek
  return ops.find? (·.token = t.kind)

/-! ## Expressions and types -/

/-- An expression that is a single token. -/
def atom? (t : Token) (named : t.Named) : Option Expr :=
  match h : t.kind with
  | .intLit => some (.literal .int t.value t.span)
  | .realLit => some (.literal .real t.value t.span)
  | .stringLit => some (.literal .string t.value t.span)
  | .charLit => some (.literal .char t.value t.span)
  | .keyword .kwTrue | .keyword .kwFalse => some (.literal .bool t.value t.span)
  | .keyword .kwNil => some (.literal .nil (utf8 "nil") t.span)
  | .identifier => some (.name ⟨Utf8.toString t.value, Utf8.toString t.text, t.span, named h⟩)
  | .keyword .kwThis => some (.thisRef t.span)
  | .keyword .kwBase => some (.baseRef t.span)
  | _ => none

def binary (op : BinaryOp) (left right : Expr) : Expr :=
  .binary op left right (left.span.cover right.span)

mutual

def expr : (fuel : Nat) → Parser Expr
  | 0 => fail .nestingTooDeep
  | fuel + 1 => do relationalTail fuel (← simpleExpr fuel)

def relationalTail : (fuel : Nat) → Expr → Parser Expr
  | 0, _ => fail .nestingTooDeep
  | fuel + 1, left => do
    match ← operator? BinaryOp.relational with
    | some op =>
      let _ ← advance
      relationalTail fuel (binary op left (← simpleExpr fuel))
    | none => return left

def simpleExpr : (fuel : Nat) → Parser Expr
  | 0 => fail .nestingTooDeep
  | fuel + 1 => do additiveTail fuel (← term fuel)

def additiveTail : (fuel : Nat) → Expr → Parser Expr
  | 0, _ => fail .nestingTooDeep
  | fuel + 1, left => do
    match ← operator? BinaryOp.additive with
    | some op =>
      let _ ← advance
      additiveTail fuel (binary op left (← term fuel))
    | none => return left

def term : (fuel : Nat) → Parser Expr
  | 0 => fail .nestingTooDeep
  | fuel + 1 => do multiplicativeTail fuel (← factor fuel)

def multiplicativeTail : (fuel : Nat) → Expr → Parser Expr
  | 0, _ => fail .nestingTooDeep
  | fuel + 1, left => do
    match ← operator? BinaryOp.multiplicative with
    | some op =>
      let _ ← advance
      multiplicativeTail fuel (binary op left (← factor fuel))
    | none => return left

def factor : (fuel : Nat) → Parser Expr
  | 0 => fail .nestingTooDeep
  | fuel + 1 => do
    let start := (← peek).span
    match UnaryOp.ofToken? (← peek).kind with
    | some op =>
      let _ ← advance
      let operand ← factor fuel
      return .unary op operand (← spanFrom start)
    | none =>
      if ← acceptPunct .at then
        let x ← operand fuel
        return .addr x (← spanFrom start)
      else operand fuel

/-- A primary expression and what is attached to it. -/
def operand : (fuel : Nat) → Parser Expr
  | 0 => fail .nestingTooDeep
  | fuel + 1 => do
    let x ← primary fuel
    attached fuel x.span x

/-- Members, indexes, calls and dereferences after an expression that starts at `start`. -/
def attached : (fuel : Nat) → (start : Span) → Expr → Parser Expr
  | 0, _, _ => fail .nestingTooDeep
  | fuel + 1, start, x => do
    if ← acceptPunct .dot then
      let name ← ident
      attached fuel start (.member x name (← spanFrom start))
    else if ← acceptPunct .lBracket then
      let i ← expr fuel
      expectPunct .rBracket SyntaxError.unexpectedToken
      attached fuel start (.index x i (← spanFrom start))
    else if ← atPunct .lParen then
      let xs ← args fuel
      attached fuel start (.call x xs (← spanFrom start))
    else if ← acceptPunct .caret then
      attached fuel start (.deref x (← spanFrom start))
    else return x

/-- Arguments between parentheses. -/
def args : (fuel : Nat) → Parser (List Expr)
  | 0 => fail .nestingTooDeep
  | fuel + 1 => do
    expectPunct .lParen SyntaxError.unexpectedToken
    if ← acceptPunct .rParen then return []
    else
      let xs ← exprList fuel
      expectPunct .rParen SyntaxError.unexpectedToken
      return xs

/-- Expressions with commas between them. -/
def exprList : (fuel : Nat) → Parser (List Expr)
  | 0 => fail .nestingTooDeep
  | fuel + 1 => do
    let x ← expr fuel
    if ← acceptPunct .comma then
      return x :: (← exprList fuel)
    else return [x]

def primary : (fuel : Nat) → Parser Expr
  | 0 => fail .nestingTooDeep
  | fuel + 1 => do
    let ⟨t, named⟩ ← next
    match atom? t named with
    | some x =>
      let _ ← advance
      return x
    | none =>
      if t.kind = .keyword .kwNew then alloc fuel
      else if ← acceptPunct .lParen then
        let x ← expr fuel
        expectPunct .rParen SyntaxError.unexpectedToken
        return x
      else fail .expectedExpression

/-- An allocation: a type, then a size in brackets or arguments in parentheses. -/
def alloc : (fuel : Nat) → Parser Expr
  | 0 => fail .nestingTooDeep
  | fuel + 1 => do
    let start := (← advance).span
    let type ← typeExpr fuel
    if ← acceptPunct .lBracket then
      let size ← expr fuel
      expectPunct .rBracket SyntaxError.unexpectedToken
      return .alloc type [] (some size) (← spanFrom start)
    else if ← atPunct .lParen then
      let xs ← args fuel
      return .alloc type xs none (← spanFrom start)
    else return .alloc type [] none (← spanFrom start)

def typeExpr : (fuel : Nat) → Parser TypeExpr
  | 0 => fail .nestingTooDeep
  | fuel + 1 => do
    let start := (← peek).span
    if ← atKind .identifier then return .named (← namedType)
    else if ← acceptWord .kwArray then
      let length ← arrayLength fuel
      expectWord .kwOf SyntaxError.expectType
      let elem ← typeExpr fuel
      return .array length elem (← spanFrom start)
    else if ← acceptWord .kwPointer then
      expectWord .kwTo SyntaxError.expectType
      let elem ← typeExpr fuel
      return .pointer elem (← spanFrom start)
    else if ← acceptPunct .caret then
      let elem ← typeExpr fuel
      return .pointer elem (← spanFrom start)
    else if ← atWord .kwClass then classBody fuel
    else if ← acceptWord .kwProcedure then
      let ps ← params fuel
      return .routine ps none (← spanFrom start)
    else if ← acceptWord .kwFunction then
      let ps ← params fuel
      expectPunct .colon SyntaxError.expectType
      let result ← typeExpr fuel
      return .routine ps (some result) (← spanFrom start)
    else fail .expectedType

/-- The length of a fixed array; a dynamic array has none. -/
def arrayLength : (fuel : Nat) → Parser (Option Expr)
  | 0 => fail .nestingTooDeep
  | fuel + 1 => do
    if ← acceptPunct .lBracket then
      let n ← expr fuel
      expectPunct .rBracket SyntaxError.unexpectedToken
      return some n
    else return none

/-- Parameters between parentheses, which may be absent. -/
def params : (fuel : Nat) → Parser (List Param)
  | 0 => fail .nestingTooDeep
  | fuel + 1 => do
    if ← acceptPunct .lParen then
      if ← acceptPunct .rParen then return []
      else
        let ps ← paramGroups fuel
        expectPunct .rParen SyntaxError.unexpectedToken
        return ps
    else return []

/-- Groups of parameters with semicolons between them. -/
def paramGroups : (fuel : Nat) → Parser (List Param)
  | 0 => fail .nestingTooDeep
  | fuel + 1 => do
    let start := (← peek).span
    let _ ← acceptWord .kwConst
    let names ← identList fuel
    expectPunct .colon SyntaxError.expectType
    let type ← typeExpr fuel
    let p : Param := ⟨names, type, ← spanFrom start⟩
    if ← acceptPunct .semicolon then
      return p :: (← paramGroups fuel)
    else return [p]

def classBody : (fuel : Nat) → Parser TypeExpr
  | 0 => fail .nestingTooDeep
  | fuel + 1 => do
    let start := (← advance).span
    let base ← classBase
    let members ← members fuel
    expectWord .kwEnd SyntaxError.expectEnd
    return .classBody base members (← spanFrom start)

/-- Fields and methods; the word `var` may stand before fields and means nothing. -/
def members : (fuel : Nat) → Parser (List Member)
  | 0 => fail .nestingTooDeep
  | fuel + 1 => do
    if ← atAny [.keyword .kwEnd, .endOfFile] then return []
    else if ← atKind .identifier then
      let d ← varDecl fuel
      return .field d :: (← members fuel)
    else if ← acceptWord .kwVar then members fuel
    else if ← atAny routineWords then
      let h ← header fuel false
      return .method h :: (← members fuel)
    else fail .unexpectedInClass

def varDecl : (fuel : Nat) → Parser VarDecl
  | 0 => fail .nestingTooDeep
  | fuel + 1 => do
    let start := (← peek).span
    let names ← identList fuel
    expectPunct .colon SyntaxError.unexpectedToken
    let type ← typeExpr fuel
    semicolon
    return ⟨names, type, ← spanFrom start⟩

/-- A routine header with its semicolon and directives. Its span ends before the semicolon. -/
def header : (fuel : Nat) → (qualified : Bool) → Parser Header
  | 0, _ => fail .nestingTooDeep
  | fuel + 1, qualified => do
    let start := (← peek).span
    let kind := routineKind (← advance).kind
    let first ← ident
    let owned ← if qualified then acceptPunct .dot else pure false
    let name ← if owned then ident else pure first
    let ps ← params fuel
    let result ← headerResult fuel kind
    let span ← spanFrom start
    semicolon
    let (v, o) ← directives fuel false false
    return ⟨kind, if owned then some first else none, name, ps, result, v, o, span⟩

/-- The result type, which functions have and no other routine. -/
def headerResult : (fuel : Nat) → RoutineKind → Parser (Option TypeExpr)
  | 0, _ => fail .nestingTooDeep
  | fuel + 1, kind => do
    if kind = .function then
      expectPunct .colon SyntaxError.expectType
      return some (← typeExpr fuel)
    else return none

end

/-! ## Statements -/

/-- A statement position that holds nothing. -/
def emptyBranch : Parser Bool := atAny [.punct .semicolon, .keyword .kwElse, .keyword .kwEnd]

/-- The direction of a counting loop: true when it counts down. -/
def direction : Parser Bool := do
  if ← acceptWord .kwTo then return false
  else if ← acceptWord .kwDownto then return true
  else fail .expectedDirection

mutual

def stmt : (fuel : Nat) → Parser Stmt
  | 0 => fail .nestingTooDeep
  | fuel + 1 => do
    let start := (← peek).span
    if ← atPunct .semicolon then return .empty start
    else if ← atWord .kwBegin then
      let b ← block fuel
      return .compound b.body b.span
    else if ← acceptWord .kwIf then
      let cond ← expr fuel
      expectWord .kwThen SyntaxError.unexpectedToken
      let yes ← branch fuel
      let no ← elseBranch fuel
      return .ifThen cond yes no (← spanFrom start)
    else if ← acceptWord .kwWhile then
      let cond ← expr fuel
      expectWord .kwDo SyntaxError.unexpectedToken
      let body ← branch fuel
      return .whileDo cond body (← spanFrom start)
    else if ← acceptWord .kwRepeat then
      let body ← stmtList fuel .kwUntil
      expectWord .kwUntil SyntaxError.unexpectedToken
      let cond ← expr fuel
      return .repeatUntil body cond (← spanFrom start)
    else if ← acceptWord .kwFor then
      let var ← ident
      expectPunct .assign SyntaxError.unexpectedToken
      let first ← expr fuel
      let down ← direction
      let last ← expr fuel
      expectWord .kwDo SyntaxError.unexpectedToken
      let body ← branch fuel
      return .forTo var first last down body (← spanFrom start)
    else if ← acceptWord .kwCase then
      let subject ← expr fuel
      expectWord .kwOf SyntaxError.unexpectedToken
      let arms ← caseArms fuel
      let otherwise ← if ← acceptWord .kwElse then stmtList fuel .kwEnd else pure []
      expectWord .kwEnd SyntaxError.expectEnd
      return .caseOf subject arms otherwise (← spanFrom start)
    else if ← acceptWord .kwExit then return .jump .exit start
    else if ← acceptWord .kwBreak then return .jump .break start
    else if ← acceptWord .kwContinue then return .jump .continue start
    else
      let left ← expr fuel
      if ← acceptPunct .assign then
        let right ← expr fuel
        return .assign left right (← spanFrom start)
      else return .call left (← spanFrom start)

def branch : (fuel : Nat) → Parser Stmt
  | 0 => fail .nestingTooDeep
  | fuel + 1 => do
    if ← emptyBranch then return .empty (← peek).span else stmt fuel

def elseBranch : (fuel : Nat) → Parser (Option Stmt)
  | 0 => fail .nestingTooDeep
  | fuel + 1 => do
    if ← acceptWord .kwElse then return some (← branch fuel) else return none

/-- Statements with semicolons between them, up to the closing word, which is not taken. -/
def stmtList : (fuel : Nat) → (close : Keyword) → Parser (List Stmt)
  | 0, _ => fail .nestingTooDeep
  | fuel + 1, close => do
    if ← atWord close then return []
    else
      let s ← stmt fuel
      if ← atWord close then return [s]
      else
        semicolon
        return s :: (← stmtList fuel close)

def block : (fuel : Nat) → Parser Block
  | 0 => fail .nestingTooDeep
  | fuel + 1 => do
    let start := (← expect (.keyword .kwBegin) SyntaxError.unexpectedToken).span
    let body ← stmtList fuel .kwEnd
    expectWord .kwEnd SyntaxError.expectEnd
    return ⟨body, ← spanFrom start⟩

/-- The arms of a case; the last one need not have a semicolon. -/
def caseArms : (fuel : Nat) → Parser (List CaseArm)
  | 0 => fail .nestingTooDeep
  | fuel + 1 => do
    if ← atAny [.keyword .kwElse, .keyword .kwEnd] then return []
    else
      let start := (← peek).span
      let labels ← exprList fuel
      expectPunct .colon SyntaxError.unexpectedToken
      let body ← branch fuel
      let arm : CaseArm := ⟨labels, body, ← spanFrom start⟩
      if ← acceptPunct .semicolon then
        return arm :: (← caseArms fuel)
      else return [arm]

end

/-! ## Declarations and files -/

def constDecl (fuel : Nat) : Parser ConstDecl := do
  let start := (← peek).span
  let name ← ident
  let type ← if ← acceptPunct .colon then some <$> typeExpr fuel else pure none
  expectPunct .eq SyntaxError.unexpectedToken
  let value ← expr fuel
  semicolon
  return ⟨name, type, value, ← spanFrom start⟩

def typeDecl (fuel : Nat) : Parser TypeDecl := do
  let start := (← peek).span
  let name ← ident
  expectPunct .eq SyntaxError.unexpectedToken
  let type ← typeExpr fuel
  semicolon
  return ⟨name, type, ← spanFrom start⟩

/-- The words that open a section of declarations. -/
def sectionWords : List TokenKind := [.keyword .kwConst, .keyword .kwType, .keyword .kwVar]

/-- One declaration of a section opened by the given word. -/
def localDecl (fuel : Nat) (word : TokenKind) : Parser LocalDecl := do
  if word = .keyword .kwConst then return .const (← constDecl fuel)
  else if word = .keyword .kwType then return .type (← typeDecl fuel)
  else return .var (← varDecl fuel)

/-- The declarations of a section, as long as names follow. -/
def sectionDecls : (fuel : Nat) → (word : TokenKind) → Parser (List LocalDecl)
  | 0, _ => fail .nestingTooDeep
  | fuel + 1, word => do
    if ← atKind .identifier then
      let d ← localDecl fuel word
      return d :: (← sectionDecls fuel word)
    else return []

/-- The sections of a routine. -/
def localSections : (fuel : Nat) → Parser (List LocalDecl)
  | 0 => fail .nestingTooDeep
  | fuel + 1 => do
    if ← atAny sectionWords then
      let word := (← advance).kind
      let ds ← sectionDecls fuel word
      return ds ++ (← localSections fuel)
    else if ← atAny [.keyword .kwProcedure, .keyword .kwFunction] then fail .nestedRoutine
    else return []

/-- A routine. Where bodies are allowed, one follows if a section or `begin` comes next. -/
def routine (fuel : Nat) (withBodies : Bool) : Parser RoutineDecl := do
  let start := (← peek).span
  let h ← header fuel true
  if withBodies && (← atAny (.keyword .kwBegin :: sectionWords)) then
    let locals ← localSections fuel
    let body ← block fuel
    semicolon
    return ⟨h, locals, some body, ← spanFrom start⟩
  else return ⟨h, [], none, ← spanFrom start⟩

/-- The declarations of a part of a file. -/
def decls : (fuel : Nat) → (withBodies : Bool) → Parser (List Decl)
  | 0, _ => fail .nestingTooDeep
  | fuel + 1, withBodies => do
    if ← atAny sectionWords then
      let word := (← advance).kind
      let ds ← sectionDecls fuel word
      return ds.map .plain ++ (← decls fuel withBodies)
    else if ← atAny routineWords then
      let r ← routine fuel withBodies
      return .routine r :: (← decls fuel withBodies)
    else return []

def uses (fuel : Nat) : Parser (List Ident) := do
  if ← acceptWord .kwUses then
    let names ← identList fuel
    semicolon
    return names
  else return []

/-- The point after the last block, and nothing behind it. -/
def finish : Parser Unit := do
  expectPunct .dot SyntaxError.expectEnd
  if ← atKind .endOfFile then return () else fail .trailingInput

def program (fuel : Nat) (start : Span) : Parser File := do
  let _ ← advance
  let name ← ident
  semicolon
  let used ← uses fuel
  let ds ← decls fuel true
  let body ← block fuel
  finish
  return ⟨.program, name, used, [], [], ds, some body, ← spanFrom start⟩

/-- The initialization of a unit: after its own word, in a block, or none. -/
def initialization (fuel : Nat) : Parser (Option Block) := do
  if ← atWord .kwInitialization then
    let start := (← advance).span
    let body ← stmtList fuel .kwEnd
    expectWord .kwEnd SyntaxError.expectEnd
    return some ⟨body, ← spanFrom start⟩
  else if ← atWord .kwBegin then return some (← block fuel)
  else
    expectWord .kwEnd SyntaxError.expectEnd
    return none

def unit (fuel : Nat) (start : Span) : Parser File := do
  let _ ← advance
  let name ← ident
  semicolon
  expectWord .kwInterface SyntaxError.badHeader
  let used ← uses fuel
  let interface ← decls fuel false
  expectWord .kwImplementation SyntaxError.badHeader
  let implUses ← uses fuel
  let implementation ← decls fuel true
  let body ← initialization fuel
  finish
  return ⟨.unit, name, used, interface, implUses, implementation, body, ← spanFrom start⟩

def file (fuel : Nat) : Parser File := do
  let start := (← peek).span
  if ← atWord .kwProgram then program fuel start
  else if ← atWord .kwUnit then unit fuel start
  else fail .expectedHeader

/-- More than any parse of `n` tokens needs: between two tokens lie fewer than sixteen calls. -/
def enoughFuel (n : Nat) : Nat := 16 * (n + 4)

end Parser

/-- What a parse yields: a tree unless an error was found, and the errors. -/
structure Parsed where
  file : Option File
  errors : List Diagnostic

/-- Parses tokens of which the last is the end of the file. -/
def File.ofTokens (tokens : List Token) (named : ∀ t ∈ tokens, t.Named) :
    Except SyntaxError File :=
  match h : tokens.getLast? with
  | none => .error (.expectedHeader ⟨.endOfFile, {}, [], []⟩)
  | some eof =>
    (Parser.file (Parser.enoughFuel tokens.length)).run' ⟨tokens, eof, {},
      List.forall_mem_cons.mpr ⟨named eof (List.mem_of_getLast? h), named⟩⟩

/-- Parses a source text. Lexical errors are reported together; a file that has any is not
parsed. -/
def File.parse (source : SourceFile) : Parsed :=
  let lexed := source.tokenize
  if lexed.2.isEmpty then
    match File.ofTokens lexed.1 source.tokenize_named with
    | .ok f => ⟨some f, []⟩
    | .error e => ⟨none, [e.diagnostic]⟩
  else ⟨none, lexed.2⟩

end Pascaline.Tree
