import Pascaline.Bound.Error
import Pascaline.Types.Compat
import Pascaline.Value.Arithmetic

/-!
# Coercion, operators and overloads

What the types of expressions decide: which conversions are inserted, what operators accept,
which constants are worked out, and which of several routines a call means.
-/

namespace Pascaline.Bound

/-! ## Conversions -/

def intToReal : Expr → Expr
  | .const v _ s => .const (.real v.number.toFloat) TypeTable.real s
  | e => .convert .intToReal e TypeTable.real e.span

/-- An integer as a real; other expressions stay. -/
def toReal (t : TypeTable) (e : Expr) : Expr := if t.kind e.type = .integer then intToReal e else e

/-- A char as a string; other expressions stay. -/
def charToString (t : TypeTable) (e : Expr) : Expr :=
  if t.kind e.type = .char then
    match e with
    | .const v _ s => .const (.string (Value.charText v.number)) TypeTable.string s
    | e => .convert .charToString e TypeTable.string e.span
  else e

/-- The character of a string constant of length one, which also serves as a char. -/
def soleChar? (e : Expr) : Option Char :=
  match e.const? with
  | some (.string s) =>
    match Utf8.chars s with
    | [c] => some c
    | _ => none
  | _ => none

/-- The char constant that an expression stands for where a char is wanted. -/
def charFor? (t : TypeTable) (e : Expr) (target : TypeId) : Option Char :=
  if t.kind target = .char then soleChar? e else none

/-- How well an expression fits a place. -/
def accepts (t : TypeTable) (e : Expr) (target : TypeId) : Compat :=
  if (charFor? t e target).isSome then .widening else t.assignable e.type target

/-- Makes an expression fit a place of type `target`; no type means that everything fits. -/
def coerce (t : TypeTable) (e : Expr) (target : TypeId) : Except BindError Expr :=
  if target = 0 then .ok e
  else match charFor? t e target with
    | some c => .ok (.const (.char (Int64.ofNat c.toNat)) target e.span)
    | none =>
      match t.assignable e.type target with
      | .exact => .ok e
      | .widening =>
        if t.kind e.type = .integer && t.kind target = .real then .ok (intToReal e) else .ok e
      | .incompatible =>
        if e.type = TypeTable.void then .error .procedureAsValue
        else .error (.mismatch (t.render e.type) (t.render target))

/-! ## Operators -/

def isText (k : TypeKind) : Bool := k = .char || k = .string

/-- The operands as they enter the operator, and the type of the result. -/
def typeBinary (t : TypeTable) (op : BinaryOp) (l r : Expr) : Option (Expr × Expr × TypeId) :=
  let j := t.kind l.type
  let k := t.kind r.type
  let ints := j = .integer && k = .integer
  let numbers := j.isNumeric && k.isNumeric
  let reals := (toReal t l, toReal t r, TypeTable.real)
  match op with
  | .add | .sub | .mul =>
    if op = .add && isText j && isText k then
      some (charToString t l, charToString t r, TypeTable.string)
    else if ints then some (l, r, TypeTable.integer)
    else if numbers then some reals
    else none
  | .quot => if numbers then some reals else none
  | .div | .mod | .shl | .shr => if ints then some (l, r, TypeTable.integer) else none
  | .and | .or | .xor =>
    if j = .boolean && k = .boolean then some (l, r, TypeTable.boolean)
    else if ints then some (l, r, TypeTable.integer)
    else none
  | .concat => none
  | .eq | .ne | .lt | .le | .gt | .ge =>
    if !t.comparable l.type r.type (op = .eq || op = .ne) then none
    else if numbers && !ints then some (toReal t l, toReal t r, TypeTable.boolean)
    else if isText j && isText k && j != k then
      some (charToString t l, charToString t r, TypeTable.boolean)
    else some (l, r, TypeTable.boolean)

/-- The value of an operator, unless it fails. -/
def BinaryOp.apply? (op : BinaryOp) (l r : Value) : Option Value :=
  let test := fun (b : Bool) => some (Value.ofBool b)
  match op with
  | .add => (l.add r).toOption
  | .sub => (l.sub r).toOption
  | .mul => (l.mul r).toOption
  | .quot => (l.quot r).toOption
  | .div => (l.div r).toOption
  | .mod => (l.mod r).toOption
  | .and => (l.and r).toOption
  | .or => (l.or r).toOption
  | .xor => (l.xor r).toOption
  | .shl => (l.shl r).toOption
  | .shr => (l.shr r).toOption
  | .concat => (l.concat r).toOption
  | .eq => test (l.equal r)
  | .ne => test (!l.equal r)
  | .lt => test (l.compare r == .lt)
  | .le => test (l.compare r != .gt)
  | .gt => test (l.compare r == .gt)
  | .ge => test (l.compare r != .lt)

def UnaryOp.apply? (op : UnaryOp) (v : Value) : Option Value :=
  match op with
  | .neg => v.neg.toOption
  | .not => v.not.toOption

/-- An operator on two typed operands; constants are worked out unless the operator fails, which is
then left to the run. -/
def mkBinary (op : BinaryOp) (l r : Expr) (result : TypeId) (span : Span) : Expr :=
  match l.const?, r.const? with
  | some v, some w =>
    match op.apply? v w with
    | some x => .const x result span
    | none => .binary op l r result span
  | _, _ => .binary op l r result span

def mkUnary (op : UnaryOp) (e : Expr) (span : Span) : Expr :=
  match e.const?.bind op.apply? with
  | some x => .const x e.type span
  | none => .unary op e e.type span

/-! ## Overloads -/

inductive CallTarget where
  | routine (symbol : SymbolId)
  | method (m : Method)
  | native (n : Native)
deriving Inhabited

/-- One of the routines that a call may mean; the signature of a built-in one does not count. -/
structure Candidate where
  target : CallTarget
  sig : Signature
deriving Inhabited

namespace Candidate

def ofMethod (m : Method) : Candidate := ⟨.method m, m.sig⟩

def arity (c : Candidate) (count : Nat) : Bool :=
  match c.target with
  | .native n => n.arity count
  | _ => c.sig.params.length == count

/-- Whether the arguments fit at least as well as asked; their number is right. -/
def fits (t : TypeTable) (atLeast : Compat) (c : Candidate) (args : List Expr) : Bool :=
  match c.target with
  | .native n => args.zipIdx.all fun (a, i) => (n.param i).accepts (t.kind a.type)
  | _ => (args.zip c.sig.params).all fun (a, p) =>
    match accepts t a p with
    | .exact => true
    | .widening => atLeast = .widening
    | .incompatible => false

/-- The first candidate, in the order of declaration, whose parameters the arguments fit exactly,
or else the first that they fit at all. -/
def choose? (t : TypeTable) (cands : List Candidate) (args : List Expr) : Option Candidate :=
  let fitting := fun (atLeast : Compat) =>
    cands.find? fun c => c.arity args.length && c.fits t atLeast args
  (fitting .exact).orElse fun _ => fitting .widening

/-- The type on which all agree. -/
def agreed : List TypeId → TypeId
  | [] => 0
  | p :: ps => if ps.all (· == p) then p else 0

/-- What the arguments of a call are expected to be: a type only where a routine value is wanted
and all candidates of this arity agree on its type. -/
def wanted (t : TypeTable) (cands : List Candidate) (count : Nat) : List TypeId :=
  let sigs := cands.filterMap fun c =>
    match c.target with
    | .native _ => none
    | _ => if c.arity count then some c.sig.params else none
  (List.range count).map fun i =>
    let p := agreed (sigs.filterMap (·[i]?))
    if (t.kind p).isRoutine then p else 0

end Candidate

/-- The type of a call of a built-in routine. -/
def nativeResult (n : Native) (args : List Expr) : TypeId :=
  match n.result with
  | .void => TypeTable.void
  | .int => TypeTable.integer
  | .real => TypeTable.real
  | .char => TypeTable.char
  | .string => TypeTable.string
  | .bool => TypeTable.boolean
  | .sameAsFirst => (args.head?.map (·.type)).getD 0

end Pascaline.Bound
