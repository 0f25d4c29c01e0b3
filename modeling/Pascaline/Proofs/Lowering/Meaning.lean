import Pascaline.Lowering
import Pascaline.Machine.Fault

/-!
# The meaning of bound trees

What statements without calls, fields and arrays do, told on the trees themselves. Expressions always
have a value or a fault. A loop is given a number of rounds, and has no meaning within them if it
needs more.
-/

namespace Pascaline

/-- What the slots of a frame and the variables of the units hold. -/
structure Store where
  slots : Nat → Value
  globals : GlobalRef → Value

namespace Store

def setSlot (st : Store) (slot : Nat) (v : Value) : Store :=
  { st with slots := fun i => if i = slot then v else st.slots i }

def setGlobal (st : Store) (ref : GlobalRef) (v : Value) : Store :=
  { st with globals := fun r => if r = ref then v else st.globals r }

/-- The value of a variable. -/
def get (st : Store) : Bound.Expr → Value
  | .frameVar _ slot _ _ => st.slots slot
  | .unitVar m slot _ _ => st.globals ⟨m, slot⟩
  | _ => .invalid

/-- Stores a value into a variable. -/
def put (st : Store) (v : Value) : Bound.Expr → Store
  | .frameVar _ slot _ _ => st.setSlot slot v
  | .unitVar m slot _ _ => st.setGlobal ⟨m, slot⟩ v
  | _ => st

end Store

/-! ## Expressions -/

/-- The fault of an operator. -/
def ArithmeticError.cause : ArithmeticError → FaultCause
  | .divisionByZero => .divisionByZero
  | e => .typeMismatch (.operands e)

/-- The value of an operator, or its fault. -/
def Value.Outcome.orFault : Value.Outcome → Except FaultCause Value
  | .ok v => .ok v
  | .error e => .error e.cause

/-- A character of a text. -/
def Value.charAt (text index : Value) : Except FaultCause Value :=
  match text with
  | .string s =>
    let cs := Utf8.chars s
    match index with
    | .int n | .char n =>
      if n < 0 || (cs.length : Int) ≤ n.toInt then .error (.outOfBounds n cs.length)
      else .ok (.char (Int64.ofNat (cs.getD n.toInt.toNat ' ').toNat))
    | _ => .error (.typeMismatch .index)
  | v => .error (.invalidCode (.loadChar v.kind))

namespace Bound

def UnaryOp.apply : UnaryOp → Value → Value.Outcome
  | .neg => Value.neg
  | .not => Value.not

def BinaryOp.apply : BinaryOp → Value → Value → Value.Outcome
  | .add => Value.add | .sub => Value.sub | .mul => Value.mul | .quot => Value.quot
  | .div => Value.div | .mod => Value.mod | .and => Value.and | .or => Value.or
  | .xor => Value.xor | .shl => Value.shl | .shr => Value.shr | .concat => Value.concat
  | .eq => fun a b => .ok (.ofBool (a.equal b))
  | .ne => fun a b => .ok (.ofBool (!a.equal b))
  | .lt => fun a b => .ok (.ofBool (a.compare b).isLT)
  | .le => fun a b => .ok (.ofBool (a.compare b).isLE)
  | .gt => fun a b => .ok (.ofBool (a.compare b).isGT)
  | .ge => fun a b => .ok (.ofBool (a.compare b).isGE)

def Conversion.apply : Conversion → Value → Value
  | .intToReal, v => .real v.asReal
  | .charToString, .char n => .string (Value.charText n)
  | .charToString, v => v

/-- Operands are worked out from left to right; a boolean `and` or `or` whose left side decides skips
its right side. Calls, fields and arrays have no meaning here. -/
def Expr.eval (types : TypeTable) (st : Store) : Expr → Except FaultCause Value
  | .const v _ _ => .ok v
  | .frameVar _ slot _ _ => .ok (st.slots slot)
  | .unitVar m slot _ _ => .ok (st.globals ⟨m, slot⟩)
  | .character text index _ _ => do
    let s ← text.eval types st
    let i ← index.eval types st
    s.charAt i
  | .unary o x _ _ => do (o.apply (← x.eval types st)).orFault
  | .binary o left right type _ => do
    let x ← left.eval types st
    if Lower.isShort o (types.kind type) then
      if x.isTrue == (o == .and) then right.eval types st else return x
    else
      let y ← right.eval types st
      (o.apply x y).orFault
  | .convert c x _ _ => return c.apply (← x.eval types st)
  | _ => .error .stopped

/-! ## Statements -/

/-- How a statement ends: before the next one, by `exit`, `break` or `continue`, or with a fault. -/
inductive Flow where
  | next (st : Store)
  | exit (st : Store)
  | break (st : Store)
  | continue (st : Store)
  | fault (cause : FaultCause)

/-- Goes on with a value, unless there is a fault. -/
def Flow.with (value : Except FaultCause Value) (f : Value → Option Flow) : Option Flow :=
  match value with
  | .ok v => f v
  | .error c => some (.fault c)

/-- Goes on with the next statement, if this one ends normally. -/
def Flow.then (flow : Option Flow) (f : Store → Option Flow) : Option Flow :=
  match flow with
  | some (.next st) => f st
  | flow => flow

/-- What becomes of a loop after a round: `break` ends it, and `continue` is as good as the end of
the body. -/
def Flow.round (body : Option Flow) (again : Store → Option Flow) : Option Flow :=
  match body with
  | some (.next st) | some (.continue st) => again st
  | some (.break st) => some (.next st)
  | some (.exit st) => some (.exit st)
  | some (.fault c) => some (.fault c)
  | none => none

def whileLoop (cond : Store → Except FaultCause Value) (body : Store → Option Flow) :
    (rounds : Nat) → Store → Option Flow
  | 0, _ => none
  | k + 1, st => Flow.with (cond st) fun v =>
    if v.isTrue then Flow.round (body st) (whileLoop cond body k) else some (.next st)

def repeatLoop (cond : Store → Except FaultCause Value) (body : Store → Option Flow) :
    (rounds : Nat) → Store → Option Flow
  | 0, _ => none
  | k + 1, st => Flow.round (body st) fun st => Flow.with (cond st) fun v =>
    if v.isTrue then some (.next st) else repeatLoop cond body k st

/-- After the body the loop ends at its limit, or steps. -/
def forLoop (var : Expr) (limit : Value) (step : Value → Value.Outcome)
    (body : Store → Option Flow) : (rounds : Nat) → Store → Option Flow
  | 0, _ => none
  | k + 1, st => Flow.round (body st) fun st =>
    if (st.get var).equal limit then some (.next st)
    else Flow.with (step (st.get var)).orFault fun v =>
      forLoop var limit step body k (st.put v var)

/-- Whether a `for` loop starts at all. -/
def forStarts (down : Bool) (first limit : Value) : Bool :=
  if down then (first.compare limit).isGE else (first.compare limit).isLE

def forStep (down : Bool) : Value → Value.Outcome := if down then Value.pred else Value.succ

mutual

/-- What a statement does within so many rounds of each loop. -/
def Stmt.exec (types : TypeTable) (rounds : Nat) : Stmt → Store → Option Flow
  | .assign target value _, st => Flow.with (value.eval types st) fun v =>
    some (.next (st.put v target))
  | .expr _ _, _ => none
  | .ifElse cond yes no _, st => Flow.with (cond.eval types st) fun v =>
    if v.isTrue then execAll types rounds yes st else execAll types rounds no st
  | .whileDo cond body _, st =>
    whileLoop (fun st => cond.eval types st) (execAll types rounds body) rounds st
  | .repeatUntil body cond _, st =>
    repeatLoop (fun st => cond.eval types st) (execAll types rounds body) rounds st
  | .forTo var first last down body _, st => Flow.with (first.eval types st) fun v =>
    Flow.with (last.eval types (st.put v var)) fun limit =>
      if forStarts down ((st.put v var).get var) limit then
        forLoop var limit (forStep down) (execAll types rounds body) rounds (st.put v var)
      else some (.next (st.put v var))
  | .caseOf subject arms otherwise _, st => Flow.with (subject.eval types st) fun v =>
    execArms types rounds v arms (execAll types rounds otherwise) st
  | .exit _, st => some (.exit st)
  | .break _, st => some (.break st)
  | .continue _, st => some (.continue st)

def execAll (types : TypeTable) (rounds : Nat) : List Stmt → Store → Option Flow
  | [], st => some (.next st)
  | s :: ss, st => Flow.then (s.exec types rounds st) (execAll types rounds ss)

/-- The first arm with an equal label is taken. -/
def execArms (types : TypeTable) (rounds : Nat) (v : Value) :
    List CaseArm → (otherwise : Store → Option Flow) → Store → Option Flow
  | [], otherwise, st => otherwise st
  | .arm labels body :: arms, otherwise, st =>
    if labels.any v.equal then execAll types rounds body st
    else execArms types rounds v arms otherwise st

end

/-- What is left when the statements of a routine end. -/
def Flow.result : Flow → Except FaultCause Store
  | .next st | .exit st | .break st | .continue st => .ok st
  | .fault c => .error c

/-- What a routine leaves in its variables, or its fault. -/
def Routine.meaning (types : TypeTable) (r : Routine) (rounds : Nat) (st : Store) :
    Option (Except FaultCause Store) :=
  (execAll types rounds r.body st).map Flow.result

/-! ## Trees with a meaning -/

/-- A variable of the frame, which has `n` slots, or of a unit. -/
def Expr.isVar (n : Nat) : Expr → Bool
  | .frameVar _ slot _ _ => slot < n
  | .unitVar .. => true
  | _ => false

theorem Expr.isVar_cases {n : Nat} {e : Expr} (h : e.isVar n) :
    (∃ name slot type sp, e = .frameVar name slot type sp ∧ slot < n) ∨
      ∃ m slot type sp, e = .unitVar m slot type sp := by
  cases e
  case frameVar name slot type sp => exact .inl ⟨name, slot, type, sp, rfl, by simpa [isVar] using h⟩
  case unitVar m slot type sp => exact .inr ⟨m, slot, type, sp, rfl⟩
  all_goals cases h

/-- An expression without calls, fields and arrays, over a frame of `n` slots, and with constants in
`K` only. -/
def Expr.Plain (n : Nat) (K : Value → Prop) : Expr → Prop
  | .const v _ _ => K v
  | .frameVar _ slot _ _ => slot < n
  | .unitVar .. => True
  | .character text index _ _ => text.Plain n K ∧ index.Plain n K
  | .unary _ x _ _ | .convert _ x _ _ => x.Plain n K
  | .binary _ x y _ _ => x.Plain n K ∧ y.Plain n K
  | _ => False

mutual

def Stmt.Plain (n : Nat) (K : Value → Prop) : Stmt → Prop
  | .assign target value _ => target.isVar n ∧ value.Plain n K
  | .expr _ _ => False
  | .ifElse cond yes no _ => cond.Plain n K ∧ PlainAll n K yes ∧ PlainAll n K no
  | .whileDo cond body _ | .repeatUntil body cond _ => cond.Plain n K ∧ PlainAll n K body
  | .forTo var first last _ body _ =>
    var.isVar n ∧ first.Plain n K ∧ last.Plain n K ∧ PlainAll n K body
  | .caseOf subject arms otherwise _ =>
    subject.Plain n K ∧ PlainArms n K arms ∧ PlainAll n K otherwise
  | .exit _ | .break _ | .continue _ => True

def PlainAll (n : Nat) (K : Value → Prop) : List Stmt → Prop
  | [] => True
  | s :: ss => s.Plain n K ∧ PlainAll n K ss

def PlainArms (n : Nat) (K : Value → Prop) : List CaseArm → Prop
  | [] => True
  | .arm labels body :: arms => (∀ v ∈ labels, K v) ∧ PlainAll n K body ∧ PlainArms n K arms

end

end Bound

end Pascaline
