import Pascaline.Bound.Expression

/-!
# Binding statements

Compound statements are flattened, and a statement with an error is left out. All parts of a
statement are looked at, so that one error does not hide the next.
-/

namespace Pascaline.Bound.Bind

def isAddressable : Expr → Bool
  | .frameVar .. | .unitVar .. | .field .. | .deref .. | .element .. => true
  | _ => false

/-- Why an expression cannot be assigned. -/
def assignmentError : Expr → BindError
  | .character .. => .characterAssigned
  | .const .. => .constantAssigned
  | _ => .valueAssigned

/-- The result slot, when a function assigns to its own name. -/
def resultTarget? : Tree.Expr → Bind (Option Expr)
  | .name id => do
    match (← get).frame with
    | some f =>
      match f.result with
      | some slot =>
        if f.function ≠ 0 && (← symbol f.function).name = id.name then
          return some (.frameVar 0 slot ((f.slots.getD slot default).type) id.span)
        else return none
      | none => return none
    | none => return none
  | _ => return none

/-- The left side of an assignment. -/
def target (e : Tree.Expr) : Bind (Option Expr) := do
  match ← resultTarget? e with
  | some r => return some r
  | none =>
    let some t ← expr 0 e | return none
    if !isAddressable t then fail (assignmentError t) e.span
    else
      match t with
      | .frameVar x _ _ _ =>
        if x ≠ 0 && (← symbol x).flags.has .this then fail .thisAssigned e.span
        else return some t
      | _ => return some t

def condition (e : Tree.Expr) : Bind (Option Expr) := do
  coerce (← operand e) TypeTable.boolean e.span

/-- Runs an action inside one more loop. -/
def inLoop {α : Type} (x : Bind α) : Bind α := do
  let shift := fun (f : Nat → Nat) (s : Session) =>
    { s with frame := s.frame.map fun fr => { fr with loops := f fr.loops } }
  modify (shift (· + 1))
  let a ← x
  modify (shift (· - 1))
  return a

/-- The control variable of a `for` statement. -/
def loopVariable (id : Tree.Ident) : Bind (Option Expr) := do
  match ← resolve id.name with
  | .nothing => fail (.undeclared id.text) id.span
  | .field _ | .methods _ => fail .loopVariableMember id.span
  | .symbols x _ =>
    let sym ← symbol x
    if sym.kind ≠ .var && sym.kind ≠ .param then fail (.loopVariableKind id.text sym.kind) id.span
    else if !(← kindOf sym.type).isOrdinal then
      fail (.loopVariableType (← render sym.type)) id.span
    else return some (storage x sym id.span)

/-- Two case labels that select the same values. -/
def sameLabel (a b : Value) : Bool := a.kind == b.kind && a.number == b.number

/-- Binds the labels of one arm. `seen` holds those used so far, and comes back extended. -/
def caseLabels (type : TypeId) :
    List (Value × Span) → List Tree.Expr → Bind (List Value × List (Value × Span))
  | seen, [] => return ([], seen)
  | seen, l :: ls => do
    match (← coerce (← constant l type) type l.span).bind (·.const?) with
    | none => caseLabels type seen ls
    | some v =>
      match seen.find? (fun p => sameLabel p.1 v) with
      | some (_, first) =>
        report (.duplicateLabel v) l.span [⟨first, utf8 "first used here"⟩]
        caseLabels type seen ls
      | none =>
        let (vs, seen) ← caseLabels type ((v, l.span) :: seen) ls
        return (v :: vs, seen)

def jump (kind : Tree.JumpKind) (span : Span) : Bind (List Stmt) := do
  let inside := ((← get).frame.map (·.loops)).getD 0 ≠ 0
  match kind with
  | .exit => return [.exit span]
  | .break | .continue =>
    if inside then return [if kind = .break then .break span else .continue span]
    else
      report (.jumpOutsideLoop kind) span
      return []

mutual

/-- Binds a statement to the statements it stands for. -/
def stmt : Tree.Stmt → Bind (List Stmt)
  | .empty _ => return []
  | .compound body _ => stmts body
  | .assign place value span => do
    match ← target place with
    | none =>
      let _ ← operand value
      return []
    | some t =>
      let some v ← coerce (← expr t.type value) t.type value.span | return []
      return [.assign t v span]
  | .call call span => do
    let some e ← expr 0 call | return []
    if e.isCall then return [.expr e span]
    else
      report .valueAsStatement span
      return []
  | .ifThen cond yes no span => do
    let c ← condition cond
    let y ← stmt yes
    let n ← match no with
      | some s => stmt s
      | none => pure []
    let some c := c | return []
    return [.ifElse c y n span]
  | .whileDo cond body span => do
    let c ← condition cond
    let b ← inLoop (stmt body)
    let some c := c | return []
    return [.whileDo c b span]
  | .repeatUntil body cond span => do
    let b ← inLoop (stmts body)
    let some c ← condition cond | return []
    return [.repeatUntil b c span]
  | .forTo var first last down body span => do
    let some v ← loopVariable var | return []
    let a ← coerce (← operand first) v.type first.span
    let z ← coerce (← operand last) v.type last.span
    let b ← inLoop (stmt body)
    match a, z with
    | some a, some z => return [.forTo v a z down b span]
    | _, _ => return []
  | .caseOf subject arms otherwise span => do
    let some s ← operand subject | return []
    if !(← kindOf s.type).isOrdinal then
      report (.selectorType (← render s.type)) subject.span
      return []
    else
      let as ← caseArms s.type [] arms
      return [.caseOf s as (← stmts otherwise) span]
  | .jump kind span => jump kind span

def stmts : List Tree.Stmt → Bind (List Stmt)
  | [] => return []
  | s :: ss => do
    let bound ← stmt s
    return bound ++ (← stmts ss)

def caseArms (type : TypeId) (seen : List (Value × Span)) :
    List Tree.CaseArm → Bind (List CaseArm)
  | [] => return []
  | ⟨labels, body, _⟩ :: arms => do
    let (vs, seen) ← caseLabels type seen labels
    let b ← stmt body
    return .arm vs b :: (← caseArms type seen arms)

end

end Pascaline.Bound.Bind
