import Pascaline.Bound.Expression
import Pascaline.Proofs.Interface.Tables
import Pascaline.Proofs.Lowering.Expressions

/-!
# Constants that are worked out

What the binder works out of constants is what the code of the expression leaves when it is executed
on operands of the same values. Where the binder leaves the expression alone, that code faults, but
for the length of an array, which only the heap of a run can tell.
-/

namespace Pascaline

/-! ## Operators -/

namespace Bound

theorem UnaryOp.apply?_eq (op : UnaryOp) (v : Value) : op.apply? v = (op.apply v).toOption := by
  cases op <;> rfl

theorem BinaryOp.apply?_eq (op : BinaryOp) (v w : Value) :
    op.apply? v w = (op.apply v w).toOption := by
  cases op
  case lt | le | gt | ge =>
    simp only [ BinaryOp.apply?, BinaryOp.apply]
    cases v.compare w <;> rfl
  all_goals rfl

end Bound

/-- A value that a constant of a type of this kind may have. -/
def Value.IsOf (v : Value) : TypeKind → Prop
  | .boolean => ∃ b, v = .ofBool b
  | .integer => ∃ n, v = .int n
  | .real => ∃ x, v = .real x
  | .char => ∃ n, v = .char n
  | .string => ∃ s, v = .string s
  | _ => True

namespace Bound

/-- A constant of this value, which fits its type. -/
structure Expr.Literal (T : TypeTable) (e : Expr) (v : Value) : Prop where
  const : e.const? = some v
  fits : v.IsOf (T.kind e.type)

theorem Expr.const?_eq_some {e : Expr} {v : Value} (h : e.const? = some v) :
    ∃ type span, e = .const v type span := by
  cases e with
  | const u type span =>
    cases h
    exact ⟨type, span, rfl⟩
  | _ => cases h

end Bound

/-! ## Built-in routines -/

namespace Native

/-- Everything but the length of an array is told by the arguments alone. -/
def IsClosed (n : Native) (args : List Value) : Prop :=
  n = .length → (args.getD 0 .invalid).isText

theorem call_eq_of_pure {n : Native} (hpure : n.isPure) {args : List Value}
    (hclosed : n.IsClosed args) (host : NativeHost) :
    n.call host args = (n.call {} args).map fun r => ⟨r.value, [], host.input⟩ := by
  cases n
  case length =>
    have htext := hclosed rfl
    cases hv : args.getD 0 .invalid
    case string | char =>
      unfold call
      simp only [hv, Except.map]
    all_goals
      rw [hv] at htext
      cases htext
  case write | writeln | readln | halt => cases hpure
  all_goals
    unfold call
    simp only
    repeat' split
    all_goals rfl

theorem call_length {args : List Value} (hclosed : ¬Native.IsClosed .length args) :
    Native.call .length {} args = .error (.error .lengthOutsideProgram) ∧
      ∀ (input : Option Bytes) (f : Value → Except NativeError Nat),
        Native.call .length { input, lengthOf := some f } args =
          match f (args.getD 0 .invalid) with
          | .ok k => .ok { value := .int (Int64.ofNat k), input }
          | .error e => .error (.error e) := by
  have htext : (args.getD 0 .invalid).isText = false := by
    simpa [IsClosed] using hclosed
  generalize hv : args.getD 0 .invalid = v at htext ⊢
  cases v
  case string | char => cases htext
  all_goals
    unfold call
    refine ⟨by simp only [hv], fun input f => ?_⟩
    rcases hf : f _ with e | k <;> simp only [hv, hf]

theorem substring_ne_halt (cs : List Char) (start count code : Int64) :
    substring cs start count ≠ .error (.halt code) := by
  intro h
  unfold substring at h
  simp only at h
  repeat' split at h
  all_goals cases h

theorem call_ne_halt {n : Native} (hpure : n.isPure) {args : List Value} {code : Int64} :
    n.call {} args ≠ .error (.halt code) := by
  intro h
  cases n
  case write | writeln | readln | halt => cases hpure
  case copy =>
    unfold call at h
    simp only at h
    split at h
    · cases h
    · cases h
      exact substring_ne_halt _ _ _ _ ‹_›
  all_goals
    unfold call at h
    simp only at h
    repeat' split at h
    all_goals cases h

theorem result_ne_void {n : Native} (hpure : n.isPure) : n.result ≠ .void := by
  cases n <;> simp [isPure, result] at hpure ⊢

end Native

namespace Exec

variable {P : Machine → Prop} {α : Type} {Q : α → Machine → Prop}

theorem Triple.marking {x : Exec Unit} {Q : Unit → Machine → Prop} {E : Stop → Prop}
    (h : Triple P x Q fun e _ => E e) : Triple P (marking x) Q fun e _ => E e := by
  intro m hm
  have h := h m hm
  unfold Exec.marking
  cases hx : x m with
  | ok a m' =>
    rw [hx] at h
    exact h
  | error e m' =>
    rw [hx] at h
    exact h

/-- What is done with the outcome of a built-in routine. -/
def nativeOutcome (n : Native) : Except NativeStop NativeReturn → Exec Unit
  | .error (.halt code) => halt code.toInt
  | .error (.error e) => raise (.nativeError n.name e)
  | .error .breakdown => breakdown
  | .ok r => do
    modify fun m => { m with input := r.input, output := m.output ++ r.output }
    if n.result ≠ .void then push r.value

theorem popMany_eq {m : Machine} {f : Frame} {rest : List Frame} {vs ops : List Value}
    (hframes : m.frames = f :: rest) (hops : f.operands = vs.reverse ++ ops) :
    popMany vs.length m = .ok vs { m with frames := { f with operands := ops } :: rest } := by
  have hlength : ¬((f.operands.length : Int) < vs.length) := by
    rw [hops, List.length_append, List.length_reverse]
    omega
  have hdrop : f.operands.drop vs.length = ops := by
    rw [hops, List.drop_left' (by simp)]
  have htake : (f.operands.take vs.length).reverse = vs := by
    rw [hops, List.take_left' (by simp), List.reverse_reverse]
  have hneg : ¬((vs.length : Int) < 0) := by omega
  have htop : top m = .ok f m := by
    rw [top, get_bind, hframes]
    rfl
  have hmodify (g : Frame → Frame) : modifyTop g m = .ok () { m with frames := g f :: rest } := by
    obtain ⟨globals, heap, frames⟩ := m
    subst hframes
    rfl
  unfold popMany
  simp only [Bind.bind, EStateM.bind, htop, hneg, hlength, decide_false, Bool.or_self,
    Bool.false_eq_true, if_false, hmodify, Int.toNat_natCast, hdrop, htake]
  rfl

theorem callNative_eq {n : Native} {m : Machine} {f : Frame} {rest : List Frame}
    {vs ops : List Value} (hframes : m.frames = f :: rest)
    (hops : f.operands = vs.reverse ++ ops) (harity : n.arity vs.length) :
    callNative n vs.length m =
      nativeOutcome n (n.call { input := m.input, lengthOf := some (lengthIn m.heap) } vs)
        { m with frames := { f with operands := ops } :: rest } := by
  have hcount : (!n.variadic && decide (vs.length < n.params.length)) = false := by
    unfold Native.arity at harity
    split at harity
    · simp [*]
    · simp [eq_of_beq harity]
  unfold callNative
  simp only [Bind.bind, EStateM.bind, popMany_eq hframes hops, hcount, Bool.false_eq_true, if_false]
  change (match n.call { input := m.input, lengthOf := some (lengthIn m.heap) } vs with
    | .error (.halt code) => halt code.toInt
    | .error (.error e) => raise (.nativeError n.name e)
    | .error .breakdown => breakdown
    | .ok r => do
      modify fun m => { m with input := r.input, output := m.output ++ r.output }
      if n.result ≠ .void then push r.value : Exec Unit) _ = _
  rfl

end Exec

namespace Site

open Exec

variable {w : Site} {s s' : Spot} {n : Native} {i pos : Nat} {vs ops : List Value}

/-- A step from this place breaks the machine down. -/
def Breaks (w : Site) (s : Spot) : Prop :=
  ∀ m, w.Stands s m → ∃ m', Exec.step w.program m = .error .breakdown m'

/-- A step from this place leaves the length that the heap of the run has for the array, or faults if
it has none. -/
def Measures (w : Site) (s : Spot) (next : Value → Spot) (array : Value) : Prop :=
  ∀ m, w.Stands s m →
    match lengthIn m.heap array with
    | .ok k => ∃ m', Exec.step w.program m = .ok () m' ∧ w.Stands (next (.int (Int64.ofNat k))) m'
    | .error e => ∃ f m', Exec.step w.program m = .error (.fault f) m' ∧
        f.cause.code = (FaultCause.nativeError Native.length.name e).code

theorem step_callNative (hi : w.instrAt s = some ⟨.callNative, i, vs.length, pos⟩)
    (hn : w.linked.natives[i]? = some n) (hs : s.operands = vs.reverse ++ ops)
    (harity : n.arity vs.length) {m : Machine} (hm : w.Stands s m) :
    ∃ m₁, w.Stands (next s ops) m₁ ∧ m₁.heap = m.heap ∧
      Exec.step w.program m = marking (nativeOutcome n
        (n.call { input := m₁.input, lengthOf := some (lengthIn m₁.heap) } vs)) m₁ := by
  obtain ⟨m₁, hm₁, hheap, hstep⟩ := step_eq hi hm
  obtain ⟨hhalted, hstopping, hglobals, f, hframes, hf⟩ := hm₁
  refine ⟨{ m₁ with frames := { f with operands := ops } :: w.callers }, ?_, hheap, ?_⟩
  · exact ⟨hhalted, hstopping, hglobals, _, rfl, hf.unit, hf.routine, hf.block, hf.ip, rfl, hf.locals⟩
  · have hcall := callNative_eq hframes (hf.operands.trans hs) harity
    rw [hstep]
    unfold marking
    have hinstr : instr w.program w.linked ⟨.callNative, i, vs.length, pos⟩ m₁ =
        callNative n vs.length m₁ := by
      change (entry w.linked.natives i >>= fun n => callNative n vs.length) m₁ = _
      rw [entry_eq hn]
      rfl
    rw [hinstr, hcall]

theorem pushes_native (hpure : n.isPure) (v : Value) {m : Machine} (hm : w.Stands (next s ops) m) :
    ∃ m', marking (nativeOutcome n (.ok ⟨v, [], m.input⟩)) m = .ok () m' ∧
      w.Stands (next s (v :: ops)) m' := by
  have h : Triple (fun m' => m' = m) (nativeOutcome n (.ok ⟨v, [], m.input⟩))
      (fun _ => w.Stands (next s (v :: ops))) fun _ _ => False := by
    change Triple _ (modify (fun m' => { m' with input := m.input, output := m'.output ++ ([] : Bytes) })
      >>= fun _ => if n.result ≠ .void then push v else pure ()) _ _
    rw [if_pos (Native.result_ne_void hpure)]
    refine Triple.bind (R := fun _ => w.Stands (next s ops)) (Triple.modify ?_) fun _ => push_on v
    rintro m' rfl
    exact ⟨hm.halted, hm.stopping, hm.globals, hm.frames⟩
  have hmarked := h.marking m rfl
  cases hx : marking (nativeOutcome n (.ok ⟨v, [], m.input⟩)) m with
  | ok a m' =>
    rw [hx] at hmarked
    exact ⟨m', rfl, hmarked⟩
  | error e m' =>
    rw [hx] at hmarked
    exact hmarked.elim

theorem hop_callNative (hi : w.instrAt s = some ⟨.callNative, i, vs.length, pos⟩)
    (hn : w.linked.natives[i]? = some n) (hs : s.operands = vs.reverse ++ ops)
    (harity : n.arity vs.length) (hpure : n.isPure) (hclosed : n.IsClosed vs) {r : NativeReturn}
    (hr : n.call {} vs = .ok r) : w.Hop s (next s (r.value :: ops)) := by
  intro m hm
  obtain ⟨m₁, hm₁, -, hstep⟩ := step_callNative hi hn hs harity hm
  rw [hstep, Native.call_eq_of_pure hpure hclosed, hr]
  exact pushes_native hpure r.value hm₁

theorem faults_callNative (hi : w.instrAt s = some ⟨.callNative, i, vs.length, pos⟩)
    (hn : w.linked.natives[i]? = some n) (hs : s.operands = vs.reverse ++ ops)
    (harity : n.arity vs.length) (hpure : n.isPure) (hclosed : n.IsClosed vs) {e : NativeError}
    (he : n.call {} vs = .error (.error e)) :
    w.Faults s (FaultCause.nativeError n.name e).code := by
  intro m hm
  obtain ⟨m₁, -, -, hstep⟩ := step_callNative hi hn hs harity hm
  rw [hstep, Native.call_eq_of_pure hpure hclosed, he]
  exact ⟨_, _, rfl, rfl⟩

theorem breaks_callNative (hi : w.instrAt s = some ⟨.callNative, i, vs.length, pos⟩)
    (hn : w.linked.natives[i]? = some n) (hs : s.operands = vs.reverse ++ ops)
    (harity : n.arity vs.length) (hpure : n.isPure) (hclosed : n.IsClosed vs)
    (he : n.call {} vs = .error .breakdown) : w.Breaks s := by
  intro m hm
  obtain ⟨m₁, -, -, hstep⟩ := step_callNative hi hn hs harity hm
  rw [hstep, Native.call_eq_of_pure hpure hclosed, he]
  exact ⟨_, rfl⟩

theorem measures_callNative {v : Value} (hi : w.instrAt s = some ⟨.callNative, i, 1, pos⟩)
    (hn : w.linked.natives[i]? = some .length) (hs : s.operands = v :: ops)
    (htext : v.isText = false) : w.Measures s (fun v => next s (v :: ops)) v := by
  intro m hm
  have harguments : s.operands = [v].reverse ++ ops := hs
  obtain ⟨m₁, hm₁, hheap, hstep⟩ := step_callNative hi hn harguments rfl hm
  have hclosed : ¬Native.IsClosed .length [v] := by
    simpa [Native.IsClosed] using htext
  have hv : [v].getD 0 .invalid = v := rfl
  rw [hstep, (Native.call_length hclosed).2, hheap, hv]
  cases lengthIn m.heap v with
  | ok k => exact pushes_native rfl (.int (Int64.ofNat k)) hm₁
  | error e => exact ⟨m₁.faultOf (.nativeError "length" e), _, rfl, rfl⟩

end Site

/-! ## Calls -/

namespace Builder

def addNative (b : Builder) (name : String) : Builder := { b with pool := (b.pool.addNative name).2 }

theorem Le.addNative (b : Builder) (name : String) : Le b (b.addNative name) :=
  ⟨fun _ is h => ⟨is, h, List.prefix_refl _⟩, List.prefix_refl _, List.prefix_refl _, Nat.le_refl _⟩

end Builder

namespace Lower

open Builder

variable {ctx : LowerContext} {b b' : Builder} {n : Nat} {K : Value → Prop}

theorem builtExpr_args {es : List Bound.Expr} (hes : ∀ e ∈ es, e.Plain n K)
    (h : args ctx es b = .ok ((), b')) (hb : b.current < b.blocks.size) : BuiltExpr b b' := by
  induction es generalizing b with
  | nil =>
    rw [args] at h
    cases h
    exact .refl hb
  | cons e es ih =>
    rw [args] at h
    obtain ⟨_, b₁, h₁, h⟩ := bind_ok.mp h
    have hbuilt := builtExpr_expr ctx e (hes e List.mem_cons_self) h₁ hb
    exact hbuilt.trans (ih (fun e he => hes e (List.mem_cons_of_mem _ he)) h hbuilt.inside)

theorem expr_callNative {routine : Native} {es : List Bound.Expr} {type : TypeId} {sp : Span}
    (h : expr ctx (.callNative routine es type sp) b = .ok ((), b')) :
    ∃ b₁, args ctx es b = .ok ((), b₁) ∧ b' = (b₁.addNative routine.name).emit
      ⟨.callNative, ((b₁.pool.addNative routine.name).1 : Nat), es.length, sp.start⟩ := by
  rw [expr] at h
  obtain ⟨_, b₁, h₁, h⟩ := bind_ok.mp h
  have hadd : pooled (·.addNative routine.name) b₁ =
      .ok ((b₁.pool.addNative routine.name).1, b₁.addNative routine.name) := rfl
  rw [bind_eq hadd, emit_eq] at h
  cases h
  exact ⟨b₁, h₁, rfl⟩

end Lower

theorem Program.Links.natives {units : List CompiledUnit} {p : Program} (h : Links units p)
    {lu : LinkedUnit} (hlu : lu ∈ p.units) {i : Nat} {name : String}
    (hi : lu.unit.pool.natives[i]? = some name) :
    ∃ n, lu.natives[i]? = some n ∧ Native.ofName? name = some n := by
  obtain ⟨u, hu⟩ := forall₂_mem_right h.units (Array.mem_toList_iff.mpr hlu)
  rw [linkUnit_unit hu] at hi
  unfold linkUnit at hu
  obtain ⟨calls, -, hu⟩ := except_bind_ok hu
  obtain ⟨globals, -, hu⟩ := except_bind_ok hu
  obtain ⟨classes, -, hu⟩ := except_bind_ok hu
  obtain ⟨natives, hnatives, hu⟩ := except_bind_ok hu
  cases hu
  have hplaces := forall₂_getElem? (arrayMapM_eq_ok hnatives) i
  rw [Array.getElem?_toList, Array.getElem?_toList, hi] at hplaces
  change ∃ n, natives[i]? = some n ∧ _
  generalize natives[i]? = place at hplaces
  cases hplaces with
  | some hplace =>
    split at hplace
    · cases hplace
    · cases hplace
      exact ⟨_, rfl, ‹_›⟩

namespace Target

open Builder Lower Site

variable {t : Target} {b b' : Builder} {s : Spot} {st : Store} {types : TypeTable}
  {ops : List Value}

/-- The code of the expression leaves this value. -/
structure Delivers (t : Target) (types : TypeTable) (st : Store) (e : Bound.Expr) (v : Value) :
    Prop where
  plain : e.Plain t.slots t.pool.Exact
  eval : e.eval types st = .ok v

theorem leads_args {ctx : LowerContext} {es : List Bound.Expr} {vs : List Value}
    (hes : List.Forall₂ (t.Delivers ctx.types st) es vs) (h : args ctx es b = .ok ((), b'))
    (hb : b.Open) (ht : t.Holds b') (hs : t.Shows st s) :
    t.Leads (s.on b ops) (s.on b' (vs.reverse ++ ops)) := by
  induction hes generalizing b ops with
  | nil =>
    rw [args] at h
    cases h
    exact .refl _
  | @cons e v es vs he hes ih =>
    rw [args] at h
    obtain ⟨_, b₁, h₁, h⟩ := bind_ok.mp h
    have hbuilt := builtExpr_expr ctx e he.plain h₁ hb.inside
    have hplain : ∀ e ∈ es, e.Plain t.slots t.pool.Exact := by
      intro e he
      obtain ⟨v, hv⟩ := forall₂_mem hes he
      exact hv.plain
    have ht₁ := ht.of_le (builtExpr_args hplain h hbuilt.inside).le
    have hhead : t.Yields (s.on b ops) (fun v => s.on b₁ (v :: ops)) (e.eval ctx.types st) :=
      yields_expr ctx e he.plain h₁ hb ht₁ hs
    rw [he.eval] at hhead
    have htail : t.Leads (s.on b₁ (v :: ops)) (s.on b' (vs.reverse ++ v :: ops)) :=
      ih h (hbuilt.opens hb)
    rw [List.reverse_cons, List.append_assoc]
    exact Leads.trans hhead htail

/-- The code of a builder is part of the finished code, with the built-in routines that it calls. -/
structure HoldsAll (t : Target) (b : Builder) : Prop extends t.Holds b where
  natives : b.pool.natives.toList <+: t.linked.unit.pool.natives.toList

theorem reaches_native {units : List CompiledUnit} (hlink : Program.link units = .ok t.program)
    {ctx : LowerContext} {n : Native} {es : List Bound.Expr} {vs : List Value} {type : TypeId}
    {sp : Span} (hes : List.Forall₂ (t.Delivers ctx.types st) es vs)
    (h : expr ctx (.callNative n es type sp) b = .ok ((), b')) (hb : b.Open) (ht : t.HoldsAll b')
    (hs : t.Shows st s) (ops : List Value) :
    ∃ (s₁ : Spot) (i : Nat), t.Leads (s.on b ops) s₁ ∧ s₁.operands = vs.reverse ++ ops ∧
      t.instrAt s₁ = some ⟨.callNative, i, vs.length, sp.start⟩ ∧ t.linked.natives[i]? = some n ∧
      ∀ v, next s₁ (v :: ops) = s.on b' (v :: ops) := by
  obtain ⟨b₁, hargs, rfl⟩ := expr_callNative h
  have hplain : ∀ e ∈ es, e.Plain t.slots t.pool.Exact := by
    intro e he
    obtain ⟨v, hv⟩ := forall₂_mem hes he
    exact hv.plain
  have hb₁ := (builtExpr_args hplain hargs hb.inside).opens hb
  have hopen : (b₁.addNative n.name).Open := hb₁.of_eq rfl rfl
  have hholds := ht.toHolds
  have hnative : ∃ m, t.linked.natives[(b₁.pool.addNative n.name).1]? = some m ∧
      Native.ofName? n.name = some m := by
    obtain ⟨name, hname, hsame⟩ := enter_same (· == ·) b₁.pool.natives n.name
    obtain rfl : name = n.name := hsame.elim id fun h => by simpa using h
    have hpool := ht.natives
    rw [pool_emit] at hpool
    exact (Program.links_of_link hlink).natives (Array.mem_of_getElem? t.found)
      (getElem?_of_isPrefix hpool hname)
  obtain ⟨m, hm, hof⟩ := hnative
  rw [Native.ofName?_name] at hof
  cases hof
  rw [hopen.emit_eq] at hholds
  have hinstr : t.instrAt (s.on (b₁.addNative n.name) (vs.reverse ++ ops)) = some
      ⟨.callNative, ((b₁.pool.addNative n.name).1 : Nat), es.length, sp.start⟩ :=
    instrAt_on hopen.inside hholds
  have hholds₁ := hholds.of_le ((Le.addNative b₁ n.name).trans (Le.append _ _))
  have hleads : t.Leads (s.on b ops) (s.on b₁ (vs.reverse ++ ops)) :=
    leads_args hes hargs hb hholds₁ hs
  refine ⟨s.on (b₁.addNative n.name) (vs.reverse ++ ops), (b₁.pool.addNative n.name).1, hleads, rfl,
    ?_, hm, ?_⟩
  · rw [hinstr, hes.length_eq]
  · intro v
    rw [next_on hopen.inside, hopen.emit_eq, hes.length_eq]

end Target

/-! ## What the binder answers -/

namespace Bound

/-- What the binder answers for an operation on constants of the values `vs`, as typed by the
operation, and the expression of the operation over other operands `es`, which is not worked out. -/
inductive Unfolds (s : Session) : Except Breakdown (Option Expr × Session) → (vs : List Value) →
    (es : List Expr) → Expr → Prop
  | plus {x y : Expr} {v : Value} {span : Span} (hx : x.Literal s.types v)
      (hkind : (s.types.kind x.type).isNumeric) :
      Unfolds s (Bind.unaryExpr .plus x span s) [v] [y] y
  | neg {x y : Expr} {v : Value} {span : Span} (hx : x.Literal s.types v)
      (hkind : (s.types.kind x.type).isNumeric) :
      Unfolds s (Bind.unaryExpr .minus x span s) [v] [y] (.unary .neg y x.type span)
  | not {x y : Expr} {v : Value} {span : Span} (hx : x.Literal s.types v)
      (hkind : s.types.kind x.type = .boolean ∨ s.types.kind x.type = .integer) :
      Unfolds s (Bind.unaryExpr .not x span s) [v] [y] (.unary .not y x.type span)
  | binary {op : BinaryOp} {l r l' r' x y : Expr} {v w v' w' : Value} {result : TypeId}
      {span : Span} (hl : l.Literal s.types v) (hr : r.Literal s.types w)
      (htype : typeBinary s.types op l r = some (l', r', result))
      (hl' : l'.const? = some v') (hr' : r'.const? = some w') :
      Unfolds s (Bind.binaryExpr op l r span s) [v', w'] [x, y]
        (.binary (if op = .add && result = TypeTable.string then .concat else op) x y result span)
  | intToReal {x y : Expr} {v : Value} (hx : x.Literal s.types v)
      (hkind : s.types.kind x.type = .integer) :
      Unfolds s (.ok (some (intToReal x), s)) [v] [y]
        (.convert .intToReal y TypeTable.real x.span)
  | charToString {x y : Expr} {v : Value} (hx : x.Literal s.types v)
      (hkind : s.types.kind x.type = .char) :
      Unfolds s (.ok (some (charToString s.types x), s)) [v] [y]
        (.convert .charToString y TypeTable.string x.span)
  | index {x i y j : Expr} {v k : Value} {objectSpan indexSpan span : Span}
      (hx : x.Literal s.types v) (hi : i.Literal s.types k)
      (hstring : s.types.shape? x.type = some .string) (hint : i.type = TypeTable.integer) :
      Unfolds s (Bind.indexExpr x i objectSpan indexSpan span s) [v, k] [y, j]
        (.character y j TypeTable.char span)
  | native {n : Native} {args es : List Expr} {vs : List Value} {span : Span}
      (hargs : List.Forall₂ (Expr.Literal s.types) args vs) (hpure : n.isPure)
      (harity : n.arity args.length) :
      Unfolds s (Bind.nativeCall n args span s) vs es (.callNative n es (nativeResult n args) span)

section Answers

variable {s : Session} {x l r i : Expr} {v w k : Value} {span objectSpan indexSpan : Span}

theorem const?_mkUnary {op : UnaryOp} (hx : x.const? = some v) :
    (mkUnary op x span).const? = (op.apply v).toOption := by
  unfold mkUnary
  rw [hx, Option.bind_some, UnaryOp.apply?_eq]
  cases (op.apply v).toOption <;> rfl

theorem const?_mkBinary {op : BinaryOp} {result : TypeId} (hl : l.const? = some v)
    (hr : r.const? = some w) :
    (mkBinary op l r result span).const? = (op.apply v w).toOption := by
  unfold mkBinary
  simp only [hl, hr, BinaryOp.apply?_eq]
  cases (op.apply v w).toOption <;> rfl

theorem unaryExpr_plus (hkind : (s.types.kind x.type).isNumeric) :
    Bind.unaryExpr .plus x span s = .ok (some x, s) := by
  change (if (s.types.kind x.type).isNumeric then _ else _ : Bind (Option Expr)) s = _
  rw [if_pos hkind]
  rfl

theorem unaryExpr_minus (hkind : (s.types.kind x.type).isNumeric) :
    Bind.unaryExpr .minus x span s = .ok (some (mkUnary .neg x span), s) := by
  change (if (s.types.kind x.type).isNumeric then _ else _ : Bind (Option Expr)) s = _
  rw [if_pos hkind]
  rfl

theorem unaryExpr_not
    (hkind : s.types.kind x.type = .boolean ∨ s.types.kind x.type = .integer) :
    Bind.unaryExpr .not x span s = .ok (some (mkUnary .not x span), s) := by
  change (if s.types.kind x.type = .boolean || s.types.kind x.type = .integer then _ else _ :
    Bind (Option Expr)) s = _
  rw [if_pos (by simpa using hkind)]
  rfl

theorem types_eq : Bind.types s = .ok (s.types, s) := rfl

theorem binaryExpr_eq {op : BinaryOp} {l' r' : Expr} {result : TypeId}
    (htype : typeBinary s.types op l r = some (l', r', result)) :
    Bind.binaryExpr op l r span s = .ok (some (mkBinary
      (if op = .add && result = TypeTable.string then .concat else op) l' r' result span), s) := by
  unfold Bind.binaryExpr
  simp only [Bind.bind, StateT.bind, Except.bind, types_eq, htype]
  rfl

theorem indexExpr_eq (hT : s.types.Sound) (hstring : s.types.shape? x.type = some .string)
    (hint : i.type = TypeTable.integer) :
    Bind.indexExpr x i objectSpan indexSpan span s = .ok (some ((Bind.constChar? x i).elim
      (.character x i TypeTable.char span)
      fun c => .const (.char (Int64.ofNat c.toNat)) TypeTable.char span), s) := by
  have hkind : s.types.kind TypeTable.integer = .integer :=
    TypeTable.kind_of_shape? (hT.shape?_basic (i := 3) rfl)
  have hsole : charFor? s.types i TypeTable.integer = none := by
    unfold charFor?
    rw [hkind]
    rfl
  have hcoerce : Bound.coerce s.types i TypeTable.integer = .ok i := by
    unfold Bound.coerce
    rw [hsole, hint]
    rfl
  have hbind : Bind.coerce (some i) TypeTable.integer indexSpan s = .ok (some i, s) := by
    unfold Bind.coerce
    simp only [Bind.bind, StateT.bind, Except.bind, types_eq, hcoerce]
    rfl
  unfold Bind.indexExpr
  simp only [Bind.bind, StateT.bind, hbind, Except.bind, types_eq,
    hstring]
  cases Bind.constChar? x i <;> rfl

theorem mapM_const? {args : List Expr} {vs : List Value}
    (hargs : List.Forall₂ (Expr.Literal s.types) args vs) : args.mapM Expr.const? = some vs := by
  induction hargs with
  | nil => rfl
  | cons he _ ih =>
    rw [List.mapM_cons, he.const, ih]
    rfl

/-- What the binder answers for a pure call of constants. -/
theorem nativeCall_cases {n : Native} {args : List Expr} {vs : List Value}
    (hargs : List.Forall₂ (Expr.Literal s.types) args vs) (hpure : n.isPure) (span : Span) :
    match n.call {} vs with
    | .ok r => Bind.nativeCall n args span s = .ok (some (.const r.value (nativeResult n args) span), s)
    | .error .breakdown => Bind.nativeCall n args span s = .error .breakdown
    | .error _ => ∃ e s', Bind.nativeCall n args span s = .ok (e, s') ∧ e.bind Expr.const? = none := by
  unfold Bind.nativeCall
  rw [hpure, mapM_const? hargs]
  cases hcall : n.call {} vs with
  | ok r => simp only [hcall]; rfl
  | error e =>
    cases e with
    | breakdown => simp only [hcall]; rfl
    | halt _ | error _ =>
      simp only [hcall]
      change ∃ e s', (if s.inConst then _ else _ : Bind (Option Expr)) s = .ok (e, s') ∧ _
      by_cases hconst : s.inConst
      · rw [if_pos hconst]
        exact ⟨none, _, rfl, rfl⟩
      · rw [if_neg hconst]
        exact ⟨some (.callNative n args _ span), s, rfl, rfl⟩

theorem constChar?_eq {text : Bytes} {n : Int64} (hx : x.const? = some (.string text))
    (hi : i.const? = some (.int n)) :
    (Bind.constChar? x i).map (fun c => Value.char (Int64.ofNat c.toNat)) =
      ((Value.string text).charAt (.int n)).toOption := by
  have hconst : Bind.constChar? x i =
      if n < 0 then none else (Utf8.chars text)[n.toInt.toNat]? := by
    unfold Bind.constChar?
    simp only [hx, hi]
  rw [hconst]
  unfold Value.charAt
  by_cases hneg : n < 0
  · simp [hneg, Except.toOption]
  · have hn : 0 ≤ n.toInt := by
      simpa [Int64.lt_iff_toInt_lt] using hneg
    by_cases hlen : ((Utf8.chars text).length : Int) ≤ n.toInt
    · have hnone : (Utf8.chars text)[n.toInt.toNat]? = none := by
        rw [List.getElem?_eq_none_iff]
        omega
      rw [if_neg hneg, hnone]
      simp only [hneg, hlen, decide_true, Bool.or_true, if_true]
      rfl
    · have hlt : n.toInt.toNat < (Utf8.chars text).length := by omega
      rw [if_neg hneg, List.getElem?_eq_getElem hlt]
      simp only [hneg, hlen, decide_false, Bool.or_self, Bool.false_eq_true, if_false]
      rw [List.getD_eq_getElem?_getD, List.getElem?_eq_getElem hlt]
      rfl

theorem typeBinary_short {op : BinaryOp} {l' r' : Expr} {result : TypeId} (hT : s.types.Sound)
    (htype : typeBinary s.types op l r = some (l', r', result))
    (hshort : Lower.isShort op (s.types.kind result)) :
    l' = l ∧ r' = r ∧ s.types.kind l.type = .boolean ∧ s.types.kind r.type = .boolean := by
  have hkind : s.types.kind TypeTable.integer = .integer :=
    TypeTable.kind_of_shape? (hT.shape?_basic (i := 3) rfl)
  have hop : op = .and ∨ op = .or := by
    simp only [Lower.isShort, Bool.and_eq_true, Bool.or_eq_true, decide_eq_true_eq] at hshort
    exact hshort.1
  have hcases : (if s.types.kind l.type = .boolean && s.types.kind r.type = .boolean then
        some (l, r, TypeTable.boolean)
      else if s.types.kind l.type = .integer && s.types.kind r.type = .integer then
        some (l, r, TypeTable.integer)
      else none) = some (l', r', result) := by
    rcases hop with rfl | rfl <;> exact htype
  split at hcases
  case isTrue hboolean =>
    cases hcases
    exact ⟨rfl, rfl, by simpa using hboolean⟩
  case isFalse =>
    split at hcases
    · cases hcases
      simp [Lower.isShort, hkind] at hshort
    · cases hcases

theorem short_operands {op : BinaryOp} {l' r' : Expr} {v' w' : Value} {result : TypeId}
    (hT : s.types.Sound) (hl : l.Literal s.types v) (hr : r.Literal s.types w)
    (htype : typeBinary s.types op l r = some (l', r', result)) (hl' : l'.const? = some v')
    (hr' : r'.const? = some w')
    (hshort : Lower.isShort (if op = .add && result = TypeTable.string then .concat else op)
      (s.types.kind result)) : ∃ p q, v' = .ofBool p ∧ w' = .ofBool q := by
  have hshort : Lower.isShort op (s.types.kind result) := by
    split at hshort
    · cases hshort
    · exact hshort
  obtain ⟨rfl, rfl, hj, hk⟩ := typeBinary_short hT htype hshort
  obtain rfl : v = v' := Option.some.inj (hl.const.symm.trans hl')
  obtain rfl : w = w' := Option.some.inj (hr.const.symm.trans hr')
  have hv := hl.fits
  have hw := hr.fits
  rw [hj] at hv
  rw [hk] at hw
  obtain ⟨p, rfl⟩ := hv
  obtain ⟨q, rfl⟩ := hw
  exact ⟨p, q, rfl, rfl⟩

theorem intToReal_const? {n : Int64} (hx : x.const? = some (.int n)) :
    (intToReal x).const? = some (Conversion.intToReal.apply (.int n)) := by
  obtain ⟨type, span, rfl⟩ := Expr.const?_eq_some hx
  rfl

theorem charToString_const? {n : Int64} (hx : x.const? = some (.char n))
    (hkind : s.types.kind x.type = .char) :
    (charToString s.types x).const? = some (Conversion.charToString.apply (.char n)) := by
  obtain ⟨type, span, rfl⟩ := Expr.const?_eq_some hx
  unfold charToString
  rw [if_pos hkind]
  rfl

end Answers

theorem BinaryOp.apply_short {op : BinaryOp} (hop : op = .and ∨ op = .or) (p q : Bool) :
    op.apply (.ofBool p) (.ofBool q) =
      .ok (if (Value.ofBool p).isTrue == (op == .and) then .ofBool q else .ofBool p) := by
  rcases hop with rfl | rfl <;> cases p <;> cases q <;> rfl

theorem eval_unary {T : TypeTable} {st : Store} {op : UnaryOp} {x : Expr} {v : Value}
    {type : TypeId} {span : Span} (hx : x.eval T st = .ok v) :
    (Expr.unary op x type span).eval T st = (op.apply v).orFault := by
  unfold Expr.eval
  rw [hx]
  rfl

theorem eval_convert {T : TypeTable} {st : Store} {c : Conversion} {x : Expr} {v : Value}
    {type : TypeId} {span : Span} (hx : x.eval T st = .ok v) :
    (Expr.convert c x type span).eval T st = .ok (c.apply v) := by
  unfold Expr.eval
  rw [hx]
  rfl

theorem eval_binary {T : TypeTable} {st : Store} {op : BinaryOp} {x y : Expr} {v w : Value}
    {result : TypeId} {span : Span} (hx : x.eval T st = .ok v) (hy : y.eval T st = .ok w)
    (hshort : Lower.isShort op (T.kind result) → ∃ p q, v = .ofBool p ∧ w = .ofBool q) :
    (Expr.binary op x y result span).eval T st = (op.apply v w).orFault := by
  unfold Expr.eval
  rw [hx, hy]
  by_cases h : Lower.isShort op (T.kind result)
  · obtain ⟨p, q, rfl, rfl⟩ := hshort h
    have hop : op = .and ∨ op = .or := by
      simp only [Lower.isShort, Bool.and_eq_true, Bool.or_eq_true, decide_eq_true_eq] at h
      exact h.1
    rw [BinaryOp.apply_short hop]
    change (if Lower.isShort op (T.kind result) then _ else _) = _
    rw [if_pos h]
    split <;> rfl
  · change (if Lower.isShort op (T.kind result) then _ else _) = _
    rw [if_neg h]
    rfl

end Bound

theorem Value.Outcome.toOption_orFault (o : Value.Outcome) : o.orFault.toOption = o.toOption := by
  cases o <;> rfl

/-! ## Agreement -/

namespace Target

open Pascaline.Bound Lower Site

variable {t : Target} {s₀ s₁ s : Spot} {next : Value → Spot} {vs ops : List Value} {e : Expr}
  {st : Store} {b b' : Builder}

/-- The code of an expression does what the binder has answered: it leaves the constant, breaks down
with the binder, and where nothing was worked out it faults or asks the heap for the length of an
array. -/
def Agrees (t : Target) (s₀ : Spot) (next : Value → Spot) (vs : List Value) (e : Expr) :
    Except Breakdown (Option Expr × Session) → Prop
  | .error .breakdown => ∃ s₁, t.Leads s₀ s₁ ∧ t.Breaks s₁
  | .ok (answer, _) =>
    match answer.bind Expr.const? with
    | some v => t.Leads s₀ (next v)
    | none => (∃ c, t.Fails s₀ c) ∨
      ∃ array args type span s₁, e = .callNative .length args type span ∧ vs = [array] ∧
        array.isText = false ∧ t.Leads s₀ s₁ ∧ t.Measures s₁ next array

theorem Agrees.of_yields {r : Except FaultCause Value} {answer : Expr} {sess : Session}
    (h : t.Yields s₀ next r) (hanswer : answer.const? = r.toOption) :
    t.Agrees s₀ next vs e (.ok (some answer, sess)) := by
  unfold Agrees
  simp only [Option.bind_some, hanswer]
  cases r with
  | ok v => exact h
  | error c => exact .inl ⟨c.code, h⟩

theorem agrees_native {units : List CompiledUnit} (hlink : Program.link units = .ok t.program)
    {ctx : LowerContext} {sess : Session} {n : Native} {args es : List Expr} {type : TypeId}
    {span sp : Span} (hargs : List.Forall₂ (Expr.Literal sess.types) args vs) (hpure : n.isPure)
    (harity : n.arity args.length) (hes : List.Forall₂ (t.Delivers ctx.types st) es vs)
    (hcode : expr ctx (.callNative n es type sp) b = .ok ((), b')) (hb : b.Open)
    (ht : t.HoldsAll b') (hs : t.Shows st s) :
    t.Agrees (s.on b ops) (fun v => s.on b' (v :: ops)) vs (.callNative n es type sp)
      (Bind.nativeCall n args span sess) := by
  obtain ⟨s₁, i, hleads, hops, hinstr, hnative, hnext⟩ :=
    reaches_native hlink hes hcode hb ht hs ops
  rw [hargs.length_eq] at harity
  have hanswer := nativeCall_cases hargs hpure span
  by_cases hclosed : n.IsClosed vs
  · cases hcall : n.call {} vs with
    | ok r =>
      simp only [hcall] at hanswer
      rw [hanswer]
      change t.Leads (s.on b ops) (s.on b' (r.value :: ops))
      rw [← hnext]
      exact hleads.trans (hop_callNative hinstr hnative hops harity hpure hclosed hcall).leads
    | error stop =>
      cases stop with
      | breakdown =>
        simp only [hcall] at hanswer
        rw [hanswer]
        exact ⟨s₁, hleads, breaks_callNative hinstr hnative hops harity hpure hclosed hcall⟩
      | halt code => exact absurd hcall (Native.call_ne_halt hpure)
      | error e =>
        simp only [hcall] at hanswer
        obtain ⟨answer, sess', hanswer, hconst⟩ := hanswer
        rw [hanswer]
        unfold Agrees
        simp only [hconst]
        have hfaults := faults_callNative hinstr hnative hops harity hpure hclosed hcall
        exact .inl ⟨_, hleads.fails hfaults.fails⟩
  · obtain ⟨rfl, htext⟩ : n = .length ∧ (vs.getD 0 .invalid).isText = false := by
      simpa [Native.IsClosed] using hclosed
    obtain ⟨array, rfl⟩ := List.length_eq_one_iff.mp (eq_of_beq harity)
    simp only [(Native.call_length hclosed).1] at hanswer
    obtain ⟨answer, sess', hanswer, hconst⟩ := hanswer
    rw [hanswer]
    unfold Agrees
    simp only [hconst]
    refine .inr ⟨array, es, type, sp, s₁, rfl, rfl, htext, hleads, ?_⟩
    have hmeasures := measures_callNative hinstr hnative hops htext
    rw [show (fun v => s.on b' (v :: ops)) = fun v => Site.next s₁ (v :: ops) from
      funext fun v => (hnext v).symm]
    exact hmeasures

/-- What the binder answers for an operation on constants is what the code of the operation does on
operands of the same values. -/
theorem folding_agrees {units : List CompiledUnit} (hlink : Program.link units = .ok t.program)
    {ctx : LowerContext} {sess : Session} {answer : Except Breakdown (Option Expr × Session)}
    {es : List Expr} (hT : sess.types.Sound) (hctx : ctx.types = sess.types)
    (h : Unfolds sess answer vs es e) (hes : List.Forall₂ (t.Delivers sess.types st) es vs)
    (hcode : expr ctx e b = .ok ((), b')) (hb : b.Open) (ht : t.HoldsAll b') (hs : t.Shows st s) :
    t.Agrees (s.on b ops) (fun v => s.on b' (v :: ops)) vs e answer := by
  have hyields (hplain : e.Plain t.slots t.pool.Exact) :
      t.Yields (s.on b ops) (fun v => s.on b' (v :: ops)) (e.eval sess.types st) := by
    rw [← hctx]
    exact yields_expr ctx e hplain hcode hb ht.toHolds hs
  cases h with
  | plus hx hkind =>
    obtain ⟨hy, -⟩ := List.forall₂_cons.mp hes
    rw [unaryExpr_plus hkind]
    refine Agrees.of_yields (hyields hy.plain) ?_
    rw [hx.const, hy.eval]
    rfl
  | neg hx hkind =>
    obtain ⟨hy, -⟩ := List.forall₂_cons.mp hes
    rw [unaryExpr_minus hkind]
    refine Agrees.of_yields (hyields hy.plain) ?_
    rw [const?_mkUnary hx.const, eval_unary hy.eval, Value.Outcome.toOption_orFault]
  | not hx hkind =>
    obtain ⟨hy, -⟩ := List.forall₂_cons.mp hes
    rw [unaryExpr_not hkind]
    refine Agrees.of_yields (hyields hy.plain) ?_
    rw [const?_mkUnary hx.const, eval_unary hy.eval, Value.Outcome.toOption_orFault]
  | binary hl hr htype hl' hr' =>
    obtain ⟨hx, hrest⟩ := List.forall₂_cons.mp hes
    obtain ⟨hy, -⟩ := List.forall₂_cons.mp hrest
    rw [binaryExpr_eq htype]
    refine Agrees.of_yields (hyields ⟨hx.plain, hy.plain⟩) ?_
    rw [const?_mkBinary hl' hr', eval_binary hx.eval hy.eval, Value.Outcome.toOption_orFault]
    intro hshort
    exact short_operands hT hl hr htype hl' hr' hshort
  | @intToReal x y v hx hkind =>
    obtain ⟨hy, -⟩ := List.forall₂_cons.mp hes
    refine Agrees.of_yields (hyields hy.plain) ?_
    obtain ⟨n, rfl⟩ : v.IsOf .integer := hkind ▸ hx.fits
    rw [eval_convert hy.eval, intToReal_const? hx.const]
    rfl
  | @charToString x y v hx hkind =>
    obtain ⟨hy, -⟩ := List.forall₂_cons.mp hes
    refine Agrees.of_yields (hyields hy.plain) ?_
    obtain ⟨n, rfl⟩ : v.IsOf .char := hkind ▸ hx.fits
    rw [eval_convert hy.eval, charToString_const? hx.const hkind]
    rfl
  | @index x i y j v k objectSpan indexSpan span hx hi hstring hint =>
    obtain ⟨hy, hrest⟩ := List.forall₂_cons.mp hes
    obtain ⟨hj, -⟩ := List.forall₂_cons.mp hrest
    rw [indexExpr_eq hT hstring hint]
    refine Agrees.of_yields (hyields ⟨hy.plain, hj.plain⟩) ?_
    obtain ⟨text, rfl⟩ : v.IsOf .string := by
      have hfits := hx.fits
      rw [TypeTable.kind_of_shape? hstring] at hfits
      exact hfits
    obtain ⟨n, rfl⟩ : k.IsOf .integer := by
      have hkind : sess.types.kind TypeTable.integer = .integer :=
        TypeTable.kind_of_shape? (hT.shape?_basic (i := 3) rfl)
      have hfits := hi.fits
      rw [hint, hkind] at hfits
      exact hfits
    have heval : (Expr.character y j TypeTable.char span).eval sess.types st =
        (Value.string text).charAt (.int n) := by
      unfold Expr.eval
      rw [hy.eval, hj.eval]
      rfl
    rw [heval, ← constChar?_eq hx.const hi.const]
    cases Bind.constChar? x i <;> rfl
  | native hargs hpure harity =>
    rw [← hctx] at hes
    exact agrees_native hlink hargs hpure harity hes hcode hb ht hs

end Target

/-- Adds two parameters. -/
def addingCode : Routine :=
  { name := "plus", params := 2, locals := #[.int, .int],
    blocks := #[#[⟨.loadLocal, 0, 0, 0⟩, ⟨.loadLocal, 1, 0, 0⟩, ⟨.add, 0, 0, 0⟩, ⟨.ret, 0, 0, 0⟩]] }

def addingUnit : CompiledUnit :=
  { name := "sums", display := "sums", table := some #[addingCode] }

@[irreducible] def addingProgram : Program := (Program.link [addingUnit]).toOption.getD {}

/-- Before the first instruction, with these parameters. -/
def addingStart (v w : Value) : Spot := ⟨0, 0, [], #[v, w], #[]⟩

/-- Two and three are five, in the binder and on the machine. -/
theorem folding_agrees_sum : ∃ t : Target, t.program = addingProgram ∧ t.routine = addingCode ∧
    t.Leads (addingStart (.int 2) (.int 3)) ⟨0, 3, [.int 5], #[.int 2, .int 3], #[]⟩ := by
  have hlink : Program.link [addingUnit] = .ok addingProgram := by
    unfold addingProgram
    exact eq_ok_of_isSome (by decide +kernel)
  have hunits : (addingProgram.units[0]?).isSome = true := by decide +kernel
  obtain ⟨u, hu⟩ := Option.isSome_iff_exists.mp hunits
  let t : Target :=
    { program := addingProgram, unit := 0, linked := u, found := hu, routine := addingCode,
      callers := [], slots := 2, pool := {}, consts := List.nil_prefix,
      globals := fun i ref h => by simp at h }
  let constant (n : Int64) : Bound.Expr := .const (.int n) TypeTable.integer {}
  let x : Bound.Expr := .frameVar 0 0 TypeTable.integer {}
  let y : Bound.Expr := .frameVar 1 1 TypeTable.integer {}
  let st : Store := ⟨fun i => if i = 0 then .int 2 else .int 3, fun _ => .invalid⟩
  let b : Builder := { pool := {}, blocks := #[#[]] }
  let b' : Builder := { pool := {}, blocks :=
    #[#[⟨.loadLocal, 0, 0, 0⟩, ⟨.loadLocal, 1, 0, 0⟩, ⟨.add, 0, 0, 0⟩]] }
  have hkind : TypeTable.empty.kind TypeTable.integer = .integer := by decide
  have hconstant (n : Int64) : (constant n).Literal TypeTable.empty (.int n) :=
    ⟨rfl, by rw [show (constant n).type = TypeTable.integer from rfl, hkind]; exact ⟨n, rfl⟩⟩
  have hanswer : Bound.Unfolds { types := .empty, unit := "sums" }
      (Bound.Bind.binaryExpr .add (constant 2) (constant 3) {} { types := .empty, unit := "sums" })
      [.int 2, .int 3] [x, y] _ :=
    .binary (hconstant 2) (hconstant 3) rfl rfl rfl
  have hcode : Lower.expr ⟨.empty, "plus", false⟩ (.binary .add x y TypeTable.integer {}) b =
      .ok ((), b') := rfl
  have hholds : t.HoldsAll b' := by
    refine ⟨⟨?_, List.nil_prefix, List.nil_prefix, Nat.zero_le _⟩, List.nil_prefix⟩
    intro i is his
    cases i with
    | zero =>
      cases his
      exact ⟨_, rfl, [⟨.ret, 0, 0, 0⟩], rfl⟩
    | succ i => cases his
  have hshows : t.Shows st (addingStart (.int 2) (.int 3)) := by
    refine ⟨rfl, ?_, ?_⟩
    · rintro (_ | _ | i) hi
      · rfl
      · rfl
      · exact absurd (show i + 2 < 2 from hi) (by omega)
    · intro ref unit slot hat
      obtain ⟨j, hj, hat⟩ := Option.bind_eq_some_iff.mp hat
      rw [show t.program = addingProgram from rfl, (Program.links_of_link hlink).units_eq] at hat
      have hempty : ([addingUnit].getD j {}).globals = [] := by cases j <;> rfl
      rw [hempty, if_pos (by simp; omega)] at hat
      cases hat
  have hes : List.Forall₂ (t.Delivers .empty st) [x, y] [.int 2, .int 3] :=
    .cons ⟨(by decide : 0 < 2), rfl⟩ (.cons ⟨(by decide : 1 < 2), rfl⟩ .nil)
  have hleads : t.Leads ((addingStart (.int 2) (.int 3)).on b [])
      ((addingStart (.int 2) (.int 3)).on b' [.int 5]) :=
    Target.folding_agrees hlink TypeTable.sound_empty rfl hanswer hes hcode ⟨by decide, rfl⟩ hholds
      hshows
  exact ⟨t, rfl, rfl, hleads⟩

end Pascaline
