import Mathlib.Tactic.Choose
import Pascaline.Proofs.Lowering.Building
import Pascaline.Proofs.Lowering.Stacks
import Pascaline.Proofs.Pairwise
import Pascaline.Proofs.Typing.Trees

/-!
# Typed code

A chart tells the types of the slots of a routine, and with operands of which types each of its
blocks is entered. Code is typed by a chart if each instruction finds operands of the types that it
needs, and leads only to places that expect what it leaves.
-/

namespace Pascaline

open TypeTable

/-! ## Places -/

/-- The number is the place of an entry of the list. -/
def Listed {α : Type} (xs : List α) (i : Int) (x : α) : Prop := ∃ k : Nat, i = k ∧ xs[k]? = some x

theorem Listed.mono {α : Type} {xs ys : List α} {i : Int} {x : α} (h : Listed xs i x)
    (hle : xs <+: ys) : Listed ys i x := by
  obtain ⟨k, hk, hx⟩ := h
  exact ⟨k, hk, getElem?_of_listPrefix hle hx⟩

theorem listed_ofNat {α : Type} {xs : List α} {k : Nat} {x : α} :
    Listed xs (k : Int) x ↔ xs[k]? = some x := by
  constructor
  · rintro ⟨j, hj, hx⟩
    obtain rfl := Int.ofNat_inj.mp hj
    exact hx
  · exact fun hx => ⟨k, rfl, hx⟩

/-! ## Slots -/

namespace TypeTable

variable {t t' : TypeTable} {a e : TypeId} {s s' : Shape}

/-- A slot of the type has this shape, and the type has values. -/
structure Stored (t : TypeTable) (a : TypeId) (s : Shape) : Prop where
  storable : t.Storable a
  shape : ∃ fuel, t.slotShapeFrom fuel a = .ok s

theorem Storable.stored (h : t.Storable a) (hs : t.slotShape a = .ok s) : t.Stored a s := ⟨h, _, hs⟩

theorem Stored.mono (h : t.Stored a s) (ht : t.Grows t') : t'.Stored a s := by
  obtain ⟨ha, fuel, h⟩ := h
  refine ⟨ha.mono ht, fuel, ?_⟩
  clear ha
  induction fuel generalizing a s with
  | zero => cases h
  | succ fuel ih =>
    rw [slotShapeFrom] at h ⊢
    cases hs : t.shape? a with
    | none =>
      rw [hs] at h
      cases h
    | some sh =>
      rw [ht.shape? hs]
      rw [hs] at h
      split at h <;> try exact h
      rename_i e n heq
      obtain rfl := Option.some.inj heq
      obtain ⟨se, he, h⟩ := except_bind_ok h
      cases h
      simp only [ih he]
      rfl

theorem Stored.elem {n : Nat} (h : t.Stored a s) (ht : t.Plain)
    (ha : t.shape? a = some (.array e (some n))) : ∃ se, s = .array n se ∧ t.Stored e se := by
  obtain ⟨-, fuel, h⟩ := h
  cases fuel with
  | zero => cases h
  | succ fuel =>
    rw [slotShapeFrom, ha] at h
    obtain ⟨se, he, h⟩ := except_bind_ok h
    cases h
    exact ⟨se, rfl, storable_elem ht ha, fuel, he⟩

end TypeTable

/-! ## Instructions -/

/-- Values of the first type refer to cells whose elements have the second. -/
def TypeTable.Refers (t : TypeTable) (a e : TypeId) : Prop :=
  (∃ n, t.shape? a = some (.array e n)) ∨ t.shape? a = some (.pointer e)

theorem TypeTable.Refers.mono {t t' : TypeTable} {a e : TypeId} (h : t.Refers a e)
    (ht : t.Grows t') : t'.Refers a e :=
  h.imp (fun ⟨n, hn⟩ => ⟨n, ht.shape? hn⟩) fun hp => ht.shape? hp

/-- What the call of an expression of this type leaves on the stack. -/
def leftBy (a : TypeId) : List TypeId := if a = void then [] else [a]

/-- What is known of the code of a routine: the pool, whether it returns a result, the types of its
slots, and the types of the operands that each block is entered with. -/
structure Chart where
  pool : Pool
  returns : Bool
  slots : List TypeId
  labels : List (List TypeId)

/-- Entries are added. -/
structure Pool.Grows (pool pool' : Pool) : Prop where
  consts : pool.consts.toList <+: pool'.consts.toList
  calls : pool.calls.toList <+: pool'.calls.toList
  globals : pool.globals.toList <+: pool'.globals.toList
  natives : pool.natives.toList <+: pool'.natives.toList
  shapes : pool.shapes.toList <+: pool'.shapes.toList

theorem Pool.Grows.refl (pool : Pool) : pool.Grows pool :=
  ⟨List.prefix_refl _, List.prefix_refl _, List.prefix_refl _, List.prefix_refl _, List.prefix_refl _⟩

theorem Pool.Grows.trans {pool pool₁ pool' : Pool} (h : pool.Grows pool₁) (h' : pool₁.Grows pool') :
    pool.Grows pool' :=
  ⟨h.consts.trans h'.consts, h.calls.trans h'.calls, h.globals.trans h'.globals,
    h.natives.trans h'.natives, h.shapes.trans h'.shapes⟩

/-- Entries, slots and blocks are added. -/
structure Chart.Le (c c' : Chart) : Prop where
  pool : c.pool.Grows c'.pool
  returns : c.returns = c'.returns
  slots : c.slots <+: c'.slots
  labels : c.labels <+: c'.labels

theorem Chart.Le.refl (c : Chart) : c.Le c := ⟨.refl _, rfl, List.prefix_refl _, List.prefix_refl _⟩

theorem Chart.Le.trans {c c₁ c' : Chart} (h : c.Le c₁) (h' : c₁.Le c') : c.Le c' :=
  ⟨h.pool.trans h'.pool, h.returns.trans h'.returns, h.slots.trans h'.slots,
    h.labels.trans h'.labels⟩

namespace Instr

/-- What an instruction inside a block makes of the types of the operands, the top first. -/
inductive Typed (W : World) (c : Chart) (i : Instr) : List TypeId → List TypeId → Prop
  | const {v : Value} {a : TypeId} {ts : List TypeId} (hop : i.op = .const)
      (hv : Listed c.pool.consts.toList i.a v) (ha : W.types.Has .none a v) : Typed W c i ts (a :: ts)
  | pop {a : TypeId} {ts : List TypeId} (hop : i.op = .pop) : Typed W c i (a :: ts) ts
  | dup {a : TypeId} {ts : List TypeId} (hop : i.op = .dup) : Typed W c i (a :: ts) (a :: a :: ts)
  | loadLocal {a : TypeId} {ts : List TypeId} (hop : i.op = .loadLocal) (ha : Listed c.slots i.a a) :
      Typed W c i ts (a :: ts)
  | storeLocal {a b : TypeId} {ts : List TypeId} (hop : i.op = .storeLocal)
      (hb : Listed c.slots i.a b) (hfits : W.types.Fits a b) : Typed W c i (a :: ts) ts
  | loadGlobal {ref : GlobalRef} {a : TypeId} {ts : List TypeId} (hop : i.op = .loadGlobal)
      (href : Listed c.pool.globals.toList i.a ref) (ha : W.global ref.module ref.slot a) :
      Typed W c i ts (a :: ts)
  | storeGlobal {ref : GlobalRef} {a b : TypeId} {ts : List TypeId} (hop : i.op = .storeGlobal)
      (href : Listed c.pool.globals.toList i.a ref) (hb : W.global ref.module ref.slot b)
      (hfits : W.types.Fits a b) : Typed W c i (a :: ts) ts
  | loadElem {a e : TypeId} {ts : List TypeId} (hop : i.op = .loadElem)
      (ha : W.types.Refers a e) : Typed W c i (integer :: a :: ts) (e :: ts)
  | storeElem {a b e : TypeId} {ts : List TypeId} (hop : i.op = .storeElem)
      (ha : W.types.Refers a e) (hfits : W.types.Fits b e) :
      Typed W c i (b :: integer :: a :: ts) ts
  | loadChar {ts : List TypeId} (hop : i.op = .loadChar) :
      Typed W c i (integer :: string :: ts) (char :: ts)
  | binary {o : Bound.BinaryOp} {a b r : TypeId} {ts : List TypeId} (hop : i.op = Lower.binaryOp o)
      (ho : o.Types a b r) : Typed W c i (b :: a :: ts) (r :: ts)
  | neg {a : TypeId} {ts : List TypeId} (hop : i.op = .neg) (ho : Bound.UnaryOp.neg.Types a) :
      Typed W c i (a :: ts) (a :: ts)
  | not {a : TypeId} {ts : List TypeId} (hop : i.op = .not) (ho : Bound.UnaryOp.not.Types a) :
      Typed W c i (a :: ts) (a :: ts)
  | count {a : TypeId} {ts : List TypeId} (hop : i.op = .succ ∨ i.op = .pred)
      (ha : Bound.Ordinal a) : Typed W c i (a :: ts) (a :: ts)
  | intToReal {ts : List TypeId} (hop : i.op = .intToReal) :
      Typed W c i (integer :: ts) (real :: ts)
  | charToString {ts : List TypeId} (hop : i.op = .charToString) :
      Typed W c i (char :: ts) (string :: ts)
  | call {ref : RoutineRef} {sig : Signature} {args ts : List TypeId} (hop : i.op = .call)
      (href : Listed c.pool.calls.toList i.a ref) (hb : i.b = args.length)
      (hsig : W.routine ref sig) (hargs : List.Forall₂ W.types.Fits args sig.params) :
      Typed W c i (args.reverse ++ ts) (leftBy (Bound.Bind.callType sig) ++ ts)
  | callNative {n : Native} {args ts : List TypeId} (hop : i.op = .callNative)
      (hn : Listed c.pool.natives.toList i.a n.name) (hb : i.b = args.length)
      (hargs : n.Accepts W.types args) :
      Typed W c i (args.reverse ++ ts) (leftBy (n.resultType args) ++ ts)
  | callIndirect {a : TypeId} {sig : Signature} {args ts : List TypeId} (hop : i.op = .callIndirect)
      (hb : i.b = args.length) (ha : W.types.shape? a = some (.routine sig))
      (hargs : List.Forall₂ W.types.Fits args sig.params) :
      Typed W c i (args.reverse ++ a :: ts) (leftBy (Bound.Bind.callType sig) ++ ts)
  | newArray {s : Shape} {a e : TypeId} {ts : List TypeId} (hop : i.op = .newArray)
      (hs : Listed c.pool.shapes.toList i.a s) (he : W.types.Stored e s)
      (ha : W.types.shape? a = some (.array e none)) : Typed W c i (integer :: ts) (a :: ts)
  | newCell {s : Shape} {a e : TypeId} {ts : List TypeId} (hop : i.op = .newCell)
      (hs : Listed c.pool.shapes.toList i.a s) (he : W.types.Stored e s)
      (ha : W.types.shape? a = some (.pointer e)) : Typed W c i ts (a :: ts)
  | routine {ref : RoutineRef} {sig : Signature} {a : TypeId} {ts : List TypeId}
      (hop : i.op = .routine) (href : Listed c.pool.calls.toList i.a ref) (hsig : W.routine ref sig)
      (ha : W.types.shape? a = some (.routine sig)) : Typed W c i ts (a :: ts)

/-- With operands of which types an instruction may end a block. -/
inductive Ends (c : Chart) (i : Instr) : List TypeId → Prop
  | jump {ts : List TypeId} (hop : i.op = .jump) (hto : Listed c.labels i.a ts) : Ends c i ts
  | branch {ts : List TypeId} (hop : i.op = .branch) (hyes : Listed c.labels i.a ts)
      (hno : Listed c.labels i.b ts) : Ends c i (boolean :: ts)
  | ret (hop : i.op = .ret) (ha : i.a = if c.returns then 1 else 0) : Ends c i []

variable {W W' : World} {c c' : Chart} {i : Instr} {ts ts' : List TypeId}

theorem Typed.mono (h : i.Typed W c ts ts') (hW : W.Le W') (hc : c.Le c') : i.Typed W' c' ts ts' := by
  have hfits : ∀ {args ps : List TypeId}, List.Forall₂ W.types.Fits args ps →
      List.Forall₂ W'.types.Fits args ps := fun h => h.imp fun _ _ h => h.mono hW.types
  cases h with
  | const hop hv ha => exact .const hop (hv.mono hc.pool.consts) (ha.mono hW.types (.refl _))
  | pop hop => exact .pop hop
  | dup hop => exact .dup hop
  | loadLocal hop ha => exact .loadLocal hop (ha.mono hc.slots)
  | storeLocal hop hb hf => exact .storeLocal hop (hb.mono hc.slots) (hf.mono hW.types)
  | loadGlobal hop href ha => exact .loadGlobal hop (href.mono hc.pool.globals) (hW.global _ _ _ ha)
  | storeGlobal hop href hb hf =>
    exact .storeGlobal hop (href.mono hc.pool.globals) (hW.global _ _ _ hb) (hf.mono hW.types)
  | loadElem hop ha => exact .loadElem hop (ha.mono hW.types)
  | storeElem hop ha hf => exact .storeElem hop (ha.mono hW.types) (hf.mono hW.types)
  | loadChar hop => exact .loadChar hop
  | binary hop ho => exact .binary hop ho
  | neg hop ho => exact .neg hop ho
  | not hop ho => exact .not hop ho
  | count hop ha => exact .count hop ha
  | intToReal hop => exact .intToReal hop
  | charToString hop => exact .charToString hop
  | call hop href hb hsig hargs =>
    exact .call hop (href.mono hc.pool.calls) hb (hW.routine _ _ hsig) (hfits hargs)
  | callNative hop hn hb hargs =>
    exact .callNative hop (hn.mono hc.pool.natives) hb (hargs.mono hW.types)
  | callIndirect hop hb ha hargs =>
    exact .callIndirect hop hb (hW.types.shape? ha) (hfits hargs)
  | newArray hop hs he ha =>
    exact .newArray hop (hs.mono hc.pool.shapes) (he.mono hW.types) (hW.types.shape? ha)
  | newCell hop hs he ha =>
    exact .newCell hop (hs.mono hc.pool.shapes) (he.mono hW.types) (hW.types.shape? ha)
  | routine hop href hsig ha =>
    exact .routine hop (href.mono hc.pool.calls) (hW.routine _ _ hsig) (hW.types.shape? ha)

theorem Ends.mono (h : i.Ends c ts) (hc : c.Le c') : i.Ends c' ts := by
  cases h with
  | jump hop hto => exact .jump hop (hto.mono hc.labels)
  | branch hop hyes hno => exact .branch hop (hyes.mono hc.labels) (hno.mono hc.labels)
  | ret hop ha => exact .ret hop (hc.returns ▸ ha)

theorem Typed.notTerminator (h : i.Typed W c ts ts') : i.op.isTerminator = false := by
  cases h with
  | @binary o _ _ _ _ hop =>
    rw [hop]
    cases o <;> rfl
  | count hop =>
    rcases hop with hop | hop
    all_goals
      rw [hop]
      rfl
  | _ =>
    simp only [*]
    rfl

theorem Ends.isTerminator (h : i.Ends c ts) : i.op.isTerminator = true := by
  cases h with
  | _ =>
    simp only [*]
    rfl

end Instr

/-! ## Blocks -/

namespace Chart

/-- The instructions of a block lead from these operands to others, or, if they end it, nowhere. -/
inductive Flows (W : World) (c : Chart) (ts : List TypeId) :
    Array Instr → Option (List TypeId) → Prop
  | nil : Flows W c ts #[] (some ts)
  | step {is : Array Instr} {i : Instr} {us us' : List TypeId} (h : Flows W c ts is (some us))
      (hi : i.Typed W c us us') : Flows W c ts (is.push i) (some us')
  | close {is : Array Instr} {i : Instr} {us : List TypeId} (h : Flows W c ts is (some us))
      (hi : i.Ends c us) : Flows W c ts (is.push i) none

variable {W W' : World} {c c' : Chart} {ts : List TypeId} {is : Array Instr}
  {out : Option (List TypeId)} {code : Blocks}

theorem Flows.mono (h : c.Flows W ts is out) (hW : W.Le W') (hc : c.Le c') : c'.Flows W' ts is out := by
  induction h with
  | nil => exact .nil
  | step _ hi ih => exact .step ih (hi.mono hW hc)
  | close _ hi ih => exact .close ih (hi.mono hc)

theorem Flows.isClosed_eq (h : c.Flows W ts is out) : Lower.isClosed is = out.isNone := by
  cases h with
  | nil => rfl
  | step _ hi => simp [Lower.isClosed, hi.notTerminator]
  | close _ hi => simp [Lower.isClosed, hi.isTerminator]

/-- The types of the operands at every place of a block. -/
structure Marks (W : World) (c : Chart) (ts : List TypeId) (is : Array Instr)
    (stack : Nat → List TypeId) : Prop where
  start : stack 0 = ts
  place : ∀ {ip : Nat} {i : Instr}, is[ip]? = some i →
    i.Typed W c (stack ip) (stack (ip + 1)) ∨ i.Ends c (stack ip)

theorem Flows.exists_marks (h : c.Flows W ts is out) :
    ∃ stack, c.Marks W ts is stack ∧ ∀ us, out = some us → stack is.size = us := by
  induction h with
  | nil => exact ⟨fun _ => ts, ⟨rfl, by simp⟩, by simp⟩
  | @step is i us us' _ hi ih =>
    obtain ⟨stack, hmarks, hend⟩ := ih
    refine ⟨fun ip => if ip = is.size + 1 then us' else stack ip, ⟨by simpa using hmarks.start, ?_⟩, ?_⟩
    · intro ip j hj
      rw [Array.getElem?_push] at hj
      split at hj
      · rename_i hip
        cases hj
        simpa [hip, hend us rfl] using Or.inl hi
      · have hlt := (Array.getElem?_eq_some_iff.mp hj).1
        have hne : ip ≠ is.size + 1 := by omega
        have hne' : ip ≠ is.size := by omega
        simpa [hne, hne'] using hmarks.place hj
    · rintro _ ⟨⟩
      simp
  | @close is i us _ hi ih =>
    obtain ⟨stack, hmarks, hend⟩ := ih
    refine ⟨stack, ⟨hmarks.start, ?_⟩, nofun⟩
    intro ip j hj
    rw [Array.getElem?_push] at hj
    split at hj
    · rename_i hip
      cases hj
      rw [hip, hend us rfl]
      exact .inr hi
    · exact hmarks.place hj

theorem Flows.lt_size (h : c.Flows W ts is none) {ip : Nat} {i : Instr} (hi : is[ip]? = some i)
    (hterm : i.op.isTerminator = false) : ip + 1 < is.size := by
  cases h with
  | close _ hends =>
    rw [Array.getElem?_push] at hi
    split at hi
    · cases hi
      rw [hends.isTerminator] at hterm
      cases hterm
    · simpa using (Array.getElem?_eq_some_iff.mp hi).1

theorem Flows.size_pos (h : c.Flows W ts is none) : 0 < is.size := by
  cases h with
  | close => simp

/-- At every place of the code there are operands of these types. -/
structure Covers (W : World) (c : Chart) (code : Blocks) (stack : Nat → Nat → List TypeId) : Prop where
  start : c.labels[0]? = some []
  entry : ∀ {k : Nat} {ts : List TypeId}, c.labels[k]? = some ts →
    stack k 0 = ts ∧ (code.instr? k 0).isSome = true
  place : ∀ {k ip : Nat} {i : Instr}, code.instr? k ip = some i →
    i.Typed W c (stack k ip) (stack k (ip + 1)) ∧ (code.instr? k (ip + 1)).isSome = true ∨
      i.Ends c (stack k ip)

theorem exists_covers (hsize : c.labels.length = code.size) (hstart : c.labels[0]? = some [])
    (hflows : ∀ (k : Nat) (ts : List TypeId) (is : Array Instr), c.labels[k]? = some ts →
      code[k]? = some is → c.Flows W ts is none) : ∃ stack, c.Covers W code stack := by
  have hblocks : ∀ k : Nat, ∃ stack : Nat → List TypeId, ∀ ts is, c.labels[k]? = some ts →
      code[k]? = some is → c.Marks W ts is stack := by
    intro k
    by_cases hk : k < code.size
    · have hts : c.labels[k]? = some c.labels[k] := List.getElem?_eq_getElem (hsize ▸ hk)
      have his : code[k]? = some code[k] := Array.getElem?_eq_getElem hk
      obtain ⟨stack, hmarks, -⟩ := (hflows k _ _ hts his).exists_marks
      refine ⟨stack, fun ts is hts' his' => ?_⟩
      cases hts.symm.trans hts'
      cases his.symm.trans his'
      exact hmarks
    · exact ⟨fun _ => [], fun ts is _ his => absurd (Array.getElem?_eq_some_iff.mp his).1 hk⟩
  choose stack hblocks using hblocks
  refine ⟨stack, hstart, ?_, ?_⟩
  · intro k ts hts
    have hlt := (List.getElem?_eq_some_iff.mp hts).1
    have his : code[k]? = some code[k] := Array.getElem?_eq_getElem (hsize ▸ hlt)
    refine ⟨(hblocks k ts _ hts his).start, ?_⟩
    simp [Blocks.instr?, his, (hflows k ts _ hts his).size_pos]
  · intro k ip i hi
    obtain ⟨is, his, hi⟩ := Option.bind_eq_some_iff.mp hi
    have hlt := (Array.getElem?_eq_some_iff.mp his).1
    have hts : c.labels[k]? = some c.labels[k] := List.getElem?_eq_getElem (hsize ▸ hlt)
    refine ((hblocks k _ is hts his).place hi).imp_left fun htyped => ⟨htyped, ?_⟩
    have hnext := (hflows k _ is hts his).lt_size hi htyped.notTerminator
    simp [Blocks.instr?, his, hnext]

theorem Covers.mono {stack : Nat → Nat → List TypeId} (h : c.Covers W code stack) (hW : W.Le W')
    (hc : c.Le c') (hlabels : c.labels = c'.labels) : c'.Covers W' code stack := by
  refine ⟨hlabels ▸ h.start, fun hts => h.entry (hlabels ▸ hts), fun hi => ?_⟩
  exact (h.place hi).imp (fun ⟨htyped, hnext⟩ => ⟨htyped.mono hW hc, hnext⟩) fun hends => hends.mono hc

end Chart

/-! ## Routines -/

/-- The chart covers the code of a routine of this signature: the slots are those of the parameters,
of the result and of local variables. -/
structure Routine.Follows (W : World) (pool : Pool) (r : Routine) (sig : Signature) (c : Chart)
    (stack : Nat → Nat → List TypeId) : Prop where
  params : r.params = sig.params.length
  result : r.result = if sig.result = 0 then -1 else (sig.params.length : Int)
  pool : c.pool = pool
  returns : c.returns = decide (sig.result ≠ 0)
  slots : ∃ locals, c.slots = sig.params ++ (if sig.result = 0 then [] else [sig.result]) ++ locals
  stored : List.Forall₂ W.types.Stored c.slots r.locals.toList
  covers : c.Covers W r.blocks stack

/-- The code of a routine of this signature is typed. -/
def Routine.Runs (W : World) (pool : Pool) (r : Routine) (sig : Signature) : Prop :=
  ∃ c stack, r.Follows W pool sig c stack

theorem Routine.Runs.mono {W W' : World} {pool pool' : Pool} {r : Routine} {sig : Signature}
    (h : r.Runs W pool sig) (hW : W.Le W') (hpool : pool.Grows pool') : r.Runs W' pool' sig := by
  obtain ⟨c, stack, h⟩ := h
  have hle : c.Le { c with pool := pool' } :=
    ⟨h.pool ▸ hpool, rfl, List.prefix_refl _, List.prefix_refl _⟩
  exact ⟨{ c with pool := pool' }, stack, h.params, h.result, rfl, h.returns, h.slots,
    h.stored.imp fun _ _ hs => hs.mono hW.types, h.covers.mono hW hle rfl⟩

end Pascaline
