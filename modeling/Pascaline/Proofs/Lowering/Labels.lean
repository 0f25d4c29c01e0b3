import Mathlib.Tactic.Choose
import Pascaline.Proofs.Lowering.Building
import Pascaline.Proofs.Lowering.Stacks
import Pascaline.Proofs.Pairwise

/-!
# Labels of code under construction

A builder keeps labels: how each block is entered, and what is on the stack at its end. Blocks that
were opened and not yet gone to are empty. All others but the current one are closed.
-/

namespace Pascaline

/-! ## Calls -/

/-- The expressions of a routine, and which of its calls leave a result. -/
structure Calls where
  exprs : List Bound.Expr
  leaves : Bound.Expr → Bool

/-- The instruction does the call that an expression stands for. A new object calls its constructor
with one more argument, the object. -/
def Bound.Expr.CalledBy (pool : Pool) (i : Instr) : Bound.Expr → Prop
  | .call ref as _ sp =>
    i.op = .call ∧ pool.calls[i.a.toNat]? = some ref ∧ i.b = as.length ∧ i.pos = sp.start
  | .callVirtual slot as _ sp =>
    i.op = .callVirtual ∧ i.a = slot ∧ i.b = as.length ∧ i.pos = sp.start
  | .callNative n as _ sp =>
    i.op = .callNative ∧ pool.natives[i.a.toNat]? = some n.name ∧ i.b = as.length ∧ i.pos = sp.start
  | .callValue _ as _ sp => i.op = .callIndirect ∧ i.b = as.length ∧ i.pos = sp.start
  | .newObject _ (some ref) as _ sp =>
    i.op = .call ∧ pool.calls[i.a.toNat]? = some ref ∧ i.b = as.length + 1 ∧ i.pos = sp.start
  | _ => False

/-- Whether a call instruction leaves a result is up to the call that it does. Constructors leave
none. -/
def Calls.Result (c : Calls) (pool : Pool) (i : Instr) (result : Bool) : Prop :=
  ∃ e ∈ c.exprs, e.CalledBy pool i ∧ result = (e.isCall && c.leaves e)

/-- No routine is lost or moved. -/
structure Pool.Le (pool pool' : Pool) : Prop where
  calls : pool.calls.toList <+: pool'.calls.toList
  natives : pool.natives.toList <+: pool'.natives.toList

theorem Pool.Le.refl (pool : Pool) : pool.Le pool := ⟨List.prefix_refl _, List.prefix_refl _⟩

theorem Calls.Result.mono {c : Calls} {pool pool' : Pool} {i : Instr} {result : Bool}
    (h : c.Result pool i result) (hle : pool.Le pool') : c.Result pool' i result := by
  obtain ⟨e, he, hcalled, hresult⟩ := h
  refine ⟨e, he, ?_, hresult⟩
  unfold Bound.Expr.CalledBy at hcalled ⊢
  split at hcalled
  · exact ⟨hcalled.1, getElem?_of_isPrefix hle.calls hcalled.2.1, hcalled.2.2⟩
  · exact hcalled
  · exact ⟨hcalled.1, getElem?_of_isPrefix hle.natives hcalled.2.1, hcalled.2.2⟩
  · exact hcalled
  · exact ⟨hcalled.1, getElem?_of_isPrefix hle.calls hcalled.2.1, hcalled.2.2⟩
  · cases hcalled

/-! ## Blocks -/

/-- The instructions of a block lead from its entry to these marks, or, if they end it, nowhere. -/
inductive Flows (c : Calls) (pool : Pool) (labels : List Label) (e : Label) :
    Array Instr → Option (List Mark) → Prop
  | nil : Flows c pool labels e #[] (some e.stack)
  | step {is : Array Instr} {i : Instr} {result : Bool} {ms ms' : List Mark}
      (h : Flows c pool labels e is (some ms)) (hshift : Shifts i result ms ms')
      (hcall : i.op.isCall = true → c.Result pool i result) :
      Flows c pool labels e (is.push i) (some ms')
  | close {is : Array Instr} {i : Instr} {ms : List Mark} (h : Flows c pool labels e is (some ms))
      (hleaves : Leaves labels e.rank i ms) : Flows c pool labels e (is.push i) none

variable {c : Calls} {pool pool' : Pool} {labels labels' : List Label} {e : Label}
  {is : Array Instr} {out : Option (List Mark)}

theorem Enters.mono {rank : Nat} {ms : List Mark} {target : Int} (h : Enters labels rank ms target)
    (hle : labels <+: labels') : Enters labels' rank ms target := by
  obtain ⟨k, e, hk, he, hms, hrank⟩ := h
  exact ⟨k, e, hk, getElem?_of_listPrefix hle he, hms, hrank⟩

theorem Enters.rank_le {rank rank' : Nat} {ms : List Mark} {target : Int}
    (h : Enters labels rank ms target) (hle : rank' ≤ rank) : Enters labels rank' ms target := by
  obtain ⟨k, e, hk, he, hms, hrank⟩ := h
  exact ⟨k, e, hk, he, hms, fun hne => Nat.lt_of_le_of_lt hle (hrank hne)⟩

theorem Leaves.mono {rank : Nat} {i : Instr} {ms : List Mark} (h : Leaves labels rank i ms)
    (hle : labels <+: labels') : Leaves labels' rank i ms := by
  cases h with
  | jump hop hto => exact .jump hop (hto.mono hle)
  | branch hop hyes hno => exact .branch hop (hyes.mono hle) (hno.mono hle)
  | ret hop => exact .ret hop

theorem Flows.mono (h : Flows c pool labels e is out) (hpool : pool.Le pool')
    (hle : labels <+: labels') : Flows c pool' labels' e is out := by
  induction h with
  | nil => exact .nil
  | step _ hshift hcall ih => exact .step ih hshift fun hop => (hcall hop).mono hpool
  | close _ hleaves ih => exact .close ih (hleaves.mono hle)

theorem Flows.isClosed_eq (h : Flows c pool labels e is out) : Lower.isClosed is = out.isNone := by
  cases h with
  | nil => rfl
  | step _ hshift => simp [Lower.isClosed, hshift.notTerminator]
  | close _ hleaves => simp [Lower.isClosed, hleaves.isTerminator]

/-- Marks at every place of a block. -/
structure Marked (c : Calls) (pool : Pool) (labels : List Label) (e : Label) (is : Array Instr)
    (result : Nat → Bool) (marks : Nat → List Mark) : Prop where
  start : marks 0 = e.stack
  call : ∀ {ip : Nat} {i : Instr}, is[ip]? = some i → i.op.isCall = true →
    c.Result pool i (result ip)
  place : ∀ {ip : Nat} {i : Instr}, is[ip]? = some i →
    Shifts i (result ip) (marks ip) (marks (ip + 1)) ∨ Leaves labels e.rank i (marks ip)

theorem Leaves.not_isCall {rank : Nat} {i : Instr} {ms : List Mark} (h : Leaves labels rank i ms) :
    i.op.isCall = false := by
  cases h with
  | jump h => rw [h]; rfl
  | branch h => rw [h]; rfl
  | ret h => rw [h]; rfl

theorem Flows.exists_marked (h : Flows c pool labels e is out) :
    ∃ result marks, Marked c pool labels e is result marks ∧
      ∀ ms, out = some ms → marks is.size = ms := by
  induction h with
  | nil => exact ⟨fun _ => false, fun _ => e.stack, ⟨rfl, by simp, by simp⟩, by simp⟩
  | @step is i result ms ms' _ hshift hcall ih =>
    obtain ⟨result₀, marks₀, hmarked, hend⟩ := ih
    have hms := hend ms rfl
    refine ⟨fun ip => if ip = is.size then result else result₀ ip,
      fun ip => if ip = is.size + 1 then ms' else marks₀ ip, ⟨by simpa using hmarked.start, ?_, ?_⟩, ?_⟩
    · intro ip j hj hop
      rw [Array.getElem?_push] at hj
      split at hj
      · rename_i hip
        cases hj
        simpa [hip] using hcall hop
      · rename_i hip
        simpa [hip] using hmarked.call hj hop
    · intro ip j hj
      rw [Array.getElem?_push] at hj
      split at hj
      · rename_i hip
        cases hj
        simpa [hip, hms] using Or.inl hshift
      · rename_i hip
        have hlt := (Array.getElem?_eq_some_iff.mp hj).1
        have hne : ip ≠ is.size + 1 := by omega
        simpa [hip, hne] using hmarked.place hj
    · rintro _ ⟨⟩
      simp
  | @close is i ms _ hleaves ih =>
    obtain ⟨result, marks, hmarked, hend⟩ := ih
    refine ⟨result, marks, ⟨hmarked.start, ?_, ?_⟩, nofun⟩
    · intro ip j hj hop
      rw [Array.getElem?_push] at hj
      split at hj
      · cases hj
        rw [hleaves.not_isCall] at hop
        cases hop
      · exact hmarked.call hj hop
    · intro ip j hj
      rw [Array.getElem?_push] at hj
      split at hj
      · rename_i hip
        cases hj
        rw [hip, hend ms rfl]
        exact .inr hleaves
      · exact hmarked.place hj

theorem Flows.lt_size (h : Flows c pool labels e is none) {ip : Nat} {i : Instr}
    (hi : is[ip]? = some i) (hterm : i.op.isTerminator = false) : ip + 1 < is.size := by
  cases h with
  | close _ hleaves =>
    rw [Array.getElem?_push] at hi
    split at hi
    · cases hi
      rw [hleaves.isTerminator] at hterm
      cases hterm
    · simpa using (Array.getElem?_eq_some_iff.mp hi).1

theorem Flows.size_pos (h : Flows c pool labels e is none) : 0 < is.size := by
  cases h with
  | close => simp

theorem Blocks.exists_labelled {code : Blocks} (hsize : labels.length = code.size)
    (hstart : ∃ e, labels[0]? = some e ∧ e.stack = [])
    (hflows : ∀ (k : Nat) (e : Label) (is : Array Instr), labels[k]? = some e → code[k]? = some is →
      Flows c pool labels e is none) :
    ∃ (result : Nat → Nat → Bool) (marks : Nat → Nat → List Mark),
      code.Labelled result labels marks ∧ ∀ {k ip : Nat} {i : Instr}, code.instr? k ip = some i →
        i.op.isCall = true → c.Result pool i (result k ip) := by
  have hblocks : ∀ k : Nat, ∃ (result : Nat → Bool) (marks : Nat → List Mark), ∀ e is,
      labels[k]? = some e → code[k]? = some is → Marked c pool labels e is result marks := by
    intro k
    by_cases hk : k < code.size
    · have he : labels[k]? = some labels[k] := List.getElem?_eq_getElem (by omega)
      have his : code[k]? = some code[k] := Array.getElem?_eq_getElem hk
      obtain ⟨result, marks, hmarked, -⟩ := (hflows k _ _ he his).exists_marked
      refine ⟨result, marks, fun e is he' his' => ?_⟩
      cases he.symm.trans he'
      cases his.symm.trans his'
      exact hmarked
    · refine ⟨fun _ => false, fun _ => [], fun e is _ his => ?_⟩
      exact absurd (Array.getElem?_eq_some_iff.mp his).1 hk
  choose result marks hblocks using hblocks
  have hfound : ∀ {k ip : Nat} {i : Instr}, code.instr? k ip = some i → ∃ e is,
      labels[k]? = some e ∧ code[k]? = some is ∧ is[ip]? = some i := by
    intro k ip i hi
    obtain ⟨is, his, hi⟩ := Option.bind_eq_some_iff.mp hi
    have hlt := (Array.getElem?_eq_some_iff.mp his).1
    exact ⟨_, is, List.getElem?_eq_getElem (hsize ▸ hlt), his, hi⟩
  have hentry : ∀ {k : Nat} {e : Label}, labels[k]? = some e →
      marks k 0 = e.stack ∧ (code.instr? k 0).isSome = true := by
    intro k e he
    have hlt := (List.getElem?_eq_some_iff.mp he).1
    have his : code[k]? = some code[k] := Array.getElem?_eq_getElem (hsize ▸ hlt)
    refine ⟨(hblocks k e _ he his).start, ?_⟩
    simp [instr?, his, (hflows k e _ he his).size_pos]
  refine ⟨result, marks, ⟨hstart, hentry, ?_⟩, ?_⟩
  · intro k ip i hi
    obtain ⟨e, is, he, his, hi⟩ := hfound hi
    rcases (hblocks k e is he his).place hi with hshift | hleaves
    · have hlt := (hflows k e is he his).lt_size hi hshift.notTerminator
      exact .inl ⟨hshift, by simp [instr?, his, hlt]⟩
    · exact .inr ⟨e, he, hleaves⟩
  · intro k ip i hi hop
    obtain ⟨e, is, he, his, hi⟩ := hfound hi
    exact (hblocks k e is he his).call hi hop

/-! ## Builders -/

/-- A block that is entered with an empty stack. -/
def Rests (labels : List Label) (k : Nat) : Prop := ∃ e, labels[k]? = some e ∧ e.stack = []

theorem Rests.mono {k : Nat} (h : Rests labels k) (hle : labels <+: labels') : Rests labels' k := by
  obtain ⟨e, he, hempty⟩ := h
  exact ⟨e, getElem?_of_listPrefix hle he, hempty⟩

theorem Rests.enters {k : Nat} (h : Rests labels k) (rank : Nat) : Enters labels rank [] k := by
  obtain ⟨e, he, hempty⟩ := h
  exact ⟨k, e, rfl, he, hempty, fun hne => absurd rfl hne⟩

namespace Builder

/-- The state of a builder: at the end of the current block the marks are `out`, or it is closed.
The blocks in `waiting` are still to be gone to, in this order. -/
structure At (c : Calls) (b : Builder) (labels : List Label) (waiting : List Nat)
    (out : Option (List Mark)) (rank : Nat) : Prop where
  size : labels.length = b.blocks.size
  here : ∃ e is, labels[b.current]? = some e ∧ b.blocks[b.current]? = some is ∧ e.rank ≤ rank ∧
    Flows c b.pool labels e is out
  nodup : (b.current :: waiting).Nodup
  vacant : ∀ k ∈ waiting, b.Empty k
  closed : ∀ (k : Nat) (e : Label) (is : Array Instr), k ≠ b.current → k ∉ waiting →
    labels[k]? = some e → b.blocks[k]? = some is → Flows c b.pool labels e is none
  loops : ∀ l ∈ b.loops, Rests labels l.leave ∧ Rests labels l.next

variable {b b' : Builder} {waiting : List Nat} {rank : Nat} {ms ms' : List Mark} {i : Instr}

theorem At.isClosed_eq (h : b.At c labels waiting out rank) :
    Lower.isClosed b.block = out.isNone := by
  obtain ⟨e, is, -, his, -, hflows⟩ := h.here
  have hblock : b.block = is := by simp [block, Array.getD_eq_getD_getElem?, his]
  rw [hblock, hflows.isClosed_eq]

theorem At.withPool (h : b.At c labels waiting out rank) (hpool : b.pool.Le pool') :
    At c { b with pool := pool' } labels waiting out rank := by
  obtain ⟨e, is, he, his, hrank, hflows⟩ := h.here
  refine ⟨h.size, ⟨e, is, he, his, hrank, hflows.mono hpool (List.prefix_refl _)⟩, h.nodup, h.vacant,
    ?_, h.loops⟩
  intro k e is hk hwaiting he his
  exact (h.closed k e is hk hwaiting he his).mono hpool (List.prefix_refl _)

theorem At.addLocal (h : b.At c labels waiting out rank) (shape : Shape) :
    (b.addLocal shape).At c labels waiting out rank :=
  ⟨h.size, h.here, h.nodup, h.vacant, h.closed, h.loops⟩

theorem At.withLoops (h : b.At c labels waiting out rank) {loops : List LoopTarget}
    (hloops : ∀ l ∈ loops, Rests labels l.leave ∧ Rests labels l.next) :
    (b.withLoops loops).At c labels waiting out rank :=
  ⟨h.size, h.here, h.nodup, h.vacant, h.closed, hloops⟩

theorem At.rank_le (h : b.At c labels waiting out rank) {rank' : Nat} (hle : rank ≤ rank') :
    b.At c labels waiting out rank' := by
  obtain ⟨e, is, he, his, hrank, hflows⟩ := h.here
  exact ⟨h.size, ⟨e, is, he, his, Nat.le_trans hrank hle, hflows⟩, h.nodup, h.vacant, h.closed, h.loops⟩

theorem At.perm {waiting' : List Nat} (h : b.At c labels waiting out rank)
    (hperm : waiting.Perm waiting') : b.At c labels waiting' out rank := by
  refine ⟨h.size, h.here, (hperm.cons _).nodup_iff.mp h.nodup, ?_, ?_, h.loops⟩
  · exact fun k hk => h.vacant k (hperm.mem_iff.mpr hk)
  · exact fun k e is hne hk => h.closed k e is hne fun hmem => hk (hperm.mem_iff.mp hmem)

theorem At.lt_size (h : b.At c labels waiting out rank) {k : Nat} (hk : k ∈ b.current :: waiting) :
    k < b.blocks.size := by
  rcases List.mem_cons.mp hk with rfl | hk
  · obtain ⟨e, is, -, his, -⟩ := h.here
    exact (Array.getElem?_eq_some_iff.mp his).1
  · exact (h.vacant k hk).lt

theorem At.addBlock (h : b.At c labels waiting out rank) (e : Label) :
    b.addBlock.At c (labels ++ [e]) (b.blocks.size :: waiting) out rank := by
  have hle : labels <+: labels ++ [e] := List.prefix_append _ _
  have hpool := Pool.Le.refl b.pool
  have hold : ∀ {k : Nat}, k ≠ b.blocks.size → b.addBlock.blocks[k]? = b.blocks[k]? := by
    intro k hk
    rw [Builder.addBlock, Array.getElem?_push, if_neg hk]
  have hnew : b.blocks.size ∉ b.current :: waiting := fun hmem => Nat.lt_irrefl _ (h.lt_size hmem)
  refine ⟨by simp [h.size], ?_, ?_, ?_, ?_, ?_⟩
  · obtain ⟨e, is, he, his, hrank, hflows⟩ := h.here
    have hlt := (Array.getElem?_eq_some_iff.mp his).1
    exact ⟨e, is, getElem?_of_listPrefix hle he, (hold (Nat.ne_of_lt hlt)).trans his, hrank,
      hflows.mono hpool hle⟩
  · have hnodup := h.nodup
    simp only [List.nodup_cons, List.mem_cons, not_or] at hnodup hnew ⊢
    exact ⟨⟨Ne.symm hnew.1, hnodup.1⟩, hnew.2, hnodup.2⟩
  · intro k hk
    rcases List.mem_cons.mp hk with rfl | hk
    · exact Empty.addBlock b
    · exact (h.vacant k hk).more
  · intro k e' is hne hk he his
    rw [hold (List.ne_of_not_mem_cons hk)] at his
    have hlt := (Array.getElem?_eq_some_iff.mp his).1
    rw [List.getElem?_append_left (h.size ▸ hlt)] at he
    exact (h.closed k e' is hne (List.not_mem_of_not_mem_cons hk) he his).mono hpool hle
  · exact fun l hl => ⟨(h.loops l hl).1.mono hle, (h.loops l hl).2.mono hle⟩

theorem At.goTo {k : Nat} {e : Label} (h : b.At c labels (k :: waiting) none rank)
    (he : labels[k]? = some e) : (b.goTo k).At c labels waiting (some e.stack) e.rank := by
  have hnodup := h.nodup
  simp only [List.nodup_cons, List.mem_cons, not_or] at hnodup
  refine ⟨h.size, ⟨e, #[], he, h.vacant k (by simp), Nat.le_refl _, .nil⟩, ?_, ?_, ?_, h.loops⟩
  · exact List.nodup_cons.mpr hnodup.2
  · exact fun k' hk' => h.vacant k' (List.mem_cons_of_mem _ hk')
  · intro k' e' is hne hk' he' his
    by_cases hcurrent : k' = b.current
    · subst hcurrent
      obtain ⟨e₀, is₀, he₀, his₀, -, hflows⟩ := h.here
      obtain rfl : e₀ = e' := Option.some.inj (he₀.symm.trans he')
      obtain rfl : is₀ = is := Option.some.inj (his₀.symm.trans his)
      exact hflows
    · exact h.closed k' e' is hcurrent (List.not_mem_cons_of_ne_of_not_mem hne hk') he' his

theorem At.append {out' : Option (List Mark)} (h : b.At c labels waiting out rank)
    (hflows : ∀ e is, e.rank ≤ rank → Flows c b.pool labels e is out →
      Flows c b.pool labels e (is.push i) out') :
    (b.append i).At c labels waiting out' rank := by
  have hother : ∀ {k : Nat}, k ≠ b.current → (b.append i).blocks[k]? = b.blocks[k]? := by
    intro k hk
    rw [Builder.append, Array.getElem?_modify, if_neg (Ne.symm hk)]
  refine ⟨by simpa [Builder.append] using h.size, ?_, h.nodup, ?_, ?_, h.loops⟩
  · obtain ⟨e, is, he, his, hrank, hflow⟩ := h.here
    refine ⟨e, is.push i, he, ?_, hrank, hflows e is hrank hflow⟩
    show (b.append i).blocks[b.current]? = some (is.push i)
    rw [Builder.append, Array.getElem?_modify, if_pos rfl, his, Option.map_some]
  · intro k hk
    have hne : k ≠ b.current := fun heq => (List.nodup_cons.mp h.nodup).1 (heq ▸ hk)
    exact (hother hne).trans (h.vacant k hk)
  · intro k e is hne hk he his
    rw [hother hne] at his
    exact h.closed k e is hne hk he his

theorem At.emit {out' : Option (List Mark)} (h : b.At c labels waiting out rank)
    (hms : out.getD [] = ms)
    (hflows : ∀ {labels' e is}, labels <+: labels' → e.rank ≤ rank →
      Flows c b.pool labels' e is (some ms) → Flows c b.pool labels' e (is.push i) out') :
    ∃ labels', labels <+: labels' ∧ (b.emit i).At c labels' waiting out' rank := by
  cases out with
  | some ms₀ =>
    obtain rfl : ms₀ = ms := hms
    refine ⟨labels, List.prefix_refl _, ?_⟩
    rw [Builder.emit, h.isClosed_eq]
    exact h.append fun e is hrank hflow => hflows (List.prefix_refl _) hrank hflow
  | none =>
    obtain rfl : [] = ms := hms
    refine ⟨labels ++ [⟨[], rank⟩], List.prefix_append _ _, ?_⟩
    rw [Builder.emit, h.isClosed_eq]
    have hnew : (labels ++ [⟨[], rank⟩])[b.blocks.size]? = some ⟨[], rank⟩ := by simp [← h.size]
    have hgone := (h.addBlock ⟨[], rank⟩).goTo hnew
    exact hgone.append fun e is hrank hflow => hflows (List.prefix_append _ _) hrank hflow

theorem At.jump {k pos : Nat} (h : b.At c labels waiting out rank)
    (hto : Enters labels rank (out.getD []) k) : (b.jump k pos).At c labels waiting none rank := by
  unfold Builder.jump
  cases out with
  | none =>
    rw [h.isClosed_eq]
    exact h
  | some ms =>
    have hopen := h.isClosed_eq
    rw [Builder.emit, hopen]
    exact h.append fun e is hrank hflow => hflow.close (.jump rfl (hto.rank_le hrank))

theorem At.branch {yes no pos : Nat} (h : b.At c labels waiting out rank)
    (hms : out.getD [] = .value :: ms) (hyes : Enters labels rank ms yes)
    (hno : Enters labels rank ms no) : (b.branch yes no pos).At c labels waiting none rank := by
  cases out with
  | none => cases hms
  | some ms₀ =>
    obtain rfl : ms₀ = .value :: ms := hms
    rw [Builder.branch, Builder.emit, h.isClosed_eq]
    exact h.append fun e is hrank hflow => hflow.close (.branch rfl (hyes.rank_le hrank) (hno.rank_le hrank))

end Builder

end Pascaline
