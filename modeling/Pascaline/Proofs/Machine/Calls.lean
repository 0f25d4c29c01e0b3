import Pascaline.Proofs.Machine.Startup

/-!
# Calls and their callers

While a call is under way, the caller and the frames below it wait under the frame of the callee.
Only the return of the callee uncovers the caller, which then stands at its next instruction and has
lost the operands that the call took.
-/

namespace Pascaline

namespace Frame

/-- A caller when its call is over: all but its operands is as it was, and it stands at the next
instruction. -/
structure Continues (f : Frame) (i : Instr) (result : Option Value) (g : Frame) : Prop where
  unit : g.unit = f.unit
  name : g.name = f.name
  routine : g.routine = f.routine
  locals : g.locals = f.locals
  block : g.block = f.block
  ip : g.ip = f.ip + 1
  operands : g.operands = result.toList ++ f.operands.drop i.taken

theorem hands_of_fetch {f : Frame} {i : Instr} {span : Span} {result : Option Value}
    (h : (f.fetch span).Hands i result) : f.Hands i result := by
  cases h with
  | nothing h => exact .nothing h
  | value h hslot hv => exact .value h hslot hv

/-- The routine of `e` has a frame that lies directly on `waiting`, under any others. -/
def Covers (e : Frame) (waiting fs : List Frame) : Prop :=
  ∃ inner callee, fs = inner ++ callee :: waiting ∧ callee.unit = e.unit ∧
    callee.routine = e.routine

variable {e : Frame} {waiting fs gs : List Frame}

theorem Covers.sameTop (h : e.Covers waiting fs) (hsame : SameTop fs gs) : e.Covers waiting gs := by
  obtain ⟨inner, callee, rfl, hunit, hroutine⟩ := h
  cases inner with
  | nil =>
    cases hsame with
    | @top _ g _ hunit' hroutine' =>
      exact ⟨[], g, rfl, hunit'.trans hunit, hroutine'.trans hroutine⟩
  | cons t inner =>
    cases hsame with
    | @top _ g _ _ _ => exact ⟨g :: inner, callee, rfl, hunit, hroutine⟩

theorem Covers.cons (h : e.Covers waiting fs) (f : Frame) : e.Covers waiting (f :: fs) := by
  obtain ⟨inner, callee, rfl, hsame⟩ := h
  exact ⟨f :: inner, callee, rfl, hsame⟩

theorem Covers.length_lt (h : e.Covers waiting fs) : waiting.length < fs.length := by
  obtain ⟨inner, callee, rfl, -⟩ := h
  simp
  omega

end Frame

namespace Machine

variable {p : Program} {m m' m₀ : Machine} {e f caller : Frame} {below : List Frame} {i : Instr}
  {n : Nat}

/-- The return of the callee from the machine `m`: what it hands over is with the caller. -/
def Uncovers (m m' : Machine) (e caller : Frame) (below : List Frame) : Prop :=
  ∃ callee ret result, m.frames = callee :: caller :: below ∧ callee.unit = e.unit ∧
    callee.routine = e.routine ∧ callee.instr? = some ret ∧ ret.op = .ret ∧
    callee.Hands ret result ∧ m'.frames = caller.resume result :: below

/-- One step of the callee or of what it calls leaves the frames that wait alone, but for its
return. -/
theorem covers_step (h : e.Covers (caller :: below) m.frames) (hadv : Advance p m m') :
    e.Covers (caller :: below) m'.frames ∨ Uncovers m m' e caller below := by
  have hne : m.frames ≠ [] := List.ne_nil_of_length_pos (Nat.zero_lt_of_lt h.length_lt)
  cases hadv with
  | ended hframes => exact absurd hframes hne
  | enter hframes => exact absurd hframes hne
  | @instr t rest i span hframes hinstr _ hturn =>
    rw [hframes] at h
    have hfetch : SameTop (t :: rest) (t.fetch span :: rest) := .top rfl rfl
    cases hturn with
    | stay _ _ hsame => exact .inl (h.sameTop (hfetch.trans hsame))
    | call c _ hcall =>
      obtain ⟨new, -, hgs⟩ := hcall
      have hsuspend : SameTop (t.fetch span :: rest)
          ((t.fetch span :: rest).modifyHead (·.suspend i.taken)) := .top rfl rfl
      rw [hgs]
      exact .inl ((h.sameTop (hfetch.trans hsuspend)).cons new)
    | ret hop hret =>
      obtain ⟨t', rest', result, heq, hhands, hgs⟩ := hret
      obtain ⟨rfl, rfl⟩ := List.cons.inj heq
      obtain ⟨inner, callee, hsplit, hunit, hroutine⟩ := h
      cases inner with
      | nil =>
        -- the callee itself returns
        obtain ⟨rfl, rfl⟩ := List.cons.inj hsplit
        exact .inr ⟨t, i, result, hframes, hunit, hroutine, hinstr, hop,
          Frame.hands_of_fetch hhands, hgs⟩
      | cons t' inner =>
        obtain ⟨rfl, rfl⟩ := List.cons.inj hsplit
        have hcovers : e.Covers (caller :: below) (inner ++ callee :: caller :: below) :=
          ⟨inner, callee, rfl, hunit, hroutine⟩
        left
        rw [hgs]
        apply hcovers.sameTop
        apply SameTop.modifyHead
        · exact fun _ => rfl
        · exact fun _ => rfl

theorem covers_call (hframes : m.frames = f :: below) (hinstr : f.instr? = some i)
    (hop : i.op ∈ Op.routineCalls) (hadv : Advance p m m') :
    ∃ e span, m'.frames = e :: (f.fetch span).suspend i.taken :: below := by
  cases hadv with
  | ended hnil =>
    rw [hframes] at hnil
    cases hnil
  | enter hnil =>
    rw [hframes] at hnil
    cases hnil
  | @instr t rest i' span hframes' hinstr' _ hturn =>
    obtain ⟨rfl, rfl⟩ := List.cons.inj (hframes.symm.trans hframes')
    obtain rfl : i = i' := Option.some.inj (hinstr.symm.trans hinstr')
    cases hturn with
    | stay hcall => exact absurd hop hcall
    | call c _ hcall =>
      obtain ⟨e, -, hgs⟩ := hcall
      exact ⟨e, span, hgs⟩
    | ret hret =>
      rw [hret] at hop
      exact absurd hop (by decide)

/-- Until the stack is as high as the caller again, the callee covers it. -/
theorem covers_run (hrun : m₀.Proceeds p n) (hm₀ : m₀.halted = false)
    (hstart : e.Covers (caller :: below) (m₀.after p 1).frames)
    (hdeep : ∀ k, 0 < k → k < n → (m₀.after p k).frames.length ≠ below.length + 1) {k : Nat}
    (hpos : 0 < k) (hk : k < n) : e.Covers (caller :: below) (m₀.after p k).frames := by
  induction k with
  | zero => exact absurd hpos (Nat.lt_irrefl 0)
  | succ k ih =>
    rcases Nat.eq_zero_or_pos k with rfl | hk'
    · exact hstart
    · have hprev := ih hk' (Nat.lt_of_succ_lt hk)
      rcases covers_step hprev (advance_after hrun hm₀ (Nat.lt_of_succ_lt hk)) with hnext | hret
      · exact hnext
      · obtain ⟨callee, ret, result, -, -, -, -, -, -, hframes⟩ := hret
        refine absurd ?_ (hdeep (k + 1) hpos hk)
        rw [hframes]
        rfl

theorem halted_of_after (hm : m₀.halted = true) : (m₀.after p 1).halted = true := by
  unfold after after step Exec.step
  rw [Exec.get_bind]
  simp only [hm, if_true]
  exact hm

/-- The frames between a call and the first return to the depth of its caller. -/
structure CallReturns (p : Program) (m₀ : Machine) (f : Frame) (below : List Frame) (i : Instr)
    (n : Nat) : Prop where
  frames : m₀.frames = f :: below
  instr : f.instr? = some i
  op : i.op ∈ Op.routineCalls
  runs : m₀.Proceeds p n
  started : 0 < n
  deep : ∀ k, 0 < k → k < n → (m₀.after p k).frames.length ≠ m₀.frames.length
  back : (m₀.after p n).frames.length = m₀.frames.length

end Machine

/-- When a call is over, the frames below the caller are the same, and the caller is as it was but
that it stands at the next instruction and that its operands lack what the call took and have on
top what the frame of the callee hands over: the value of its result slot exactly if its return
says so. -/
theorem calls_preserve_the_caller {p : Program} {m₀ : Machine} {f : Frame} {below : List Frame}
    {i : Instr} {n : Nat} (h : m₀.CallReturns p f below i n) :
    ∃ entered callee ret result g,
      (m₀.after p 1).frames.head? = some entered ∧
      (m₀.after p (n - 1)).frames.head? = some callee ∧
      callee.unit = entered.unit ∧ callee.routine = entered.routine ∧
      callee.instr? = some ret ∧ ret.op = .ret ∧ callee.Hands ret result ∧
      (m₀.after p n).frames = g :: below ∧ f.Continues i result g := by
  have hm₀ : m₀.halted = false := by
    rw [← Bool.not_eq_true]
    intro hm
    have hgo := (h.runs 0 h.started).2
    rw [Machine.halted_of_after hm] at hgo
    cases hgo
  have hlength : m₀.frames.length = below.length + 1 := by
    rw [h.frames]
    rfl
  obtain ⟨e, span, hfirst⟩ := Machine.covers_call h.frames h.instr h.op
    (Machine.advance_after h.runs hm₀ h.started)
  have hlong : (m₀.after p 1).frames.length = below.length + 2 := by
    rw [hfirst]
    rfl
  have hn : n ≠ 1 := by
    rintro rfl
    have := h.back
    omega
  obtain ⟨k, rfl⟩ : ∃ k, n = k + 1 := ⟨n - 1, by have := h.started; omega⟩
  have hcovers := Machine.covers_run (e := e) (k := k) h.runs hm₀ ⟨[], e, hfirst, rfl, rfl⟩
    (fun k hpos hk => hlength ▸ h.deep k hpos hk) (by omega) (Nat.lt_succ_self k)
  rcases Machine.covers_step hcovers
    (Machine.advance_after h.runs hm₀ (Nat.lt_succ_self k)) with hstill | hret
  · have hlt := hstill.length_lt
    have hback := h.back
    rw [List.length_cons] at hlt
    omega
  · obtain ⟨callee, ret, result, hframes, hunit, hroutine, hinstr, hop, hhands, hback⟩ := hret
    refine ⟨e, callee, ret, result, _, by rw [hfirst]; rfl, ?_, hunit, hroutine, hinstr, hop,
      hhands, hback, rfl, rfl, rfl, rfl, rfl, rfl, rfl⟩
    rw [Nat.add_sub_cancel, hframes]
    rfl

/-- A program that doubles a number in a routine. -/
def doubling : Program := ((Program.link
  [{ name := "sums", display := "sums", main := 1
     pool := { consts := #[.int 5, .int 7], calls := #[⟨"sums", 0⟩] }
     table := some #[
       { name := "double", params := 1, result := 1, locals := #[.int, .int], blocks := #[#[
           { op := .loadLocal }, { op := .loadLocal }, { op := .add }, { op := .storeLocal, a := 1 },
           { op := .ret, a := 1 }]] },
       { name := "main", blocks := #[#[
           { op := .const }, { op := .const, a := 1 }, { op := .call, b := 1 }, { op := .pop },
           { op := .pop }, { op := .ret }]] }] }]).toOption).getD {}

/-- It stands at the call, with 5 and 7 as operands. -/
def doublingMachine : Machine :=
  (((Machine.start doubling {}).toOption).getD { heap := .ofBudget 0, maxFrames := 0 }).after doubling 3

theorem calls_preserve_the_caller_doubling :
    ∃ f i result g, doublingMachine.CallReturns doubling f [] i 6 ∧
      (doublingMachine.after doubling 6).frames = [g] ∧ f.Continues i result g ∧ i.taken = 1 ∧
      g.operands.map (·.print) = [utf8 "14", utf8 "5"] := by
  obtain ⟨f, hf⟩ : ∃ f, doublingMachine.frames = [f] := List.length_eq_one_iff.mp (by decide +kernel)
  have hinstr : f.instr? = some { op := .call, b := 1 } := by
    have : doublingMachine.frames.map (·.instr?) = [some { op := .call, b := 1 }] := by
      decide +kernel
    rw [hf] at this
    simpa using this
  have hcall : doublingMachine.CallReturns doubling f [] { op := .call, b := 1 } 6 := by
    refine ⟨hf, hinstr, by decide, ?_, by decide, ?_, by decide +kernel⟩
    · unfold Machine.Proceeds
      decide +kernel
    · have hdepths : ∀ k < 6, 0 < k → (doublingMachine.after doubling k).frames.length ≠
          doublingMachine.frames.length := by decide +kernel
      exact fun k hpos hk => hdepths k hk hpos
  obtain ⟨-, -, -, result, g, -, -, -, -, -, -, -, hg, hcontinues⟩ := calls_preserve_the_caller hcall
  refine ⟨f, _, result, g, hcall, hg, hcontinues, rfl, ?_⟩
  have hprints : (doublingMachine.after doubling 6).frames.map (fun f => f.operands.map (·.print)) =
      [[utf8 "14", utf8 "5"]] := by decide +kernel
  rw [hg] at hprints
  simpa using hprints

end Pascaline
