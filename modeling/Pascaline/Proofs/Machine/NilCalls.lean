import Pascaline.Bound.Coercion
import Pascaline.Lowering
import Pascaline.Proofs.Machine.CallStack
import Pascaline.Proofs.Storage.Behaviour

/-!
# Calls of nil

There are two values that are nil where a routine is wanted: the routine value that a new variable
starts with, and the nil reference, which is what the literal stands for and which is not converted
when it is assigned. A call tells them apart: it looks at the kind of the value first, so the second
is answered as an operand of the wrong kind.
-/

namespace Pascaline

namespace Exec

variable {p : Program} {u : LinkedUnit} {i : Instr} {m : Machine} {v : Value}

/-- Why a call of a nil fails. -/
def nilCallCause (v : Value) : FaultCause :=
  if v.kind = .routine then .nilReference .routine else .typeMismatch (.routine v.kind)

theorem nilCallCause_code (v : Value) : (nilCallCause v).code = 1002 ↔ v.kind = .routine := by
  unfold nilCallCause
  split <;> simp [FaultCause.code, *]

theorem routineValue_nil (hnil : v.isNil) (m : Machine) :
    routineValue p v m = .error (.fault (m.faultOf (nilCallCause v))) m := by
  cases v with
  | routine name k =>
    obtain rfl : name = "" := by simpa [Value.isNil] using hnil
    rfl
  | ref h => rfl
  | _ => simp [Value.isNil] at hnil

theorem instr_nil {f : Frame} {rest : List Frame} (hop : i.op = .callIndirect) (hcount : 0 ≤ i.b)
    (hframes : m.frames = f :: rest) (hv : f.operands[i.b.toNat]? = some v) (hnil : v.isNil) :
    instr p u i m = .error (.fault (m.faultOf (nilCallCause v))) m := by
  have hlength := (List.getElem?_eq_some_iff.mp hv).1
  have hfew : ¬(f.operands.length : Int) < i.b + 1 := by omega
  have hneg : ¬i.b < 0 := by omega
  have hvalue : f.operands.getD i.b.toNat .invalid = v := by
    rw [List.getD_eq_getElem?_getD, hv]
    rfl
  have htop : top m = .ok f m := by
    rw [top, get_bind, hframes]
    rfl
  have hinstr : instr p u i = control p u i := by
    unfold instr
    simp only [hop, Op.binary?, Op.unary?, Op.relation?]
  rw [hinstr]
  unfold control
  simp only [hop]
  rw [bind_of_ok htop, if_neg hfew, if_neg hneg, hvalue]
  exact bind_of_error (routineValue_nil hnil m) _

end Exec

namespace Machine

variable {p : Program} {m : Machine} {f : Frame} {rest : List Frame} {i : Instr} {v : Value}

/-- The next instruction of a machine calls the value `v`, with its arguments above it. -/
structure CallsValue (p : Program) (m : Machine) (f : Frame) (rest : List Frame) (i : Instr)
    (v : Value) : Prop where
  halted : m.halted = false
  stopping : m.stopping = false
  frames : m.frames = f :: rest
  instr : f.instr? = some i
  linked : (p.units[f.unit]?).isSome
  op : i.op = .callIndirect
  count : 0 ≤ i.b
  operand : f.operands[i.b.toNat]? = some v

/-- A nil that is called ends the run: nothing has changed but that the innermost frame is marked. -/
structure FaultsAt (m : Machine) (f : Frame) (rest : List Frame) (i : Instr) (cause : FaultCause)
    (o : Outcome) : Prop where
  fault : ∃ t, o.stop = some (.fault t) ∧ t.cause = cause ∧ t.span.start = i.pos
  frames : ∃ span, o.machine.frames = { f.fetch span with state := .faulted } :: rest
  heap : o.machine.heap = m.heap
  globals : o.machine.globals = m.globals
  output : o.machine.output = m.output

theorem CallsValue.faults (h : CallsValue p m f rest i v) (hnil : v.isNil) :
    FaultsAt m f rest i (Exec.nilCallCause v) (m.step p) := by
  obtain ⟨u, hu⟩ := Option.isSome_iff_exists.mp h.linked
  let span : Span := ⟨u.unit.file, i.pos, (i.pos + 1) % 0x100000000⟩
  -- The machine when the instruction is fetched and noted in the trace, if there is one.
  let fetched : Machine :=
    { m with frames := f.fetch span :: rest, halted := false, stopping := false }
  let noted : Machine :=
    if fetched.events.isSome then
      fetched.log (.instr fetched.frames.length f.name f.block f.ip i span)
    else fetched
  have hnoted : noted.frames = f.fetch span :: rest ∧ noted.heap = m.heap ∧
      noted.globals = m.globals ∧ noted.output = m.output := by
    dsimp only [noted, fetched]
    unfold Machine.log
    split
    · split <;> exact ⟨rfl, rfl, rfl, rfl⟩
    · exact ⟨rfl, rfl, rfl, rfl⟩
  obtain ⟨hframes, hheap, hglobals, houtput⟩ := hnoted
  have hinstr : Exec.instr p u i noted = _ :=
    Exec.instr_nil h.op h.count hframes (f := f.fetch span) h.operand hnil
  have hstep : Exec.step p m = Exec.marking (Exec.instr p u i) noted := by
    unfold Exec.step
    rw [Exec.get_bind]
    simp only [Bind.bind, h.halted, h.stopping, h.frames, h.instr, hu]
    rfl
  have hmarked : Exec.marking (Exec.instr p u i) noted =
      .error (.fault (noted.faultOf (Exec.nilCallCause v)))
        { noted with frames := { f.fetch span with state := .faulted } :: rest } := by
    unfold Exec.marking
    rw [hinstr]
    dsimp only
    rw [hframes]
  unfold Machine.step
  rw [hstep, hmarked]
  refine ⟨⟨_, rfl, rfl, ?_⟩, ⟨span, rfl⟩, hheap, hglobals, houtput⟩
  rw [Machine.faultOf, hframes]
  rfl

end Machine

/-! ## Where a nil comes from -/

section Origins

variable {t : TypeTable} {target : TypeId} {sig : Signature}

theorem slotShape_routine (ht : t.shape? target = some (.routine sig)) :
    t.slotShape target = .ok .routine := by
  unfold TypeTable.slotShape TypeTable.slotShapeFrom
  rw [ht]

theorem kind_ne_char (ht : t.shape? target = some (.routine sig)) : t.kind target ≠ .char := by
  unfold TypeTable.kind
  rw [ht]
  show (if sig.result = 0 then TypeKind.procedure else .function) ≠ .char
  split <;> decide

/-- Only the same type and the type of the literal fit where a routine is wanted. -/
theorem assignable_routine (source : TypeId) (ht : t.shape? target = some (.routine sig)) :
    t.assignable source target = .exact ∧ (source = target ∨ t.shape? source = some .nil) ∨
      t.assignable source target = .incompatible := by
  unfold TypeTable.assignable
  rw [ht]
  dsimp only
  split
  · exact .inr rfl
  split
  · exact .inl ⟨rfl, .inl ‹_›⟩
  cases hsource : t.shape? source with
  | none => exact .inr rfl
  | some s =>
    cases s with
    | nil =>
      dsimp only
      split
      · exact .inl ⟨rfl, .inr rfl⟩
      · exact .inr rfl
    | _ => exact .inr rfl

/-- What stands where a routine is wanted is never converted: it is of that type, or of the type of
the literal. -/
theorem coerce_routine {e e' : Bound.Expr} (ht : t.shape? target = some (.routine sig))
    (h : Bound.coerce t e target = .ok e') :
    e' = e ∧ (e.type = target ∨ t.shape? e.type = some .nil) := by
  have hzero : target ≠ 0 := by
    rintro rfl
    cases ht
  unfold Bound.coerce at h
  rw [if_neg hzero, Bound.charFor?, if_neg (kind_ne_char ht)] at h
  dsimp only at h
  obtain ⟨hexact, hsource⟩ | hnone := assignable_routine e.type ht
  · rw [hexact] at h
    cases h
    exact ⟨rfl, hsource⟩
  · rw [hnone] at h
    dsimp only at h
    split at h <;> cases h

end Origins

/-- A call of a nil ends the run, and nothing that came before is lost. The fault is that of a nil
reference exactly if the nil is a routine value, as it is in a variable of a procedural type that
starts out. The nil of the literal stays a reference where a routine is wanted, and its call is
answered as an operand of the wrong kind. -/
theorem nil_call_faults {p : Program} {m : Machine} {f : Frame} {rest : List Frame} {i : Instr}
    {v : Value} (h : m.CallsValue p f rest i v) (hnil : v.isNil) :
    m.FaultsAt f rest i (Exec.nilCallCause v) (m.step p) ∧
      ((Exec.nilCallCause v).code = 1002 ↔ v.kind = .routine) ∧
      (v.kind ≠ .routine → v = .nil) ∧
      ∀ t target sig, TypeTable.shape? t target = some (.routine sig) →
        t.slotShape target = .ok .routine ∧
        (∀ m, Exec.zero .routine m = .ok .nilRoutine m) ∧
        ∀ e e', Bound.coerce t e target = .ok e' →
          e' = e ∧ (e.type = target ∨ t.shape? e.type = some .nil) := by
  refine ⟨h.faults hnil, Exec.nilCallCause_code v, fun hkind => ?_, fun t target sig ht =>
    ⟨slotShape_routine ht, fun m => rfl, fun e e' => coerce_routine ht⟩⟩
  cases v with
  | ref k =>
    obtain rfl : k = 0 := by simpa [Value.isNil] using hnil
    rfl
  | routine name k => exact absurd rfl hkind
  | _ => simp [Value.isNil] at hnil

/-- A routine that calls its first variable, which nothing was assigned to. -/
def blankCall : Routine :=
  { name := "p.main", locals := #[.routine]
    blocks := #[#[⟨.callIndirect, 0, 0, 9⟩, ⟨.ret, 0, 0, 9⟩]] }

theorem nil_call_faults_blank :
    let p : Program := { units := #[{ unit := { table := some #[blankCall] } }] }
    let f : Frame :=
      { unit := 0, name := "p.main", routine := blankCall, locals := #[.nilRoutine]
        operands := [.nilRoutine] }
    let m : Machine := { heap := .ofBudget 0, frames := [f], maxFrames := 10 }
    m.FaultsAt f [] ⟨.callIndirect, 0, 0, 9⟩ (.nilReference .routine) (m.step p) := by
  intro p f m
  have h : m.CallsValue p f [] ⟨.callIndirect, 0, 0, 9⟩ .nilRoutine :=
    ⟨rfl, rfl, rfl, rfl, rfl, rfl, Int.le_refl _, rfl⟩
  exact (nil_call_faults h rfl).1

/-- The code of the fault that ended the run, and its message. -/
def Ending.faultText? : Ending → Option (Nat × Bytes)
  | .ran ⟨_, some (.fault t)⟩ => some (t.cause.code, t.cause.message)
  | _ => none

/-- A program that calls a procedural variable, with the nil that it starts with. -/
def callsFresh : List (String × Bytes) :=
  [("main.pas", utf8 "program p; type proc = procedure; var q: proc; begin q() end.")]

/-- The same after the literal was assigned. -/
def callsLiteral : List (String × Bytes) :=
  [("main.pas", utf8 "program p; type proc = procedure; var q: proc; begin q := nil; q() end.")]

/-- The two nils are told apart by a call. -/
theorem nil_literal_call_is_a_mismatch :
    ∃ fresh literal, Compilation.ofSources callsFresh = .ok fresh ∧
      Compilation.ofSources callsLiteral = .ok literal ∧
      (Ending.ofUnits fresh.units {} none 40).faultText? =
        some (1002, utf8 "nil routine dereferenced") ∧
      (Ending.ofUnits literal.units {} none 40).faultText? =
        some (1008, utf8 "routine expected, got ref") := by
  let fresh := (Compilation.ofSources callsFresh).toOption.getD {}
  let literal := (Compilation.ofSources callsLiteral).toOption.getD {}
  have hfresh : (Compilation.ofSources callsFresh).toOption.isSome = true ∧
      (Ending.ofUnits fresh.units {} none 40).faultText? =
        some (1002, utf8 "nil routine dereferenced") := by
    decide +kernel
  have hliteral : (Compilation.ofSources callsLiteral).toOption.isSome = true ∧
      (Ending.ofUnits literal.units {} none 40).faultText? =
        some (1008, utf8 "routine expected, got ref") := by
    decide +kernel
  exact ⟨fresh, literal, eq_ok_of_isSome hfresh.1, eq_ok_of_isSome hliteral.1, hfresh.2, hliteral.2⟩

end Pascaline
