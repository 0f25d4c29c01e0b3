import Pascaline.Proofs.Lowering.Validity
import Pascaline.Proofs.Machine.Refiling
import Pascaline.Proofs.Storage.Units

/-!
# Stored units run as fresh ones

A compiled unit that is stored and read back has lost the number of its source and the signs of its
zeros. The number shows in the places of a fault or a trace only, and is put back when a session
takes the unit up; the sign of a zero that the code uses does show.
-/

namespace Pascaline

/-! ## Running units -/

/-- How running units ends: they do not fit together, their variables have no room, or they run. -/
inductive Ending where
  | unlinked (e : LinkError)
  | unstarted (e : Stop)
  | ran (o : Machine.Outcome)

namespace Ending

/-- Links units and takes at most so many steps. With `stopAfter` the run is asked to end once so
many steps are done. -/
def ofUnits (units : List CompiledUnit) (o : RunOptions) (stopAfter : Option Nat) (fuel : Nat) :
    Ending :=
  match Program.link units with
  | .error e => .unlinked e
  | .ok p =>
    match Machine.start p o with
    | .error e => .unstarted e
    | .ok m =>
      match stopAfter with
      | none => .ran (m.run p fuel)
      | some steps => .ran (m.runUntil p steps fuel)

/-- The bytes written. -/
def written : Ending → Bytes
  | .ran o => o.machine.written
  | _ => []

end Ending

namespace Refiling

variable (φ : Refiling)

def ending : Ending → Ending
  | .unlinked e => .unlinked e
  | .unstarted e => .unstarted (φ.stop e)
  | .ran o => .ran (φ.outcome o)

theorem ofUnits_units (units : List CompiledUnit) (o : RunOptions) (stopAfter : Option Nat)
    (fuel : Nat) :
    Ending.ofUnits (units.map φ.unit) o stopAfter fuel =
      φ.ending (Ending.ofUnits units o stopAfter fuel) := by
  unfold Ending.ofUnits
  rw [link_units]
  cases Program.link units with
  | error e => rfl
  | ok p =>
    simp only [Except.map, start_program]
    cases Machine.start p o with
    | error e => rfl
    | ok m =>
      cases stopAfter with
      | none => exact congrArg Ending.ran (φ.run_program p fuel m)
      | some steps => exact congrArg Ending.ran (φ.runUntil_program p steps fuel m)

/-- Every source keeps its number. -/
def same : Refiling := ⟨id, rfl⟩

/-- No source has a number. -/
def none : Refiling := ⟨fun _ => 0, rfl⟩

theorem machine_same (m : Machine) : same.machine m = m := by
  have hframe : same.frame = id := rfl
  have hevent : same.event = id := by
    funext e
    cases e <;> rfl
  simp [machine, hframe, hevent]

theorem stop_same (e : Stop) : same.stop e = e := by
  cases e with
  | fault f => simp [stop, fault, same, span]
  | breakdown => rfl

theorem ending_same (e : Ending) : same.ending e = e := by
  cases e with
  | unlinked e => rfl
  | unstarted e => exact congrArg Ending.unstarted (stop_same e)
  | ran o =>
    have hstop : same.stop = id := funext stop_same
    simp [ending, outcome, machine_same, hstop]

end Refiling

/-! ## Reading back -/

instance (v : Value) (x : Float) : Decidable (v = .real x) :=
  match v with
  | .real y => decidable_of_iff (y = x) (by simp)
  | .invalid | .bool _ | .int _ | .char _ | .string _ | .ref _ | .routine _ _ => .isFalse nofun

theorem Value.restored_eq_self {v : Value} (h : v ≠ .real (-0.0)) : v.restored = v := by
  cases v with
  | real x =>
    by_cases hzero : (x == 0.0) = true
    · rcases (Float.beq_iff_ne_nan_and_eq.mp hzero).2.2 with rfl | ⟨rfl, _⟩ | ⟨rfl, _⟩
      · rfl
      · rfl
      · exact absurd rfl h
    · simp [restored, hzero]
  | _ => rfl

theorem Pool.restored_eq_self {p : Pool} (h : ∀ v ∈ p.consts, v ≠ .real (-0.0)) :
    p.restored = p := by
  have hconsts : p.consts.map Value.restored = p.consts := by
    apply Array.ext'
    rw [Array.toList_map]
    refine (List.map_congr_left ?_).trans (List.map_id _)
    intro v hv
    exact Value.restored_eq_self (h v (Array.mem_toList_iff.mp hv))
  unfold restored
  rw [hconsts]

namespace CompiledUnit

/-- The unit as it comes back from storage. -/
def reread (u : CompiledUnit) : Except UnitError CompiledUnit := decode u.encode

/-- The unit as it comes back from storage in a session that has its source. -/
def takenUp (u : CompiledUnit) : Except UnitError CompiledUnit :=
  u.reread.map ({ · with file := u.file })

theorem takenUp_of_reread {u v : CompiledUnit} (h : u.reread = .ok v) :
    u.takenUp = .ok { v with file := u.file } := by
  unfold takenUp
  rw [h]
  rfl

/-- To a run, a unit that is read back is the unit without the number of its source. -/
theorem unit_restored {u : CompiledUnit} (h : u.pool.restored = u.pool) :
    Refiling.same.unit u.restored = Refiling.none.unit u := by
  unfold Refiling.unit restored
  rw [h]
  rfl

theorem unit_takenUp {u : CompiledUnit} (h : u.pool.restored = u.pool) :
    Refiling.same.unit { u.restored with file := u.file } = Refiling.same.unit u := by
  unfold Refiling.unit restored
  rw [h]

end CompiledUnit

theorem ofUnits_congr {φ ψ : Refiling} {f g : CompiledUnit → CompiledUnit}
    {units : List CompiledUnit} (h : ∀ u ∈ units, φ.unit (f u) = ψ.unit (g u)) (o : RunOptions)
    (stopAfter : Option Nat) (fuel : Nat) :
    φ.ending (Ending.ofUnits (units.map f) o stopAfter fuel) =
      ψ.ending (Ending.ofUnits (units.map g) o stopAfter fuel) := by
  rw [← φ.ofUnits_units, ← ψ.ofUnits_units, List.map_map, List.map_map]
  congr 1
  exact List.map_congr_left h

/-- Units that compile are read back, and unless their code uses a negative zero they run as they
did: the same, once they have the numbers of their sources, and the same but for those numbers
without. -/
theorem stored_units_run_alike {sources : List (String × Bytes)} {c : Compilation}
    (hc : Compilation.ofSources sources = .ok c) (hstorable : ∀ u ∈ c.units, u.Storable)
    (hzero : ∀ u ∈ c.units, ∀ v ∈ u.pool.consts, v ≠ .real (-0.0)) :
    ∃ stored takenUp, c.units.mapM CompiledUnit.reread = .ok stored ∧
      c.units.mapM CompiledUnit.takenUp = .ok takenUp ∧
      ∀ (o : RunOptions) (stopAfter : Option Nat) (fuel : Nat),
        Ending.ofUnits stored o stopAfter fuel =
          Refiling.none.ending (Ending.ofUnits c.units o stopAfter fuel) ∧
        Ending.ofUnits takenUp o stopAfter fuel = Ending.ofUnits c.units o stopAfter fuel := by
  have hchecked := Compilation.checked_of_ofSources hc
  have hreread : ∀ u ∈ c.units, u.reread = .ok u.restored := fun u hu =>
    CompiledUnit.decode_encode (hchecked u hu) (hstorable u hu)
  have hpool : ∀ u ∈ c.units, u.pool.restored = u.pool := fun u hu =>
    Pool.restored_eq_self (hzero u hu)
  refine ⟨_, _, mapM_ok_of_mem hreread,
    mapM_ok_of_mem fun u hu => CompiledUnit.takenUp_of_reread (hreread u hu), ?_⟩
  intro o stopAfter fuel
  constructor
  · have h := ofUnits_congr (g := id)
      (fun u hu => CompiledUnit.unit_restored (hpool u hu)) o stopAfter fuel
    rwa [Refiling.ending_same, List.map_id] at h
  · have h := ofUnits_congr (g := id)
      (fun u hu => CompiledUnit.unit_takenUp (hpool u hu)) o stopAfter fuel
    rwa [Refiling.ending_same, Refiling.ending_same, List.map_id] at h

theorem Ending.written_ending (φ : Refiling) (e : Ending) : (φ.ending e).written = e.written := by
  cases e <;> rfl

/-- A unit with a variable, and a program that uses it. -/
def sharing : List (String × Bytes) :=
  [("u.pas", utf8 "unit u; interface var n: integer; implementation begin n := 7 end."),
   ("p.pas", utf8 "program p; uses u; begin writeln(n) end.")]

theorem stored_units_run_alike_sharing :
    ∃ c stored, Compilation.ofSources sharing = .ok c ∧
      c.units.mapM CompiledUnit.reread = .ok stored ∧
      (Ending.ofUnits stored {} none 40).written = utf8 "7\n" := by
  let c := (Compilation.ofSources sharing).toOption.getD {}
  -- One conjunction, so that the sources are compiled once.
  have hsession : (Compilation.ofSources sharing).toOption.isSome = true ∧
      (∀ u ∈ c.units, u.Storable) ∧ (∀ u ∈ c.units, ∀ v ∈ u.pool.consts, v ≠ .real (-0.0)) ∧
      (Ending.ofUnits c.units {} none 40).written = utf8 "7\n" := by
    decide +kernel
  obtain ⟨hsome, hstorable, hzero, hwritten⟩ := hsession
  have hc : Compilation.ofSources sharing = .ok c := eq_ok_of_isSome hsome
  obtain ⟨stored, _, hstored, _, hruns⟩ := stored_units_run_alike hc hstorable hzero
  refine ⟨c, stored, hc, hstored, ?_⟩
  rw [(hruns {} none 40).1, Ending.written_ending]
  exact hwritten

/-- A program that writes a negative zero. -/
def signedZero : List (String × Bytes) :=
  [("main.pas", utf8 "program p; begin writeln(-0.0) end.")]

/-- The sign of a zero in the code is lost in storage, and the program shows it. -/
theorem stored_zero_loses_sign :
    ∃ c stored, Compilation.ofSources signedZero = .ok c ∧
      c.units.mapM CompiledUnit.takenUp = .ok stored ∧
      (Ending.ofUnits c.units {} none 20).written = utf8 "-0\n" ∧
      (Ending.ofUnits stored {} none 20).written = utf8 "0\n" := by
  let c := (Compilation.ofSources signedZero).toOption.getD {}
  let stored := (c.units.mapM CompiledUnit.takenUp).toOption.getD []
  have hsession : (Compilation.ofSources signedZero).toOption.isSome = true ∧
      (c.units.mapM CompiledUnit.takenUp).toOption.isSome = true ∧
      (Ending.ofUnits c.units {} none 20).written = utf8 "-0\n" ∧
      (Ending.ofUnits stored {} none 20).written = utf8 "0\n" := by
    decide +kernel
  obtain ⟨hsome, hstored, hfresh, hread⟩ := hsession
  exact ⟨c, stored, eq_ok_of_isSome hsome, eq_ok_of_isSome hstored, hfresh, hread⟩

end Pascaline
