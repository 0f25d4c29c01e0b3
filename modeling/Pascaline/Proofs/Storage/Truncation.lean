import Pascaline.Proofs.Storage.Units

/-!
# Units that were cut short

No document is a proper beginning of another: what a reader makes of the front of some bytes it
makes of them whatever follows. A unit whose bytes end early, be it between two of its members, is
therefore no unit.
-/

namespace Pascaline

namespace Pack

/-- What `f` makes of the front of some bytes, `g` makes of it whatever follows. -/
def Follows {α : Type} (f g : Bytes → Option (α × Bytes)) : Prop :=
  ∀ s a rest more, f s = some (a, rest) → g (s ++ more) = some (a, rest ++ more)

section

variable {α β : Type} {f g : Bytes → Option (α × Bytes)}

theorem Follows.pure (a : α) : Follows (fun s => some (a, s)) fun s => some (a, s) := by
  rintro s b rest more h
  cases h
  rfl

theorem Follows.none : Follows (fun _ => none) g := by
  rintro s a rest more h
  cases h

theorem Follows.bind {h k : α → Bytes → Option (β × Bytes)} (hf : Follows f g)
    (hh : ∀ a, Follows (h a) (k a)) :
    Follows (fun s => (f s).bind fun p => h p.1 p.2) fun s => (g s).bind fun p => k p.1 p.2 := by
  intro s b rest more hs
  obtain ⟨⟨a, mid⟩, ha, hb⟩ := Option.bind_eq_some_iff.mp hs
  exact Option.bind_eq_some_iff.mpr ⟨_, hf s a mid more ha, hh a mid b rest more hb⟩

theorem Follows.map (F : α → β) (hf : Follows f g) :
    Follows (fun s => do let (a, s) ← f s; return (F a, s))
      fun s => do let (a, s) ← g s; return (F a, s) :=
  hf.bind fun a => .pure (F a)

end

/-! ## The parts of a document -/

theorem follows_split? (n : Nat) : Follows (split? n) (split? n) := by
  intro s a rest more h
  unfold split? at h ⊢
  split at h
  case isTrue hn =>
    cases h
    rw [if_pos (by simp; omega), List.take_append_of_le_length hn, List.drop_append_of_le_length hn]
  case isFalse => cases h

theorem follows_readUnsigned (n : Nat) : Follows (readUnsigned n) (readUnsigned n) :=
  (follows_split? n).bind fun b => .pure (unsigned b)

theorem follows_readSized (n : Nat) : Follows (readSized n) (readSized n) :=
  (follows_readUnsigned n).bind follows_split?

theorem follows_readExt (n : Nat) : Follows (readExt n) (readExt n) := by
  intro s p rest more h
  obtain ⟨⟨b, mid⟩, hb, h⟩ := Option.bind_eq_some_iff.mp h
  unfold readExt
  rw [follows_split? (n + 1) s b mid more hb]
  cases b with
  | nil => cases h
  | cons kind data =>
    cases h
    rfl

/-- A head byte decides alone which reader is next, and each of them goes by what it reads. -/
theorem follows_read_cons {fuel more : Nat} (c : UInt8)
    (hlist : ∀ n, Follows (readList fuel n) (readList more n))
    (hmap : ∀ n, Follows (readMap fuel n) (readMap more n)) :
    Follows (fun s => read (fuel + 1) (c :: s)) fun s => read (more + 1) (c :: s) := by
  have hmany := fun n => (hlist n).map list
  have hpairs := fun n => (hmap n).map map
  unfold read
  dsimp only
  split
  · exact .pure _
  split
  · exact hpairs _
  split
  · exact hmany _
  split
  · exact (follows_split? (c.toNat - 0xa0)).map text
  split
  · exact .pure _
  generalize c.toNat = n
  split
  case h_1 | h_2 | h_3 => exact .pure _
  case h_4 | h_5 | h_6 => exact (follows_readSized _).map binary
  case h_7 | h_8 | h_9 => exact (follows_readUnsigned _).bind follows_readExt
  case h_10 => exact (follows_readUnsigned 4).map fun n => real (widen n)
  case h_11 => exact (follows_readUnsigned 8).map fun n => real n.toUInt64
  case h_12 | h_13 | h_14 | h_15 => exact (follows_readUnsigned _).map fun n : Nat => int n
  case h_16 | h_17 | h_18 | h_19 => exact (follows_split? _).map fun b => int (signed b)
  case h_20 | h_21 | h_22 | h_23 | h_24 => exact follows_readExt _
  case h_25 | h_26 | h_27 => exact (follows_readSized _).map text
  case h_28 | h_29 => exact (follows_readUnsigned _).bind hmany
  case h_30 | h_31 => exact (follows_readUnsigned _).bind hpairs
  case h_32 => exact .none

theorem readList_zero (fuel : Nat) : readList fuel 0 = fun s => some ([], s) := by
  funext s
  simp [readList]

theorem readList_succ (fuel n : Nat) : readList (fuel + 1) (n + 1) = fun s =>
    (read fuel s).bind fun x => (readList fuel n x.2).bind fun xs =>
      some (x.1 :: xs.1, xs.2) := by
  funext s
  rw [readList]
  rfl

theorem readMap_zero (fuel : Nat) : readMap fuel 0 = fun s => some ([], s) := by
  funext s
  simp [readMap]

theorem readMap_succ (fuel n : Nat) : readMap (fuel + 1) (n + 1) = fun s =>
    (read fuel s).bind fun k => (read fuel k.2).bind fun v => (readMap fuel n v.2).bind fun ms =>
      some ((k.1, v.1) :: ms.1, ms.2) := by
  funext s
  rw [readMap]
  rfl

/-- More fuel does not change what is read. The induction is on the fuel, which each reader hands
down less one. -/
theorem follows_read {fuel more : Nat} (hfuel : fuel ≤ more) :
    Follows (read fuel) (read more) ∧ (∀ n, Follows (readList fuel n) (readList more n)) ∧
      ∀ n, Follows (readMap fuel n) (readMap more n) := by
  induction fuel generalizing more with
  | zero =>
    refine ⟨fun s a rest tail h => by simp [read] at h, fun n => ?_, fun n => ?_⟩
    · cases n with
      | zero =>
        rw [readList_zero, readList_zero]
        exact .pure []
      | succ n => exact fun s a rest tail h => by simp [readList] at h
    · cases n with
      | zero =>
        rw [readMap_zero, readMap_zero]
        exact .pure []
      | succ n => exact fun s a rest tail h => by simp [readMap] at h
  | succ fuel ih =>
    obtain ⟨more, rfl⟩ : ∃ m, more = m + 1 := ⟨more - 1, by omega⟩
    obtain ⟨hread, hlist, hmap⟩ := ih (Nat.le_of_succ_le_succ hfuel)
    refine ⟨?_, fun n => ?_, fun n => ?_⟩
    · intro s a rest tail h
      cases s with
      | nil => simp [read] at h
      | cons c s => exact follows_read_cons c hlist hmap s a rest tail h
    · cases n with
      | zero =>
        rw [readList_zero, readList_zero]
        exact .pure []
      | succ n =>
        rw [readList_succ, readList_succ]
        exact hread.bind fun x => (hlist n).bind fun xs => .pure (x :: xs)
    · cases n with
      | zero =>
        rw [readMap_zero, readMap_zero]
        exact .pure []
      | succ n =>
        rw [readMap_succ, readMap_succ]
        exact hread.bind fun k => hread.bind fun v => (hmap n).bind fun ms =>
          .pure ((k, v) :: ms)

theorem parse_append {s : Bytes} {p : Pack} {rest : Bytes} (h : parse s = some (p, rest))
    (more : Bytes) : parse (s ++ more) = some (p, rest ++ more) := by
  apply (follows_read ?_).1 s p rest more h
  simp

/-- What was written is read to its last byte, so that less of it is no document. -/
theorem parse_proper_beginning {p : Pack} (h : p.Fits) {s : Bytes} (hs : s <+: p.write)
    (hne : s ≠ p.write) : parse s = none := by
  obtain ⟨more, hmore⟩ := hs
  have hwhole : parse (s ++ more) = some (p, []) := by
    rw [hmore]
    simpa using parse_write h []
  cases hparse : parse s with
  | none => rfl
  | some found =>
    obtain ⟨q, rest⟩ := found
    have hsame : some (q, rest ++ more) = some (p, []) :=
      (parse_append hparse more).symm.trans hwhole
    have hnil : more = [] := by
      simp only [Option.some.injEq, Prod.mk.injEq, List.append_eq_nil_iff] at hsame
      exact hsame.2.2
    rw [hnil, List.append_nil] at hmore
    contradiction

end Pack

/-! ## Units -/

/-- Bytes of a unit that end early are refused as unreadable, wherever they end, provided that the
format has a form for every number and length of the unit. -/
theorem truncated_units_are_rejected {u : CompiledUnit} (hfits : (Storage.packUnit u).Fits)
    {s : Bytes} (hs : s <+: u.encode) (hne : s ≠ u.encode) :
    ∃ why, CompiledUnit.decode s = .error (.unreadable why) ∧
      (UnitError.unreadable why).message = UnitError.corrupt ++ ": " ++ why.message := by
  have hnone : Pack.parse s = none := Pack.parse_proper_beginning hfits hs hne
  refine ⟨CompiledUnit.blame s, ?_, rfl⟩
  unfold CompiledUnit.decode
  rw [hnone]
  rfl

/-- Seventeen bytes of a unit end behind its name. -/
theorem truncated_units_are_rejected_member :
    ∃ why, CompiledUnit.decode (negativeZero.encode.take 17) = .error (.unreadable why) ∧
      (UnitError.unreadable why).message = UnitError.corrupt ++ ": " ++ why.message := by
  apply truncated_units_are_rejected
  · apply Storage.fits_packUnit negativeZero_storable
    · decide
    · decide
  · exact List.take_prefix 17 _
  · intro h
    have hlength : (negativeZero.encode.take 17).length = negativeZero.encode.length := by rw [h]
    revert hlength
    decide +kernel

end Pascaline
