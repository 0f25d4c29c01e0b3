import Pascaline.Proofs.Binding.Calls

/-!
# The choice among overloads

Which candidate a call means, and that its arguments can then be converted. A candidate is tested
without converting anything: `accepts` only says how well an expression fits. The conversion is
`coerce`, a function of its own with the same special cases; here the two are shown to agree.
-/

namespace Pascaline.Bound

variable {t : TypeTable} {e : Expr} {target : TypeId}

/-! ## Accepting and converting -/

theorem coerce_of_exact (h : accepts t e target = .exact) : coerce t e target = .ok e := by
  unfold accepts at h
  unfold coerce
  cases hchar : charFor? t e target with
  | some c => simp [hchar] at h
  | none =>
    rw [hchar, Option.isSome_none, if_neg Bool.false_ne_true] at h
    simp [h]

/-- Nothing is accepted at a place without a type, where everything is converted to itself. At
every other place the expressions that can be converted are the ones that are accepted. -/
theorem coerce_eq_ok_iff :
    (∃ e', coerce t e target = .ok e') ↔ target = 0 ∨ accepts t e target ≠ .incompatible := by
  unfold coerce accepts
  by_cases htarget : target = 0
  · simp [htarget]
  cases hchar : charFor? t e target with
  | some c => simp [htarget]
  | none =>
    cases hfit : t.assignable e.type target with
    | exact => simp [htarget]
    | widening =>
      simp only [htarget, if_false]
      split <;> simp
    | incompatible =>
      simp only [htarget, if_false]
      split <;> simp

/-! ## Candidates -/

namespace Candidate

variable {cands : List Candidate} {args : List Expr} {c : Candidate}

/-- The call has as many arguments as the candidate takes, and each fits its parameter as `P` asks.
A built-in routine converts nothing: it takes an argument or does not. -/
def Takes (t : TypeTable) (P : Compat → Prop) (args : List Expr) (c : Candidate) : Prop :=
  match c.target with
  | .native n =>
    n.arity args.length ∧ ∀ a i, (a, i) ∈ args.zipIdx → (n.param i).accepts (t.kind a.type)
  | _ => List.Forall₂ (fun a p => P (accepts t a p)) args c.sig.params

/-- All arguments fit exactly. -/
def Matches (t : TypeTable) (args : List Expr) (c : Candidate) : Prop := c.Takes t (· = .exact) args

/-- All arguments fit. -/
def Applies (t : TypeTable) (args : List Expr) (c : Candidate) : Prop :=
  c.Takes t (· ≠ .incompatible) args

/-- Of the candidates with the property, the first in the order of declaration. -/
def First (P : Candidate → Prop) (cands : List Candidate) (c : Candidate) : Prop :=
  ∃ before after, cands = before ++ c :: after ∧ P c ∧ ∀ d ∈ before, ¬ P d

theorem Takes.mono {P Q : Compat → Prop} (h : c.Takes t P args) (hPQ : ∀ k, P k → Q k) :
    c.Takes t Q args := by
  unfold Takes at h ⊢
  cases htarget : c.target with
  | native n => simpa only [htarget] using h
  | routine _ | method _ =>
    simp only [htarget] at h ⊢
    exact h.imp fun a p => hPQ _

theorem Matches.applies (h : c.Matches t args) : c.Applies t args :=
  h.mono fun k hk => by simp [hk]

/-- The test for a fit of the quality asked is the property, once `P` says what quality that is. -/
theorem fits_iff {P : Compat → Prop} {atLeast : Compat} (hexact : P .exact)
    (hwidening : P .widening ↔ atLeast = .widening) (hincompatible : ¬ P .incompatible) :
    (c.arity args.length && c.fits t atLeast args) = true ↔ c.Takes t P args := by
  rw [Bool.and_eq_true]
  unfold arity fits Takes
  cases c.target with
  | native n => simp
  | routine _ | method _ =>
    rw [List.forall₂_iff_zip, List.all_eq_true, beq_iff_eq, eq_comm]
    refine and_congr_right fun _ => ?_
    rw [Prod.forall]
    refine forall₂_congr fun a p => imp_congr_right fun _ => ?_
    dsimp only
    cases accepts t a p <;> simp [*]

theorem matches_iff : (c.arity args.length && c.fits t .exact args) = true ↔ c.Matches t args :=
  fits_iff rfl (by simp) (by simp)

theorem applies_iff : (c.arity args.length && c.fits t .widening args) = true ↔ c.Applies t args :=
  fits_iff (by simp) (by simp) (by simp)

theorem find?_eq_some_iff {p : Candidate → Bool} {P : Candidate → Prop} (h : ∀ d, p d = true ↔ P d) :
    cands.find? p = some c ↔ First P cands c := by
  rw [List.find?_eq_some_iff_append, First, h]
  constructor
  · rintro ⟨hc, before, after, rfl, hbefore⟩
    exact ⟨before, after, rfl, hc, fun d hd => by simpa [← h] using hbefore d hd⟩
  · rintro ⟨before, after, rfl, hc, hbefore⟩
    exact ⟨hc, before, after, rfl, fun d hd => by simpa [← h] using hbefore d hd⟩

theorem find?_eq_none_iff {p : Candidate → Bool} {P : Candidate → Prop} (h : ∀ d, p d = true ↔ P d) :
    cands.find? p = none ↔ ∀ d ∈ cands, ¬ P d := by
  simp [List.find?_eq_none, h]

/-- The choice is the first candidate that fits exactly. Only when there is none, the first that
fits at all is taken. -/
theorem choose?_eq_some_iff : choose? t cands args = some c ↔
    First (Matches t args) cands c ∨
      (∀ d ∈ cands, ¬ d.Matches t args) ∧ First (Applies t args) cands c := by
  unfold choose?
  dsimp only
  rw [← find?_eq_some_iff fun _ => matches_iff, ← find?_eq_some_iff fun _ => applies_iff,
    ← find?_eq_none_iff fun _ => matches_iff]
  cases cands.find? fun c => c.arity args.length && c.fits t .exact args <;> simp

theorem choose?_isSome_iff : (choose? t cands args).isSome ↔ ∃ c ∈ cands, c.Applies t args := by
  constructor
  · intro h
    obtain ⟨c, hc⟩ := Option.isSome_iff_exists.mp h
    obtain ⟨before, after, rfl, hmatches, -⟩ | ⟨-, before, after, rfl, happlies, -⟩ :=
      choose?_eq_some_iff.mp hc
    · exact ⟨c, by simp, hmatches.applies⟩
    · exact ⟨c, by simp, happlies⟩
  · rintro ⟨c, hmem, happlies⟩
    have hfound : (cands.find? fun c => c.arity args.length && c.fits t .widening args).isSome := by
      rw [List.find?_isSome]
      exact ⟨c, hmem, applies_iff.mpr happlies⟩
    unfold choose?
    dsimp only
    cases cands.find? fun c => c.arity args.length && c.fits t .exact args with
    | some d => rfl
    | none => exact hfound

theorem applies_of_choose? (h : choose? t cands args = some c) : c.Applies t args := by
  obtain ⟨-, -, -, hmatches, -⟩ | ⟨-, -, -, -, happlies, -⟩ := choose?_eq_some_iff.mp h
  · exact hmatches.applies
  · exact happlies

end Candidate

/-! ## The arguments of the choice -/

theorem fitArgs_converts {args : List Expr} {params : List TypeId}
    (h : List.Forall₂ (fun a p => accepts t a p ≠ .incompatible) args params) :
    List.Forall₂ (fun q e => coerce t q.1 q.2 = .ok e) (args.zip params)
      (Bind.fitArgs t args params) := by
  induction h with
  | nil => exact .nil
  | @cons a p args params hap _ ih =>
    obtain ⟨e, he⟩ := coerce_eq_ok_iff.mpr (.inr hap)
    refine .cons ?_ ih
    simp only [he]

/-- A call is resolved exactly if a candidate of the right arity accepts every argument. The choice
is the first candidate that all arguments fit exactly, and without one the first that they fit. The
arguments are then converted, one for one, to the parameters of a routine or method that was
chosen, and no conversion fails: what can be converted is what is accepted. -/
theorem overload_resolved (t : TypeTable) (cands : List Candidate) (args : List Expr) :
    ((Candidate.choose? t cands args).isSome ↔ ∃ c ∈ cands, c.Applies t args) ∧
    (∀ c, Candidate.choose? t cands args = some c ↔
      Candidate.First (Candidate.Matches t args) cands c ∨
        (∀ d ∈ cands, ¬ d.Matches t args) ∧
          Candidate.First (Candidate.Applies t args) cands c) ∧
    (∀ c, Candidate.choose? t cands args = some c → (∀ n, c.target ≠ .native n) →
      List.Forall₂ (fun q e => coerce t q.1 q.2 = .ok e) (args.zip c.sig.params)
          (Bind.fitArgs t args c.sig.params) ∧
        (Bind.fitArgs t args c.sig.params).length = args.length) ∧
    (∀ e target, (∃ e', coerce t e target = .ok e') ↔
      target = 0 ∨ accepts t e target ≠ .incompatible) ∧
    (∀ e target, accepts t e target = .exact → coerce t e target = .ok e) := by
  refine ⟨Candidate.choose?_isSome_iff, fun c => Candidate.choose?_eq_some_iff, ?_,
    fun e target => coerce_eq_ok_iff, fun e target => coerce_of_exact⟩
  intro c hc htarget
  have happlies : List.Forall₂ (fun a p => accepts t a p ≠ .incompatible) args c.sig.params := by
    have h := Candidate.applies_of_choose? hc
    unfold Candidate.Applies Candidate.Takes at h
    split at h
    · exact absurd ‹_› (htarget _)
    · exact h
  have hlength : c.sig.params.length = args.length := happlies.length_eq.symm
  exact ⟨fitArgs_converts happlies, (length_fitArgs hlength).trans hlength⟩

/-- Of an overload for reals and one for integers, the second is taken for an integer, which it fits
exactly. With a string of one character behind it neither fits exactly: the first is taken, and
both arguments are converted. -/
theorem overload_resolved_exact_first :
    let reals : Candidate := ⟨.routine 1, ⟨[TypeTable.real, TypeTable.char], 0⟩⟩
    let ints : Candidate := ⟨.routine 2, ⟨[TypeTable.integer, TypeTable.char], 0⟩⟩
    let one := Expr.const (.int 1) TypeTable.integer {}
    let letter := Expr.const (.string [97]) TypeTable.string {}
    let char := Expr.const (.char 98) TypeTable.char {}
    Candidate.choose? .empty [reals, ints] [one, char] = some ints ∧
      Candidate.choose? .empty [reals, ints] [one, letter] = some reals ∧
      List.Forall₂ (fun q e => coerce .empty q.1 q.2 = .ok e) ([one, letter].zip reals.sig.params)
        (Bind.fitArgs .empty [one, letter] reals.sig.params) ∧
      (Bind.fitArgs .empty [one, letter] reals.sig.params).map (·.type) =
        [TypeTable.real, TypeTable.char] := by
  intro reals ints one letter char
  have hexact : ([reals, ints].find? fun c =>
      c.arity [one, letter].length && c.fits .empty .exact [one, letter]) = none := by
    rw [List.find?_eq_none]
    decide +kernel
  have hchoice : Candidate.choose? .empty [reals, ints] [one, letter] = some reals := by
    unfold Candidate.choose?
    dsimp only
    rw [hexact, Option.orElse_eq_or, Option.none_or, List.find?_cons_of_pos]
    decide +kernel
  exact ⟨rfl, hchoice,
    ((overload_resolved .empty _ _).2.2.1 _ hchoice fun n h => by cases h).1, by decide +kernel⟩

end Pascaline.Bound
