import Mathlib.Data.Int.ModEq
import Pascaline.Value.Arithmetic

/-!
# Integers of 64 bits

What division, remainder and the shifts mean as operations on whole numbers. Main statement: on
every two integers each of them is right modulo 2 ^ 64, and none fails but a division by zero.
-/

namespace Pascaline.Value

/-! ## Division -/

/-- `q` and `r` are quotient and remainder of a division toward zero, as far as 64 bits hold them. -/
structure Divides (a b q r : Int64) : Prop where
  quotient_eq : q.toInt ≡ a.toInt.tdiv b.toInt [ZMOD 2 ^ 64]
  sum_eq : a.toInt ≡ q.toInt * b.toInt + r.toInt [ZMOD 2 ^ 64]
  remainder_lt : r.toInt.natAbs < b.toInt.natAbs
  remainder_sign : r = 0 ∨ r.toInt.sign = a.toInt.sign

theorem bmod_modEq (n : Int) : n.bmod (2 ^ 64) ≡ n [ZMOD 2 ^ 64] := by
  unfold Int.ModEq
  exact Int.bmod_emod

theorem toInt_ne_zero {b : Int64} (hb : b ≠ 0) : b.toInt ≠ 0 := by
  intro h
  apply hb
  rw [← Int64.toInt_inj, h, Int64.toInt_zero]

theorem quotient_modEq (a b : Int64) : (a / b).toInt ≡ a.toInt.tdiv b.toInt [ZMOD 2 ^ 64] := by
  rw [Int64.toInt_div]
  exact bmod_modEq _

theorem sum_modEq (a b : Int64) :
    a.toInt ≡ (a / b).toInt * b.toInt + (a % b).toInt [ZMOD 2 ^ 64] := by
  have h := ((quotient_modEq a b).mul_right b.toInt).add_right (a.toInt.tmod b.toInt)
  rw [Int.mul_comm (a.toInt.tdiv b.toInt), Int.mul_tdiv_add_tmod] at h
  rw [Int64.toInt_mod]
  exact h.symm

/-- A remainder that is not zero has the sign of the dividend. -/
theorem tmod_sign (a b : Int) : a.tmod b = 0 ∨ (a.tmod b).sign = a.sign := by
  by_cases hdvd : b ∣ a
  · left
    exact Int.tmod_eq_zero_of_dvd hdvd
  · right
    rw [Int.sign_tmod, if_neg hdvd]

theorem divides (a : Int64) {b : Int64} (hb : b ≠ 0) : Divides a b (a / b) (a % b) := by
  constructor
  case quotient_eq => exact quotient_modEq a b
  case sum_eq => exact sum_modEq a b
  case remainder_lt =>
    rw [Int64.toInt_mod, Int.natAbs_tmod]
    apply Nat.mod_lt
    have := toInt_ne_zero hb
    omega
  case remainder_sign =>
    rw [← Int64.toInt_inj, Int64.toInt_mod, Int64.toInt_zero]
    exact tmod_sign _ _

/-- An operator on integers that checks for zero fails with a division by zero on nothing else. -/
theorem eq_divisionByZero_iff (op : String) (f : Int64 → Int64 → Value) (x y : Value) :
    (match x, y with
      | int m, int n => if n = 0 then .error .divisionByZero else .ok (f m n)
      | _, _ => .error (.binaryOperands op x.kind y.kind) : Outcome) = .error .divisionByZero ↔
    (∃ a, x = .int a) ∧ y = .int 0 := by
  split
  · rename_i a b
    by_cases hb : b = 0 <;> simp [hb]
  · rename_i hint
    simp only [Except.error.injEq, reduceCtorEq, false_iff]
    rintro ⟨⟨a, rfl⟩, rfl⟩
    exact hint a 0 rfl rfl

theorem div_eq_divisionByZero_iff (x y : Value) :
    x.div y = .error .divisionByZero ↔ (∃ a, x = .int a) ∧ y = .int 0 := by
  unfold div
  exact eq_divisionByZero_iff "div" (fun m n => int (m / n)) x y

theorem mod_eq_divisionByZero_iff (x y : Value) :
    x.mod y = .error .divisionByZero ↔ (∃ a, x = .int a) ∧ y = .int 0 := by
  unfold mod
  exact eq_divisionByZero_iff "mod" (fun m n => int (m % n)) x y

/-! ## Shifts -/

/-- The places by which a count shifts; a negative count shifts by none. -/
def places (n : Int64) : Nat := (max n.toInt 0).toNat

section Count

variable {n : Int64}

theorem places_of_le (h : n ≤ 0) : places n = 0 := by
  rw [Int64.le_iff_toInt_le, Int64.toInt_zero] at h
  unfold places
  omega

theorem places_of_pos (h : ¬n ≤ 0) : (places n : Int) = n.toInt := by
  rw [Int64.le_iff_toInt_le, Int64.toInt_zero] at h
  unfold places
  omega

theorem le_places (h : 64 ≤ n) : 64 ≤ places n := by
  have h64 : (64 : Int64).toInt = 64 := by decide
  rw [Int64.le_iff_toInt_le, h64] at h
  unfold places
  omega

theorem places_lt (hpos : ¬n ≤ 0) (h : ¬64 ≤ n) : places n < 64 := by
  have h64 : (64 : Int64).toInt = 64 := by decide
  rw [Int64.le_iff_toInt_le, h64] at h
  have := places_of_pos hpos
  omega

theorem toNat_count (hpos : ¬n ≤ 0) : n.toBitVec.toNat = places n := by
  have hplaces := places_of_pos hpos
  have hcond := BitVec.toInt_eq_toNat_cond n.toBitVec
  change n.toInt = _ at hcond
  have := n.toBitVec.isLt
  split at hcond <;> omega

theorem smod_count (hpos : ¬n ≤ 0) (h : ¬64 ≤ n) : n.toBitVec.smod 64 = n.toBitVec := by
  have hplaces := places_of_pos hpos
  have hlt := places_lt hpos h
  apply BitVec.eq_of_toInt_eq
  rw [BitVec.toInt_smod]
  change n.toInt.fmod 64 = n.toInt
  rw [← hplaces, Int.fmod_eq_of_lt] <;> omega

end Count

theorem toNat_modEq (a : Int64) : (a.toBitVec.toNat : Int) ≡ a.toInt [ZMOD 2 ^ 64] := by
  have h := bmod_modEq a.toBitVec.toNat
  rw [← BitVec.toInt_eq_toNat_bmod] at h
  exact h.symm

theorem shiftLeft_modEq (a n : Int64) :
    (shiftLeft a n).toInt ≡ a.toInt * 2 ^ places n [ZMOD 2 ^ 64] := by
  unfold shiftLeft
  split
  case isTrue hneg =>
    rw [places_of_le hneg, Int.pow_zero, Int.mul_one]
  case isFalse hpos =>
    split
    case isTrue hlong =>
      have hdvd : (2 : Int) ^ 64 ∣ a.toInt * 2 ^ places n :=
        Dvd.dvd.mul_left (pow_dvd_pow 2 (le_places hlong)) _
      exact ((Int.modEq_zero_iff_dvd).mpr hdvd).symm
    case isFalse hshort =>
      change (a.toBitVec <<< n.toBitVec.smod 64).toInt ≡ _ [ZMOD 2 ^ 64]
      rw [smod_count hpos hshort, BitVec.shiftLeft_eq', toNat_count hpos, BitVec.toInt_shiftLeft]
      refine (bmod_modEq _).trans ?_
      rw [Nat.shiftLeft_eq, Int.natCast_mul, Int.natCast_pow]
      exact (toNat_modEq a).mul_right _

theorem shiftRight_toNat (a n : Int64) :
    (shiftRight a n).toUInt64.toNat = a.toUInt64.toNat / 2 ^ places n := by
  unfold shiftRight
  split
  case isTrue hneg => simp [places_of_le hneg]
  case isFalse hpos =>
    split
    case isTrue hlong =>
      have hlt : a.toUInt64.toNat < 2 ^ places n :=
        Nat.lt_of_lt_of_le a.toUInt64.toNat_lt (Nat.pow_le_pow_right Nat.two_pos (le_places hlong))
      rw [Nat.div_eq_of_lt hlt]
      rfl
    case isFalse hshort =>
      have hcount : n.toUInt64.toNat = places n := toNat_count hpos
      rw [UInt64.toUInt64_toInt64, UInt64.toNat_shiftRight, hcount,
        Nat.mod_eq_of_lt (places_lt hpos hshort), Nat.shiftRight_eq_div_pow]

/-! ## The operators -/

/-- Division, remainder and the shifts are right modulo 2 ^ 64, and only a division by zero fails. -/
theorem integer_operators_wrap (a b : Int64) :
    (b ≠ 0 → ∃ q r, (int a).div (int b) = .ok (int q) ∧ (int a).mod (int b) = .ok (int r) ∧
      Divides a b q r) ∧
    ((int a).div (int b) = .error .divisionByZero ↔ b = 0) ∧
    ((int a).mod (int b) = .error .divisionByZero ↔ b = 0) ∧
    (∃ s, (int a).shl (int b) = .ok (int s) ∧
      s.toInt ≡ a.toInt * 2 ^ (max b.toInt 0).toNat [ZMOD 2 ^ 64]) ∧
    ∃ s, (int a).shr (int b) = .ok (int s) ∧
      s.toUInt64.toNat = a.toUInt64.toNat / 2 ^ (max b.toInt 0).toNat := by
  refine ⟨?_, ?_, ?_, ?_, ?_⟩
  · intro hb
    exact ⟨a / b, a % b, by simp [div, hb], by simp [mod, hb], divides a hb⟩
  · simp [div_eq_divisionByZero_iff]
  · simp [mod_eq_divisionByZero_iff]
  · exact ⟨shiftLeft a b, rfl, shiftLeft_modEq a b⟩
  · exact ⟨shiftRight a b, rfl, shiftRight_toNat a b⟩

/-- The quotient of the least integer by -1 wraps around to the least integer. -/
theorem integer_operators_wrap_least :
    (-1 : Int64) ≠ 0 ∧
      (int Int64.minValue).div (int (-1)) = .ok (int Int64.minValue) ∧
      (int Int64.minValue).mod (int (-1)) = .ok (int 0) ∧
      Divides Int64.minValue (-1) Int64.minValue 0 := by
  have hne : (-1 : Int64) ≠ 0 := by decide
  have hdiv : (int Int64.minValue).div (int (-1)) = .ok (int Int64.minValue) := by rfl
  have hmod : (int Int64.minValue).mod (int (-1)) = .ok (int 0) := by rfl
  obtain ⟨q, r, hq, hr, hdivides⟩ := (integer_operators_wrap Int64.minValue (-1)).1 hne
  rw [hdiv] at hq
  rw [hmod] at hr
  cases hq
  cases hr
  exact ⟨hne, hdiv, hmod, hdivides⟩

end Pascaline.Value
