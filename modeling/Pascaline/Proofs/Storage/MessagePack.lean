import Mathlib.Algebra.Ring.Int.Defs
import Mathlib.Algebra.Ring.Nat
import Mathlib.Data.List.Basic
import Mathlib.Tactic.Common
import Pascaline.Text.MessagePack

/-!
# Documents read back as written

Every head byte leads the reader to the form that the writer chose, so that a document whose
numbers and lengths fit the format is read back from the front of any bytes it starts.
-/

namespace Pascaline.Pack

/-! ## Numbers of a fixed width -/

@[simp] theorem length_bigEndian (count n : Nat) : (Sha256.bigEndian count n).length = count := by
  induction count generalizing n with
  | zero => rfl
  | succ count ih => simp [Sha256.bigEndian, ih]

@[simp] theorem length_bytesOf (count : Nat) (n : Int) : (bytesOf count n).length = count := by
  simp [bytesOf]

theorem unsigned_bigEndian {count n : Nat} (h : n < 256 ^ count) :
    unsigned (Sha256.bigEndian count n) = n := by
  induction count generalizing n with
  | zero =>
    rw [Nat.pow_zero, Nat.lt_one_iff] at h
    rw [h]
    rfl
  | succ count ih =>
    have hdiv : n / 256 < 256 ^ count := by
      apply Nat.div_lt_of_lt_mul
      rwa [← Nat.pow_succ']
    have hlow : n.toUInt8.toNat = n % 256 := by simp
    have hlast : ∀ (s : Bytes) (b : UInt8), unsigned (s ++ [b]) = 256 * unsigned s + b.toNat := by
      simp [unsigned]
    rw [Sha256.bigEndian, hlast, ih hdiv, hlow, Nat.div_add_mod]

theorem unsigned_bytesOf {count n : Nat} (h : n < 256 ^ count) :
    unsigned (bytesOf count n) = n := by
  unfold bytesOf
  have hpow : (Nat.pow 256 count : Int) = ((256 ^ count : Nat) : Int) := rfl
  have hmod : ((n : Int) % (Nat.pow 256 count : Int)).toNat = n := by
    rw [hpow, ← Int.natCast_emod, Int.toNat_natCast, Nat.mod_eq_of_lt h]
  rw [hmod, unsigned_bigEndian h]

theorem signed_bytesOf (count : Nat) {n : Int} (hneg : n < 0)
    (h : -((256 ^ count : Nat) : Int) ≤ 2 * n) : signed (bytesOf count n) = n := by
  have hpow : (Nat.pow 256 count : Int) = ((256 ^ count : Nat) : Int) := rfl
  have hmod : n % (Nat.pow 256 count : Int) = n + ((256 ^ count : Nat) : Int) := by
    rw [hpow, ← Int.add_emod_right]
    apply Int.emod_eq_of_lt <;> omega
  have hbytes : unsigned (bytesOf count n) = (n + ((256 ^ count : Nat) : Int)).toNat := by
    unfold bytesOf
    rw [hmod]
    apply unsigned_bigEndian
    omega
  have hlen : Nat.pow 256 (bytesOf count n).length = 256 ^ count := by
    rw [length_bytesOf]
    rfl
  simp only [signed, hbytes, hlen]
  split <;> omega

theorem split?_append (s rest : Bytes) : split? s.length (s ++ rest) = some (s, rest) := by
  simp [split?]

theorem split?_bytesOf (count : Nat) (n : Int) (rest : Bytes) :
    split? count (bytesOf count n ++ rest) = some (bytesOf count n, rest) := by
  have := split?_append (bytesOf count n) rest
  rwa [length_bytesOf] at this

theorem readUnsigned_bytesOf (count : Nat) {n : Nat} (h : n < 256 ^ count) (rest : Bytes) :
    readUnsigned count (bytesOf count n ++ rest) = some (n, rest) := by
  simp [readUnsigned, split?_bytesOf, unsigned_bytesOf h]

theorem readSized_bytesOf (count : Nat) {s : Bytes} (h : s.length < 256 ^ count) (rest : Bytes) :
    readSized count (bytesOf count s.length ++ (s ++ rest)) = some (s, rest) := by
  simp [readSized, readUnsigned_bytesOf count h, split?_append]

theorem readExt_append (kind : UInt8) (s rest : Bytes) :
    readExt s.length (kind :: (s ++ rest)) = some (ext kind s, rest) := by
  have := split?_append (kind :: s) rest
  rw [List.length_cons, List.cons_append] at this
  simp [readExt, this]

/-! ## Numbers -/

section Numbers

attribute [local simp] read

theorem bytesOf_one {n : Nat} (h : n < 256) : bytesOf 1 n = [n.toUInt8] := by
  have hmod : ((n : Int) % 256).toNat = n := by omega
  simp [bytesOf, hmod, Sha256.bigEndian]

theorem read_small {n : Nat} (h : n ≤ 127) (fuel : Nat) (rest : Bytes) :
    read (fuel + 1) (bytesOf 1 n ++ rest) = some (int n, rest) := by
  have hbyte : n.toUInt8.toNat = n := by
    simp
    omega
  have hlt : n.toUInt8 < 0x80 := by
    rw [UInt8.lt_iff_toNat_lt, hbyte]
    exact Nat.lt_of_le_of_lt h (by decide)
  rw [bytesOf_one (by omega)]
  simp [hlt, hbyte]

theorem read_smallNegative {n : Int} (h₁ : -32 ≤ n) (h₂ : n < 0) (fuel : Nat) (rest : Bytes) :
    read (fuel + 1) (bytesOf 1 n ++ rest) = some (int n, rest) := by
  obtain ⟨m, hm⟩ : ∃ m : Nat, n + 256 = m := ⟨(n + 256).toNat, by omega⟩
  have hbyte : m.toUInt8.toNat = m := by
    simp
    omega
  have hbytes : bytesOf 1 n = [m.toUInt8] := by
    have hmod : (n % 256).toNat = m := by omega
    simp [bytesOf, hmod, Sha256.bigEndian]
  have hge : 0xe0 ≤ m.toUInt8 := by
    rw [UInt8.le_iff_toNat_le, hbyte]
    change 224 ≤ m
    omega
  have hnot : ∀ b : UInt8, b.toNat ≤ 224 → ¬ m.toUInt8 < b := by
    intro b hb
    rw [UInt8.lt_iff_toNat_lt, hbyte]
    omega
  rw [hbytes]
  simp [hnot, hge, hbyte]
  omega

theorem read_writeInt {n : Int} (h₁ : -2 ^ 63 ≤ n) (h₂ : n < 2 ^ 64) (fuel : Nat) (rest : Bytes) :
    read (fuel + 1) (writeInt n ++ rest) = some (int n, rest) := by
  unfold writeInt
  by_cases hpos : 0 ≤ n
  · obtain ⟨m, rfl⟩ := Int.eq_ofNat_of_zero_le hpos
    rw [if_pos hpos]
    split
    · exact read_small (by omega) fuel rest
    split
    · simp [readUnsigned_bytesOf 1 (show m < 256 ^ 1 by omega)]
    split
    · simp [readUnsigned_bytesOf 2 (show m < 256 ^ 2 by omega)]
    split
    · simp [readUnsigned_bytesOf 4 (show m < 256 ^ 4 by omega)]
    · simp [readUnsigned_bytesOf 8 (show m < 256 ^ 8 by omega)]
  · rw [if_neg hpos]
    split
    · exact read_smallNegative (by omega) (by omega) fuel rest
    split
    · simp [split?_bytesOf, signed_bytesOf 1 (show n < 0 by omega) (by omega)]
    split
    · simp [split?_bytesOf, signed_bytesOf 2 (show n < 0 by omega) (by omega)]
    split
    · simp [split?_bytesOf, signed_bytesOf 4 (show n < 0 by omega) (by omega)]
    · simp [split?_bytesOf, signed_bytesOf 8 (show n < 0 by omega) (by omega)]

end Numbers

/-! ## Heads of texts, lists and maps -/

theorem read_fixed {c : UInt8} {n : Nat} (fuel : Nat) (s : Bytes) :
    (c.toNat = 0x80 + n → n < 16 → read (fuel + 1) (c :: s) =
      (readMap fuel n s).map fun p => (map p.1, p.2)) ∧
    (c.toNat = 0x90 + n → n < 16 → read (fuel + 1) (c :: s) =
      (readList fuel n s).map fun p => (list p.1, p.2)) ∧
    (c.toNat = 0xa0 + n → n < 32 → read (fuel + 1) (c :: s) =
      (split? n s).map fun p => (text p.1, p.2)) := by
  have hlt : ∀ b : UInt8, c < b ↔ c.toNat < b.toNat := fun b => UInt8.lt_iff_toNat_lt
  refine ⟨?_, ?_, ?_⟩ <;> intro hc hn
  · have h₁ : ¬ c < 0x80 := by simp [hlt, hc]
    have h₂ : c < 0x90 := by simp [hlt, hc]; omega
    cases hentries : readMap fuel n s <;> simp [read, h₁, h₂, hc, hentries]
  · have h₁ : ¬ c < 0x80 := by simp [hlt, hc]; omega
    have h₂ : ¬ c < 0x90 := by simp [hlt, hc]
    have h₃ : c < 0xa0 := by simp [hlt, hc]; omega
    cases helems : readList fuel n s <;> simp [read, h₁, h₂, h₃, hc, helems]
  · have h₁ : ¬ c < 0x80 := by simp [hlt, hc]; omega
    have h₂ : ¬ c < 0x90 := by simp [hlt, hc]; omega
    have h₃ : ¬ c < 0xa0 := by simp [hlt, hc]
    have h₄ : c < 0xc0 := by simp [hlt, hc]; omega
    cases hsplit : split? n s <;> simp [read, h₁, h₂, h₃, h₄, hc, hsplit]

theorem read_text {s : Bytes} (h : s.length < 2 ^ 32) (fuel : Nat) (rest : Bytes) :
    read (fuel + 1) (writeTextHead s.length ++ (s ++ rest)) = some (text s, rest) := by
  unfold writeTextHead
  split
  · have hbyte : (0xa0 + s.length.toUInt8).toNat = 0xa0 + s.length := by
      simp
      omega
    rw [List.singleton_append, (read_fixed fuel _).2.2 hbyte (by omega), split?_append]
    rfl
  split
  · simp [read, readSized_bytesOf 1 (show s.length < 256 ^ 1 by omega)]
  split
  · simp [read, readSized_bytesOf 2 (show s.length < 256 ^ 2 by omega)]
  · simp [read, readSized_bytesOf 4 (show s.length < 256 ^ 4 by omega)]

theorem read_binary {s : Bytes} (h : s.length < 2 ^ 32) (fuel : Nat) (rest : Bytes) :
    read (fuel + 1) (writeBinaryHead s.length ++ (s ++ rest)) = some (binary s, rest) := by
  unfold writeBinaryHead
  split
  · simp [read, readSized_bytesOf 1 (show s.length < 256 ^ 1 by omega)]
  split
  · simp [read, readSized_bytesOf 2 (show s.length < 256 ^ 2 by omega)]
  · simp [read, readSized_bytesOf 4 (show s.length < 256 ^ 4 by omega)]

theorem read_ext {s : Bytes} (h : s.length < 2 ^ 32) (kind : UInt8) (fuel : Nat) (rest : Bytes) :
    read (fuel + 1) (writeExtHead s.length ++ (kind :: s ++ rest)) = some (ext kind s, rest) := by
  unfold writeExtHead
  split
  · simp [read, readUnsigned_bytesOf 1 (show s.length < 256 ^ 1 by omega), readExt_append]
  split
  · simp [read, readUnsigned_bytesOf 2 (show s.length < 256 ^ 2 by omega), readExt_append]
  · simp [read, readUnsigned_bytesOf 4 (show s.length < 256 ^ 4 by omega), readExt_append]

theorem read_list {n : Nat} (h : n < 2 ^ 32) (fuel : Nat) (s : Bytes) :
    read (fuel + 1) (writeCount 0x90 0xdc n ++ s) =
      (readList fuel n s).map fun p => (list p.1, p.2) := by
  unfold writeCount
  split
  · have hbyte : (0x90 + n.toUInt8).toNat = 0x90 + n := by
      simp
      omega
    rw [List.singleton_append, (read_fixed fuel _).2.1 hbyte (by omega)]
  split
  · cases helems : readList fuel n s <;>
      simp [read, readUnsigned_bytesOf 2 (show n < 256 ^ 2 by omega), helems]
  · cases helems : readList fuel n s <;>
      simp [read, readUnsigned_bytesOf 4 (show n < 256 ^ 4 by omega), helems]

theorem read_map {n : Nat} (h : n < 2 ^ 32) (fuel : Nat) (s : Bytes) :
    read (fuel + 1) (writeCount 0x80 0xde n ++ s) =
      (readMap fuel n s).map fun p => (map p.1, p.2) := by
  unfold writeCount
  split
  · have hbyte : (0x80 + n.toUInt8).toNat = 0x80 + n := by
      simp
      omega
    rw [List.singleton_append, (read_fixed fuel _).1 hbyte (by omega)]
  split
  · cases hentries : readMap fuel n s <;>
      simp [read, readUnsigned_bytesOf 2 (show n < 256 ^ 2 by omega), hentries]
  · cases hentries : readMap fuel n s <;>
      simp [read, readUnsigned_bytesOf 4 (show n < 256 ^ 4 by omega), hentries]

/-! ## Documents -/

mutual

/-- Every number and every length has a form. -/
def Fits : Pack → Prop
  | nil | bool _ | real _ => True
  | int n => -2 ^ 63 ≤ n ∧ n < 2 ^ 64
  | text s | binary s | ext _ s => s.length < 2 ^ 32
  | list xs => xs.length < 2 ^ 32 ∧ FitList xs
  | map ms => ms.length < 2 ^ 32 ∧ FitMap ms

def FitList : List Pack → Prop
  | [] => True
  | x :: xs => x.Fits ∧ FitList xs

def FitMap : List (Pack × Pack) → Prop
  | [] => True
  | (k, v) :: ms => k.Fits ∧ v.Fits ∧ FitMap ms

end

theorem fitList_iff {xs : List Pack} : FitList xs ↔ ∀ x ∈ xs, x.Fits := by
  induction xs with
  | nil => simp [FitList]
  | cons x xs ih => simp [FitList, ih]

theorem fitMap_iff {ms : List (Pack × Pack)} : FitMap ms ↔ ∀ m ∈ ms, m.1.Fits ∧ m.2.Fits := by
  induction ms with
  | nil => simp [FitMap]
  | cons m ms ih => simp [FitMap, ih, and_assoc]

theorem length_writeCount_pos (small wide : UInt8) (n : Nat) :
    0 < (writeCount small wide n).length := by
  unfold writeCount
  split <;> [skip; split] <;> simp

theorem length_write_pos (p : Pack) : 0 < p.write.length := by
  cases p with
  | int n =>
    unfold write writeInt
    repeat' split
    all_goals simp
  | text s =>
    unfold write writeTextHead
    repeat' split
    all_goals simp
  | binary s =>
    unfold write writeBinaryHead
    repeat' split
    all_goals simp
  | list xs =>
    have := length_writeCount_pos 0x90 0xdc xs.length
    simp [write]
    omega
  | map ms =>
    have := length_writeCount_pos 0x80 0xde ms.length
    simp [write]
    omega
  | ext kind s =>
    simp only [write, List.length_append, List.length_cons]
    omega
  | _ => simp [write]

mutual

/-- A document is read back from the front of what follows it, given fuel for each of its bytes. -/
theorem read_write (p : Pack) (h : p.Fits) (fuel : Nat) (hfuel : 2 * p.write.length ≤ fuel + 1)
    (rest : Bytes) : read fuel (p.write ++ rest) = some (p, rest) := by
  obtain ⟨fuel, rfl⟩ : ∃ f, fuel = f + 1 := by
    have := length_write_pos p
    exact ⟨fuel - 1, by omega⟩
  cases p with
  | nil => simp [write, read]
  | bool b => cases b <;> simp [write, read]
  | int n => exact read_writeInt h.1 h.2 fuel rest
  | real bits =>
    have hbits : bits.toNat < 256 ^ 8 := bits.toNat_lt
    simp [write, read, readUnsigned_bytesOf 8 hbits]
  | text s =>
    rw [write, List.append_assoc]
    exact read_text h fuel rest
  | binary s =>
    rw [write, List.append_assoc]
    exact read_binary h fuel rest
  | ext kind s =>
    rw [write, List.append_assoc]
    exact read_ext h kind fuel rest
  | list xs =>
    have hpos := length_writeCount_pos 0x90 0xdc xs.length
    rw [write, List.length_append] at hfuel
    rw [write, List.append_assoc, read_list h.1, readList_write xs h.2 fuel (by omega) rest]
    rfl
  | map ms =>
    have hpos := length_writeCount_pos 0x80 0xde ms.length
    rw [write, List.length_append] at hfuel
    rw [write, List.append_assoc, read_map h.1, readMap_write ms h.2 fuel (by omega) rest]
    rfl

theorem readList_write (xs : List Pack) (h : FitList xs) (fuel : Nat)
    (hfuel : 2 * (writeList xs).length ≤ fuel) (rest : Bytes) :
    readList fuel xs.length (writeList xs ++ rest) = some (xs, rest) := by
  cases xs with
  | nil => simp [writeList, readList]
  | cons x xs =>
    have hpos := length_write_pos x
    rw [writeList, List.length_append] at hfuel
    obtain ⟨fuel, rfl⟩ : ∃ f, fuel = f + 1 := ⟨fuel - 1, by omega⟩
    have hx := read_write x h.1 fuel (by omega) (writeList xs ++ rest)
    have hxs := readList_write xs h.2 fuel (by omega) rest
    simp [writeList, readList, hx, hxs]

theorem readMap_write (ms : List (Pack × Pack)) (h : FitMap ms) (fuel : Nat)
    (hfuel : 2 * (writeMap ms).length ≤ fuel) (rest : Bytes) :
    readMap fuel ms.length (writeMap ms ++ rest) = some (ms, rest) := by
  cases ms with
  | nil => simp [writeMap, readMap]
  | cons m ms =>
    obtain ⟨k, v⟩ := m
    have hk := length_write_pos k
    have hv := length_write_pos v
    rw [writeMap, List.length_append, List.length_append] at hfuel
    obtain ⟨fuel, rfl⟩ : ∃ f, fuel = f + 1 := ⟨fuel - 1, by omega⟩
    have hkey := read_write k h.1 fuel (by omega) (v.write ++ (writeMap ms ++ rest))
    have hvalue := read_write v h.2.1 fuel (by omega) (writeMap ms ++ rest)
    have hms := readMap_write ms h.2.2 fuel (by omega) rest
    simp [writeMap, readMap, hkey, hvalue, hms]

end

theorem parse_write {p : Pack} (h : p.Fits) (rest : Bytes) :
    parse (p.write ++ rest) = some (p, rest) := by
  apply read_write p h
  simp
  omega

end Pascaline.Pack
