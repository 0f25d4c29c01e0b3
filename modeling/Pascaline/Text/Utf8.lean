import Pascaline.Text.Bytes

/-!
# Code points of raw text

Decoding never fails: a byte that starts no well-formed sequence stands for the replacement
character and is one byte wide.
-/

namespace Pascaline

namespace Utf8

/-- What a byte that is not part of a well-formed sequence decodes to. -/
def replacement : Char := Char.ofNat 0xfffd

/-- One decoded character, the bytes it takes, and whether those bytes were well formed. -/
structure Decoded where
  char : Char
  width : Nat
  valid : Bool
deriving Repr, DecidableEq

def Decoded.malformed : Decoded := ⟨replacement, 1, false⟩

private def tail (b : UInt8) : Bool := 0x80 ≤ b && b ≤ 0xbf

private def bits (b : UInt8) : Nat := b.toNat % 64

/-- The second byte of a longer sequence has a narrower range after these lead bytes: overlong
forms, surrogates and numbers above U+10FFFF are not well formed. -/
private def second (lead b : UInt8) : Bool :=
  if lead = 0xe0 then 0xa0 ≤ b && b ≤ 0xbf
  else if lead = 0xed then 0x80 ≤ b && b ≤ 0x9f
  else if lead = 0xf0 then 0x90 ≤ b && b ≤ 0xbf
  else if lead = 0xf4 then 0x80 ≤ b && b ≤ 0x8f
  else tail b

private def two (a : UInt8) : Bytes → Decoded
  | b :: _ => if tail b then ⟨Char.ofNat ((a.toNat - 0xc0) * 64 + bits b), 2, true⟩ else .malformed
  | _ => .malformed

private def three (a : UInt8) : Bytes → Decoded
  | b :: c :: _ =>
    if second a b && tail c then
      ⟨Char.ofNat ((a.toNat - 0xe0) * 4096 + bits b * 64 + bits c), 3, true⟩
    else .malformed
  | _ => .malformed

private def four (a : UInt8) : Bytes → Decoded
  | b :: c :: d :: _ =>
    if second a b && tail c && tail d then
      ⟨Char.ofNat ((a.toNat - 0xf0) * 262144 + bits b * 4096 + bits c * 64 + bits d), 4, true⟩
    else .malformed
  | _ => .malformed

/-- The character at the front of `a :: rest`. -/
def decode (a : UInt8) (rest : Bytes) : Decoded :=
  if a < 0x80 then ⟨Char.ofNat a.toNat, 1, true⟩
  else if a < 0xc2 then .malformed
  else if a < 0xe0 then two a rest
  else if a < 0xf0 then three a rest
  else if a < 0xf5 then four a rest
  else .malformed

theorem decode_width_pos (a : UInt8) (rest : Bytes) : 0 < (decode a rest).width := by
  simp only [decode, two, three, four, Decoded.malformed]
  repeat' split
  all_goals simp

/-- A character takes no more bytes than there are. -/
theorem decode_width_le (a : UInt8) (rest : Bytes) : (decode a rest).width ≤ rest.length + 1 := by
  simp only [decode, two, three, four, Decoded.malformed]
  repeat' split
  all_goals simp

/-- The bytes of a character behind its first are none that stand for a character alone. -/
theorem decode_tail {a b : UInt8} {rest : Bytes} (h : b ∈ rest.take ((decode a rest).width - 1)) :
    0x80 ≤ b := by
  have hsecond : ∀ lead c : UInt8, second lead c → 0x80 ≤ c := by
    intro lead c hc
    simp only [second, tail, UInt8.le_iff_toNat_le] at hc ⊢
    repeat' split at hc
    all_goals simp at hc ⊢; omega
  have htail : ∀ c : UInt8, tail c → 0x80 ≤ c := by
    intro c hc
    simp only [tail, Bool.and_eq_true, decide_eq_true_eq] at hc
    exact hc.1
  simp only [decode, two, three, four, Decoded.malformed] at h
  repeat' split at h
  all_goals simp at h
  all_goals grind

private theorem second_bits {a b : UInt8} (h : second a b) :
    bits b < 64 ∧ (a.toNat = 0xe0 → 32 ≤ bits b) ∧ (a.toNat = 0xed → bits b < 32) ∧
      (a.toNat = 0xf0 → 16 ≤ bits b) ∧ (a.toNat = 0xf4 → bits b < 16) := by
  simp only [second, tail, bits, UInt8.le_iff_toNat_le, ← UInt8.toNat_inj] at h ⊢
  repeat' split at h
  all_goals simp at *; omega

theorem le_decode_char {a : UInt8} {rest : Bytes} (h : 0x80 ≤ a) :
    0x80 ≤ (decode a rest).char.toNat := by
  have hchar : ∀ n : Nat, 0x80 ≤ n → n < 0xd800 ∨ 0xdfff < n ∧ n < 0x110000 →
      0x80 ≤ (Char.ofNat n).toNat := by
    intro n hn hvalid
    rw [Char.ofNat, dif_pos hvalid]
    exact hn
  have hreplacement : 0x80 ≤ replacement.toNat := by decide
  have hbits : ∀ b : UInt8, bits b < 64 := fun b => Nat.mod_lt _ (by omega)
  have h₁ : ¬ a < 0x80 := by simpa using h
  rw [decode, if_neg h₁]
  split
  · exact hreplacement
  case isFalse h₂ =>
  rw [UInt8.lt_iff_toNat_lt] at h₂
  have h₂ : 0xc2 ≤ a.toNat := Nat.not_lt.mp h₂
  split
  case isTrue h₃ =>
    have h₃ : a.toNat < 0xe0 := UInt8.lt_iff_toNat_lt.mp h₃
    unfold two
    split
    case h_1 b _ =>
      have := hbits b
      split
      · exact hchar _ (by omega) (.inl (by omega))
      · exact hreplacement
    · exact hreplacement
  case isFalse h₃ =>
  rw [UInt8.lt_iff_toNat_lt] at h₃
  have h₃ : 0xe0 ≤ a.toNat := Nat.not_lt.mp h₃
  split
  case isTrue h₄ =>
    have h₄ : a.toNat < 0xf0 := UInt8.lt_iff_toNat_lt.mp h₄
    unfold three
    split
    case h_1 b c _ =>
      have := hbits c
      split
      case isTrue hb =>
        obtain ⟨hlt, he0, hed, -⟩ := second_bits (Bool.and_eq_true_iff.mp hb).1
        exact hchar _ (by omega) (by omega)
      · exact hreplacement
    · exact hreplacement
  case isFalse h₄ =>
  rw [UInt8.lt_iff_toNat_lt] at h₄
  have h₄ : 0xf0 ≤ a.toNat := Nat.not_lt.mp h₄
  split
  case isTrue h₅ =>
    have h₅ : a.toNat < 0xf5 := UInt8.lt_iff_toNat_lt.mp h₅
    unfold four
    split
    case h_1 b c d _ =>
      have := hbits c
      have := hbits d
      split
      case isTrue hb =>
        obtain ⟨hlt, -, -, hf0, hf4⟩ :=
          second_bits (Bool.and_eq_true_iff.mp (Bool.and_eq_true_iff.mp hb).1).1
        exact hchar _ (by omega) (by omega)
      · exact hreplacement
    · exact hreplacement
  · exact hreplacement

private theorem decode_one {a : UInt8} {n : Nat} (ha : a.toNat = n) (hn : n < 0x80) (rest : Bytes) :
    decode a rest = ⟨Char.ofNat n, 1, true⟩ := by
  have hlt : a < 0x80 := by simpa [UInt8.lt_iff_toNat_lt, ha]
  simp [decode, hlt, ha]

private theorem decode_two {a b : UInt8} {n : Nat} (ha : a.toNat = n / 64 + 0xc0)
    (hb : b.toNat = n % 64 + 0x80) (h₁ : 0x80 ≤ n) (h₂ : n < 0x800) (rest : Bytes) :
    decode a (b :: rest) = ⟨Char.ofNat n, 2, true⟩ := by
  have hlead : ¬ a < 0x80 ∧ ¬ a < 0xc2 ∧ a < 0xe0 := by
    simp [UInt8.lt_iff_toNat_lt, ha]
    omega
  have htail : tail b = true := by
    simp [tail, UInt8.le_iff_toNat_le, hb]
    omega
  have hn : (a.toNat - 0xc0) * 64 + bits b = n := by
    simp only [bits, ha, hb]
    omega
  simp only [decode, hlead, if_true, if_false, two, htail, hn]

private theorem decode_three {a b c : UInt8} {n : Nat} (ha : a.toNat = n / 4096 + 0xe0)
    (hb : b.toNat = n / 64 % 64 + 0x80) (hc : c.toNat = n % 64 + 0x80) (h₁ : 0x800 ≤ n)
    (h₂ : n < 0x10000) (hn : n < 0xd800 ∨ 0xdfff < n) (rest : Bytes) :
    decode a (b :: c :: rest) = ⟨Char.ofNat n, 3, true⟩ := by
  have hlead : ¬ a < 0x80 ∧ ¬ a < 0xc2 ∧ ¬ a < 0xe0 ∧ a < 0xf0 := by
    simp [UInt8.lt_iff_toNat_lt, ha]
    omega
  have hsecond : second a b = true := by
    simp only [second, tail, UInt8.le_iff_toNat_le, ← UInt8.toNat_inj, ha, hb]
    repeat' split
    all_goals simp at *; omega
  have htail : tail c = true := by
    simp [tail, UInt8.le_iff_toNat_le, hc]
    omega
  have hn : (a.toNat - 0xe0) * 4096 + bits b * 64 + bits c = n := by
    simp only [bits, ha, hb, hc]
    omega
  simp only [decode, hlead, if_true, if_false, three, hsecond, htail, Bool.and_self, hn]

private theorem decode_four {a b c d : UInt8} {n : Nat} (ha : a.toNat = n / 262144 + 0xf0)
    (hb : b.toNat = n / 4096 % 64 + 0x80) (hc : c.toNat = n / 64 % 64 + 0x80)
    (hd : d.toNat = n % 64 + 0x80) (h₁ : 0x10000 ≤ n) (h₂ : n < 0x110000) (rest : Bytes) :
    decode a (b :: c :: d :: rest) = ⟨Char.ofNat n, 4, true⟩ := by
  have hlead : ¬ a < 0x80 ∧ ¬ a < 0xc2 ∧ ¬ a < 0xe0 ∧ ¬ a < 0xf0 ∧ a < 0xf5 := by
    simp [UInt8.lt_iff_toNat_lt, ha]
    omega
  have hsecond : second a b = true := by
    simp only [second, tail, UInt8.le_iff_toNat_le, ← UInt8.toNat_inj, ha, hb]
    repeat' split
    all_goals simp at *
    all_goals omega
  have htail : tail c = true ∧ tail d = true := by
    simp [tail, UInt8.le_iff_toNat_le, hc, hd]
    omega
  have hn : (a.toNat - 0xf0) * 262144 + bits b * 4096 + bits c * 64 + bits d = n := by
    simp only [bits, ha, hb, hc, hd]
    omega
  simp only [decode, hlead, if_true, if_false, four, hsecond, htail, Bool.and_self, hn]

theorem decode_encodeChar (c : Char) (rest : Bytes) :
    ∃ a more, String.utf8EncodeChar c = a :: more ∧
      decode a (more ++ rest) = ⟨c, more.length + 1, true⟩ := by
  have hvalid : c.val.toNat < 0xd800 ∨ 0xdfff < c.val.toNat ∧ c.val.toNat < 0x110000 := c.valid
  have hchar : Char.ofNat c.val.toNat = c := Char.ofNat_toNat c
  unfold String.utf8EncodeChar
  generalize c.val.toNat = n at hvalid hchar ⊢
  subst hchar
  simp only
  split
  · refine ⟨_, _, rfl, ?_⟩
    apply decode_one _ (by omega)
    simp
    omega
  split
  · refine ⟨_, _, rfl, ?_⟩
    apply decode_two _ _ (by omega) (by omega)
    all_goals simp; omega
  split
  · refine ⟨_, _, rfl, ?_⟩
    apply decode_three _ _ _ (by omega) (by omega) (by omega)
    all_goals simp; omega
  · refine ⟨_, _, rfl, ?_⟩
    apply decode_four _ _ _ _ (by omega) (by omega)
    all_goals simp; omega

private theorem val_ofNat {n : Nat} (h : n < 0xd800 ∨ 0xdfff < n ∧ n < 0x110000) :
    (Char.ofNat n).val.toNat = n := by
  rw [Char.ofNat, dif_pos h]
  rfl

private theorem tail_bits {b : UInt8} (h : tail b) : b.toNat = bits b + 0x80 := by
  simp only [tail, bits, Bool.and_eq_true, decide_eq_true_eq, UInt8.le_iff_toNat_le] at h ⊢
  have := h.1
  have := h.2
  simp at *
  omega

private theorem second_tail {a b : UInt8} (h : second a b) : tail b := by
  simp only [second, tail, UInt8.le_iff_toNat_le] at h ⊢
  repeat' split at h
  all_goals simp at *; omega

private theorem ofNat_eq {a : UInt8} {n : Nat} (h : n = a.toNat) : UInt8.ofNat n = a := by
  rw [h, UInt8.ofNat_toNat]

private theorem encode_one {a : UInt8} (ha : a.toNat < 0x80) :
    String.utf8EncodeChar (Char.ofNat a.toNat) = [a] := by
  have hval : (Char.ofNat a.toNat).val.toNat = a.toNat := val_ofNat (.inl (by omega))
  have h₁ : a.toNat ≤ 0x7f := by omega
  simp only [String.utf8EncodeChar, hval, if_pos h₁, UInt8.ofNat_toNat]

private theorem encode_two {a : UInt8} {rest : Bytes} (ha : 0xc2 ≤ a.toNat) (ha' : a.toNat < 0xe0)
    (h : (two a rest).valid = true) :
    String.utf8EncodeChar (two a rest).char = a :: rest.take ((two a rest).width - 1) := by
  unfold two at h ⊢
  split at h
  case h_2 => cases h
  case h_1 b more =>
  split at h
  case isFalse => cases h
  case isTrue hb =>
  rw [if_pos hb]
  have hlt : bits b < 64 := Nat.mod_lt _ (by omega)
  have hb := tail_bits hb
  generalize hn : (a.toNat - 0xc0) * 64 + bits b = n
  have hval : (Char.ofNat n).val.toNat = n := val_ofNat (.inl (by omega))
  have h₁ : ¬ n ≤ 0x7f := by omega
  have h₂ : n ≤ 0x7ff := by omega
  simp only [String.utf8EncodeChar, hval, if_neg h₁, if_pos h₂]
  rw [ofNat_eq (a := a) (by omega), ofNat_eq (a := b) (by omega)]
  rfl

private theorem encode_three {a : UInt8} {rest : Bytes} (ha : 0xe0 ≤ a.toNat)
    (ha' : a.toNat < 0xf0) (h : (three a rest).valid = true) :
    String.utf8EncodeChar (three a rest).char = a :: rest.take ((three a rest).width - 1) := by
  unfold three at h ⊢
  split at h
  case h_2 => cases h
  case h_1 b c more =>
  split at h
  case isFalse => cases h
  case isTrue hbytes =>
  rw [if_pos hbytes]
  obtain ⟨hsecond, hc⟩ := Bool.and_eq_true_iff.mp hbytes
  obtain ⟨hlt, he0, hed, -⟩ := second_bits hsecond
  have hlt' : bits c < 64 := Nat.mod_lt _ (by omega)
  have hb := tail_bits (second_tail hsecond)
  have hc := tail_bits hc
  generalize hn : (a.toNat - 0xe0) * 4096 + bits b * 64 + bits c = n
  have hval : (Char.ofNat n).val.toNat = n := val_ofNat (by omega)
  have h₁ : ¬ n ≤ 0x7f := by omega
  have h₂ : ¬ n ≤ 0x7ff := by omega
  have h₃ : n ≤ 0xffff := by omega
  simp only [String.utf8EncodeChar, hval, if_neg h₁, if_neg h₂, if_pos h₃]
  rw [ofNat_eq (a := a) (by omega), ofNat_eq (a := b) (by omega), ofNat_eq (a := c) (by omega)]
  rfl

private theorem encode_four {a : UInt8} {rest : Bytes} (ha : 0xf0 ≤ a.toNat)
    (ha' : a.toNat < 0xf5) (h : (four a rest).valid = true) :
    String.utf8EncodeChar (four a rest).char = a :: rest.take ((four a rest).width - 1) := by
  unfold four at h ⊢
  split at h
  case h_2 => cases h
  case h_1 b c d more =>
  split at h
  case isFalse => cases h
  case isTrue hbytes =>
  rw [if_pos hbytes]
  obtain ⟨hbc, hd⟩ := Bool.and_eq_true_iff.mp hbytes
  obtain ⟨hsecond, hc⟩ := Bool.and_eq_true_iff.mp hbc
  obtain ⟨hlt, -, -, hf0, hf4⟩ := second_bits hsecond
  have hlt' : bits c < 64 := Nat.mod_lt _ (by omega)
  have hlt'' : bits d < 64 := Nat.mod_lt _ (by omega)
  have hb := tail_bits (second_tail hsecond)
  have hc := tail_bits hc
  have hd := tail_bits hd
  generalize hn : (a.toNat - 0xf0) * 262144 + bits b * 4096 + bits c * 64 + bits d = n
  have hval : (Char.ofNat n).val.toNat = n := val_ofNat (by omega)
  have h₁ : ¬ n ≤ 0x7f := by omega
  have h₂ : ¬ n ≤ 0x7ff := by omega
  have h₃ : ¬ n ≤ 0xffff := by omega
  simp only [String.utf8EncodeChar, hval, if_neg h₁, if_neg h₂, if_neg h₃]
  rw [ofNat_eq (a := a) (by omega), ofNat_eq (a := b) (by omega), ofNat_eq (a := c) (by omega),
    ofNat_eq (a := d) (by omega)]
  rfl

theorem encodeChar_decode {a : UInt8} {rest : Bytes} (h : (decode a rest).valid = true) :
    String.utf8EncodeChar (decode a rest).char = a :: rest.take ((decode a rest).width - 1) := by
  rw [decode] at h ⊢
  simp only [UInt8.lt_iff_toNat_lt, UInt8.reduceToNat] at h ⊢
  split at h
  case isTrue h₁ =>
    rw [if_pos h₁]
    exact encode_one h₁
  case isFalse h₁ =>
  split at h
  case isTrue => cases h
  case isFalse h₂ =>
  rw [if_neg h₁, if_neg h₂]
  split at h
  case isTrue h₃ =>
    rw [if_pos h₃]
    exact encode_two (by omega) h₃ h
  case isFalse h₃ =>
  rw [if_neg h₃]
  split at h
  case isTrue h₄ =>
    rw [if_pos h₄]
    exact encode_three (by omega) h₄ h
  case isFalse h₄ =>
  rw [if_neg h₄]
  split at h
  case isTrue h₅ =>
    rw [if_pos h₅]
    exact encode_four (by omega) h₅ h
  case isFalse => cases h

/-- All characters of a text, each with its width. -/
def decodeAll : Bytes → List Decoded
  | [] => []
  | a :: rest =>
    let d := decode a rest
    d :: decodeAll (rest.drop (d.width - 1))
termination_by s => s.length
decreasing_by simp only [List.length_drop, List.length_cons]; omega

def chars (s : Bytes) : List Char := (decodeAll s).map (·.char)

/-- The number of characters. -/
def length (s : Bytes) : Nat := (decodeAll s).length

def isValid (s : Bytes) : Bool := (decodeAll s).all (·.valid)

def encode (cs : List Char) : Bytes := cs.flatMap String.utf8EncodeChar

/-- The characters as a text, replacement characters included. -/
def toString (s : Bytes) : String := String.ofList (chars s)

theorem decodeAll_utf8 (cs : List Char) :
    (decodeAll (cs.flatMap String.utf8EncodeChar)).map (·.char) = cs := by
  induction cs with
  | nil => simp [decodeAll]
  | cons c cs ih =>
    obtain ⟨a, more, hbytes, hdecode⟩ := decode_encodeChar c (cs.flatMap String.utf8EncodeChar)
    rw [List.flatMap_cons, hbytes, List.cons_append, decodeAll, hdecode]
    simp [ih]

/-- A text is read back from its bytes. -/
@[simp] theorem toString_utf8 (s : String) : toString (utf8 s) = s := by
  unfold toString chars utf8
  rw [decodeAll_utf8, String.ofList_toList]

/-- The text, when the bytes are valid. -/
def toString? (s : Bytes) : Option String := if isValid s then some (toString s) else none

/-- The UTF-8 form of a code point given by number; numbers that are no code point, and
surrogates, become the replacement character. -/
def encodeNat (n : Nat) : Bytes :=
  if h : n.isValidChar then String.utf8EncodeChar (Char.ofNatAux n h)
  else String.utf8EncodeChar replacement

end Utf8

/-! ## White space -/

/-- Blanks, tabs and line ends of any script. -/
def isWhiteSpace (c : Char) : Bool :=
  let n := c.toNat
  (9 ≤ n && n ≤ 13) || n = 0x20 || n = 0x85 || n = 0xa0 || n = 0x1680 || (0x2000 ≤ n && n ≤ 0x200a) ||
    n = 0x2028 || n = 0x2029 || n = 0x202f || n = 0x205f || n = 0x3000

/-- Drops white space at both ends. -/
def trimText (s : String) : String :=
  String.ofList ((s.toList.dropWhile isWhiteSpace).reverse.dropWhile isWhiteSpace).reverse

/-- The same for raw text. -/
def Bytes.trim (s : Bytes) : Bytes :=
  let ds := Utf8.decodeAll s
  let front := ds.takeWhile (isWhiteSpace ·.char)
  let kept := ((ds.drop front.length).reverse.dropWhile (isWhiteSpace ·.char)).reverse
  let width := fun (ds : List Utf8.Decoded) => ds.foldl (fun n d => n + d.width) 0
  (s.drop (width front)).take (width kept)

end Pascaline
