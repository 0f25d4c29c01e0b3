import Pascaline.Proofs.Lowering.Folding
import Pascaline.Proofs.Machine.WordCounts
import Pascaline.Text.Utf8

/-!
# Encoded texts and their parts

A text occurs in another one as bytes exactly where it occurs as characters: the bytes of a
character start with one that stands nowhere else in the bytes of a character, so an occurrence
never starts or ends inside a character.

What `copy`, `pos` and `length` say of a text, they say of its characters. A part is cut out by
clamping both ends to the text, but for one corner: the end is a 64-bit sum, and where that sum
wraps around there is no answer at all. A search finds the first place where the characters stand,
and that part, cut out again, is the text that was searched for.
-/

namespace Pascaline

/-! ## Occurrences -/

/-- `sub` stands in `s` with `k` members before it. -/
def OccursAt {α : Type} (sub s : List α) (k : Nat) : Prop :=
  ∃ before after, s = before ++ sub ++ after ∧ before.length = k

section

variable {α : Type} {sub s : List α} {b : α} {k : Nat}

theorem OccursAt.le (h : OccursAt sub s k) : k + sub.length ≤ s.length := by
  obtain ⟨before, after, rfl, rfl⟩ := h
  simp only [List.length_append]
  omega

theorem OccursAt.take_drop (h : OccursAt sub s k) : (s.drop k).take sub.length = sub := by
  obtain ⟨before, after, rfl, rfl⟩ := h
  rw [List.append_assoc, List.drop_left, List.take_left]

theorem occursAt_zero : OccursAt sub s 0 ↔ sub <+: s := by
  constructor
  · rintro ⟨before, after, rfl, hbefore⟩
    obtain rfl := List.length_eq_zero_iff.mp hbefore
    exact ⟨after, rfl⟩
  · rintro ⟨after, rfl⟩
    exact ⟨[], after, rfl, rfl⟩

theorem occursAt_succ : OccursAt sub (b :: s) (k + 1) ↔ OccursAt sub s k := by
  constructor
  · rintro ⟨before, after, hs, hbefore⟩
    cases before with
    | nil => cases hbefore
    | cons c before =>
      obtain ⟨rfl, rfl⟩ := List.cons.inj hs
      exact ⟨before, after, rfl, Nat.succ.inj hbefore⟩
  · rintro ⟨before, after, rfl, rfl⟩
    exact ⟨b :: before, after, rfl, rfl⟩

theorem not_occursAt_nil (hsub : sub ≠ []) : ¬ OccursAt sub [] k := by
  rintro ⟨before, after, hs, -⟩
  simp [hsub] at hs

end

namespace Bytes

variable {sub s : Bytes} {k : Nat}

theorem find?_eq_some (h : find? sub s = some k) :
    OccursAt sub s k ∧ ∀ j < k, ¬ OccursAt sub s j := by
  induction s generalizing k with
  | nil =>
    obtain ⟨hsub, rfl⟩ : sub.isEmpty = true ∧ 0 = k := by simpa [find?] using h
    rw [List.isEmpty_iff] at hsub
    exact ⟨occursAt_zero.mpr (by simp [hsub]), fun j hj => absurd hj (Nat.not_lt_zero j)⟩
  | cons b s ih =>
    unfold find? at h
    split at h
    case isTrue hstarts =>
      cases h
      refine ⟨occursAt_zero.mpr (List.isPrefixOf_iff_prefix.mp hstarts), ?_⟩
      exact fun j hj => absurd hj (Nat.not_lt_zero j)
    case isFalse hstarts =>
      obtain ⟨n, hn, rfl⟩ := Option.map_eq_some_iff.mp h
      obtain ⟨hfound, hleast⟩ := ih hn
      refine ⟨occursAt_succ.mpr hfound, fun j hj => ?_⟩
      cases j with
      | zero => exact fun hj => hstarts (List.isPrefixOf_iff_prefix.mpr (occursAt_zero.mp hj))
      | succ j => exact fun hoccurs => hleast j (by omega) (occursAt_succ.mp hoccurs)

theorem find?_eq_none (h : find? sub s = none) : ∀ j, ¬ OccursAt sub s j := by
  induction s with
  | nil =>
    have hsub : sub ≠ [] := by simpa [find?] using h
    exact fun j => not_occursAt_nil hsub
  | cons b s ih =>
    unfold find? at h
    split at h
    case isTrue => cases h
    case isFalse hstarts =>
      intro j hj
      cases j with
      | zero => exact hstarts (List.isPrefixOf_iff_prefix.mpr (occursAt_zero.mp hj))
      | succ j => exact ih (Option.map_eq_none_iff.mp h) j (occursAt_succ.mp hj)

end Bytes

namespace Utf8

variable {c : Char} {cs ds : List Char} {s p q : Bytes}

/-! ## Characters and their bytes -/

@[simp] theorem encode_cons : encode (c :: cs) = String.utf8EncodeChar c ++ encode cs :=
  List.flatMap_cons

@[simp] theorem encode_append : encode (cs ++ ds) = encode cs ++ encode ds := List.flatMap_append

theorem encode_chars (h : isValid s = true) : encode (chars s) = s := by
  unfold isValid at h
  unfold chars
  fun_induction decodeAll s with
  | case1 => rfl
  | case2 a rest d ih =>
    obtain ⟨hd, hrest⟩ := Bool.and_eq_true_iff.mp h
    rw [List.map_cons, encode_cons, ih hrest, encodeChar_decode hd, List.cons_append,
      List.take_append_drop]

theorem chars_encode (cs : List Char) : chars (encode cs) = cs := decodeAll_utf8 cs

theorem length_encode (cs : List Char) : length (encode cs) = cs.length := by
  have hlength := congrArg List.length (chars_encode cs)
  rwa [chars, List.length_map] at hlength

theorem isUTF8FirstByte_encode (hds : ds ≠ []) :
    ∃ b more, encode ds = b :: more ∧ b.IsUTF8FirstByte := by
  obtain ⟨d, ds, rfl⟩ := List.exists_cons_of_ne_nil hds
  obtain ⟨b, more, hbytes, -⟩ := decode_encodeChar d []
  refine ⟨b, more ++ encode ds, by rw [encode_cons, hbytes, List.cons_append], ?_⟩
  have hfirst := UInt8.isUTF8FirstByte_getElem_zero_utf8EncodeChar (c := d)
  simpa only [hbytes, List.getElem_cons_zero] using hfirst

theorem encode_isPrefix (h : encode cs = encode ds ++ q) :
    ∃ bs, cs = ds ++ bs ∧ encode bs = q := by
  have hbytes : ds.utf8Encode ++ q.toByteArray = cs.utf8Encode := by
    rw [List.utf8Encode, List.utf8Encode, ← List.toByteArray_append]
    exact congrArg List.toByteArray h.symm
  obtain ⟨bs, rfl⟩ := List.isPrefix_of_utf8Encode_append_eq_utf8Encode _ hbytes
  rw [encode_append] at h
  exact ⟨bs, rfl, List.append_cancel_left h⟩

theorem no_start_inside {b : UInt8} {mid : Bytes} (hb : b.IsUTF8FirstByte)
    (h : String.utf8EncodeChar c = p ++ b :: mid) : p = [] := by
  have hlt : p.length < (String.utf8EncodeChar c).length := by simp [h]
  have hget : (String.utf8EncodeChar c)[p.length] = b := by simp [h]
  rw [← hget, UInt8.isUTF8FirstByte_getElem_utf8EncodeChar] at hb
  exact List.length_eq_zero_iff.mp hb

theorem encode_split (hds : ds ≠ []) (h : encode cs = p ++ (encode ds ++ q)) :
    ∃ as bs, cs = as ++ ds ++ bs ∧ encode as = p ∧ encode bs = q := by
  obtain ⟨b, more, hb, hfirst⟩ := isUTF8FirstByte_encode hds
  induction cs generalizing p with
  | nil =>
    rw [hb] at h
    simp [encode] at h
  | cons c cs ih =>
    by_cases hp : p = []
    · subst hp
      obtain ⟨bs, hcs, hq⟩ := encode_isPrefix h
      exact ⟨[], bs, hcs, rfl, hq⟩
    rw [encode_cons] at h
    -- what stands before the occurrence covers the first character
    obtain ⟨p', rfl, hrest⟩ : ∃ p', p = String.utf8EncodeChar c ++ p' ∧
        encode cs = p' ++ (encode ds ++ q) := by
      obtain hcovers | ⟨mid, hc, hmid⟩ := List.append_eq_append_iff.mp h
      · exact hcovers
      cases mid with
      | nil => exact ⟨[], by simpa using hc.symm, by simpa using hmid.symm⟩
      | cons b' mid =>
        rw [hb] at hmid
        obtain ⟨rfl, -⟩ := List.cons.inj hmid
        exact absurd (no_start_inside hfirst hc) hp
    obtain ⟨as, bs, rfl, rfl, hq⟩ := ih hrest
    exact ⟨c :: as, bs, rfl, encode_cons, hq⟩

theorem occursAt_encode (hds : ds ≠ []) {n : Nat} :
    OccursAt (encode ds) (encode cs) n ↔ ∃ k, OccursAt ds cs k ∧ (encode (cs.take k)).length = n := by
  constructor
  · rintro ⟨before, after, hs, rfl⟩
    rw [List.append_assoc] at hs
    obtain ⟨as, bs, rfl, rfl, rfl⟩ := encode_split hds hs
    exact ⟨as.length, ⟨as, bs, rfl, rfl⟩, by rw [List.append_assoc, List.take_left]⟩
  · rintro ⟨k, ⟨as, bs, rfl, rfl⟩, rfl⟩
    refine ⟨encode as, encode bs, by rw [encode_append, encode_append], ?_⟩
    rw [List.append_assoc, List.take_left]

theorem length_encode_take_lt {j k : Nat} (hj : j < k) (hk : k ≤ cs.length) :
    (encode (cs.take j)).length < (encode (cs.take k)).length := by
  have hsplit : cs.take k = cs.take j ++ (cs.drop j).take (k - j) := by
    rw [← List.take_add, Nat.add_sub_cancel' (Nat.le_of_lt hj)]
  have hne : (cs.drop j).take (k - j) ≠ [] := by
    rw [← List.length_pos_iff, List.length_take, List.length_drop]
    omega
  obtain ⟨b, more, hb, -⟩ := isUTF8FirstByte_encode hne
  rw [hsplit, encode_append, hb, List.length_append, List.length_cons]
  omega

theorem find?_encode_eq_some {n : Nat} (h : Bytes.find? (encode ds) (encode cs) = some n) :
    ∃ k, OccursAt ds cs k ∧ (∀ j < k, ¬ OccursAt ds cs j) ∧
      (encode cs).take n = encode (cs.take k) := by
  obtain ⟨hoccurs, hleast⟩ := Bytes.find?_eq_some h
  by_cases hds : ds = []
  · subst hds
    have hzero : OccursAt (encode []) (encode cs) 0 := occursAt_zero.mpr List.nil_prefix
    obtain rfl : n = 0 := Nat.eq_zero_of_not_pos fun hpos => hleast 0 hpos hzero
    exact ⟨0, occursAt_zero.mpr List.nil_prefix, fun j hj => absurd hj (Nat.not_lt_zero j), rfl⟩
  obtain ⟨k, hk, rfl⟩ := (occursAt_encode hds).mp hoccurs
  refine ⟨k, hk, fun j hj hoccurs => ?_, ?_⟩
  · have hle : k ≤ cs.length := Nat.le_trans (Nat.le_add_right k _) hk.le
    exact hleast _ (length_encode_take_lt hj hle) ((occursAt_encode hds).mpr ⟨j, hoccurs, rfl⟩)
  · have hsplit : encode cs = encode (cs.take k) ++ encode (cs.drop k) := by
      rw [← encode_append, List.take_append_drop]
    rw [hsplit, List.take_left]

theorem find?_encode_eq_none (h : Bytes.find? (encode ds) (encode cs) = none) :
    ∀ j, ¬ OccursAt ds cs j := by
  have hnone := Bytes.find?_eq_none h
  by_cases hds : ds = []
  · subst hds
    exact absurd (occursAt_zero.mpr List.nil_prefix) (hnone 0)
  · exact fun j hj => hnone _ ((occursAt_encode hds).mpr ⟨j, hj, rfl⟩)

end Utf8

namespace Native

/-! ## Cutting out -/

/-- The routine answers with this value wherever it is called, and does nothing else. -/
def Answers (n : Native) (args : List Value) (v : Value) : Prop :=
  ∀ host : NativeHost, n.call host args = .ok ⟨v, [], host.input⟩

/-- The characters of the text from position `start` on, at most `count` of them; a negative number
counts as zero. -/
def copied (v : Value) (start count : Int64) : Value :=
  .string (Utf8.encode (((Utf8.chars v.print).drop start.toInt.toNat).take count.toInt.toNat))

/-- The part starts in the text, but its end is no 64-bit number. -/
def Overruns (v : Value) (start count : Int64) : Prop :=
  start.toInt < (Utf8.chars v.print).length ∧ 2 ^ 63 ≤ start.toInt + count.toInt

instance (v : Value) (start count : Int64) : Decidable (Overruns v start count) :=
  inferInstanceAs (Decidable (_ ∧ _))

variable {cs : List Char} {v : Value} {start count : Int64}

theorem add_lt_self_iff {a b : Int64} (ha : 0 ≤ a) (hb : 0 < b) :
    a + b < a ↔ 2 ^ 63 ≤ a.toInt + b.toInt := by
  rw [Int64.le_iff_toInt_le] at ha
  rw [Int64.lt_iff_toInt_lt] at hb ⊢
  have ha' := a.toInt_lt
  have hb' := b.toInt_lt
  simp only [Int64.toInt_zero] at ha hb
  rw [Int64.toInt_add, Int.bmod]
  split <;> omega

/-- Both ends are clamped to the text, and only the sum of two numbers that are not negative can
leave the range. -/
theorem substring_eq (cs : List Char) (start count : Int64) :
    substring cs start count =
      if start.toInt < cs.length ∧ 2 ^ 63 ≤ start.toInt + count.toInt then .error NativeStop.breakdown
      else .ok ((cs.drop start.toInt.toNat).take count.toInt.toNat) := by
  have hstart_lt := start.toInt_lt
  have hcount_lt := count.toInt_lt
  let from_ : Int64 := if start < 0 then 0 else start
  have hfrom : 0 ≤ from_ ∧ from_.toInt = max start.toInt 0 := by
    simp only [from_, Int64.lt_iff_toInt_lt, Int64.le_iff_toInt_le, Int64.toInt_zero]
    split
    · exact ⟨Int.le_refl 0, by simp only [Int64.toInt_zero]; omega⟩
    · omega
  have hdrop : from_.toInt.toNat = start.toInt.toNat := by omega
  rw [substring]
  change (if (cs.length : Int) ≤ from_.toInt || count ≤ 0 then Except.ok []
    else if from_ + count < from_ then .error NativeStop.breakdown
    else .ok ((cs.drop from_.toInt.toNat).take count.toInt.toNat)) = _
  rw [hdrop]
  split
  case isTrue hout =>
    simp only [Bool.or_eq_true, decide_eq_true_eq, Int64.le_iff_toInt_le, Int64.toInt_zero] at hout
    rw [if_neg (by omega)]
    obtain hstart | hnone := hout
    · rw [List.drop_eq_nil_of_le (by omega), List.take_nil]
    · rw [Int.toNat_of_nonpos hnone, List.take_zero]
  case isFalse hin =>
    simp only [Bool.or_eq_true, decide_eq_true_eq, not_or, Int64.not_le] at hin
    obtain ⟨hstart, hpos⟩ := hin
    refine if_congr ?_ rfl rfl
    rw [add_lt_self_iff hfrom.1 hpos]
    omega

theorem call_copy_eq (v : Value) (start count : Int64) (host : NativeHost) :
    call .copy host [v, .int start, .int count] =
      if Overruns v start count then .error .breakdown
      else .ok ⟨copied v start count, [], host.input⟩ := by
  have hcut : substring (Utf8.chars v.print) start count =
      if Overruns v start count then .error .breakdown
      else .ok (((Utf8.chars v.print).drop start.toInt.toNat).take count.toInt.toNat) :=
    substring_eq _ _ _
  unfold call
  simp only [List.getD_cons_zero, List.getD_cons_succ, Value.number, hcut]
  by_cases h : Overruns v start count
  · rw [if_pos h, if_pos h]
  · rw [if_neg h, if_neg h]
    rfl

end Native

/-- The place of an instruction that calls a built-in routine, with the arguments on the stack. -/
structure Site.CallsNative (w : Site) (s : Spot) (n : Native) (args ops : List Value) : Prop where
  instr : ∃ i pos, w.instrAt s = some ⟨.callNative, (i : Nat), args.length, pos⟩ ∧
    w.linked.natives[i]? = some n
  operands : s.operands = args.reverse ++ ops

namespace Bound

variable {v : Value} {start count : Int64} {ts : Fin 3 → TypeId} {spans : Fin 3 → Span} {span : Span}

/-- A text, a position and a number as constants. -/
def constants (v : Value) (start count : Int64) (ts : Fin 3 → TypeId) (spans : Fin 3 → Span) :
    List Expr :=
  [.const v (ts 0) (spans 0), .const (.int start) (ts 1) (spans 1),
    .const (.int count) (ts 2) (spans 2)]

theorem mapM_constants :
    (constants v start count ts spans).mapM Expr.const? = some [v, .int start, .int count] := rfl

theorem nativeCall_of_ok {s : Session} {r : NativeReturn}
    (h : Native.call .copy {} [v, .int start, .int count] = .ok r) :
    Bind.nativeCall .copy (constants v start count ts spans) span s =
      .ok (some (.const r.value TypeTable.string span), s) := by
  unfold Bind.nativeCall
  simp only [Native.isPure, mapM_constants, h]
  rfl

theorem nativeCall_of_breakdown {s : Session}
    (h : Native.call .copy {} [v, .int start, .int count] = .error .breakdown) :
    Bind.nativeCall .copy (constants v start count ts spans) span s = .error .breakdown := by
  unfold Bind.nativeCall
  simp only [Native.isPure, mapM_constants, h]
  rfl

end Bound

namespace Native

/-- The part is the outcome of the call, of the constant call and of the instruction. -/
structure Cuts (v : Value) (start count : Int64) : Prop where
  call : Answers .copy [v, .int start, .int count] (copied v start count)
  folded : ∀ ts spans span s,
    Bound.Bind.nativeCall .copy (Bound.constants v start count ts spans) span s =
      .ok (some (.const (copied v start count) TypeTable.string span), s)
  step : ∀ (w : Site) (s : Spot) ops, w.CallsNative s .copy [v, .int start, .int count] ops →
    w.Hop s (Site.next s (copied v start count :: ops))

/-- The call, the constant call and the instruction all break down. -/
structure BreaksDown (v : Value) (start count : Int64) : Prop where
  call : ∀ host : NativeHost, call .copy host [v, .int start, .int count] = .error .breakdown
  folded : ∀ ts spans span s,
    Bound.Bind.nativeCall .copy (Bound.constants v start count ts spans) span s = .error .breakdown
  step : ∀ (w : Site) (s : Spot) ops, w.CallsNative s .copy [v, .int start, .int count] ops →
    w.Breaks s

theorem cuts_of_not_overruns (h : ¬Overruns v start count) : Cuts v start count := by
  have hcall : Answers .copy [v, .int start, .int count] (copied v start count) := by
    intro host
    rw [call_copy_eq, if_neg h]
  refine ⟨hcall, fun ts spans span s => Bound.nativeCall_of_ok (hcall {}), ?_⟩
  rintro w s ops ⟨⟨i, pos, hi, hn⟩, hops⟩
  exact Site.hop_callNative hi hn hops rfl rfl nofun (hcall {})

theorem breaksDown_of_overruns (h : Overruns v start count) : BreaksDown v start count := by
  have hcall : ∀ host : NativeHost, Native.call .copy host [v, .int start, .int count] =
      .error .breakdown := by
    intro host
    rw [call_copy_eq, if_pos h]
  refine ⟨hcall, fun ts spans span s => Bound.nativeCall_of_breakdown (hcall {}), ?_⟩
  rintro w s ops ⟨⟨i, pos, hi, hn⟩, hops⟩
  exact Site.breaks_callNative hi hn hops rfl rfl nofun (hcall {})

/-- The part is cut out wherever it is asked for, unless its end overruns; then there is no answer
anywhere. -/
theorem copy_cuts_unless_overrun (v : Value) (start count : Int64) :
    (Cuts v start count ↔ ¬Overruns v start count) ∧
      (BreaksDown v start count ↔ Overruns v start count) := by
  have hexclusive : Cuts v start count → ¬BreaksDown v start count := by
    intro hcuts hbreaks
    have hcall := hcuts.call {}
    rw [hbreaks.call {}] at hcall
    cases hcall
  constructor
  · refine ⟨fun hcuts hover => ?_, cuts_of_not_overruns⟩
    exact hexclusive hcuts (breaksDown_of_overruns hover)
  · refine ⟨fun hbreaks => ?_, breaksDown_of_overruns⟩
    by_contra hover
    exact hexclusive (cuts_of_not_overruns hover) hbreaks

/-- A program that asks for all characters behind the first one, with a constant or a variable for
the position. -/
def tailProgram (constant : Bool) : List (String × Bytes) :=
  [("main.pas", utf8 ("program p; var n: integer; begin n := 1; writeln(copy('abc', " ++
    (if constant then "1" else "n") ++ ", 9223372036854775807)) end."))]

/-- With the greatest number for a count, two of three characters are no answer: the binder breaks
down over the constant call, and the machine over the other one. -/
theorem copy_breaks_down_in_text :
    copied (.string (utf8 "abc")) 1 Int64.maxValue = .string (utf8 "bc") ∧
      call .copy {} [.string (utf8 "abc"), .int 1, .int Int64.maxValue] = .error .breakdown ∧
      Compilation.ofSources (tailProgram true) = .error .breakdown ∧
      ∃ c, Compilation.ofSources (tailProgram false) = .ok c ∧
        (Ending.ofUnits c.units {} none 40).brokeDown := by
  let c := (Compilation.ofSources (tailProgram false)).toOption.getD {}
  have hc : (Compilation.ofSources (tailProgram false)).toOption.isSome = true ∧
      (Ending.ofUnits c.units {} none 40).brokeDown := by
    decide +kernel
  have hconstant : (Compilation.ofSources (tailProgram true)).toOption.isNone = true := by
    decide +kernel
  refine ⟨by cbv, ?_, ?_, c, eq_ok_of_isSome hc.1, hc.2⟩
  · exact (breaksDown_of_overruns (by decide +kernel)).call {}
  · cases hrun : Compilation.ofSources (tailProgram true) with
    | error e => rfl
    | ok c =>
      rw [hrun] at hconstant
      cases hconstant

/-! ## Searching -/

variable {sub s : Bytes}

/-- The text stands in the other one behind so many characters, and nowhere before. -/
def FirstAt (sub s : Bytes) (k : Nat) : Prop :=
  OccursAt (Utf8.chars sub) (Utf8.chars s) k ∧
    ∀ j < k, ¬OccursAt (Utf8.chars sub) (Utf8.chars s) j

theorem answers_pos (sub s : Bytes) :
    Answers .pos [.string sub, .string s]
      (.int (((Bytes.find? sub s).map fun n => Int64.ofNat (Utf8.length (s.take n))).getD (-1))) := by
  intro host
  unfold call
  simp only [List.getD_cons_zero, List.getD_cons_succ, Value.print]
  cases Bytes.find? sub s <;> rfl

theorem answers_pos_of_find? (hs : Utf8.isValid s = true) (hsub : Utf8.isValid sub = true)
    {n : Nat} (hn : Bytes.find? sub s = some n) :
    ∃ k, FirstAt sub s k ∧ Answers .pos [.string sub, .string s] (.int (Int64.ofNat k)) := by
  have hfound : Bytes.find? (Utf8.encode (Utf8.chars sub)) (Utf8.encode (Utf8.chars s)) = some n := by
    rwa [Utf8.encode_chars hs, Utf8.encode_chars hsub]
  obtain ⟨k, hoccurs, hleast, hbefore⟩ := Utf8.find?_encode_eq_some hfound
  refine ⟨k, ⟨hoccurs, hleast⟩, ?_⟩
  have hk : k ≤ (Utf8.chars s).length := Nat.le_trans (Nat.le_add_right k _) hoccurs.le
  have hlength : Utf8.length (s.take n) = k := by
    rw [← Utf8.encode_chars hs, hbefore, Utf8.length_encode, List.length_take, Nat.min_eq_left hk]
  have hpos := answers_pos sub s
  rw [hn] at hpos
  rwa [← hlength]

theorem answers_copy_of_occursAt (hsub : Utf8.isValid sub = true)
    (hlength : (Utf8.chars s).length < 2 ^ 63) {k : Nat}
    (hoccurs : OccursAt (Utf8.chars sub) (Utf8.chars s) k) :
    Answers .copy [.string s, .int (Int64.ofNat k), .int (Int64.ofNat (Utf8.chars sub).length)]
      (.string sub) := by
  have hfits := hoccurs.le
  have hk : (Int64.ofNat k).toInt = k := Int64.toInt_ofNat_of_lt (by omega)
  have hn : (Int64.ofNat (Utf8.chars sub).length).toInt = (Utf8.chars sub).length :=
    Int64.toInt_ofNat_of_lt (by omega)
  have hcuts : ¬Overruns (.string s) (Int64.ofNat k) (Int64.ofNat (Utf8.chars sub).length) := by
    rintro ⟨-, hover⟩
    omega
  have hcopied : copied (.string s) (Int64.ofNat k) (Int64.ofNat (Utf8.chars sub).length) =
      .string sub := by
    rw [copied, Value.print, hk, hn, Int.toNat_natCast, Int.toNat_natCast, hoccurs.take_drop,
      Utf8.encode_chars hsub]
  rw [← hcopied]
  exact (cuts_of_not_overruns hcuts).call

/-- A search tells the first place of a text, or -1 if it stands nowhere; and as many characters
from that place on as the text has are the text. Places are 64-bit numbers, and no text in memory
has more characters than that. -/
theorem pos_length_copy_agree (hs : Utf8.isValid s = true) (hsub : Utf8.isValid sub = true)
    (hlength : (Utf8.chars s).length < 2 ^ 63) :
    ∃ k, Answers .pos [.string sub, .string s] (.int k) ∧
      (k = -1 ↔ ∀ j, ¬OccursAt (Utf8.chars sub) (Utf8.chars s) j) ∧
      (k ≠ -1 → 0 ≤ k ∧ FirstAt sub s k.toInt.toNat ∧
        ∃ n, Answers .length [.string sub] (.int n) ∧
          Answers .copy [.string s, .int k, .int n] (.string sub)) := by
  cases hfind : Bytes.find? sub s with
  | none =>
    have hnowhere : ∀ j, ¬OccursAt (Utf8.chars sub) (Utf8.chars s) j := by
      refine Utf8.find?_encode_eq_none ?_
      rwa [Utf8.encode_chars hs, Utf8.encode_chars hsub]
    have hpos := answers_pos sub s
    rw [hfind] at hpos
    exact ⟨-1, hpos, iff_of_true rfl hnowhere, fun h => absurd rfl h⟩
  | some n =>
    obtain ⟨k, hfirst, hpos⟩ := answers_pos_of_find? hs hsub hfind
    have hfits := hfirst.1.le
    have hk : (Int64.ofNat k).toInt = k := Int64.toInt_ofNat_of_lt (by omega)
    have hnonneg : 0 ≤ Int64.ofNat k := by
      rw [Int64.le_iff_toInt_le, hk]
      exact Int.natCast_nonneg k
    have hne : Int64.ofNat k ≠ -1 := by
      intro h
      rw [h] at hnonneg
      cases hnonneg
    refine ⟨Int64.ofNat k, hpos, iff_of_false hne fun hnowhere => hnowhere k hfirst.1, fun _ => ?_⟩
    refine ⟨hnonneg, by rwa [hk, Int.toNat_natCast], Int64.ofNat (Utf8.chars sub).length, ?_, ?_⟩
    · intro host
      rw [Utf8.chars, List.length_map]
      rfl
    · exact answers_copy_of_occursAt hsub hlength hfirst.1

/-- A letter of two bytes before the place, and another one in the text that is searched for. -/
theorem pos_length_copy_agree_accents :
    (Utf8.isValid (utf8 "héllö") = true ∧ Utf8.isValid (utf8 "lö") = true ∧
      (Utf8.chars (utf8 "héllö")).length < 2 ^ 63) ∧
      ∃ k, Answers .pos [.string (utf8 "lö"), .string (utf8 "héllö")] (.int k) ∧
        (k = -1 ↔ ∀ j, ¬OccursAt (Utf8.chars (utf8 "lö")) (Utf8.chars (utf8 "héllö")) j) ∧
        (k ≠ -1 → 0 ≤ k ∧ FirstAt (utf8 "lö") (utf8 "héllö") k.toInt.toNat ∧
          ∃ n, Answers .length [.string (utf8 "lö")] (.int n) ∧
            Answers .copy [.string (utf8 "héllö"), .int k, .int n] (.string (utf8 "lö"))) := by
  have hvalid : Utf8.isValid (utf8 "héllö") = true ∧ Utf8.isValid (utf8 "lö") = true ∧
      (Utf8.chars (utf8 "héllö")).length < 2 ^ 63 := by
    decide +kernel
  exact ⟨hvalid, pos_length_copy_agree hvalid.1 hvalid.2.1 hvalid.2.2⟩

end Native

end Pascaline
