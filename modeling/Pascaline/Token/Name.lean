import Pascaline.Token.Lexer

/-!
# The spelling of names

The folded spelling of an identifier is not empty, and it holds none of the marks that separate
names in paths and in the text of types. The tables of case and of the composed form are checked
once, number by number.
-/

namespace Pascaline

/-- The codes that may stand in a folded name. Below the letters these are digits and what comes
after the colon; blanks, parentheses, commas, points, slashes, colons and brackets are left out. -/
def isNameCode (n : Nat) : Bool :=
  (48 ≤ n && n ≤ 57) || (59 ≤ n && n ≤ 90) || (95 ≤ n && n < 0xd800) || (0xdfff < n && n < 0x110000)

/-- A folded spelling: it is not empty, and nothing in it separates names. -/
structure IsName (s : String) : Prop where
  ne_empty : s ≠ ""
  codes : ∀ c ∈ s.toList, isNameCode c.toNat

/-! ## Tables -/

namespace CodeTable

/-- A look-up yields a row of the table, or nothing. -/
theorem row_cases (t : CodeTable) (c : Nat) : t.row c = [] ∨ t.row c ∈ t.rows := by
  have hrow : ∀ i, t.rows.getD i [] = [] ∨ t.rows.getD i [] ∈ t.rows := by
    intro i
    by_cases hi : i < t.rows.size
    · right
      simp [Array.getD_eq_getD_getElem?, hi]
    · left
      simp [Array.getD_eq_getD_getElem?, hi]
  have hlast : ∀ lo hi best, (best = [] ∨ best ∈ t.rows) →
      (lastAtMost t.rows c lo hi best = [] ∨ lastAtMost t.rows c lo hi best ∈ t.rows) := by
    intro lo hi best hbest
    fun_induction lastAtMost t.rows c lo hi best with
    | case1 lo hi best hlt mid row hle ih => exact ih (hrow mid)
    | case2 lo hi best hlt mid row hle ih => exact ih hbest
    | case3 => exact hbest
  exact hlast 0 t.rows.size [] (.inl rfl)

theorem row_ofPacked {parts c : Nat} {xs : List Nat} (h : (ofPacked parts xs).row c ≠ []) :
    ∃ x ∈ xs, (ofPacked parts xs).row c = unpack parts x := by
  have hmem := (row_cases (ofPacked parts xs) c).resolve_left h
  obtain ⟨x, hx, heq⟩ : ∃ x ∈ xs, unpack parts x = (ofPacked parts xs).row c := by
    simpa [ofPacked] using hmem
  exact ⟨x, hx, heq.symm⟩

end CodeTable

theorem toNat_ofNat {n : Nat} (h : isNameCode n) : (Char.ofNat n).toNat = n := by
  have hvalid : n < 0xd800 ∨ 0xdfff < n ∧ n < 0x110000 := by
    simp only [isNameCode, Bool.or_eq_true, Bool.and_eq_true, decide_eq_true_eq] at h
    omega
  rw [Char.ofNat, dif_pos hvalid]
  rfl

theorem isNameCode_ofNat {n : Nat} (h : isNameCode n) : isNameCode (Char.ofNat n).toNat := by
  rwa [toNat_ofNat h]

/-! ## Lower case -/

theorem lowerCases_codes : ∀ x ∈ lowerCases,
    let target := x % 0x1000000
    let step := x / 0x1000000 / 0x1000000
    95 ≤ target ∧ (target + (step % 0x1000000 - step / 0x1000000) < 0xd800 ∨
      0xdfff < target ∧ target + (step % 0x1000000 - step / 0x1000000) < 0x110000) := by
  decide +kernel

theorem toLower_code : ∀ n < 128, isNameCode n → isNameCode (Char.ofNat n).toLower.toNat := by
  decide

theorem mapCase_code {c : Char} (h : isNameCode c.toNat) :
    isNameCode (lowerTable.mapCase c).toNat := by
  unfold CodeTable.mapCase
  split
  case h_1 lo hi step target hrow =>
    split
    case isTrue hin =>
      obtain ⟨x, hx, hunpack⟩ : ∃ x ∈ lowerCases, lowerTable.row c.toNat = CodeTable.unpack 3 x :=
        CodeTable.row_ofPacked (by rw [← lowerTable, hrow]; simp)
      obtain ⟨hlow, hhigh⟩ := lowerCases_codes x hx
      rw [hrow] at hunpack
      simp only [CodeTable.unpack, List.cons_append, List.nil_append, List.cons.injEq, and_true] at hunpack
      obtain ⟨rfl, rfl, rfl, rfl⟩ := hunpack
      simp only [Bool.and_eq_true, decide_eq_true_eq] at hin
      refine isNameCode_ofNat ?_
      simp only [isNameCode, Bool.or_eq_true, Bool.and_eq_true, decide_eq_true_eq]
      omega
    case isFalse => exact h
  · exact h

theorem lowerChar_code {c : Char} (h : isNameCode c.toNat) : isNameCode (lowerChar c).toNat := by
  unfold lowerChar
  split
  case isTrue hascii =>
    have := toLower_code c.toNat hascii h
    rwa [Char.ofNat_toNat] at this
  case isFalse => exact mapCase_code h

/-! ## The composed canonical form -/

namespace Canonical

theorem decompositions_codes : ∀ x ∈ decompositions, isNameCode (x / 0x1000000 % 0x1000000) ∧
    (x % 0x1000000 ≠ 0 → isNameCode (x % 0x1000000)) := by
  decide +kernel

theorem compositions_codes : ∀ x ∈ compositions, isNameCode (x % 0x1000000) := by
  decide +kernel

theorem isNameCode_high {n : Nat} (h : 0x1100 ≤ n) (hlt : n < 0xd800) :
    isNameCode (Char.ofNat n).toNat := by
  refine isNameCode_ofNat ?_
  simp only [isNameCode, Bool.or_eq_true, Bool.and_eq_true, decide_eq_true_eq]
  omega

theorem hangulLetters_codes {n : Nat} (h : n < 0xd7a4) :
    ∀ c ∈ hangulLetters n, isNameCode c.toNat := by
  have hi : n - hangulBase < 11172 := by
    unfold hangulBase
    omega
  intro c hc
  simp only [hangulLetters, List.mem_append, List.mem_cons, List.not_mem_nil, or_false] at hc
  obtain (rfl | rfl) | hc := hc
  · exact isNameCode_high (by omega) (by omega)
  · exact isNameCode_high (by omega) (by omega)
  · split at hc
    · cases hc
    · rw [List.mem_singleton] at hc
      rw [hc]
      exact isNameCode_high (by omega) (by omega)

theorem decomposeChar_codes (depth : Nat) {c : Char} (h : isNameCode c.toNat) :
    decomposeChar depth c ≠ [] ∧ ∀ x ∈ decomposeChar depth c, isNameCode x.toNat := by
  induction depth generalizing c with
  | zero => exact ⟨by simp [decomposeChar], by simpa [decomposeChar] using h⟩
  | succ depth ih =>
    have hself : [c] ≠ [] ∧ ∀ x ∈ [c], isNameCode x.toNat := ⟨by simp, by simpa using h⟩
    unfold decomposeChar
    split
    case isTrue hhangul =>
      simp only [Bool.and_eq_true, decide_eq_true_eq] at hhangul
      exact ⟨by simp [hangulLetters], hangulLetters_codes hhangul.2⟩
    case isFalse =>
    split
    case h_2 => exact hself
    case h_1 d a b hrow =>
    split
    case isFalse => exact hself
    case isTrue =>
    obtain ⟨x, hx, hunpack⟩ :
        ∃ x ∈ decompositions, decompositionTable.row c.toNat = CodeTable.unpack 2 x :=
      CodeTable.row_ofPacked (by rw [← decompositionTable, hrow]; simp)
    obtain ⟨ha, hb⟩ := decompositions_codes x hx
    rw [hrow] at hunpack
    simp only [CodeTable.unpack, List.cons_append, List.nil_append, List.cons.injEq, and_true] at hunpack
    obtain ⟨-, rfl, rfl⟩ := hunpack
    obtain ⟨hne, hfirst⟩ := ih (isNameCode_ofNat ha)
    refine ⟨fun hnil => hne (List.append_eq_nil_iff.mp hnil).1, fun y hy => ?_⟩
    obtain hy | hy := List.mem_append.mp hy
    · exact hfirst y hy
    split at hy
    · cases hy
    case isFalse hzero => exact (ih (isNameCode_ofNat (hb hzero))).2 y hy

theorem mem_insertMark {c x : Char} {k : Nat} {cs : List Char} :
    x ∈ insertMark c k cs ↔ x = c ∨ x ∈ cs := by
  induction cs with
  | nil => simp [insertMark]
  | cons d ds ih =>
    unfold insertMark
    split
    · rw [List.mem_cons, ih, List.mem_cons]
      exact or_left_comm
    · rw [List.mem_cons]

theorem mem_orderMarks {x : Char} {cs : List Char} : x ∈ orderMarks cs ↔ x ∈ cs := by
  have hfold : ∀ acc : List Char, x ∈ cs.foldl (fun acc c =>
      let k := combiningClass c
      if k = 0 then c :: acc else insertMark c k acc) acc ↔ x ∈ acc ∨ x ∈ cs := by
    induction cs with
    | nil => simp
    | cons c cs ih =>
      intro acc
      rw [List.foldl_cons, ih, List.mem_cons]
      dsimp only
      split
      · rw [List.mem_cons, or_assoc, or_left_comm]
      · rw [mem_insertMark, or_assoc, or_left_comm]
  rw [orderMarks, List.mem_reverse, hfold]
  simp

theorem hangulCompose_code {a b : Nat} {c : Char} (h : hangulCompose a b = some c) :
    isNameCode c.toNat := by
  unfold hangulCompose at h
  split at h
  case isTrue hin =>
    simp only [Bool.and_eq_true, decide_eq_true_eq] at hin
    rw [← Option.some.inj h]
    unfold hangulBase
    exact isNameCode_high (by omega) (by omega)
  case isFalse =>
    split at h
    case isTrue hin =>
      simp only [Bool.and_eq_true, decide_eq_true_eq] at hin
      unfold hangulBase at hin
      rw [← Option.some.inj h]
      exact isNameCode_high (by omega) (by omega)
    case isFalse => cases h

theorem composed_code {pair : Nat} {c : Char} (h : composed? pair = some c) :
    isNameCode c.toNat := by
  unfold composed? at h
  split at h
  case h_2 => cases h
  case h_1 p n hrow =>
    split at h
    case isFalse => cases h
    obtain ⟨x, hx, hunpack⟩ :
        ∃ x ∈ compositions, compositionTable.row pair = CodeTable.unpack 1 x :=
      CodeTable.row_ofPacked (by rw [← compositionTable, hrow]; simp)
    rw [hrow] at hunpack
    simp only [CodeTable.unpack, List.cons_append, List.nil_append, List.cons.injEq, and_true] at hunpack
    rw [← Option.some.inj h, hunpack.2]
    exact isNameCode_ofNat (compositions_codes x hx)

theorem composePair_code {a b c : Char} (h : composePair a b = some c) : isNameCode c.toNat := by
  unfold composePair at h
  cases hx : hangulCompose a.toNat b.toNat with
  | some x =>
    rw [hx] at h
    exact Option.some.inj h ▸ hangulCompose_code hx
  | none =>
    rw [hx] at h
    exact composed_code h

/-- What composition has taken in is never lost, and what it puts together separates no names. -/
theorem push_codes {s : Composing} {c : Char} (hs : ∀ x ∈ s.flush, isNameCode x.toNat)
    (hc : isNameCode c.toNat) :
    (s.push c).flush ≠ [] ∧ ∀ x ∈ (s.push c).flush, isNameCode x.toNat := by
  have hmarks : ∀ x ∈ s.marks, isNameCode x.toNat := fun x hx => hs x (by simp [Composing.flush, hx])
  have hdone : ∀ x ∈ s.done, isNameCode x.toNat := fun x hx => hs x (by simp [Composing.flush, hx])
  unfold Composing.push
  dsimp only
  split
  case h_1 x hx =>
    have hcode : isNameCode x.toNat := by
      split at hx
      · obtain ⟨a, -, ha⟩ := Option.bind_eq_some_iff.mp hx
        exact composePair_code ha
      · cases hx
    refine ⟨by simp [Composing.flush], fun y hy => ?_⟩
    simp only [Composing.flush, Option.toList_some, List.mem_append, List.mem_singleton] at hy
    obtain (hy | rfl) | hy := hy
    · exact hmarks y hy
    · exact hcode
    · exact hdone y hy
  case h_2 =>
    split
    · refine ⟨by simp [Composing.flush], fun y hy => ?_⟩
      simp only [Composing.flush, Option.toList_some, List.nil_append, List.mem_append,
        List.mem_singleton] at hy
      obtain rfl | hy := hy
      · exact hc
      · exact hs y (by simpa [Composing.flush, or_assoc] using hy)
    · refine ⟨by simp [Composing.flush], fun y hy => ?_⟩
      simp only [Composing.flush, List.cons_append, List.mem_cons] at hy
      obtain rfl | hy := hy
      · exact hc
      · exact hs y hy

theorem compose_codes {cs : List Char} (hne : cs ≠ []) (h : ∀ c ∈ cs, isNameCode c.toNat) :
    compose cs ≠ [] ∧ ∀ x ∈ compose cs, isNameCode x.toNat := by
  have hfold : ∀ (cs : List Char) (s : Composing), (∀ c ∈ cs, isNameCode c.toNat) →
      (cs ≠ [] ∨ s.flush ≠ []) → (∀ x ∈ s.flush, isNameCode x.toNat) →
      (cs.foldl Composing.push s).flush ≠ [] ∧
        ∀ x ∈ (cs.foldl Composing.push s).flush, isNameCode x.toNat := by
    intro cs
    induction cs with
    | nil => exact fun s _ hsome hs => ⟨hsome.resolve_left (by simp), hs⟩
    | cons c cs ih =>
      intro s hcs _ hs
      obtain ⟨hne, hcodes⟩ := push_codes hs (hcs c List.mem_cons_self)
      exact ih _ (fun x hx => hcs x (List.mem_cons_of_mem c hx)) (.inr hne) hcodes
  obtain ⟨hne, hcodes⟩ := hfold cs {} h (.inl hne) (by simp [Composing.flush])
  exact ⟨by simpa [compose] using hne, fun x hx => hcodes x (by simpa [compose] using hx)⟩

theorem normalize_codes {cs : List Char} (hne : cs ≠ []) (h : ∀ c ∈ cs, isNameCode c.toNat) :
    normalize cs ≠ [] ∧ ∀ x ∈ normalize cs, isNameCode x.toNat := by
  obtain ⟨c, cs, rfl⟩ := List.exists_cons_of_ne_nil hne
  have hfirst := decomposeChar_codes 6 (h c List.mem_cons_self)
  refine compose_codes ?_ fun x hx => ?_
  · obtain ⟨d, hd⟩ := List.exists_mem_of_ne_nil _ hfirst.1
    refine List.ne_nil_of_mem (a := d) (mem_orderMarks.mpr ?_)
    exact List.mem_flatMap.mpr ⟨c, List.mem_cons_self, hd⟩
  · obtain ⟨y, hy, hx⟩ := List.mem_flatMap.mp (mem_orderMarks.mp hx)
    exact (decomposeChar_codes 6 (h y hy)).2 x hx

end Canonical

/-! ## Identifiers -/

theorem foldName_isName {s : String} (hne : s ≠ "") (h : ∀ c ∈ s.toList, isNameCode c.toNat) :
    IsName (foldName s) := by
  have hlist : s.toList ≠ [] := by simpa using hne
  have hlower : ∀ cs : List Char, cs ≠ [] → (∀ c ∈ cs, isNameCode c.toNat) →
      IsName (String.ofList (cs.map lowerChar)) := by
    intro cs hcs hcodes
    refine ⟨by simpa [String.ext_iff] using hcs, fun c hc => ?_⟩
    rw [String.toList_ofList] at hc
    obtain ⟨x, hx, rfl⟩ := List.mem_map.mp hc
    exact lowerChar_code (hcodes x hx)
  unfold foldName
  dsimp only
  split
  · exact hlower _ hlist h
  · obtain ⟨hne, hcodes⟩ := Canonical.normalize_codes hlist h
    exact hlower _ hne hcodes

namespace Lexer

/-- A byte that may stand in a name: a letter, a digit, an underscore, or part of a longer
character. -/
def isNameByte (b : UInt8) : Bool := 128 ≤ b || isNameStart b || Bytes.isDigit b

theorem nameWidth_bytes (s : Bytes) : ∀ b ∈ s.take (nameWidth s), isNameByte b := by
  fun_induction nameWidth s with
  | case1 => simp
  | case2 b rest hascii hname ih =>
    intro x hx
    rw [Nat.add_comm, List.take_succ_cons, List.mem_cons] at hx
    obtain rfl | hx := hx
    · rw [isNameByte, Bool.or_assoc, hname, Bool.or_true]
    · exact ih x hx
  | case3 => simp
  | case4 b rest hascii d hletter ih =>
    have hpos : 0 < d.width := Utf8.decode_width_pos b rest
    have hb : 0x80 ≤ b := UInt8.not_lt.mp hascii
    have hsplit : d.width + nameWidth (rest.drop (d.width - 1)) =
        (d.width - 1 + nameWidth (rest.drop (d.width - 1))) + 1 := by omega
    intro x hx
    rw [hsplit, List.take_succ_cons, List.mem_cons, List.take_add, List.mem_append] at hx
    obtain rfl | hx | hx := hx
    · simp [isNameByte, hb]
    · simp [isNameByte, Utf8.decode_tail hx]
    · exact ih x hx
  | case5 => simp

theorem isNameCode_of_le {c : Char} (h : 95 ≤ c.toNat) : isNameCode c.toNat := by
  have hvalid : c.toNat < 0xd800 ∨ 0xdfff < c.toNat ∧ c.toNat < 0x110000 := c.valid
  simp only [isNameCode, Bool.or_eq_true, Bool.and_eq_true, decide_eq_true_eq]
  omega

theorem decode_code {b : UInt8} {rest : Bytes} (h : isNameByte b) :
    isNameCode (Utf8.decode b rest).char.toNat := by
  by_cases hascii : b < 0x80
  · have hname : isNameCode b.toNat := by
      have hlt : b.toNat < 128 := UInt8.lt_iff_toNat_lt.mp hascii
      simp only [isNameByte, isNameStart, Bytes.isDigit, isNameCode, Bool.or_eq_true, Bool.and_eq_true,
        decide_eq_true_eq, UInt8.le_iff_toNat_le, ← UInt8.toNat_inj, UInt8.reduceToNat] at h ⊢
      omega
    rw [Utf8.decode, if_pos hascii]
    exact isNameCode_ofNat hname
  · have hcode : 128 ≤ (Utf8.decode b rest).char.toNat :=
      Utf8.le_decode_char (UInt8.not_lt.mp hascii)
    exact isNameCode_of_le (by omega)

theorem toString_codes {s : Bytes} (h : ∀ b ∈ s, isNameByte b) :
    ∀ c ∈ (Utf8.toString s).toList, isNameCode c.toNat := by
  unfold Utf8.toString Utf8.chars
  rw [String.toList_ofList]
  fun_induction Utf8.decodeAll s with
  | case1 => simp
  | case2 b rest d ih =>
    intro c hc
    rw [List.map_cons, List.mem_cons] at hc
    obtain rfl | hc := hc
    · exact decode_code (h b List.mem_cons_self)
    · exact ih (fun x hx => h x (List.mem_cons_of_mem b (List.mem_of_mem_drop hx))) c hc

theorem toString_ne_empty {s : Bytes} (h : s ≠ []) : Utf8.toString s ≠ "" := by
  obtain ⟨b, rest, rfl⟩ := List.exists_cons_of_ne_nil h
  simp [Utf8.toString, Utf8.chars, Utf8.decodeAll, String.ext_iff]

/-- The value of an identifier is a folded name. -/
theorem nameLexeme_isName {s : Bytes} (hpos : 0 < nameWidth s) (hs : s ≠ []) :
    IsName (Utf8.toString (nameLexeme (s.take (nameWidth s))).value) := by
  have htext : s.take (nameWidth s) ≠ [] := by
    rw [← List.length_pos_iff] at hs ⊢
    rw [List.length_take]
    omega
  rw [nameLexeme]
  simp only [Utf8.toString_utf8]
  exact foldName_isName (toString_ne_empty htext) (toString_codes (nameWidth_bytes s))

theorem nameWidth_pos {b : UInt8} {rest : Bytes}
    (h : (isNameStart b || (128 ≤ b && isLetter (Utf8.decode b rest).char)) = true) :
    0 < nameWidth (b :: rest) := by
  rw [nameWidth]
  split
  case isTrue hascii =>
    have hnot : ¬ 128 ≤ b := UInt8.not_le.mpr hascii
    have hstart : isNameStart b = true := by simpa [hnot] using h
    rw [hstart, Bool.true_or, if_pos rfl]
    omega
  case isFalse hascii =>
    have hstart : isNameStart b = false := by
      rw [UInt8.lt_iff_toNat_lt] at hascii
      simp only [isNameStart, Bool.or_eq_false_iff, Bool.and_eq_false_iff, decide_eq_false_iff_not,
        UInt8.le_iff_toNat_le, ← UInt8.toNat_inj, UInt8.reduceToNat] at hascii ⊢
      omega
    have hletter : isLetter (Utf8.decode b rest).char = true := by
      rw [hstart, Bool.false_or, Bool.and_eq_true] at h
      exact h.2
    have := Utf8.decode_width_pos b rest
    simp only [hletter, Bool.true_or, if_true]
    omega

theorem lexeme_isName {b : UInt8} {rest : Bytes} (h : (lexeme b rest).kind = .identifier) :
    IsName (Utf8.toString (lexeme b rest).value) := by
  unfold lexeme at h ⊢
  split at h
  case isTrue hname =>
    rw [if_pos hname]
    exact nameLexeme_isName (nameWidth_pos hname) (List.cons_ne_nil b rest)
  case isFalse =>
    -- no other scanner makes an identifier
    simp only [numberLexeme, hexLexeme, stringLexeme, charLexeme, punctLexeme] at h
    repeat' split at h
    all_goals cases h

theorem forall_tokens {P : Token → Prop} (h : ∀ l : Lexer, P l.step.token) (l : Lexer) :
    ∀ t ∈ l.tokens.1, P t := by
  induction l using tokens.induct with
  | case1 l s hend =>
    rw [tokens, dif_pos hend]
    exact fun t ht => List.mem_singleton.mp ht ▸ h l
  | case2 l s hword words errors htokens ih =>
    rw [tokens, dif_neg hword]
    intro t ht
    obtain rfl | ht := List.mem_cons.mp ht
    · exact h l
    · exact ih t ht

theorem step_isName (l : Lexer) (h : l.step.token.kind = .identifier) :
    IsName (Utf8.toString l.step.token.value) := by
  unfold step at h ⊢
  dsimp only at h ⊢
  split at h
  case h_1 => cases h
  case h_2 b rest heq => exact lexeme_isName h

end Lexer

/-- An identifier has a folded name for its value. -/
def Token.Named (t : Token) : Prop := t.kind = .identifier → IsName (Utf8.toString t.value)

theorem SourceFile.tokenize_named (f : SourceFile) : ∀ t ∈ f.tokenize.1, t.Named :=
  Lexer.forall_tokens Lexer.step_isName _

end Pascaline
