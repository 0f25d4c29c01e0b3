import Pascaline.Token.Lexer

/-!
# String literals

A literal is a text between two quotes of one kind, in which that quote is written twice. Literals
of texts without a newline are read back whole, whatever stands behind them, and a token that is
read as a string without an error is the literal of its value.
-/

namespace Pascaline.Lexer

/-- The bytes that a string literal may stand between: the apostrophe and the quotation mark. -/
def IsQuote (b : UInt8) : Prop := b = 39 ∨ b = 34

/-- The text with every quote written twice. -/
def doubled (quote : UInt8) : Bytes → Bytes
  | [] => []
  | b :: s => if b = quote then quote :: quote :: doubled quote s else b :: doubled quote s

/-- The text as a literal. -/
def literal (quote : UInt8) (s : Bytes) : Bytes := quote :: (doubled quote s ++ [quote])

variable {quote b : UInt8} {s after rest : Bytes}

/-! ## The inside of a literal -/

/-- A run of quotes is split at the one that no further quote follows. -/
theorem stringBody_doubled (hquote : quote ≠ 10) (hs : 10 ∉ s) (hafter : after.head? ≠ some quote) :
    stringBody quote (doubled quote s ++ quote :: after) =
      ⟨s, (doubled quote s).length + 1, true⟩ := by
  induction s with
  | nil =>
    cases after with
    | nil => simp [doubled, stringBody, hquote]
    | cons c more =>
      have hc : c ≠ quote := by simpa using hafter
      simp [doubled, stringBody, hquote, hc]
  | cons b s ih =>
    rw [List.mem_cons, not_or] at hs
    have ih := ih hs.2
    by_cases hb : b = quote
    · subst hb
      rw [doubled, if_pos rfl, List.cons_append, List.cons_append, stringBody.eq_def]
      simp only [if_neg hquote, if_true, ih, List.length_cons]
      congr 1
      omega
    · rw [doubled, if_neg hb, List.cons_append, stringBody.eq_def]
      simp only [if_neg (Ne.symm hs.1), if_neg hb, ih, List.length_cons]
      congr 1
      omega

theorem stringBody_closed (h : (stringBody quote rest).closed = true) :
    10 ∉ (stringBody quote rest).value ∧
      rest.take (stringBody quote rest).width =
        doubled quote (stringBody quote rest).value ++ [quote] := by
  fun_induction stringBody quote rest with
  | case1 | case2 => cases h
  | case3 | case5 => simp [doubled]
  | case4 more body hnewline ih =>
    obtain ⟨hvalue, htake⟩ := ih h
    refine ⟨List.not_mem_cons_of_ne_of_not_mem (Ne.symm hnewline) hvalue, ?_⟩
    rw [Nat.add_comm, List.take_succ_cons, List.take_succ_cons, htake]
    simp [doubled, body]
  | case6 b rest hnewline hquote body ih =>
    obtain ⟨hvalue, htake⟩ := ih h
    refine ⟨List.not_mem_cons_of_ne_of_not_mem (Ne.symm hnewline) hvalue, ?_⟩
    rw [Nat.add_comm, List.take_succ_cons, htake]
    simp [doubled, hquote, body]

/-! ## The token -/

theorem trivia_quote (h : IsQuote quote) : trivia (quote :: rest) = {} := by
  obtain rfl | rfl := h <;> cases rest <;> simp [trivia, isBlank]

theorem lexeme_quote (h : IsQuote quote) : lexeme quote rest = stringLexeme quote rest := by
  obtain rfl | rfl := h <;> simp [lexeme, isNameStart, Bytes.isDigit]

theorem lexeme_string (h : (lexeme b rest).kind = .stringLit) :
    IsQuote b ∧ lexeme b rest = stringLexeme b rest := by
  have hquote : IsQuote b := by
    cases hb : b = 39 || b = 34 with
    | true => simpa [IsQuote] using hb
    | false =>
      -- no other scanner makes a string
      simp only [lexeme, hb, Bool.false_eq_true, if_false, nameLexeme, numberLexeme, hexLexeme,
        charLexeme, punctLexeme] at h
      repeat' split at h
      all_goals cases h
  exact ⟨hquote, lexeme_quote hquote⟩

theorem step_literal {l : Lexer} (hquote : IsQuote quote) (hs : 10 ∉ s)
    (hafter : after.head? ≠ some quote) (hrest : l.rest = literal quote s ++ after) :
    l.step =
      ⟨{ kind := .stringLit,
         span := ⟨l.file, l.offset, l.offset + (literal quote s).length⟩,
         text := literal quote s, value := s },
        [], ⟨l.file, l.offset + (literal quote s).length, after⟩⟩ := by
  have hnewline : quote ≠ 10 := by obtain rfl | rfl := hquote <;> decide
  have hrest : l.rest = quote :: (doubled quote s ++ quote :: after) := by
    rw [hrest, literal, List.cons_append, List.append_assoc, List.singleton_append]
  have hlexeme : lexeme quote (doubled quote s ++ quote :: after) =
      { kind := .stringLit, extra := (doubled quote s).length + 1, value := s } := by
    rw [lexeme_quote hquote, stringLexeme, stringBody_doubled hnewline hs hafter]
    rfl
  have htext : (doubled quote s ++ quote :: after).take ((doubled quote s).length + 1) =
      doubled quote s ++ [quote] := by
    rw [List.take_length_add_append, List.take_succ_cons, List.take_zero]
  have hbehind : (doubled quote s ++ quote :: after).drop ((doubled quote s).length + 1) =
      after := by rw [List.drop_length_add_append, List.drop_succ_cons, List.drop_zero]
  have hlength : 1 + ((doubled quote s).length + 1) = (literal quote s).length := by
    simp [literal, Nat.add_comm]
  simp only [step, hrest, trivia_quote hquote, List.drop_zero, hlexeme, htext, hbehind, hlength]
  simp [literal]

theorem literal_of_step {l : Lexer} (hkind : l.step.token.kind = .stringLit)
    (herrors : ∀ d ∈ l.step.errors, d.span ≠ l.step.token.span) :
    ∃ quote, IsQuote quote ∧ 10 ∉ l.step.token.value ∧
      l.step.token.text = literal quote l.step.token.value := by
  match hrest : l.rest.drop (trivia l.rest).width with
  | [] => simp [step, hrest] at hkind
  | b :: rest =>
    simp only [step, hrest] at hkind herrors ⊢
    obtain ⟨hquote, hlexeme⟩ := lexeme_string hkind
    rw [hlexeme] at herrors ⊢
    have hclosed : (stringBody b rest).closed = true := by
      cases hopen : (stringBody b rest).closed with
      | true => rfl
      | false =>
        refine absurd rfl (herrors (diagnostic l.file _ _ .unterminatedString)
          (List.mem_append_right _ ?_))
        simp [stringLexeme, hopen]
    obtain ⟨hvalue, htake⟩ := stringBody_closed hclosed
    exact ⟨b, hquote, hvalue, congrArg (b :: ·) htake⟩

theorem exists_step (l : Lexer) :
    ∀ t ∈ l.tokens.1, ∃ l' : Lexer, l'.step.token = t ∧ l'.step.errors ⊆ l.tokens.2 := by
  induction l using tokens.induct with
  | case1 l s hend =>
    rw [tokens, dif_pos hend]
    exact fun t ht => ⟨l, (List.mem_singleton.mp ht).symm, List.Subset.refl _⟩
  | case2 l s hword words errors htokens ih =>
    rw [tokens, dif_neg hword]
    intro t ht
    obtain rfl | ht := List.mem_cons.mp ht
    · exact ⟨l, rfl, List.subset_append_left _ _⟩
    · obtain ⟨l', htoken, hsub⟩ := ih t ht
      exact ⟨l', htoken, List.Subset.trans hsub (List.subset_append_right _ _)⟩

end Lexer

open Lexer

/-- The literal of a text without a newline is read as the string of that text, from wherever it
starts: the token is the literal as it stands, nothing is reported of it, and reading goes on behind
it, where no further quote stands. And each string of a file of which nothing is reported is the
literal of its value. -/
theorem SourceFile.string_literals_read_back :
    (∀ (l : Lexer) (quote : UInt8) (s after : Bytes), IsQuote quote → 10 ∉ s →
      after.head? ≠ some quote → l.rest = literal quote s ++ after →
      let stop := l.offset + (literal quote s).length
      let behind : Lexer := ⟨l.file, stop, after⟩
      l.tokens =
        ({ kind := .stringLit, span := ⟨l.file, l.offset, stop⟩, text := literal quote s,
           value := s } :: behind.tokens.1, behind.tokens.2)) ∧
    ∀ (f : SourceFile), ∀ t ∈ f.tokenize.1, t.kind = .stringLit →
      (∀ d ∈ f.tokenize.2, d.span ≠ t.span) →
      ∃ quote, IsQuote quote ∧ 10 ∉ t.value ∧ t.text = literal quote t.value := by
  constructor
  · intro l quote s after hquote hs hafter hrest stop behind
    have hstep := step_literal hquote hs hafter hrest
    have hkind : l.step.token.kind ≠ .endOfFile := by
      rw [hstep]
      simp
    rw [tokens, dif_neg hkind, hstep]
    rfl
  · intro f t ht hkind herrors
    obtain ⟨l, rfl, hsub⟩ := exists_step (.ofFile f) t ht
    exact literal_of_step hkind fun d hd => herrors d (hsub hd)

/-- A file that holds a literal with a doubled apostrophe and nothing else. -/
def apostrophes : SourceFile :=
  let content := utf8 "'it''s'"
  ⟨0, "a.pas", content, newlineOffsets 0 content, Digest.ofBytes content, {}⟩

theorem string_literals_read_back_apostrophes :
    let t : Token :=
      { kind := .stringLit, span := ⟨0, 0, 7⟩, text := utf8 "'it''s'", value := utf8 "it's" }
    apostrophes.tokenize = ([t, { kind := .endOfFile, span := ⟨0, 7, 7⟩ }], []) ∧
      ∃ quote, IsQuote quote ∧ 10 ∉ t.value ∧ t.text = literal quote t.value := by
  intro t
  let behind : Lexer := ⟨0, 7, []⟩
  have hread : apostrophes.tokenize = (t :: behind.tokens.1, behind.tokens.2) :=
    SourceFile.string_literals_read_back.1 (.ofFile apostrophes) 39 (utf8 "it's") []
      (.inl rfl) (by decide) (by decide) rfl
  have hend : behind.tokens = ([{ kind := .endOfFile, span := ⟨0, 7, 7⟩ }], []) := by
    simp [behind, tokens, step, trivia]
  have htokens : apostrophes.tokenize = ([t, { kind := .endOfFile, span := ⟨0, 7, 7⟩ }], []) := by
    rw [hread, hend]
  refine ⟨htokens, ?_⟩
  apply SourceFile.string_literals_read_back.2 apostrophes t ?_ rfl ?_
  · rw [htokens]
    exact List.mem_cons_self
  · rw [htokens]
    exact fun d hd => absurd hd List.not_mem_nil

end Pascaline
