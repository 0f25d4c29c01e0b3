import Mathlib.Data.List.Infix
import Mathlib.Data.List.TakeWhile
import Pascaline.Token.Lexer

/-!
# Tokens tile the text

Every byte of a text belongs to exactly one token or to the filler between two tokens. The
scanners take only bytes that are there, and filler is nothing but blanks and whole comments, up to
a comment that the end of the text cuts off.
-/

namespace Pascaline

namespace Lexer

/-! ## Filler -/

/-- The next line starts here, or the text ends. -/
def EndsLine (s : Bytes) : Prop := ∀ b ∈ s.head?, b = 10

/-- Blanks and whole comments, one after the other, with `rest` behind them in the text. -/
inductive Filler (rest : Bytes) : Bytes → Prop
  | nil : Filler rest []
  | blank {b : UInt8} {s : Bytes} : isBlank b → Filler rest s → Filler rest (b :: s)
  | line {body s : Bytes} : 10 ∉ body → EndsLine (s ++ rest) → Filler rest s →
      Filler rest ([47, 47] ++ body ++ s)
  | brace {body s : Bytes} : 125 ∉ body → Filler rest s → Filler rest ([123] ++ body ++ [125] ++ s)
  | star {body s : Bytes} : ¬ [42, 41] <:+: body → Filler rest s →
      Filler rest ([40, 42] ++ body ++ [42, 41] ++ s)

/-- A block comment that nothing closes. -/
inductive OpenComment : Bytes → Prop
  | brace {body : Bytes} : 125 ∉ body → OpenComment ([123] ++ body)
  | star {body : Bytes} : ¬ [42, 41] <:+: body → OpenComment ([40, 42] ++ body)

theorem braceCommentWidth?_eq_some {s : Bytes} {n : Nat} (h : braceCommentWidth? s = some n) :
    ∃ body, 125 ∉ body ∧ n = body.length + 1 ∧ s = body ++ [125] ++ s.drop n := by
  induction s generalizing n with
  | nil => cases h
  | cons b s ih =>
    unfold braceCommentWidth? at h
    split at h
    case isTrue hb =>
      cases h
      exact ⟨[], by simp, rfl, by simp [hb]⟩
    case isFalse hb =>
      obtain ⟨m, hm, rfl⟩ := Option.map_eq_some_iff.mp h
      obtain ⟨body, hbody, rfl, hs⟩ := ih hm
      exact ⟨b :: body, List.not_mem_cons_of_ne_of_not_mem (Ne.symm hb) hbody, rfl, by simpa using hs⟩

theorem braceCommentWidth?_eq_none {s : Bytes} (h : braceCommentWidth? s = none) : 125 ∉ s := by
  induction s with
  | nil => simp
  | cons b s ih =>
    unfold braceCommentWidth? at h
    split at h
    case isTrue => cases h
    case isFalse hb =>
      exact List.not_mem_cons_of_ne_of_not_mem (Ne.symm hb) (ih (by simpa using h))

theorem starCommentWidth?_eq_some {s : Bytes} {n : Nat} (h : starCommentWidth? s = some n) :
    ∃ body, ¬ [42, 41] <:+: body ∧ n = body.length + 2 ∧ s = body ++ [42, 41] ++ s.drop n := by
  fun_induction starCommentWidth? s generalizing n with
  | case1 more =>
    cases h
    exact ⟨[], by simp, rfl, rfl⟩
  | case2 => cases h
  | case3 b rest hstar ih =>
    obtain ⟨m, hm, rfl⟩ := Option.map_eq_some_iff.mp h
    obtain ⟨body, hbody, rfl, hs⟩ := ih hm
    refine ⟨b :: body, ?_, rfl, by simpa using hs⟩
    rw [List.infix_cons_iff]
    rintro (⟨t, ht⟩ | hin)
    · -- the closing mark would stand at the very front of the text
      obtain ⟨rfl, rfl⟩ : 42 = b ∧ 41 :: t = body := by simpa using ht
      exact hstar _ rfl (by simpa using hs)
    · exact hbody hin

theorem starCommentWidth?_eq_none {s : Bytes} (h : starCommentWidth? s = none) :
    ¬ [42, 41] <:+: s := by
  fun_induction starCommentWidth? s with
  | case1 => cases h
  | case2 => simp
  | case3 b rest hstar ih =>
    rw [List.infix_cons_iff]
    rintro (⟨t, ht⟩ | hin)
    · obtain ⟨rfl, rfl⟩ : 42 = b ∧ 41 :: t = rest := by simpa using ht
      exact hstar _ rfl rfl
    · exact ih (by simpa using h) hin

theorem drop_lineCommentWidth (s : Bytes) :
    s.drop (lineCommentWidth s) = s.dropWhile (· ≠ 10) := by
  have h : s.takeWhile (· ≠ 10) ++ s.dropWhile (· ≠ 10) = s := List.takeWhile_append_dropWhile
  calc s.drop (lineCommentWidth s)
      = (s.takeWhile (· ≠ 10) ++ s.dropWhile (· ≠ 10)).drop (s.takeWhile (· ≠ 10)).length := by
        rw [h, lineCommentWidth]
    _ = s.dropWhile (· ≠ 10) := List.drop_left

theorem lineCommentWidth_spec (s : Bytes) :
    ∃ body, 10 ∉ body ∧ lineCommentWidth s = body.length ∧
      body ++ s.drop (lineCommentWidth s) = s ∧ EndsLine (s.drop (lineCommentWidth s)) := by
  rw [drop_lineCommentWidth]
  refine ⟨s.takeWhile (· ≠ 10), ?_, rfl, List.takeWhile_append_dropWhile, ?_⟩
  · intro h
    simpa using List.mem_takeWhile_imp h
  · intro b hb
    have := List.head?_dropWhile_not (· ≠ 10) s
    rw [Option.mem_def.mp hb] at this
    simpa using this

/-- What `trivia` finds at the front of a text: filler, and behind it the first byte of a token,
the end or an open comment. -/
def Skips (s : Bytes) (t : Trivia) : Prop :=
  ∃ gap rest, s = gap ++ rest ∧ Filler rest gap ∧
    (t = ⟨gap.length, none⟩ ∨ OpenComment rest ∧ t = ⟨s.length, some gap.length⟩)

theorem skips_nothing (s : Bytes) : Skips s {} := ⟨[], s, rfl, .nil, .inl rfl⟩

theorem skips_open {s : Bytes} (h : OpenComment s) : Skips s ⟨s.length, some 0⟩ :=
  ⟨[], s, rfl, .nil, .inr ⟨h, rfl⟩⟩

theorem Skips.shift {s : Bytes} {t : Trivia} (h : Skips s t) (front : Bytes)
    (hfront : ∀ {gap rest}, s = gap ++ rest → Filler rest gap → Filler rest (front ++ gap)) :
    Skips (front ++ s) (t.shift front.length) := by
  obtain ⟨gap, rest, hs, hgap, ht⟩ := h
  refine ⟨front ++ gap, rest, by rw [hs, List.append_assoc], hfront hs hgap, ?_⟩
  rcases ht with rfl | ⟨hopen, rfl⟩
  · left
    simp [Trivia.shift]
  · right
    exact ⟨hopen, by simp [Trivia.shift]⟩

theorem trivia_skips (s : Bytes) : Skips s (trivia s) := by
  fun_induction trivia s with
  | case1 => exact skips_nothing []
  | case2 b rest hblank ih => exact ih.shift [b] fun _ hgap => .blank hblank hgap
  | case3 rest n hn hblank ih =>
    obtain ⟨body, hbody, rfl, hrest⟩ := braceCommentWidth?_eq_some hn
    have := ih.shift ([123] ++ body ++ [125]) fun _ hgap => .brace hbody hgap
    simpa [← hrest, Nat.add_comm, Nat.add_left_comm] using this
  | case4 rest hn hblank =>
    have := skips_open (.brace (braceCommentWidth?_eq_none hn))
    rwa [List.length_append] at this
  | case5 b hblank hbrace => exact skips_nothing [b]
  | case6 b hblank hbrace c more hline n ih =>
    obtain ⟨rfl, rfl⟩ : b = 47 ∧ c = 47 := by simpa using hline
    obtain ⟨body, hbody, hn, hmore, hends⟩ := lineCommentWidth_spec more
    have := ih.shift ([47, 47] ++ body) fun hs hgap => .line hbody (hs ▸ hends) hgap
    rw [List.append_assoc, hmore, List.length_append, ← hn] at this
    exact this
  | case7 b hblank hbrace c more hline hstar n hn ih =>
    obtain ⟨rfl, rfl⟩ : b = 40 ∧ c = 42 := by simpa using hstar
    obtain ⟨body, hbody, rfl, hmore⟩ := starCommentWidth?_eq_some hn
    have := ih.shift ([40, 42] ++ body ++ [42, 41]) fun _ hgap => .star hbody hgap
    simpa [← hmore, Nat.add_comm, Nat.add_left_comm] using this
  | case8 b hblank hbrace c more hline hstar hn =>
    obtain ⟨rfl, rfl⟩ : b = 40 ∧ c = 42 := by simpa using hstar
    have := skips_open (.star (starCommentWidth?_eq_none hn))
    rwa [List.length_append] at this
  | case9 b hblank hbrace c more hline hstar => exact skips_nothing _

/-! ## Lexemes -/

theorem digitsWidth_le (s : Bytes) : digitsWidth s ≤ s.length :=
  (List.takeWhile_prefix _).length_le

theorem fractionWidth_le (s : Bytes) : fractionWidth s ≤ s.length := by
  unfold fractionWidth
  split
  · rename_i p d rest
    have := digitsWidth_le rest
    split
    · simp only [List.length_cons]
      omega
    · omega
  · omega

theorem exponentWidth_le (s : Bytes) : exponentWidth s ≤ s.length := by
  unfold exponentWidth
  split
  · rename_i e sign rest
    have := digitsWidth_le rest
    simp only [List.length_cons]
    repeat' split
    all_goals omega
  · omega

theorem numberLexeme_extra_le (b : UInt8) (rest : Bytes) :
    (numberLexeme (b :: rest)).extra ≤ rest.length := by
  have hwhole := digitsWidth_le (b :: rest)
  have hfraction := fractionWidth_le ((b :: rest).drop (digitsWidth (b :: rest)))
  have hexponent := exponentWidth_le ((b :: rest).drop
    (digitsWidth (b :: rest) + fractionWidth ((b :: rest).drop (digitsWidth (b :: rest)))))
  simp only [List.length_drop, List.length_cons] at hwhole hfraction hexponent
  simp only [numberLexeme]
  omega

theorem stringBody_width_le (quote : UInt8) (s : Bytes) : (stringBody quote s).width ≤ s.length := by
  fun_induction stringBody quote s with
  | case1 | case2 => simp
  | case3 | case5 => simp
  | case4 more body hnewline ih =>
    simp only [List.length_cons, body]
    omega
  | case6 b rest hnewline hquote body ih =>
    simp only [List.length_cons, body]
    omega

theorem length_spelling {p : Punct} : (utf8 p.spelling).length = p.spelling.length := by
  cases p <;> decide

theorem punct?_spelling_le {b : UInt8} {rest : Bytes} {p : Punct} (h : punct? b rest = some p) :
    p.spelling.length ≤ rest.length + 1 := by
  have hstarts : (utf8 p.spelling).isPrefixOf (b :: rest) := by
    unfold punct? at h
    simp only at h
    split at h
    · cases h
      have := List.find?_some ‹_›
      simp_all
    · have := List.find?_some h
      simp_all
  rw [← length_spelling]
  exact (List.isPrefixOf_iff_prefix.mp hstarts).length_le

theorem punctLexeme_extra_le (b : UInt8) (rest : Bytes) :
    (punctLexeme b rest).extra ≤ rest.length := by
  unfold punctLexeme
  split
  case h_1 p hp =>
    have := punct?_spelling_le hp
    simp only
    omega
  case h_2 =>
    have := Utf8.decode_width_le b rest
    simp only
    omega

theorem lexeme_extra_le (b : UInt8) (rest : Bytes) : (lexeme b rest).extra ≤ rest.length := by
  unfold lexeme
  split
  · simp only [nameLexeme, List.length_take, List.length_cons]
    omega
  split
  · exact numberLexeme_extra_le b rest
  split
  · exact (List.takeWhile_prefix _).length_le
  split
  · exact stringBody_width_le b rest
  split
  · exact (List.takeWhile_prefix _).length_le
  · exact punctLexeme_extra_le b rest

theorem lexeme_kind_ne (b : UInt8) (rest : Bytes) : (lexeme b rest).kind ≠ .endOfFile := by
  simp only [lexeme, nameLexeme, numberLexeme, hexLexeme, stringLexeme, charLexeme, punctLexeme]
  repeat' split
  all_goals simp

/-! ## One token -/

/-- What reading one token can do: skip filler and take a word, or reach the end of the text. -/
theorem step_cases (l : Lexer) :
    (∃ gap b rest n, l.rest = gap ++ b :: rest ∧ Filler (b :: rest) gap ∧ n ≤ rest.length ∧
      l.step.token.kind ≠ .endOfFile ∧ l.step.token.text = b :: rest.take n ∧
      l.step.token.span = ⟨l.file, l.offset + gap.length, l.offset + gap.length + (1 + n)⟩ ∧
      l.step.after = ⟨l.file, l.offset + gap.length + (1 + n), rest.drop n⟩) ∨
    (∃ gap rest, l.rest = gap ++ rest ∧ Filler rest gap ∧
      l.step.token = { kind := .endOfFile,
                       span := ⟨l.file, l.offset + l.rest.length, l.offset + l.rest.length⟩ } ∧
      (rest = [] ∨ OpenComment rest ∧
        diagnostic l.file (l.offset + gap.length) (l.offset + l.rest.length) .unterminatedComment
          ∈ l.step.errors)) := by
  obtain ⟨gap, rest, hrest, hgap, ht | ⟨hopen, ht⟩⟩ := trivia_skips l.rest
  · have hdrop : l.rest.drop gap.length = rest := by rw [hrest, List.drop_left]
    match rest with
    | [] =>
      refine .inr ⟨gap, [], hrest, hgap, ?_, .inl rfl⟩
      have hlength : l.rest.length = gap.length := by rw [hrest, List.append_nil]
      simp only [step, ht, hdrop, hlength]
    | b :: rest =>
      refine .inl ⟨gap, b, rest, _, hrest, hgap, lexeme_extra_le b rest, ?_⟩
      simp only [step, ht, hdrop, and_true]
      exact lexeme_kind_ne b rest
  · have hdrop : l.rest.drop l.rest.length = [] := List.drop_length
    refine .inr ⟨gap, rest, hrest, hgap, ?_, .inr ⟨hopen, ?_⟩⟩
    · simp only [step, ht, hdrop]
    · simp [step, ht]

/-! ## The whole text -/

/-- The bytes of a text from one offset up to another. -/
def slice (content : Bytes) (start stop : Nat) : Bytes := (content.drop start).take (stop - start)

/-- The spans between the words of a list, from `start` on and up to the last word. -/
def gaps (start : Nat) (words : List Token) : List (Nat × Nat) :=
  (start :: words.map (·.span.stop)).zip (words.map (·.span.start))

/-- Where the last word of a list stops. -/
def lastStop (start : Nat) (words : List Token) : Nat :=
  (words.getLast?.map (·.span.stop)).getD start

/-- A word of a text: it has bytes, which are those of its span. -/
structure IsWord (content : Bytes) (file : Nat) (t : Token) : Prop where
  kind_ne : t.kind ≠ .endOfFile
  file_eq : t.span.file = file
  start_lt : t.span.start < t.span.stop
  stop_le : t.span.stop ≤ content.length
  text_eq : t.text = slice content t.span.start t.span.stop

/-- The part of a text from `start` on is cut into words and filler, and `last` ends it. -/
structure Tiles (content : Bytes) (file start : Nat) (words : List Token) (last : Token)
    (errors : List Diagnostic) : Prop where
  word : ∀ t ∈ words, IsWord content file t
  /-- The words stand one behind the other. -/
  start_le : ∀ t ∈ words, start ≤ t.span.start
  ordered : words.Pairwise (·.span.stop ≤ ·.span.start)
  /-- The bytes before each word are blanks and whole comments. -/
  filled : ∀ gap ∈ gaps start words, Filler (content.drop gap.2) (slice content gap.1 gap.2)
  /-- So are those behind the last, up to a block comment that is open and was reported. -/
  ending : ∃ gap rest, content.drop (lastStop start words) = gap ++ rest ∧ Filler rest gap ∧
    (rest = [] ∨ OpenComment rest ∧
      diagnostic file (content.length - rest.length) content.length .unterminatedComment ∈ errors)
  /-- The last token has no bytes and stands at the end. -/
  last_eq : last = { kind := .endOfFile, span := ⟨file, content.length, content.length⟩ }

section Run

variable {content : Bytes} {l : Lexer}

theorem lastStop_cons (start : Nat) (t : Token) (words : List Token) :
    lastStop start (t :: words) = lastStop t.span.stop words := by
  cases h : words.getLast? <;> simp [lastStop, List.getLast?_cons, h]

theorem Tiles.cons {t last : Token} {words : List Token} {errors before : List Diagnostic}
    {file start : Nat} (ht : IsWord content file t) (hstart : start ≤ t.span.start)
    (hgap : Filler (content.drop t.span.start) (slice content start t.span.start))
    (h : Tiles content file t.span.stop words last errors) :
    Tiles content file start (t :: words) last (before ++ errors) := by
  refine ⟨?_, ?_, ?_, ?_, ?_, h.last_eq⟩
  · intro u hu
    rcases List.mem_cons.mp hu with rfl | hu
    · exact ht
    · exact h.word u hu
  · intro u hu
    rcases List.mem_cons.mp hu with rfl | hu
    · exact hstart
    · have := h.start_le u hu
      have := ht.start_lt
      omega
  · exact List.pairwise_cons.mpr ⟨h.start_le, h.ordered⟩
  · intro gap hin
    rcases List.mem_cons.mp hin with rfl | hin
    · exact hgap
    · exact h.filled gap hin
  · obtain ⟨gap, rest, heq, hfill, hopen⟩ := h.ending
    refine ⟨gap, rest, lastStop_cons start t words ▸ heq, hfill, ?_⟩
    exact hopen.imp_right fun ⟨ho, hd⟩ => ⟨ho, List.mem_append_right _ hd⟩

/-- The lexer has read all of a text before its offset and nothing behind it. -/
structure StandsIn (content : Bytes) (l : Lexer) : Prop where
  rest_eq : content.drop l.offset = l.rest
  offset_le : l.offset ≤ content.length

theorem StandsIn.length_eq (h : StandsIn content l) :
    content.length = l.offset + l.rest.length := by
  have := congrArg List.length h.rest_eq
  have := h.offset_le
  rw [List.length_drop] at *
  omega

theorem StandsIn.word (h : StandsIn content l) (hkind : l.step.token.kind ≠ .endOfFile) :
    IsWord content l.file l.step.token ∧ l.offset ≤ l.step.token.span.start ∧
      Filler (content.drop l.step.token.span.start)
        (slice content l.offset l.step.token.span.start) ∧
      StandsIn content l.step.after ∧ l.step.after.file = l.file ∧
      l.step.after.offset = l.step.token.span.stop := by
  obtain ⟨gap, b, rest, n, hrest, hgap, hn, -, htext, hspan, hafter⟩ | ⟨_, _, _, _, htoken, _⟩ :=
    step_cases l
  · have hdrop : content.drop (l.offset + gap.length) = b :: rest := by
      rw [← List.drop_drop, h.rest_eq, hrest, List.drop_left]
    have hlength : content.length = l.offset + gap.length + (1 + rest.length) := by
      rw [h.length_eq, hrest, List.length_append, List.length_cons]
      omega
    have hbehind : content.drop (l.offset + gap.length + (1 + n)) = rest.drop n := by
      rw [← List.drop_drop, hdrop, Nat.add_comm 1 n, List.drop_succ_cons]
    have htext' : l.step.token.text =
        slice content (l.offset + gap.length) (l.offset + gap.length + (1 + n)) := by
      rw [htext, slice, hdrop, Nat.add_sub_cancel_left, Nat.add_comm 1 n, List.take_succ_cons]
    have hbefore : slice content l.offset (l.offset + gap.length) = gap := by
      rw [slice, h.rest_eq, hrest, Nat.add_sub_cancel_left, List.take_left]
    have hword : IsWord content l.file l.step.token := by
      refine ⟨hkind, ?_, ?_, ?_, ?_⟩ <;> rw [hspan]
      · exact Nat.lt_add_of_pos_right (by omega)
      · exact hlength ▸ Nat.add_le_add_left (Nat.add_le_add_left hn 1) _
      · exact htext'
    refine ⟨hword, ?_, ?_, ?_, by rw [hafter], by rw [hafter, hspan]⟩
    · rw [hspan]
      exact Nat.le_add_right _ _
    · rw [hspan, hdrop, hbefore]
      exact hgap
    · rw [hafter]
      exact ⟨hbehind, hlength ▸ Nat.add_le_add_left (Nat.add_le_add_left hn 1) _⟩
  · exact absurd (by rw [htoken]) hkind

theorem StandsIn.tiles_end (h : StandsIn content l) (hkind : l.step.token.kind = .endOfFile) :
    Tiles content l.file l.offset [] l.step.token l.step.errors := by
  obtain ⟨_, _, _, _, _, _, _, hne, _⟩ | ⟨gap, rest, hrest, hgap, htoken, hopen⟩ := step_cases l
  · exact absurd hkind hne
  · have hlength := h.length_eq
    have hrestLength : l.rest.length = gap.length + rest.length := by
      rw [hrest, List.length_append]
    have hstart : content.length - rest.length = l.offset + gap.length := by omega
    refine ⟨by simp, by simp, .nil, by simp [gaps], ⟨gap, rest, ?_, hgap, ?_⟩, ?_⟩
    · exact h.rest_eq.trans hrest
    · rw [hstart, hlength]
      exact hopen
    · rw [htoken, hlength]

theorem StandsIn.tiles (h : StandsIn content l) :
    ∃ words last, l.tokens.1 = words ++ [last] ∧
      Tiles content l.file l.offset words last l.tokens.2 := by
  induction l using tokens.induct with
  | case1 l s hend =>
    rw [tokens, dif_pos hend]
    exact ⟨[], l.step.token, rfl, h.tiles_end hend⟩
  | case2 l s hkind words errors htokens ih =>
    rw [tokens, dif_neg hkind]
    obtain ⟨hword, hstart, hgap, hstands, hfile, hoffset⟩ := h.word hkind
    obtain ⟨words, last, hwords, htiles⟩ := ih hstands
    rw [hfile, hoffset] at htiles
    exact ⟨l.step.token :: words, last, by simp [hwords, s], htiles.cons hword hstart hgap⟩

end Run

end Lexer

/-- Reading all tokens of a file cuts its text, whatever its bytes, into words and filler. -/
theorem SourceFile.tokenize_tiles (f : SourceFile) :
    ∃ words last, f.tokenize.1 = words ++ [last] ∧
      Lexer.Tiles f.content f.id 0 words last f.tokenize.2 :=
  Lexer.StandsIn.tiles (l := .ofFile f) ⟨rfl, Nat.zero_le _⟩

end Pascaline
