import Pascaline.Proofs.Lexing.Tiling

/-!
# Looking ahead

A token stream reads a token when it is first asked for, be it to show the token or to give it
away, and it reports the errors of the token at that moment. Main statement: in whatever order
tokens are shown and taken, those taken are the tokens of the file and then its end again and
again, a token shown is the one that is taken next, and the errors are those of the file, each
once and in their order.
-/

namespace Pascaline

namespace Lexer

/-! ## The tokens one by one -/

/-- The lexer behind its next `n` tokens. -/
def skip (l : Lexer) : Nat → Lexer
  | 0 => l
  | n + 1 => l.step.after.skip n

/-- The errors in the next `n` tokens. -/
def errorsIn (l : Lexer) : Nat → List Diagnostic
  | 0 => []
  | n + 1 => l.step.errors ++ l.step.after.errorsIn n

theorem skip_succ (l : Lexer) (n : Nat) : l.skip (n + 1) = (l.skip n).step.after := by
  induction n generalizing l with
  | zero => rfl
  | succ n ih => exact ih l.step.after

theorem errorsIn_succ (l : Lexer) (n : Nat) :
    l.errorsIn (n + 1) = l.errorsIn n ++ (l.skip n).step.errors := by
  induction n generalizing l with
  | zero => simp [errorsIn, skip]
  | succ n ih =>
    rw [errorsIn, ih, errorsIn, skip, List.append_assoc]

theorem errorsIn_isPrefix (l : Lexer) (n m : Nat) : l.errorsIn n <+: l.errorsIn (n + m) := by
  induction m with
  | zero => exact List.prefix_rfl
  | succ m ih =>
    rw [← Nat.add_assoc, errorsIn_succ]
    exact ih.trans (List.prefix_append _ _)

/-! ## At the end of the text -/

/-- The token that stands at the end of a text, and behind it. -/
def endToken (file length : Nat) : Token := { kind := .endOfFile, span := ⟨file, length, length⟩ }

theorem step_nil {l : Lexer} (h : l.rest = []) : l.step = ⟨endToken l.file l.offset, [], l⟩ := by
  obtain ⟨file, offset, rest⟩ := l
  subst h
  simp [step, trivia, endToken]

theorem skip_nil {l : Lexer} (h : l.rest = []) (n : Nat) : l.skip n = l := by
  induction n with
  | zero => rfl
  | succ n ih => rw [skip_succ, ih, step_nil h]

theorem errorsIn_nil {l : Lexer} (h : l.rest = []) (n : Nat) : l.errorsIn n = [] := by
  induction n with
  | zero => rfl
  | succ n ih => rw [errorsIn_succ, ih, skip_nil h, step_nil h, List.append_nil]

theorem after_of_end {l : Lexer} (h : l.step.token.kind = .endOfFile) :
    l.step.after = ⟨l.file, l.step.token.span.start, []⟩ := by
  unfold step at h ⊢
  simp only at h ⊢
  split at h
  · rfl
  · exact absurd h (lexeme_kind_ne _ _)

variable {content : Bytes} {l : Lexer}

theorem StandsIn.token_of_end (h : StandsIn content l) (hend : l.step.token.kind = .endOfFile) :
    l.step.token = endToken l.file content.length := by
  obtain ⟨_, _, _, _, _, _, _, hne, _⟩ | ⟨_, _, _, _, htoken, _⟩ := step_cases l
  · exact absurd hend hne
  · rw [htoken, h.length_eq, endToken]

theorem StandsIn.token_skip (h : StandsIn content l) (n : Nat) :
    (l.skip n).step.token = l.tokens.1.getD n (endToken l.file content.length) := by
  induction l using tokens.induct generalizing n with
  | case1 l s hend =>
    rw [tokens, dif_pos hend]
    have hafter := after_of_end hend
    have htoken := h.token_of_end hend
    cases n with
    | zero => rfl
    | succ n =>
      rw [skip, hafter, skip_nil rfl, step_nil rfl, htoken]
      rfl
  | case2 l s hkind words errors htokens ih =>
    rw [tokens, dif_neg hkind]
    obtain ⟨-, -, -, hstands, hfile, -⟩ := h.word hkind
    cases n with
    | zero => rfl
    | succ n =>
      rw [skip, ih hstands n, hfile]
      rfl

theorem errorsIn_all (l : Lexer) (m : Nat) : l.errorsIn (l.tokens.1.length + m) = l.tokens.2 := by
  induction l using tokens.induct generalizing m with
  | case1 l s hend =>
    rw [tokens, dif_pos hend, List.length_singleton, Nat.add_comm, errorsIn,
      errorsIn_nil (congrArg Lexer.rest (after_of_end hend)), List.append_nil]
  | case2 l s hkind words errors htokens ih =>
    rw [tokens, dif_neg hkind]
    simp only [List.length_cons, Nat.add_right_comm _ 1 m, errorsIn]
    rw [ih m]

theorem errorsIn_isPrefix_tokens (l : Lexer) (n : Nat) : l.errorsIn n <+: l.tokens.2 := by
  rw [← l.errorsIn_all n, Nat.add_comm]
  exact l.errorsIn_isPrefix n _

theorem errorsIn_of_le (l : Lexer) {n : Nat} (hn : l.tokens.1.length ≤ n) :
    l.errorsIn n = l.tokens.2 := by
  obtain ⟨m, rfl⟩ := Nat.exists_eq_add_of_le hn
  exact l.errorsIn_all m

end Lexer

namespace TokenStream

/-! ## Requests -/

/-- What may be asked of a token stream. -/
inductive Request where
  | peek
  | next
deriving Repr, DecidableEq

def answer (s : TokenStream) : Request → Token × TokenStream
  | .peek => s.peek
  | .next => s.next

/-- Answers requests one after the other. -/
def serve (s : TokenStream) : List Request → List Token × TokenStream
  | [] => ([], s)
  | r :: requests =>
    let (t, s) := s.answer r
    let (answers, s) := s.serve requests
    (t :: answers, s)

/-- The stream over a lexer when `taken` tokens were taken and, maybe, the next one was shown. -/
def reading (l : Lexer) (taken : Nat) (shown : Bool) : TokenStream where
  lexer := l.skip (taken + shown.toNat)
  ahead := if shown then some (l.skip taken).step.token else none
  errors := l.errorsIn (taken + shown.toNat)

theorem peek_reading (l : Lexer) (taken : Nat) (shown : Bool) :
    (reading l taken shown).peek = ((l.skip taken).step.token, reading l taken true) := by
  cases shown with
  | true => rfl
  | false => simp [reading, peek, Lexer.skip_succ, Lexer.errorsIn_succ]

theorem next_reading (l : Lexer) (taken : Nat) (shown : Bool) :
    (reading l taken shown).next = ((l.skip taken).step.token, reading l (taken + 1) false) := by
  cases shown with
  | true => rfl
  | false => simp [reading, next, Lexer.skip_succ, Lexer.errorsIn_succ]

/-- Whether the next token is shown when the requests are answered. -/
def shownAfter (shown : Bool) (requests : List Request) : Bool :=
  (requests.getLast?.map (decide <| · = .peek)).getD shown

theorem shownAfter_cons (shown : Bool) (r : Request) (requests : List Request) :
    shownAfter shown (r :: requests) = shownAfter (r = .peek) requests := by
  cases h : requests.getLast? <;> simp [shownAfter, List.getLast?_cons, h]

theorem serve_reading (l : Lexer) (taken : Nat) (shown : Bool) (requests : List Request) :
    (reading l taken shown).serve requests =
      ((List.range requests.length).map
          fun i => (l.skip (taken + (requests.take i).count .next)).step.token,
        reading l (taken + requests.count .next) (shownAfter shown requests)) := by
  induction requests generalizing taken shown with
  | nil => rfl
  | cons r requests ih =>
    rw [shownAfter_cons]
    cases r with
    | peek =>
      simp [serve, answer, peek_reading, ih, List.range_succ_eq_map, Function.comp_def]
    | next =>
      simp [serve, answer, next_reading, ih, List.range_succ_eq_map, Function.comp_def,
        Nat.add_assoc, Nat.add_comm 1]

/-! ## What a reader sees -/

/-- How many tokens are read to answer requests: those taken, and one more if it is shown. -/
def readFor (requests : List Request) : Nat :=
  requests.count .next + (shownAfter false requests).toNat

/-- The answers to the requests that take a token. -/
def taken (requests : List Request) (answers : List Token) : List Token :=
  ((requests.zip answers).filter (·.1 = .next)).map (·.2)

end TokenStream

/-- Token `n` of a file, counted from zero. Behind the last token the file ends again and again. -/
def SourceFile.tokenAt (f : SourceFile) (n : Nat) : Token :=
  f.tokenize.1.getD n (Lexer.endToken f.id f.content.length)

namespace TokenStream

/-- A reader of a file who may look ahead sees what one sees who reads all of it at once. -/
structure Transparent (f : SourceFile) (requests : List Request) (answers : List Token)
    (reported : List Diagnostic) : Prop where
  length_eq : answers.length = requests.length
  /-- The tokens taken are those of the file in their order. -/
  taken_eq : taken requests answers = (List.range (requests.count .next)).map f.tokenAt
  /-- Whatever is answered is the token that a request to take one would get. -/
  answer_eq : ∀ i < requests.length,
    answers[i]? = some (f.tokenAt ((requests.take i).count .next))
  /-- A token shown is the one taken next, with nothing but further looks between. -/
  shown_eq : ∀ i j, i ≤ j → j < requests.length →
    (∀ k, i ≤ k → k < j → requests[k]? = some .peek) → answers[i]? = answers[j]?
  /-- Errors are reported with the tokens that were read, shown tokens included. -/
  reported_eq : reported = (Lexer.ofFile f).errorsIn (readFor requests)
  reported_isPrefix : reported <+: f.tokenize.2
  /-- Once the end of the file is read, every error was reported, and none twice. -/
  reported_all : f.tokenize.1.length ≤ readFor requests → reported = f.tokenize.2

variable (f : SourceFile) (requests : List Request)

theorem ofFile_eq : ofFile f = reading (.ofFile f) 0 false := rfl

theorem token_skip_ofFile (n : Nat) : ((Lexer.ofFile f).skip n).step.token = f.tokenAt n :=
  Lexer.StandsIn.token_skip (l := .ofFile f) ⟨rfl, Nat.zero_le _⟩ n

theorem serve_ofFile :
    (ofFile f).serve requests =
      ((List.range requests.length).map fun i => f.tokenAt ((requests.take i).count .next),
        reading (.ofFile f) (requests.count .next) (shownAfter false requests)) := by
  rw [ofFile_eq, serve_reading]
  simp only [Nat.zero_add, token_skip_ofFile]

/-- Of answers that are numbered by the tokens taken before them, those taken are numbered through. -/
theorem taken_map (token : Nat → Token) (n : Nat) :
    taken requests ((List.range requests.length).map fun i =>
        token (n + (requests.take i).count .next)) =
      (List.range (requests.count .next)).map fun i => token (n + i) := by
  unfold taken
  induction requests generalizing n with
  | nil => rfl
  | cons r requests ih =>
    cases r with
    | peek =>
      simpa [List.range_succ_eq_map, Function.comp_def] using ih n
    | next =>
      simpa [List.range_succ_eq_map, Function.comp_def, Nat.add_assoc, Nat.add_comm 1]
        using ih (n + 1)

theorem count_take_of_peeks {i j : Nat} (hij : i ≤ j)
    (h : ∀ k, i ≤ k → k < j → requests[k]? = some .peek) :
    (requests.take j).count .next = (requests.take i).count .next := by
  induction j, hij using Nat.le_induction with
  | base => rfl
  | succ j hij ih =>
    rw [List.take_add_one, h j hij (Nat.lt_succ_self j), List.count_append,
      ih fun k hk hkj => h k hk (Nat.lt_succ_of_lt hkj)]
    rfl

/-- Whatever the order in which tokens are shown and taken, looking ahead does not show. -/
theorem peeking_is_transparent :
    Transparent f requests ((ofFile f).serve requests).1 ((ofFile f).serve requests).2.errors := by
  rw [serve_ofFile]
  have hanswer : ∀ i < requests.length, ((List.range requests.length).map
      fun i => f.tokenAt ((requests.take i).count .next))[i]? =
        some (f.tokenAt ((requests.take i).count .next)) := by
    intro i hi
    simp [hi]
  constructor
  case length_eq => simp
  case taken_eq => simpa using taken_map requests f.tokenAt 0
  case answer_eq => exact hanswer
  case shown_eq =>
    intro i j hij hj hpeeks
    rw [hanswer i (Nat.lt_of_le_of_lt hij hj), hanswer j hj, count_take_of_peeks _ hij hpeeks]
  case reported_eq => rfl
  case reported_isPrefix => exact Lexer.errorsIn_isPrefix_tokens _ _
  case reported_all => exact Lexer.errorsIn_of_le _

end TokenStream

end Pascaline
