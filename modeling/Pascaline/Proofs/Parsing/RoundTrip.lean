import Pascaline.Proofs.Parsing.Steps

/-!
# Printed expressions read back

The parser of one precedence reads an expression of that precedence and comes to the loop behind it:
there it goes on with what binds as tightly, or stops. So an expression is read up to a token that
goes on with nothing tighter, and then the loops of the looser precedences have their turn.
-/

namespace Pascaline.Tree

/-! ## Expressions between two states -/

/-- Between the states lies the expression, read as `y`, and these words are ahead behind it. -/
structure Between (s : Input) (x : Expr) (ahead : List Token) (y : Expr) (s' : Input) : Prop where
  like : x.Like y
  words : s'.words = ahead
  suffix : s'.ahead <:+ s.ahead

/-- With the words ahead, the parser of this precedence reads the expression and comes to the loop
behind it, if the next word goes on with nothing tighter. The words pay for the calls. -/
def Arrives (p : Precedence) (words : List Token) (x : Expr) : Prop :=
  ∀ (fuel : Nat) ⦃s : Input⦄ ⦃w : Token⦄ ⦃ws : List Token⦄, s.words = words ++ w :: ws →
    (∀ q : Precedence, p.rank < q.rank → w.kind ∉ q.marks) →
    16 * words.length + 6 ≤ fuel + p.rank →
    ∃ fuel' start y s', p.parser fuel s = p.rest fuel' start y s' ∧ Between s x (w :: ws) y s' ∧
      fuel ≤ fuel' + words.length + 1

section

variable {p place : Precedence} {words : List Token} {x y : Expr} {fuel : Nat} {s : Input}
  {w : Token} {ws : List Token} {sp : Span}

/-- The whole expression is read where the loop stops. -/
theorem Arrives.reads (h : Arrives p words x) (fuel : Nat) (hs : s.words = words ++ w :: ws)
    (hw : ∀ q : Precedence, p.rank ≤ q.rank → w.kind ∉ q.marks)
    (hfuel : 16 * words.length + 6 ≤ fuel + p.rank) :
    ∃ y s', p.parser fuel s = .ok (y, s') ∧ Between s x (w :: ws) y s' := by
  have hrank := p.rank_le
  obtain ⟨fuel', start, y, s', hrun, hbetween, hle⟩ :=
    h fuel hs (fun q hq => hw q (Nat.le_of_lt hq)) hfuel
  refine ⟨y, s', ?_, hbetween⟩
  rw [hrun]
  refine Precedence.rest_stops (by omega) ?_
  rw [Input.kind_next hbetween.words]
  exact hw p (Nat.le_refl _)

theorem Arrives.loosen (h : Arrives p.next words x) (hp : p ≠ .operand)
    (hstarts : Starts p.next words) : Arrives p words x := by
  intro fuel s w ws hs hw hfuel
  have hrank := Precedence.rank_next hp
  obtain ⟨fuel, rfl⟩ : ∃ n, fuel = n + 1 := ⟨fuel - 1, by have := p.rank_le; omega⟩
  obtain ⟨y, s', hrun, hbetween⟩ :=
    h.reads fuel hs (fun q hq => hw q (by omega)) (by omega)
  refine ⟨fuel, y.span, y, s', ?_, hbetween, by omega⟩
  rw [Precedence.parser_succ hp, Parser.bind_of_run hrun]
  -- only the parser of factors looks at the first word
  rintro rfl
  obtain ⟨t, ts, rfl, -, hprefix⟩ := hstarts
  rw [Input.kind_next hs]
  exact hprefix rfl

theorem Arrives.lift (h : Arrives p words x) (hstarts : Starts p words)
    (hle : place.rank ≤ p.rank) : Arrives place words x := by
  obtain ⟨steps, hsteps⟩ := Nat.exists_eq_add_of_le hle
  induction steps generalizing place with
  | zero =>
    obtain rfl := Precedence.eq_of_rank_eq hsteps.symm
    exact h
  | succ steps ih =>
    have hne : place ≠ .operand := by
      rintro rfl
      have htightest : p.rank ≤ Precedence.operand.rank := p.rank_le
      omega
    have hnext := Precedence.rank_next hne
    exact (ih (by omega) (by omega)).loosen hne (hstarts.mono (by omega))

/-! ## Atoms and parentheses -/

theorem arrives_atom {t : Token} (ht : t.kind ≠ .endOfFile)
    (h : ∀ (u : Token) (named : u.Named), u.bare = t →
      ∃ y, Parser.atom? u named = some y ∧ x.Like y) : Arrives .operand [t] x := by
  intro fuel s w ws hs hw hfuel
  obtain ⟨fuel, rfl⟩ : ∃ n, fuel = n + 2 := ⟨fuel - 2, by simp [Precedence.rank] at hfuel; omega⟩
  obtain ⟨y, hy, hlike⟩ := h s.next s.named_next (Input.bare_next hs)
  have hne : s.next.kind ≠ .endOfFile := by rwa [Input.kind_next hs]
  refine ⟨fuel + 1, y.span, y, s.taken, ?_, ⟨hlike, Input.words_taken hs, s.ahead_taken⟩, by simp⟩
  rw [Precedence.parser, Parser.operand, Parser.bind_of_run (Parser.primary_of_atom? hy hne)]
  rfl

theorem arrives_literal {k : LitKind} {text : Bytes} (hnil : k = .nil → text = utf8 "nil") :
    Arrives .operand [literalToken k text] (.literal k text sp) := by
  refine arrives_atom ?_ fun u named hu => ?_
  · cases k
    case bool => obtain htrue | hfalse := literalKind_bool text <;> simp [literalToken, *]
    all_goals simp [literalToken, literalKind]
  · have hkind : u.kind = literalKind k text := congrArg Token.kind hu
    have hvalue : u.value = text := by
      rw [← Token.bare_value (.inl (isLiteral_of_kind hkind)), hu, literalToken]
    have htext : (if k = .nil then utf8 "nil" else u.value) = text := by
      split
      · exact (hnil ‹_›).symm
      · exact hvalue
    refine ⟨_, Parser.atom?_of_literalKind hkind, ?_⟩
    rw [htext]
    exact .literal _ _ _ _

theorem arrives_name {id : Ident} : Arrives .operand [nameToken id] (.name id) := by
  refine arrives_atom (by simp [nameToken]) fun u named hu => ?_
  have hkind : u.kind = .identifier := congrArg Token.kind hu
  obtain ⟨id', hname, htext, hatom⟩ := Parser.atom?_of_identifier named hkind
  refine ⟨_, hatom, .name ?_ ?_⟩
  · rw [hname, ← Token.bare_value (.inr hkind), hu, nameToken, Utf8.toString_utf8]
  · rw [htext, ← Token.bare_text hkind, hu, nameToken, Utf8.toString_utf8]

theorem arrives_word {k : Keyword} (h : ∀ (u : Token) (named : u.Named), u.kind = .keyword k →
    ∃ y, Parser.atom? u named = some y ∧ x.Like y) : Arrives .operand [word k] x := by
  refine arrives_atom (by simp [word]) fun u named hu => h u named ?_
  rw [← Token.bare_kind, hu, word]

theorem Arrives.paren (h : Arrives .relation words x) :
    Arrives .operand (mark .lParen :: (words ++ [mark .rParen])) x := by
  intro fuel s w ws hs hw hfuel
  simp only [List.cons_append, List.append_assoc, List.nil_append] at hs
  simp only [List.length_cons, List.length_append, List.length_nil, Precedence.rank] at hfuel
  obtain ⟨fuel, rfl⟩ : ∃ n, fuel = n + 2 := ⟨fuel - 2, by omega⟩
  obtain ⟨y, s₁, hinner, hbetween⟩ := h.reads fuel (Input.words_taken hs)
    (fun q _ => ends_mark (by decide) q) (by simp only [Precedence.rank]; omega)
  have hrun : Parser.primary (fuel + 1) s = .ok (y, s₁.taken) := by
    change Parser.expr fuel s.taken = _ at hinner
    rw [Parser.primary_of_lParen (Input.kind_next hs), Parser.bind_of_run hinner,
      Parser.bind_of_run (Parser.expectPunct_of_eq (Input.kind_next hbetween.words))]
    rfl
  refine ⟨fuel + 1, y.span, y, s₁.taken, ?_, ⟨hbetween.like, ?_, ?_⟩, by simp⟩
  · rw [Precedence.parser, Parser.operand, Parser.bind_of_run hrun]
    rfl
  · exact Input.words_taken hbetween.words
  · exact (Input.ahead_taken _).trans (hbetween.suffix.trans s.ahead_taken)

/-- An operand is read at its place, between parentheses if it binds too loosely. -/
theorem Arrives.guarded (h : Arrives p words x) (hstarts : Starts p words) :
    Arrives place (guarded place p words) x := by
  unfold Tree.guarded
  split
  case isTrue =>
    have hparen : Starts .operand (mark .lParen :: (words ++ [mark .rParen])) :=
      ⟨_, _, rfl, by decide, fun _ => by decide⟩
    exact (h.lift hstarts (Nat.zero_le _)).paren.lift hparen place.rank_le
  case isFalse htight => exact h.lift hstarts (Nat.le_of_not_lt htight)

/-! ## Operators -/

theorem Arrives.unary (op : UnaryOp) (h : Arrives .factor words x) :
    Arrives .factor ({ kind := op.token, span := {} } :: words) (.unary op x sp) := by
  intro fuel s w ws hs hw hfuel
  simp only [List.length_cons, Precedence.rank] at hfuel
  obtain ⟨fuel, rfl⟩ : ∃ n, fuel = n + 1 := ⟨fuel - 1, by omega⟩
  have hstops : ∀ q : Precedence, Precedence.factor.rank ≤ q.rank → w.kind ∉ q.marks := by
    intro q hq
    cases q
    case operand => exact hw .operand (by decide)
    case factor => exact List.not_mem_nil
    all_goals exact absurd hq (by decide)
  obtain ⟨y, s₁, hinner, hbetween⟩ := h.reads fuel (Input.words_taken hs) hstops
    (by simp only [Precedence.rank]; omega)
  change Parser.factor fuel s.taken = _ at hinner
  refine ⟨fuel + 1, {}, .unary op y (s.next.span.cover s₁.last), s₁, ?_, ⟨?_, ?_, ?_⟩, by omega⟩
  · rw [Precedence.parser, Parser.factor_of_unary (Input.kind_next hs), Parser.bind_of_run hinner]
    rfl
  · exact .unary op _ _ hbetween.like
  · exact hbetween.words
  · exact hbetween.suffix.trans s.ahead_taken

theorem Arrives.addr (h : Arrives .operand words x) :
    Arrives .factor (mark .at :: words) (.addr x sp) := by
  intro fuel s w ws hs hw hfuel
  simp only [List.length_cons, Precedence.rank] at hfuel
  obtain ⟨fuel, rfl⟩ : ∃ n, fuel = n + 1 := ⟨fuel - 1, by omega⟩
  obtain ⟨y, s₁, hinner, hbetween⟩ := h.reads fuel (Input.words_taken hs)
    (fun q hq => hw q (Nat.lt_of_lt_of_le (by decide) hq)) (by simp only [Precedence.rank]; omega)
  change Parser.operand fuel s.taken = _ at hinner
  refine ⟨fuel + 1, {}, .addr y (s.next.span.cover s₁.last), s₁, ?_, ⟨?_, ?_, ?_⟩, by omega⟩
  · rw [Precedence.parser, Parser.factor_of_at (Input.kind_next hs), Parser.bind_of_run hinner]
    rfl
  · exact .addr _ _ hbetween.like
  · exact hbetween.words
  · exact hbetween.suffix.trans s.ahead_taken

/-- The left operand is what the loop has; the right one binds tighter, so that the loop has the
next turn. -/
theorem Arrives.binary (op : BinaryOp) {words' : List Token} (hx : Arrives op.precedence words x)
    (hy : Arrives op.precedence.next words' y) :
    Arrives op.precedence (words ++ { kind := op.token, span := {} } :: words')
      (.binary op x y sp) := by
  intro fuel s w ws hs hw hfuel
  simp only [List.append_assoc, List.cons_append] at hs
  simp only [List.length_append, List.length_cons] at hfuel ⊢
  have hrank : op.precedence.next.rank = op.precedence.rank + 1 :=
    Precedence.rank_next (by cases op <;> decide)
  have hle := op.precedence.rank_le
  obtain ⟨fuel₁, start, x', s₁, hrun, hbetween, hfuel₁⟩ :=
    hx fuel hs (fun q hq => op.token_not_mem_marks hq) (by omega)
  obtain ⟨fuel₁, rfl⟩ : ∃ n, fuel₁ = n + 1 := ⟨fuel₁ - 1, by omega⟩
  obtain ⟨y', s₂, hright, hbetween'⟩ := hy.reads fuel₁ (Input.words_taken hbetween.words)
    (fun q hq => hw q (by omega)) (by omega)
  refine ⟨fuel₁, start, Parser.binary op x' y', s₂, ?_, ⟨?_, hbetween'.words, ?_⟩, by omega⟩
  · rw [hrun, Precedence.rest_succ (Input.kind_next hbetween.words), Parser.bind_of_run hright]
  · exact .binary op _ _ hbetween.like hbetween'.like
  · exact hbetween'.suffix.trans ((Input.ahead_taken _).trans hbetween.suffix)

/-! ## What is attached to an operand -/

theorem Arrives.attach {more : List Token} {z : Expr} (h : Arrives .operand words x)
    (hmore : ∀ (fuel : Nat) (start : Span) (y : Expr) ⦃s : Input⦄ ⦃w : Token⦄ ⦃ws : List Token⦄,
      x.Like y → s.words = more ++ w :: ws → 16 * more.length ≤ fuel + 1 →
      ∃ z' s', Parser.attached (fuel + 1) start y s = Parser.attached fuel start z' s' ∧
        Between s z (w :: ws) z' s') (hne : more ≠ []) :
    Arrives .operand (words ++ more) z := by
  intro fuel s w ws hs hw hfuel
  obtain ⟨t, ts, rfl⟩ := List.exists_cons_of_ne_nil hne
  simp only [List.append_assoc, List.cons_append] at hs
  simp only [List.length_append, List.length_cons, Precedence.rank] at hfuel hmore ⊢
  -- nothing binds tighter than an operand, so that any word may follow it
  obtain ⟨fuel₁, start, y, s₁, hrun, hbetween, hfuel₁⟩ := h fuel hs
    (fun q hq => absurd hq (Nat.not_lt.mpr q.rank_le)) (by simp only [Precedence.rank]; omega)
  obtain ⟨fuel₁, rfl⟩ : ∃ n, fuel₁ = n + 1 := ⟨fuel₁ - 1, by omega⟩
  obtain ⟨z', s₂, hstep, hbetween'⟩ :=
    hmore fuel₁ start y hbetween.like hbetween.words (by omega)
  refine ⟨fuel₁, start, z', s₂, hrun.trans hstep, ⟨hbetween'.like, hbetween'.words, ?_⟩, by omega⟩
  exact hbetween'.suffix.trans hbetween.suffix

theorem ident_reads {id : Ident} (hs : s.words = nameToken id :: ws) :
    ∃ id' : Ident, Parser.ident s = .ok (id', s.taken) ∧ id.name = id'.name ∧ id.text = id'.text := by
  have hkind : s.next.kind = .identifier := Input.kind_next hs
  obtain ⟨id', hname, htext, hrun⟩ := Parser.ident_of_eq hkind
  refine ⟨id', hrun, ?_, ?_⟩
  · rw [hname, ← Token.bare_value (.inr hkind), Input.bare_next hs, nameToken, Utf8.toString_utf8]
  · rw [htext, ← Token.bare_text hkind, Input.bare_next hs, nameToken, Utf8.toString_utf8]

theorem Arrives.member (id : Ident) (h : Arrives .operand words x) :
    Arrives .operand (words ++ [mark .dot, nameToken id]) (.member x id sp) := by
  refine h.attach (fun fuel start y s w ws hlike hs hfuel => ?_) (List.cons_ne_nil _ _)
  have hname := Input.words_taken hs
  obtain ⟨id', hrun, hid, htext⟩ := ident_reads hname
  refine ⟨.member y id' (start.cover s.taken.taken.last), s.taken.taken, ?_, ?_, ?_, ?_⟩
  · rw [Parser.attached_of_dot (Input.kind_next hs), Parser.bind_of_run hrun]
    rfl
  · exact .member _ _ hlike hid htext
  · exact Input.words_taken hname
  · exact (Input.ahead_taken _).trans s.ahead_taken

theorem Arrives.deref (h : Arrives .operand words x) :
    Arrives .operand (words ++ [mark .caret]) (.deref x sp) := by
  refine h.attach (fun fuel start y s w ws hlike hs hfuel => ?_) (List.cons_ne_nil _ _)
  refine ⟨.deref y (start.cover s.taken.last), s.taken, ?_, ?_, Input.words_taken hs, s.ahead_taken⟩
  · rw [Parser.attached_of_caret (Input.kind_next hs)]
    rfl
  · exact .deref _ _ hlike

theorem Arrives.index {words' : List Token} (h : Arrives .operand words x)
    (hy : Arrives .relation words' y) :
    Arrives .operand (words ++ mark .lBracket :: (words' ++ [mark .rBracket])) (.index x y sp) := by
  refine h.attach (fun fuel start x' s w ws hlike hs hfuel => ?_) (List.cons_ne_nil _ _)
  simp only [List.cons_append, List.append_assoc, List.nil_append] at hs
  simp only [List.length_cons, List.length_append, List.length_nil] at hfuel
  obtain ⟨y', s₁, hinner, hbetween⟩ := hy.reads fuel (Input.words_taken hs)
    (fun q _ => ends_mark (by decide) q) (by omega)
  change Parser.expr fuel s.taken = _ at hinner
  refine ⟨.index x' y' (start.cover s₁.taken.last), s₁.taken, ?_, ?_, ?_, ?_⟩
  · rw [Parser.attached_of_lBracket (Input.kind_next hs), Parser.bind_of_run hinner,
      Parser.bind_of_run (Parser.expectPunct_of_eq (Input.kind_next hbetween.words))]
    rfl
  · exact .index _ _ hlike hbetween.like
  · exact Input.words_taken hbetween.words
  · exact (Input.ahead_taken _).trans (hbetween.suffix.trans s.ahead_taken)

/-! ## Arguments -/

theorem exprList_reads {xs : List Expr} (hne : xs ≠ [])
    (h : ∀ x ∈ xs, Arrives .relation x.tokens x) (fuel : Nat)
    (hs : s.words = Expr.listTokens xs ++ mark .rParen :: ws)
    (hfuel : 16 * (Expr.listTokens xs).length + 7 ≤ fuel) :
    ∃ ys s', Parser.exprList fuel s = .ok (ys, s') ∧ List.Forall₂ Expr.Like xs ys ∧
      s'.words = mark .rParen :: ws ∧ s'.ahead <:+ s.ahead := by
  induction xs generalizing fuel s with
  | nil => exact absurd rfl hne
  | cons x xs ih =>
    obtain ⟨fuel, rfl⟩ : ∃ n, fuel = n + 1 := ⟨fuel - 1, by omega⟩
    have hx := h x List.mem_cons_self
    cases xs with
    | nil =>
      rw [Expr.listTokens] at hs hfuel
      obtain ⟨y, s₁, hrun, hbetween⟩ := hx.reads fuel hs (fun q _ => ends_mark (by decide) q)
        (by simp only [Precedence.rank]; omega)
      change Parser.expr fuel s = _ at hrun
      have hclose := Input.kind_next hbetween.words
      refine ⟨[y], s₁, ?_, .cons hbetween.like .nil, hbetween.words, hbetween.suffix⟩
      rw [Parser.exprList, Parser.bind_of_run hrun, Parser.ifAccept_of_ne (by simp [hclose, mark])]
      rfl
    | cons y ys =>
      rw [Expr.listTokens] at hs hfuel
      simp only [List.append_assoc, List.cons_append] at hs
      simp only [List.length_append, List.length_cons] at hfuel
      obtain ⟨x', s₁, hrun, hbetween⟩ := hx.reads fuel hs (fun q _ => ends_mark (by decide) q)
        (by simp only [Precedence.rank]; omega)
      change Parser.expr fuel s = _ at hrun
      obtain ⟨ys', s₂, hmore, hlikes, hwords, hsuffix⟩ := ih (List.cons_ne_nil y ys)
        (fun z hz => h z (List.mem_cons_of_mem x hz)) fuel (Input.words_taken hbetween.words)
        (by omega)
      refine ⟨x' :: ys', s₂, ?_, .cons hbetween.like hlikes, hwords, ?_⟩
      · rw [Parser.exprList, Parser.bind_of_run hrun,
          Parser.ifAccept_of_eq (Input.kind_next hbetween.words), Parser.bind_of_run hmore]
        rfl
      · exact hsuffix.trans ((Input.ahead_taken _).trans hbetween.suffix)

/-- Arguments are read with their parentheses; none of them starts with the closing one. -/
theorem args_reads {xs : List Expr} (h : ∀ x ∈ xs, Arrives .relation x.tokens x)
    (hstarts : ∀ x ∈ xs, Starts .relation x.tokens) (fuel : Nat)
    (hs : s.words = mark .lParen :: (Expr.listTokens xs ++ mark .rParen :: ws))
    (hfuel : 16 * (Expr.listTokens xs).length + 8 ≤ fuel) :
    ∃ ys s', Parser.args fuel s = .ok (ys, s') ∧ List.Forall₂ Expr.Like xs ys ∧
      s'.words = ws ∧ s'.ahead <:+ s.ahead := by
  obtain ⟨fuel, rfl⟩ : ∃ n, fuel = n + 1 := ⟨fuel - 1, by omega⟩
  have hopen := Parser.expectPunct_of_eq (c := SyntaxError.unexpectedToken) (Input.kind_next hs)
  have hinside := Input.words_taken hs
  cases xs with
  | nil =>
    refine ⟨[], s.taken.taken, ?_, .nil, Input.words_taken hinside, ?_⟩
    · rw [Parser.args, Parser.bind_of_run hopen, Parser.ifAccept_of_eq (Input.kind_next hinside)]
      rfl
    · exact (Input.ahead_taken _).trans s.ahead_taken
  | cons x xs =>
    obtain ⟨ys, s₁, hrun, hlikes, hwords, hsuffix⟩ := exprList_reads (List.cons_ne_nil x xs)
      h fuel hinside (by omega)
    have hfirst : s.taken.next.kind ≠ .punct .rParen := by
      obtain ⟨t, ts, ht, hclose, -⟩ := starts_listTokens xs (hstarts x List.mem_cons_self)
      rw [ht] at hinside
      rwa [Input.kind_next hinside]
    refine ⟨ys, s₁.taken, ?_, hlikes, Input.words_taken hwords, ?_⟩
    · rw [Parser.args, Parser.bind_of_run hopen, Parser.ifAccept_of_ne hfirst,
        Parser.bind_of_run hrun,
        Parser.bind_of_run (Parser.expectPunct_of_eq (Input.kind_next hwords))]
      rfl
    · exact (Input.ahead_taken _).trans (hsuffix.trans s.ahead_taken)

theorem Arrives.call {xs : List Expr} (h : Arrives .operand words x)
    (hxs : ∀ y ∈ xs, Arrives .relation y.tokens y) (hstarts : ∀ y ∈ xs, Starts .relation y.tokens) :
    Arrives .operand (words ++ mark .lParen :: (Expr.listTokens xs ++ [mark .rParen]))
      (.call x xs sp) := by
  refine h.attach (fun fuel start y s w ws hlike hs hfuel => ?_) (List.cons_ne_nil _ _)
  simp only [List.cons_append, List.append_assoc, List.nil_append] at hs
  simp only [List.length_cons, List.length_append, List.length_nil] at hfuel
  obtain ⟨ys, s₁, hrun, hlikes, hwords, hsuffix⟩ := args_reads hxs hstarts fuel hs (by omega)
  refine ⟨.call y ys (start.cover s₁.last), s₁, ?_, .call _ _ hlike hlikes, hwords, hsuffix⟩
  rw [Parser.attached_of_lParen (Input.kind_next hs), Parser.bind_of_run hrun]
  rfl

/-! ## Whole expressions -/

/-- With the tokens of an expression ahead, the parser of its precedence reads it. -/
theorem Expr.Plain.arrives (hx : x.Plain) : Arrives x.precedence x.tokens x := by
  induction hx with
  | literal hnil => exact arrives_literal hnil
  | name => exact arrives_name
  | thisRef =>
    refine arrives_word fun u named hu => ?_
    obtain ⟨kind, span, spelling, value⟩ := u
    subst hu
    exact ⟨_, rfl, .thisRef _ _⟩
  | baseRef =>
    refine arrives_word fun u named hu => ?_
    obtain ⟨kind, span, spelling, value⟩ := u
    subst hu
    exact ⟨_, rfl, .baseRef _ _⟩
  | unary hx ih => exact (ih.guarded hx.starts).unary _
  | addr hx ih => exact (ih.guarded hx.starts).addr
  | binary hx hy ihx ihy => exact (ihx.guarded hx.starts).binary _ (ihy.guarded hy.starts)
  | member hx ih => exact (ih.guarded hx.starts).member _
  | deref hx ih => exact (ih.guarded hx.starts).deref
  | index hx hi ihx ihi =>
    exact (ihx.guarded hx.starts).index (ihi.lift hi.starts (Nat.zero_le _))
  | call hf hxs ihf ihxs =>
    refine (ihf.guarded hf.starts).call (fun y hy => ?_) fun y hy => ?_
    · exact (ihxs y hy).lift (hxs y hy).starts (Nat.zero_le _)
    · exact (hxs y hy).starts.mono (Nat.zero_le _)

end

/-- The printed form of an expression is read as the expression, wherever it stands and whatever
stands behind it that goes on with no expression; and nothing else is taken. The depth of calls is
bounded by sixteen for each token, which is what a parse of a file has. -/
theorem printed_expressions_read_back {x : Expr} (hx : x.Plain) {fuel : Nat} {s : Input}
    {ts rest : List Token} {follow : Token} (hahead : s.ahead = ts ++ follow :: rest)
    (htokens : ts.map Token.bare = x.tokens)
    (hfollow : Ends follow) (hfuel : 16 * ts.length + 6 ≤ fuel) :
    ∃ y s', Parser.expr fuel s = .ok (y, s') ∧ x.Like y ∧ s'.ahead = follow :: rest := by
  have hs : s.words = x.tokens ++ follow.bare :: rest.map Token.bare := by
    rw [Input.words, hahead, List.map_append, htokens, List.map_cons]
  have hlength : x.tokens.length = ts.length := by rw [← htokens, List.length_map]
  have harrives : Arrives .relation x.tokens x := hx.arrives.lift hx.starts (Nat.zero_le _)
  obtain ⟨y, s', hrun, hbetween⟩ := harrives.reads fuel hs (fun p _ => hfollow p)
    (by rw [hlength]; exact Nat.le_add_right_of_le hfuel)
  refine ⟨y, s', hrun, hbetween.like, ?_⟩
  -- two ends of one list that are equally long are equal
  have hwords := congrArg List.length hbetween.words
  rw [Input.words, List.length_map, List.length_cons, List.length_map] at hwords
  have hend : follow :: rest <:+ s.ahead := ⟨ts, hahead.symm⟩
  have hsuffix : s'.ahead <:+ follow :: rest :=
    List.suffix_of_suffix_length_le hbetween.suffix hend (by rw [hwords, List.length_cons])
  exact hsuffix.eq_of_length (by rw [hwords, List.length_cons])

/-- A text with an expression in which one operand needs parentheses and another one needs none. -/
def productSource : SourceFile :=
  let content := utf8 "(a + 1) * -b.c[2];"
  ⟨0, "a.pas", content, newlineOffsets 0 content, Digest.ofBytes content, {}⟩

def productInput : Input :=
  ⟨productSource.tokenize.1, { kind := .endOfFile, span := {} }, {},
    List.forall_mem_cons.mpr ⟨nofun, productSource.tokenize_named⟩⟩

theorem isName_of_all {name : String} (h : name ≠ "")
    (hcodes : (name.toList.all fun c => isNameCode c.toNat) = true) : IsName name :=
  ⟨h, List.all_eq_true.mp hcodes⟩

def productExpr : Expr :=
  let id (name : String) (named : IsName name) : Ident := ⟨name, name, {}, named⟩
  let a := id "a" (isName_of_all (by decide) (by decide))
  let b := id "b" (isName_of_all (by decide) (by decide))
  let c := id "c" (isName_of_all (by decide) (by decide))
  .binary .mul
    (.binary .add (.name a) (.literal .int (utf8 "1") {}) {})
    (.unary .minus (.index (.member (.name b) c {}) (.literal .int (utf8 "2") {}) {}) {}) {}

theorem printed_expressions_read_back_product :
    (productInput.ahead.take 13).map Token.bare = productExpr.tokens ∧
      ∃ y s', Parser.expr 214 productInput = .ok (y, s') ∧ productExpr.Like y ∧
        s'.ahead = productInput.ahead.drop 13 := by
  let follow : Token := { kind := .punct .semicolon, span := ⟨0, 17, 18⟩, text := utf8 ";" }
  let eof : Token := { kind := .endOfFile, span := ⟨0, 18, 18⟩ }
  have htokens : (productInput.ahead.take 13).map Token.bare = productExpr.tokens := by
    decide +kernel
  have hbehind : productInput.ahead.drop 13 = [follow, eof] := by decide +kernel
  have hahead : productInput.ahead = productInput.ahead.take 13 ++ follow :: [eof] := by
    rw [← hbehind, List.take_append_drop]
  have hplain : productExpr.Plain :=
    .binary (.binary .name (.literal nofun)) (.unary (.index (.member .name) (.literal nofun)))
  have hfollow : Ends follow := by
    intro p
    cases p <;> decide
  have hfuel : 16 * (productInput.ahead.take 13).length + 6 ≤ 214 := by decide +kernel
  refine ⟨htokens, ?_⟩
  rw [hbehind]
  exact printed_expressions_read_back hplain hahead htokens hfollow hfuel

end Pascaline.Tree
