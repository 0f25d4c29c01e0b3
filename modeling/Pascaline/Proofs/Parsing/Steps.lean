import Mathlib.Data.List.Forall2
import Pascaline.Proofs.Parsing.Tokens
import Pascaline.Tree.Parser

/-!
# Printed expressions and steps of a parse

An expression without allocations is printed as a row of tokens. Where an operand binds looser than
its place asks for, it stands in parentheses, and nowhere else.

What a parser of expressions does next, if the kind of the next token is known. The parsers of the
precedences are seen as one that reads something tighter and comes to a loop.
-/

namespace Pascaline

namespace Token

/-- What the parse of an expression sees of a token: the value of a literal or a name, and the
spelling of a name. -/
def bare (t : Token) : Token where
  kind := t.kind
  span := {}
  text := if t.kind = .identifier then t.text else []
  value := if t.isLiteral || t.kind = .identifier then t.value else []

@[simp] theorem bare_kind (t : Token) : t.bare.kind = t.kind := rfl

theorem bare_value {t : Token} (h : t.isLiteral = true ∨ t.kind = .identifier) :
    t.bare.value = t.value := if_pos (by simpa using h)

theorem bare_text {t : Token} (h : t.kind = .identifier) : t.bare.text = t.text := if_pos h

end Token

namespace Tree

/-! ## Precedence -/

/-- How tightly an expression holds together, the loosest first. -/
inductive Precedence where
  | relation | sum | product | factor | operand
deriving Repr, DecidableEq

namespace Precedence

def rank : Precedence → Nat
  | relation => 0
  | sum => 1
  | product => 2
  | factor => 3
  | operand => 4

/-- One step tighter. -/
def next : Precedence → Precedence
  | relation => sum
  | sum => product
  | product => factor
  | factor | operand => operand

/-- The kinds of token that go on with an expression of this precedence. -/
def marks : Precedence → List TokenKind
  | relation => BinaryOp.relational.map BinaryOp.token
  | sum => BinaryOp.additive.map BinaryOp.token
  | product => BinaryOp.multiplicative.map BinaryOp.token
  | factor => []
  | operand => [.punct .dot, .punct .lBracket, .punct .lParen, .punct .caret]

theorem rank_le (p : Precedence) : p.rank ≤ 4 := by
  cases p <;> decide

theorem eq_of_rank_eq {p q : Precedence} (h : p.rank = q.rank) : p = q := by
  revert h
  cases p <;> cases q <;> decide

theorem rank_next {p : Precedence} (h : p ≠ operand) : p.next.rank = p.rank + 1 := by
  cases p <;> first | rfl | exact absurd rfl h

end Precedence

/-- Operators of one precedence group to the left. -/
def BinaryOp.precedence (op : BinaryOp) : Precedence :=
  if op ∈ relational then .relation else if op ∈ additive then .sum else .product

/-- An operator goes on with nothing that binds tighter. -/
theorem BinaryOp.token_not_mem_marks (op : BinaryOp) {p : Precedence}
    (h : op.precedence.rank < p.rank) : op.token ∉ p.marks := by
  revert h
  cases op <;> cases p <;> decide

def Expr.precedence : Expr → Precedence
  | .binary op _ _ _ => op.precedence
  | .unary _ _ _ | .addr _ _ => .factor
  | _ => .operand

/-! ## Tokens of expressions -/

def mark (p : Punct) : Token := { kind := .punct p, span := {} }

def word (k : Keyword) : Token := { kind := .keyword k, span := {} }

/-- The token goes on with no expression. -/
def Ends (t : Token) : Prop := ∀ p : Precedence, t.kind ∉ p.marks

theorem ends_mark {m : Punct} (h : m = .rParen ∨ m = .rBracket ∨ m = .comma) : Ends (mark m) := by
  intro p
  obtain rfl | rfl | rfl := h <;> cases p <;> decide

def literalKind : LitKind → Bytes → TokenKind
  | .int, _ => .intLit
  | .real, _ => .realLit
  | .string, _ => .stringLit
  | .char, _ => .charLit
  | .bool, text => .keyword (if text = utf8 "true" then .kwTrue else .kwFalse)
  | .nil, _ => .keyword .kwNil

/-- The word of a truth value is that of its text. -/
theorem literalKind_bool (text : Bytes) :
    literalKind .bool text = .keyword .kwTrue ∨ literalKind .bool text = .keyword .kwFalse := by
  by_cases htrue : text = utf8 "true"
  · exact .inl (congrArg TokenKind.keyword (if_pos htrue))
  · exact .inr (congrArg TokenKind.keyword (if_neg htrue))

theorem isLiteral_of_kind {t : Token} {k : LitKind} {text : Bytes} (h : t.kind = literalKind k text) :
    t.isLiteral = true := by
  rw [Token.isLiteral, h]
  cases k
  case bool => obtain htrue | hfalse := literalKind_bool text <;> simp [*]
  all_goals rfl

def literalToken (k : LitKind) (text : Bytes) : Token :=
  { kind := literalKind k text, span := {}, value := text }

def nameToken (id : Ident) : Token :=
  { kind := .identifier, span := {}, text := utf8 id.text, value := utf8 id.name }

/-- Puts parentheses around an expression of precedence `p` that binds looser than `place` asks. -/
def guarded (place p : Precedence) (tokens : List Token) : List Token :=
  if p.rank < place.rank then mark .lParen :: (tokens ++ [mark .rParen]) else tokens

namespace Expr

mutual

/-- The printed form. An allocation has none here. -/
def tokens : Expr → List Token
  | .literal k text _ => [literalToken k text]
  | .name id => [nameToken id]
  | .thisRef _ => [word .kwThis]
  | .baseRef _ => [word .kwBase]
  | .unary op x _ => { kind := op.token, span := {} } :: guarded .factor x.precedence (tokens x)
  | .binary op x y _ =>
    guarded op.precedence x.precedence (tokens x) ++
      { kind := op.token, span := {} } :: guarded op.precedence.next y.precedence (tokens y)
  | .member x id _ => guarded .operand x.precedence (tokens x) ++ [mark .dot, nameToken id]
  | .index x i _ =>
    guarded .operand x.precedence (tokens x) ++ mark .lBracket :: (tokens i ++ [mark .rBracket])
  | .call f xs _ =>
    guarded .operand f.precedence (tokens f) ++ mark .lParen :: (listTokens xs ++ [mark .rParen])
  | .deref x _ => guarded .operand x.precedence (tokens x) ++ [mark .caret]
  | .addr x _ => mark .at :: guarded .operand x.precedence (tokens x)
  | .alloc _ _ _ _ => []

/-- Expressions with commas between them. -/
def listTokens : List Expr → List Token
  | [] => []
  | [x] => tokens x
  | x :: y :: ys => tokens x ++ mark .comma :: listTokens (y :: ys)

end

/-- There is no allocation in the expression, and nil is spelled as it is. -/
inductive Plain : Expr → Prop
  | literal {k : LitKind} {text : Bytes} {sp : Span} (h : k = .nil → text = utf8 "nil") :
    Plain (.literal k text sp)
  | name {id : Ident} : Plain (.name id)
  | thisRef {sp : Span} : Plain (.thisRef sp)
  | baseRef {sp : Span} : Plain (.baseRef sp)
  | unary {op : UnaryOp} {x : Expr} {sp : Span} (hx : Plain x) : Plain (.unary op x sp)
  | binary {op : BinaryOp} {x y : Expr} {sp : Span} (hx : Plain x) (hy : Plain y) :
    Plain (.binary op x y sp)
  | member {x : Expr} {id : Ident} {sp : Span} (hx : Plain x) : Plain (.member x id sp)
  | index {x i : Expr} {sp : Span} (hx : Plain x) (hi : Plain i) : Plain (.index x i sp)
  | call {f : Expr} {xs : List Expr} {sp : Span} (hf : Plain f) (hxs : ∀ x ∈ xs, Plain x) :
    Plain (.call f xs sp)
  | deref {x : Expr} {sp : Span} (hx : Plain x) : Plain (.deref x sp)
  | addr {x : Expr} {sp : Span} (hx : Plain x) : Plain (.addr x sp)

/-- The expressions are the same but for the places where they stand. -/
inductive Like : Expr → Expr → Prop
  | literal (k : LitKind) (text : Bytes) (sp sp' : Span) :
    Like (.literal k text sp) (.literal k text sp')
  | name {id id' : Ident} (hname : id.name = id'.name) (htext : id.text = id'.text) :
    Like (.name id) (.name id')
  | thisRef (sp sp' : Span) : Like (.thisRef sp) (.thisRef sp')
  | baseRef (sp sp' : Span) : Like (.baseRef sp) (.baseRef sp')
  | unary (op : UnaryOp) {x x' : Expr} (sp sp' : Span) (hx : Like x x') :
    Like (.unary op x sp) (.unary op x' sp')
  | binary (op : BinaryOp) {x x' y y' : Expr} (sp sp' : Span) (hx : Like x x') (hy : Like y y') :
    Like (.binary op x y sp) (.binary op x' y' sp')
  | member {x x' : Expr} {id id' : Ident} (sp sp' : Span) (hx : Like x x')
    (hname : id.name = id'.name) (htext : id.text = id'.text) :
    Like (.member x id sp) (.member x' id' sp')
  | index {x x' i i' : Expr} (sp sp' : Span) (hx : Like x x') (hi : Like i i') :
    Like (.index x i sp) (.index x' i' sp')
  | call {f f' : Expr} {xs xs' : List Expr} (sp sp' : Span) (hf : Like f f')
    (hxs : List.Forall₂ Like xs xs') : Like (.call f xs sp) (.call f' xs' sp')
  | deref {x x' : Expr} (sp sp' : Span) (hx : Like x x') : Like (.deref x sp) (.deref x' sp')
  | addr {x x' : Expr} (sp sp' : Span) (hx : Like x x') : Like (.addr x sp) (.addr x' sp')

end Expr

/-! ## First tokens -/

/-- The tokens start with one that closes nothing, and those of an operand with no prefix. -/
def Starts (p : Precedence) (tokens : List Token) : Prop :=
  ∃ t ts, tokens = t :: ts ∧ t.kind ≠ .punct .rParen ∧
    (p = .operand → UnaryOp.ofToken? t.kind = none ∧ t.kind ≠ .punct .at)

section

variable {p place : Precedence} {tokens more : List Token}

theorem Starts.append (h : Starts p tokens) (more : List Token) : Starts p (tokens ++ more) := by
  obtain ⟨t, ts, rfl, ht⟩ := h
  exact ⟨t, ts ++ more, rfl, ht⟩

theorem Starts.mono (h : Starts p tokens) (hle : place.rank ≤ p.rank) : Starts place tokens := by
  obtain ⟨t, ts, rfl, hclose, hprefix⟩ := h
  refine ⟨t, ts, rfl, hclose, fun hplace => hprefix ?_⟩
  subst hplace
  exact Precedence.eq_of_rank_eq (Nat.le_antisymm p.rank_le hle)

/-- Either a parenthesis comes first, or the expression binds as tightly as its place asks. -/
theorem Starts.guarded (h : Starts p tokens) : Starts place (guarded place p tokens) := by
  unfold Tree.guarded
  split
  case isTrue => exact ⟨mark .lParen, _, rfl, by decide, fun _ => by decide⟩
  case isFalse htight => exact h.mono (Nat.le_of_not_lt htight)

theorem starts_listTokens {x : Expr} (xs : List Expr) (h : Starts p x.tokens) :
    Starts p (Expr.listTokens (x :: xs)) := by
  cases xs with
  | nil => rwa [Expr.listTokens]
  | cons y ys =>
    rw [Expr.listTokens]
    exact h.append _

theorem starts_literalToken (k : LitKind) (text : Bytes) : Starts p [literalToken k text] := by
  refine ⟨literalToken k text, [], rfl, ?_⟩
  change literalKind k text ≠ _ ∧ (_ → UnaryOp.ofToken? (literalKind k text) = none ∧
    literalKind k text ≠ _)
  cases k
  case bool =>
    obtain hword | hword := literalKind_bool text <;> rw [hword] <;>
      exact ⟨by decide, fun _ => by decide⟩
  all_goals exact ⟨by simp [literalKind], fun _ => ⟨rfl, by simp [literalKind]⟩⟩

end

theorem Expr.Plain.starts {x : Expr} (hx : x.Plain) : Starts x.precedence x.tokens := by
  induction hx with
  | literal => exact starts_literalToken _ _
  | name => exact ⟨_, [], rfl, by simp [nameToken], fun _ => ⟨rfl, by simp [nameToken]⟩⟩
  | thisRef | baseRef => exact ⟨_, [], rfl, by decide, fun _ => by decide⟩
  | @unary op =>
    refine ⟨_, _, rfl, ?_, nofun⟩
    cases op <;> decide
  | binary _ _ hx | member _ hx | index _ _ hx | call _ _ hx | deref _ hx => exact hx.guarded.append _
  | addr => exact ⟨_, _, rfl, by decide, nofun⟩

/-! ## Tokens taken one by one -/

namespace Input

/-- What is ahead, as the parse of an expression sees it. -/
def words (s : Input) : List Token := s.ahead.map Token.bare

variable {s : Input} {w : Token} {ws : List Token}

theorem bare_next (h : s.words = w :: ws) : s.next.bare = w := by
  obtain ⟨t, ts, hahead, rfl, -⟩ := List.map_eq_cons_iff.mp h
  rw [next, hahead, List.headD_cons]

theorem kind_next (h : s.words = w :: ws) : s.next.kind = w.kind := by
  rw [← bare_next h, Token.bare_kind]

theorem words_taken (h : s.words = w :: ws) : s.taken.words = ws := by
  obtain ⟨t, ts, hahead, -, rfl⟩ := List.map_eq_cons_iff.mp h
  change (s.ahead.drop 1).map Token.bare = _
  rw [hahead, List.drop_one, List.tail_cons]

theorem ahead_taken (s : Input) : s.taken.ahead <:+ s.ahead := List.drop_suffix 1 s.ahead

end Input

namespace Parser

variable {β : Type} {s : Input}

theorem next_bind (f : { t : Token // t.Named } → Parser β) (s : Input) :
    (next >>= f) s = f ⟨s.next, s.named_next⟩ s := rfl

theorem peek_bind (f : Token → Parser β) (s : Input) : (peek >>= f) s = f s.next s := rfl

theorem ifAccept_of_eq {m : Punct} (h : s.next.kind = .punct m) (p q : Parser β) :
    (acceptPunct m >>= fun b => if b = true then p else q) s = p s.taken := by
  have hrun : acceptPunct m s = .ok (true, s.taken) := by
    change (if decide (s.next.kind = .punct m) = true then (advance >>= fun _ => pure true)
      else pure false : Parser Bool) s = _
    rw [if_pos (by simpa using h), bind_of_run (advance_run (by simp [h]))]
    rfl
  rw [bind_of_run hrun]
  rfl

theorem ifAccept_of_ne {m : Punct} (h : s.next.kind ≠ .punct m) (p q : Parser β) :
    (acceptPunct m >>= fun b => if b = true then p else q) s = q s := by
  have hrun : acceptPunct m s = .ok (false, s) := by
    change (if decide (s.next.kind = .punct m) = true then (advance >>= fun _ => pure true)
      else pure false : Parser Bool) s = _
    rw [if_neg (by simpa using h)]
    rfl
  rw [bind_of_run hrun]
  rfl

theorem ifAt_of_eq {m : Punct} (h : s.next.kind = .punct m) (p q : Parser β) :
    (atPunct m >>= fun b => if b = true then p else q) s = p s := by
  change (if decide (s.next.kind = .punct m) = true then p else q) s = _
  rw [if_pos (by simpa using h)]

theorem ifAt_of_ne {m : Punct} (h : s.next.kind ≠ .punct m) (p q : Parser β) :
    (atPunct m >>= fun b => if b = true then p else q) s = q s := by
  change (if decide (s.next.kind = .punct m) = true then p else q) s = _
  rw [if_neg (by simpa using h)]

theorem expectPunct_of_eq {m : Punct} {c : Code} (h : s.next.kind = .punct m) :
    expectPunct m c s = .ok ((), s.taken) := by
  change ((if decide (s.next.kind = .punct m) = true then advance
    else fail (.expected (.punct m) c)) >>= fun _ => pure () : Parser Unit) s = _
  rw [if_pos (by simpa using h), bind_of_run (advance_run (by simp [h]))]
  rfl

theorem ident_of_eq (h : s.next.kind = .identifier) :
    ∃ id : Ident, id.name = Utf8.toString s.next.value ∧ id.text = Utf8.toString s.next.text ∧
      ident s = .ok (id, s.taken) := by
  refine ⟨⟨_, _, s.next.span, s.named_next h⟩, rfl, rfl, ?_⟩
  change (if h : s.next.kind = .identifier then (do
      let _ ← advance
      return ⟨Utf8.toString s.next.value, Utf8.toString s.next.text, s.next.span, s.named_next h⟩)
    else fail .expectedIdentifier : Parser Ident) s = _
  rw [dif_pos h, bind_of_run (advance_run (by simp [h]))]
  rfl

theorem operator?_of_not_mem {ops : List BinaryOp} (h : s.next.kind ∉ ops.map BinaryOp.token)
    (f : Option BinaryOp → Parser β) : (operator? ops >>= f) s = f none s := by
  have hfind : ops.find? (·.token = s.next.kind) = none := by
    rw [List.find?_eq_none]
    intro op hop
    simpa using fun heq => h (List.mem_map.mpr ⟨op, hop, heq⟩)
  change f (ops.find? (·.token = s.next.kind)) s = _
  rw [hfind]

theorem operator?_of_find? {ops : List BinaryOp} {op : BinaryOp} (h : s.next.kind = op.token)
    (hop : ops.find? (·.token = op.token) = some op) (f : Option BinaryOp → Parser β) :
    (operator? ops >>= f) s = f (some op) s := by
  rw [← hop, ← h]
  rfl

/-! ## Atoms and parentheses -/

section

variable {k : LitKind} {text : Bytes} {u : Token} {named : u.Named}

/-- The token of a literal is an atom, and that of nil is one whatever its value. -/
theorem atom?_of_literalKind (h : u.kind = literalKind k text) :
    atom? u named = some (.literal k (if k = .nil then utf8 "nil" else u.value) u.span) := by
  obtain ⟨kind, span, spelling, value⟩ := u
  obtain rfl : kind = literalKind k text := h
  cases k
  case bool =>
    generalize hkind : literalKind .bool text = kind at *
    obtain htrue | hfalse := literalKind_bool text
    · obtain rfl := hkind.symm.trans htrue
      rfl
    · obtain rfl := hkind.symm.trans hfalse
      rfl
  all_goals rfl

theorem atom?_of_identifier (named : u.Named) (h : u.kind = .identifier) :
    ∃ id : Ident, id.name = Utf8.toString u.value ∧ id.text = Utf8.toString u.text ∧
      atom? u named = some (.name id) := by
  obtain ⟨kind, span, spelling, value⟩ := u
  obtain rfl : kind = .identifier := h
  exact ⟨_, rfl, rfl, rfl⟩

end

variable {fuel : Nat} {start : Span} {x : Expr}

theorem primary_of_atom? (h : atom? s.next s.named_next = some x)
    (hne : s.next.kind ≠ .endOfFile) : primary (fuel + 1) s = .ok (x, s.taken) := by
  rw [primary, next_bind]
  simp only [h]
  exact bind_of_run (advance_run hne) _

theorem atom?_of_lParen {t : Token} {named : t.Named} (h : t.kind = .punct .lParen) :
    atom? t named = none := by
  unfold atom?
  split <;> simp_all

theorem primary_of_lParen (h : s.next.kind = .punct .lParen) :
    primary (fuel + 1) s = (do
      let x ← expr fuel
      expectPunct .rParen SyntaxError.unexpectedToken
      return x : Parser Expr) s.taken := by
  have hnone : atom? s.next s.named_next = none := atom?_of_lParen h
  rw [primary, next_bind]
  simp only [hnone]
  rw [if_neg (by simp [h]), ifAccept_of_eq h]

/-! ## Prefixes and what is attached -/

theorem factor_of_unary {op : UnaryOp} (h : s.next.kind = op.token) :
    factor (fuel + 1) s = (do
      let x ← factor fuel
      return .unary op x (← spanFrom s.next.span) : Parser Expr) s.taken := by
  have hop : UnaryOp.ofToken? s.next.kind = some op := by
    rw [h]
    cases op <;> rfl
  have hne : s.next.kind ≠ .endOfFile := by
    rw [h]
    cases op <;> decide
  rw [factor, peek_bind, peek_bind]
  simp only [hop]
  exact bind_of_run (advance_run hne) _

theorem factor_of_at (h : s.next.kind = .punct .at) :
    factor (fuel + 1) s = (do
      let x ← operand fuel
      return .addr x (← spanFrom s.next.span) : Parser Expr) s.taken := by
  have hop : UnaryOp.ofToken? s.next.kind = none := by
    rw [h]
    rfl
  rw [factor, peek_bind, peek_bind]
  simp only [hop]
  exact ifAccept_of_eq h _ _

theorem attached_of_dot (h : s.next.kind = .punct .dot) :
    attached (fuel + 1) start x s = (do
      let id ← ident
      attached fuel start (.member x id (← spanFrom start)) : Parser Expr) s.taken := by
  rw [attached, ifAccept_of_eq h]

theorem attached_of_lBracket (h : s.next.kind = .punct .lBracket) :
    attached (fuel + 1) start x s = (do
      let i ← expr fuel
      expectPunct .rBracket SyntaxError.unexpectedToken
      attached fuel start (.index x i (← spanFrom start)) : Parser Expr) s.taken := by
  rw [attached, ifAccept_of_ne (by simp [h]), ifAccept_of_eq h]

theorem attached_of_lParen (h : s.next.kind = .punct .lParen) :
    attached (fuel + 1) start x s = (do
      let xs ← args fuel
      attached fuel start (.call x xs (← spanFrom start)) : Parser Expr) s := by
  rw [attached, ifAccept_of_ne (by simp [h]), ifAccept_of_ne (by simp [h]), ifAt_of_eq h]

theorem attached_of_caret (h : s.next.kind = .punct .caret) :
    attached (fuel + 1) start x s = (do
      attached fuel start (.deref x (← spanFrom start)) : Parser Expr) s.taken := by
  rw [attached, ifAccept_of_ne (by simp [h]), ifAccept_of_ne (by simp [h]),
    ifAt_of_ne (by simp [h]), ifAccept_of_eq h]

end Parser

/-! ## Parsers by precedence -/

namespace Precedence

open Tree.Parser

def parser : Precedence → (fuel : Nat) → Parser Expr
  | relation => expr
  | sum => simpleExpr
  | product => term
  | factor => Parser.factor
  | operand => Parser.operand

/-- The loop behind an expression that starts at `start`. -/
def rest : Precedence → (fuel : Nat) → (start : Span) → Expr → Parser Expr
  | relation, fuel, _, x => relationalTail fuel x
  | sum, fuel, _, x => additiveTail fuel x
  | product, fuel, _, x => multiplicativeTail fuel x
  | factor, _, _, x => pure x
  | operand, fuel, start, x => attached fuel start x

variable {p : Precedence} {fuel : Nat} {start : Span} {x : Expr} {s : Input} {op : BinaryOp}

theorem rest_stops (hfuel : 0 < fuel) (h : s.next.kind ∉ p.marks) :
    p.rest fuel start x s = .ok (x, s) := by
  obtain ⟨fuel, rfl⟩ := Nat.exists_eq_add_of_lt hfuel
  cases p
  case factor => rfl
  case relation =>
    rw [rest, Nat.zero_add, relationalTail, operator?_of_not_mem h]
    rfl
  case sum =>
    rw [rest, Nat.zero_add, additiveTail, operator?_of_not_mem h]
    rfl
  case product =>
    rw [rest, Nat.zero_add, multiplicativeTail, operator?_of_not_mem h]
    rfl
  case operand =>
    simp only [marks, List.mem_cons, List.not_mem_nil, or_false, not_or] at h
    obtain ⟨hdot, hbracket, hparen, hcaret⟩ := h
    rw [rest, Nat.zero_add, attached, ifAccept_of_ne hdot, ifAccept_of_ne hbracket,
      ifAt_of_ne hparen, ifAccept_of_ne hcaret]
    rfl

theorem parser_succ (hp : p ≠ operand)
    (hfirst : p = factor → UnaryOp.ofToken? s.next.kind = none ∧ s.next.kind ≠ .punct .at) :
    p.parser (fuel + 1) s = (p.next.parser fuel >>= fun x => p.rest fuel x.span x) s := by
  cases p
  case operand => exact absurd rfl hp
  case relation =>
    rw [parser, expr]
    rfl
  case sum =>
    rw [parser, simpleExpr]
    rfl
  case product =>
    rw [parser, term]
    rfl
  case factor =>
    obtain ⟨hunary, hat⟩ := hfirst rfl
    rw [parser, Parser.factor, peek_bind, peek_bind]
    simp only [hunary]
    refine (ifAccept_of_ne hat _ _).trans ?_
    exact congrFun (bind_pure _).symm s

theorem find?_token (op : BinaryOp) :
    op.precedence = relation ∧ BinaryOp.relational.find? (·.token = op.token) = some op ∨
      op.precedence = sum ∧ BinaryOp.additive.find? (·.token = op.token) = some op ∨
      op.precedence = product ∧ BinaryOp.multiplicative.find? (·.token = op.token) = some op := by
  cases op <;> decide

theorem rest_succ (h : s.next.kind = op.token) :
    op.precedence.rest (fuel + 1) start x s =
      (op.precedence.next.parser fuel >>= fun y =>
        op.precedence.rest fuel start (binary op x y)) s.taken := by
  have hne : s.next.kind ≠ .endOfFile := by
    rw [h]
    cases op <;> decide
  obtain ⟨hp, hfind⟩ | ⟨hp, hfind⟩ | ⟨hp, hfind⟩ := find?_token op
  · rw [hp, rest, relationalTail, operator?_of_find? h hfind]
    exact bind_of_run (advance_run hne) _
  · rw [hp, rest, additiveTail, operator?_of_find? h hfind]
    exact bind_of_run (advance_run hne) _
  · rw [hp, rest, multiplicativeTail, operator?_of_find? h hfind]
    exact bind_of_run (advance_run hne) _

end Precedence

end Tree

end Pascaline
