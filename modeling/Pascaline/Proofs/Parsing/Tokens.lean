import Pascaline.Proofs.Parsing.Progress

/-!
# Parsers of tokens

What a parser does is stated for one state at a time: what holds of its result and of the state it
leaves, and that it never fails for want of fuel.
-/

namespace Pascaline.Tree

/-! ## Runs of parsers -/

/-- The state once the next token is taken. -/
def Input.taken (s : Input) : Input :=
  { s with ahead := s.ahead.drop 1, last := s.next.span, named := s.named_rest }

namespace Parser

variable {α β : Type} {p : Parser α} {f : α → Parser β} {s : Input} {P Q : α → Input → Prop}

theorem bind_of_run {a : α} {s' : Input} (h : p s = .ok (a, s')) (f : α → Parser β) :
    (p >>= f) s = f a s' := by
  change (p s).bind _ = _
  rw [h]
  rfl

theorem advance_run (h : s.next.kind ≠ .endOfFile) : advance s = .ok (s.next, s.taken) := by
  change (do
    if s.next.kind = .endOfFile then set { s with last := s.next.span } else set s.taken
    Pure.pure s.next : Parser Token) s = _
  rw [if_neg h]
  rfl

/-- The parser takes the state to one where `Q` holds of what it yields, or it fails for a reason
that lies in the text. -/
structure Ok (p : Parser α) (s : Input) (Q : α → Input → Prop) : Prop where
  yields : ∀ a s', p s = .ok (a, s') → Q a s'
  fails : ∀ e, p s = .error e → ∀ t, e ≠ .nestingTooDeep t

theorem Ok.mono (hp : Ok p s P) (h : ∀ a s', P a s' → Q a s') : Ok p s Q :=
  ⟨fun a s' ha => h a s' (hp.yields a s' ha), hp.fails⟩

theorem Ok.pure {a : α} (h : Q a s) : Ok (Pure.pure a) s Q := by
  refine ⟨fun b s' hb => ?_, fun e he => ?_⟩
  · cases hb
    exact h
  · cases he

theorem Ok.bind {R : β → Input → Prop} (hp : Ok p s P) (hf : ∀ a s', P a s' → Ok (f a) s' R) :
    Ok (p >>= f) s R := by
  cases hps : p s with
  | error e =>
    have hrun : (p >>= f) s = .error e := by
      change (p s).bind _ = _
      rw [hps]
      rfl
    refine ⟨fun b s' hb => ?_, fun e' he => ?_⟩
    · rw [hrun] at hb
      cases hb
    · rw [hrun] at he
      cases he
      exact hp.fails e hps
  | ok r =>
    obtain ⟨a, s'⟩ := r
    have hrun : (p >>= f) s = f a s' := bind_of_run hps f
    have hfa := hf a s' (hp.yields a s' hps)
    refine ⟨fun b s'' hb => ?_, fun e he => ?_⟩
    · exact hfa.yields b s'' (hrun ▸ hb)
    · exact hfa.fails e (hrun ▸ he)

theorem Ok.result {R : α → Prop} (h : Ok p s fun a _ => R a) :
    (∀ a, StateT.run' p s = .ok a → R a) ∧
      ∀ e, StateT.run' p s = .error e → ∀ t, e ≠ .nestingTooDeep t := by
  have hrun : StateT.run' p s = (p s).map (·.1) := rfl
  rw [hrun]
  cases hps : p s with
  | error e =>
    refine ⟨fun a ha => ?_, fun e' he => ?_⟩
    · cases ha
    · cases he
      exact h.fails e hps
  | ok r =>
    refine ⟨fun a ha => ?_, fun e he => ?_⟩
    · cases ha
      exact h.yields r.1 r.2 hps
    · cases he

theorem Ok.next {f : { t : Token // t.Named } → Parser β} {R : β → Input → Prop}
    (h : Ok (f ⟨s.next, s.named_next⟩) s R) : Ok (Parser.next >>= f) s R :=
  ⟨h.yields, h.fails⟩

theorem Ok.peek {f : Token → Parser β} {R : β → Input → Prop} (h : Ok (f s.next) s R) :
    Ok (Parser.peek >>= f) s R :=
  ⟨h.yields, h.fails⟩

theorem Ok.peekSecond {f : Token → Parser β} {R : β → Input → Prop}
    (h : ∀ t, Ok (f t) s R) : Ok (Parser.peekSecond >>= f) s R :=
  ⟨(h _).yields, (h _).fails⟩

theorem Ok.spanFrom {f : Span → Parser β} {R : β → Input → Prop} {start : Span}
    (h : Ok (f (start.cover s.last)) s R) : Ok (Parser.spanFrom start >>= f) s R :=
  ⟨h.yields, h.fails⟩

theorem Ok.fail {e : Token → SyntaxError} (h : ∀ t u, e t ≠ .nestingTooDeep u) :
    Ok (Parser.fail e : Parser α) s Q := by
  refine ⟨fun a s' ha => ?_, fun e' he => ?_⟩
  · cases ha
  · cases he
    exact h _

theorem Ok.ite {c : Prop} [Decidable c] {p q : Parser α} (hp : c → Ok p s Q) (hq : ¬c → Ok q s Q) :
    Ok (if c then p else q) s Q := by
  split
  · exact hp ‹_›
  · exact hq ‹_›

/-! ## Single tokens -/

variable {source : SourceFile} {k : TokenKind}

theorem Ok.atKind {f : Bool → Parser β} {R : β → Input → Prop}
    (h : ∀ b, (b = true → s.next.kind = k) → Ok (f b) s R) : Ok (Parser.atKind k >>= f) s R :=
  ⟨(h _ of_decide_eq_true).yields, (h _ of_decide_eq_true).fails⟩

theorem Ok.ifAt {p q : Parser β} {R : β → Input → Prop} (hp : s.next.kind = k → Ok p s R)
    (hq : Ok q s R) : Ok (Parser.atKind k >>= fun b => if b = true then p else q) s R :=
  Ok.atKind fun _ hb => Ok.ite (fun h => hp (hb h)) fun _ => hq

theorem Ok.atAny {ks : List TokenKind} {f : Bool → Parser β} {R : β → Input → Prop}
    (h : ∀ b, (b = true → s.next.kind ∈ ks) → Ok (f b) s R) : Ok (Parser.atAny ks >>= f) s R := by
  have hfound := h (ks.contains s.next.kind) (by simp)
  exact ⟨hfound.yields, hfound.fails⟩

theorem Ok.ifAtAny {ks : List TokenKind} {p q : Parser β} {R : β → Input → Prop}
    (hp : s.next.kind ∈ ks → Ok p s R) (hq : Ok q s R) :
    Ok (Parser.atAny ks >>= fun b => if b = true then p else q) s R :=
  Ok.atAny fun _ hb => Ok.ite (fun h => hp (hb h)) fun _ => hq

theorem ok_advance (hs : s.Tidy source) (hne : s.next.kind ≠ .endOfFile) :
    Ok advance s fun t s' => t = s.next ∧ Input.Took source s s' := by
  have hmem := hs.next_mem
  obtain ⟨t, ts, hahead⟩ : ∃ t ts, s.ahead = t :: ts := by
    cases hahead : s.ahead with
    | nil =>
      rw [hahead] at hmem
      cases hmem
    | cons t ts => exact ⟨t, ts, rfl⟩
  have hnext : s.next = t := by
    unfold Input.next
    rw [hahead]
    rfl
  have hends := hs.ends
  have hordered := hs.ordered
  have hsound := hs.sound
  rw [hahead] at hends hordered hsound
  obtain ⟨u, us, rfl⟩ : ∃ u us, ts = u :: us := by
    cases ts with
    | nil =>
      -- the only token left would be the end of the file
      have heof : t = s.eof := by simpa using hends
      rw [hnext, heof] at hne
      exact absurd hs.eof hne
    | cons u us => exact ⟨u, us, rfl⟩
  let s' : Input := s.taken
  have hrun : advance s = .ok (s.next, s') := advance_run hne
  have hahead' : s'.ahead = u :: us := by
    change s.ahead.drop 1 = _
    rw [hahead]
    rfl
  have hlt : t.span.start < t.span.stop := (hsound t List.mem_cons_self).lt (hnext ▸ hne)
  have hbehind : t.span.stop ≤ u.span.start := List.rel_of_pairwise_cons hordered List.mem_cons_self
  have hlast : s'.last = t.span := congrArg Token.span hnext
  have htidy : s'.Tidy source := by
    refine ⟨?_, ?_, ?_, hs.eof, ?_, ?_⟩
    · rw [hahead']
      exact fun v hv => hsound v (List.mem_cons_of_mem t hv)
    · rw [hahead']
      exact hordered.of_cons
    · rw [hahead']
      exact hends
    · rw [hlast]
      exact Nat.le_of_lt hlt
    · unfold Input.hi Input.lo Input.next
      rw [hlast, hahead']
      exact hbehind
  have htook : Input.Took source s s' := by
    refine ⟨hs, htidy, ?_, ?_, ?_, ?_, ?_⟩
    · rw [hlast]
      exact (hsound t List.mem_cons_self).file
    · unfold Input.hi
      rw [hlast, hnext]
    · unfold Input.lo
      rw [hlast, hnext]
    · unfold Input.lo Input.hi
      rw [hlast, hnext]
      exact hlt
    · rw [hahead', hahead]
      exact Nat.lt_succ_self _
  refine ⟨fun a s'' h => ?_, fun e h => ?_⟩
  · rw [hrun] at h
    cases h
    exact ⟨rfl, htook⟩
  · rw [hrun] at h
    cases h

theorem ok_accept (hk : k ≠ .endOfFile) (hs : s.Tidy source) :
    Ok (accept k) s fun _ s' => Input.Passed source s s' := by
  refine Ok.ifAt (fun h => ?_) (Ok.pure (.stay hs))
  exact (ok_advance hs (h ▸ hk)).bind fun _ s₁ ⟨_, h₁⟩ => Ok.pure (.took h₁)

theorem Ok.ifAccept {p q : Parser β} {R : β → Input → Prop} (hk : k ≠ .endOfFile)
    (hs : s.Tidy source) (hp : ∀ s', Input.Took source s s' → Ok p s' R) (hq : Ok q s R) :
    Ok (accept k >>= fun b => if b = true then p else q) s R := by
  refine Ok.bind (P := fun b s' => if b = true then Input.Took source s s' else s' = s) ?_ ?_
  · refine Ok.ifAt (fun h => ?_) (Ok.pure rfl)
    exact (ok_advance hs (h ▸ hk)).bind fun t s' ht => Ok.pure ht.2
  · intro b s' h
    cases b with
    | true => exact hp s' h
    | false =>
      obtain rfl : s' = s := h
      exact hq

theorem Ok.ifAcceptPunct {c : Punct} {p q : Parser β} {R : β → Input → Prop} (hs : s.Tidy source)
    (hp : ∀ s', Input.Took source s s' → Ok p s' R) (hq : Ok q s R) :
    Ok (acceptPunct c >>= fun b => if b = true then p else q) s R :=
  Ok.ifAccept (by simp) hs hp hq

theorem Ok.ifAcceptWord {w : Keyword} {p q : Parser β} {R : β → Input → Prop} (hs : s.Tidy source)
    (hp : ∀ s', Input.Took source s s' → Ok p s' R) (hq : Ok q s R) :
    Ok (acceptWord w >>= fun b => if b = true then p else q) s R :=
  Ok.ifAccept (by simp) hs hp hq

theorem ok_expect (hk : k ≠ .endOfFile) (code : Code) (hs : s.Tidy source) :
    Ok (expect k code) s fun t s' => t = s.next ∧ Input.Took source s s' :=
  Ok.ifAt (fun h => ok_advance hs (h ▸ hk)) (Ok.fail fun _ _ => by simp)

theorem ok_expectPunct {c : Punct} {code : Code} (hs : s.Tidy source) :
    Ok (expectPunct c code) s fun _ s' => Input.Took source s s' :=
  (ok_expect (by simp) code hs).bind fun _ _ h => Ok.pure h.2

theorem ok_expectWord {w : Keyword} {code : Code} (hs : s.Tidy source) :
    Ok (expectWord w code) s fun _ s' => Input.Took source s s' :=
  (ok_expect (by simp) code hs).bind fun _ _ h => Ok.pure h.2

theorem ok_semicolon (hs : s.Tidy source) :
    Ok semicolon s fun _ s' => Input.Took source s s' :=
  ok_expectPunct hs

/-! ## Names -/

theorem laid_next (hne : s.next.kind ≠ .endOfFile) {s' : Input} (h : Input.Took source s s') :
    Laid source s.lo s'.hi [s.next.span] := by
  have hsound := h.before.sound _ h.before.next_mem
  exact .single hsound.file (hsound.lt hne) (Nat.le_refl _) h.first_le

theorem ok_ident (hs : s.Tidy source) :
    Ok ident s fun i s' => Input.Took source s s' ∧ Laid source s.lo s'.hi [i.span] := by
  unfold ident
  refine Ok.next ?_
  dsimp only
  split
  case isTrue h =>
    have hne : s.next.kind ≠ .endOfFile := by
      rw [show s.next.kind = .identifier from h]
      simp
    exact (ok_advance hs hne).bind fun t s' ht => Ok.pure ⟨ht.2, laid_next hne ht.2⟩
  case isFalse => exact Ok.fail fun _ _ => by simp

theorem ok_moreIdents {fuel : Nat} (hs : s.Tidy source) (hfuel : 16 * s.ahead.length ≤ fuel) :
    Ok (moreIdents fuel) s fun ids s' =>
      Input.Passed source s s' ∧ Laid source s.lo s'.hi (ids.map (·.span)) := by
  induction fuel generalizing s with
  | zero =>
    have hpos := hs.length_pos
    omega
  | succ fuel ih =>
    unfold moreIdents
    refine Ok.ifAcceptPunct hs (fun s₁ h₁ => ?_) (Ok.pure ⟨.stay hs, .nil⟩)
    refine (ok_ident h₁.tidy).bind fun i s₂ ⟨h₂, hi⟩ => ?_
    have hlen₁ := h₁.fewer
    have hlen₂ := h₂.fewer
    refine (ih h₂.tidy (by omega)).bind fun ids s₃ ⟨h₃, hids⟩ => Ok.pure ⟨?_, ?_⟩
    · exact .trans (.took (h₁.trans h₂)) h₃
    · rw [List.map_cons, ← List.singleton_append]
      have hall := hi.append hids (Input.Passed.took h₂).lo_le h₂.tidy.behind h₃.hi_le
      exact hall.mono (Input.Passed.took h₁).lo_le (Nat.le_refl _)

theorem ok_identList {fuel : Nat} (hs : s.Tidy source) (hfuel : 16 * s.ahead.length ≤ fuel + 16) :
    Ok (identList fuel) s fun ids s' =>
      Input.Took source s s' ∧ Laid source s.lo s'.hi (ids.map (·.span)) := by
  refine (ok_ident hs).bind fun i s₁ ⟨h₁, hi⟩ => ?_
  have hlen := h₁.fewer
  refine (ok_moreIdents h₁.tidy (by omega)).bind fun ids s₂ ⟨h₂, hids⟩ => Ok.pure ⟨?_, ?_⟩
  · exact (Input.Passed.trans (.took h₁) h₂).of_fewer (by have := h₂.length_le; omega)
  · rw [List.map_cons, ← List.singleton_append]
    exact hi.append hids (Input.Passed.took h₁).lo_le h₁.tidy.behind h₂.hi_le

theorem ok_namedType (hs : s.Tidy source) :
    Ok namedType s fun _ s' => Input.Took source s s' := by
  unfold namedType
  refine Ok.peek ?_
  refine (ok_ident hs).bind fun first s₁ ⟨h₁, _⟩ => ?_
  refine Ok.atKind fun dot hdot => Ok.peekSecond fun second => Ok.ite (fun h => ?_) fun _ => ?_
  · have hnext : s₁.next.kind ≠ .endOfFile := by
      rw [hdot (Bool.and_eq_true_iff.mp h).1]
      simp
    refine (ok_advance h₁.tidy hnext).bind fun _ s₂ ⟨_, h₂⟩ => ?_
    refine (ok_ident h₂.tidy).bind fun name s₃ ⟨h₃, _⟩ => Ok.spanFrom (Ok.pure ?_)
    exact (h₁.trans h₂).trans h₃
  · exact Ok.spanFrom (Ok.pure h₁)

theorem ok_classBase (hs : s.Tidy source) :
    Ok classBase s fun _ s' => Input.Passed source s s' := by
  refine Ok.ifAcceptPunct hs (fun s₁ h₁ => ?_) (Ok.pure (.stay hs))
  refine (ok_namedType h₁.tidy).bind fun t s₂ h₂ => ?_
  exact (ok_expectPunct h₂.tidy).bind fun _ s₃ h₃ => Ok.pure (.took ((h₁.trans h₂).trans h₃))

theorem ok_directives {fuel : Nat} {v o : Bool} (hs : s.Tidy source)
    (hfuel : 16 * s.ahead.length ≤ fuel) :
    Ok (directives fuel v o) s fun _ s' => Input.Passed source s s' := by
  induction fuel generalizing s v o with
  | zero =>
    have hpos := hs.length_pos
    omega
  | succ fuel ih =>
    have hnext : ∀ (v o : Bool) s₁, Input.Took source s s₁ → Ok (do
        semicolon
        directives fuel v o) s₁ fun _ s' => Input.Passed source s s' := by
      intro v o s₁ h₁
      refine (ok_semicolon h₁.tidy).bind fun _ s₂ h₂ => ?_
      have hlen₁ := h₁.fewer
      have hlen₂ := h₂.fewer
      exact (ih h₂.tidy (by omega)).mono fun _ s₃ h₃ => .trans (.took (h₁.trans h₂)) h₃
    unfold directives
    refine Ok.ifAcceptWord hs (hnext true o) ?_
    exact Ok.ifAcceptWord hs (hnext v true) (Ok.pure (.stay hs))

theorem Ok.operator? {ops : List BinaryOp} {f : Option BinaryOp → Parser β} {R : β → Input → Prop}
    (h : ∀ o, (∀ op, o = some op → s.next.kind ≠ .endOfFile) → Ok (f o) s R) :
    Ok (Parser.operator? ops >>= f) s R := by
  have hfound : Ok (f (ops.find? (·.token = s.next.kind))) s R := by
    refine h _ fun op hop => ?_
    have htoken : op.token = s.next.kind := by simpa using List.find?_some hop
    rw [← htoken]
    cases op <;> simp [BinaryOp.token]
  exact ⟨hfound.yields, hfound.fails⟩

end Parser

end Pascaline.Tree
