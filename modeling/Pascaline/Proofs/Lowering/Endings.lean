import Pascaline.Proofs.Lowering.Expressions

/-!
# Endings of statements

Where the code of a statement leads. Behind a statement that ends normally the block is open, `exit`
meets a return, and `break` and `continue` meet the places of the innermost loop.
-/

namespace Pascaline

namespace Target

open Site Builder Lower

variable {t : Target} {b b' b₁ : Builder} {s s' s₁ : Spot} {st : Store} {v : Value}
  {ops : List Value} {k n : Nat} {loops : List LoopTarget}

/-- The hidden slots below `n` are unchanged. -/
def Keeps (t : Target) (n : Nat) (s s' : Spot) : Prop :=
  ∀ i, t.slots ≤ i → i < n → s'.locals[i]? = s.locals[i]?

theorem Keeps.of_eq (h : s'.locals = s.locals) : t.Keeps n s s' := fun _ _ _ => by rw [h]

theorem Keeps.trans (h : t.Keeps n s s₁) (h' : t.Keeps n s₁ s') : t.Keeps n s s' :=
  fun i hi hn => (h' i hi hn).trans (h i hi hn)

theorem Keeps.mono {n' : Nat} (h : t.Keeps n' s s') (hn : n ≤ n') : t.Keeps n s s' :=
  fun i hi hlt => h i hi (Nat.lt_of_lt_of_le hlt hn)

/-- How the code of a statement, which ends where `b` ends, goes on from a place. Operands are used
up between statements. -/
def Ends (t : Target) (k n : Nat) (loops : List LoopTarget) (b : Builder) (s : Spot) :
    Option Bound.Flow → Prop
  | none => t.Lasts k s
  | some (.next st) => b.Open ∧ ∃ s', t.Leads s (s'.on b []) ∧ t.Shows st s' ∧ t.Keeps n s s'
  | some (.exit st) => ∃ s' i, t.Leads s s' ∧ t.Shows st s' ∧ t.instrAt s' = some i ∧ i.op = .ret
  | some (.break st) => ∃ l ls s', loops = l :: ls ∧ t.Leads s (start s' l.leave []) ∧
      t.Shows st s' ∧ t.Keeps n s s'
  | some (.continue st) => ∃ l ls s', loops = l :: ls ∧ t.Leads s (start s' l.next []) ∧
      t.Shows st s' ∧ t.Keeps n s s'
  | some (.fault c) => t.Fails s c.code

theorem Ends.after {r : Option Bound.Flow} (hs : t.Leads s s₁) (hkeeps : t.Keeps n s s₁)
    (h : t.Ends k n loops b s₁ r) : t.Ends k n loops b s r := by
  rcases r with - | (st | st | st | st | c)
  · exact hs.lasts h
  · obtain ⟨hb, s', hs', hst, hk⟩ := h
    exact ⟨hb, s', hs.trans hs', hst, hkeeps.trans hk⟩
  · obtain ⟨s', i, hs', hst, hi⟩ := h
    exact ⟨s', i, hs.trans hs', hst, hi⟩
  · obtain ⟨l, ls, s', hloops, hs', hst, hk⟩ := h
    exact ⟨l, ls, s', hloops, hs.trans hs', hst, hkeeps.trans hk⟩
  · obtain ⟨l, ls, s', hloops, hs', hst, hk⟩ := h
    exact ⟨l, ls, s', hloops, hs.trans hs', hst, hkeeps.trans hk⟩
  · exact hs.fails h

theorem Ends.mono {k' n' : Nat} {r : Option Bound.Flow} (h : t.Ends k' n' loops b s r) (hk : k ≤ k')
    (hn : n ≤ n') : t.Ends k n loops b s r := by
  rcases r with - | (st | st | st | st | c)
  · exact Lasts.mono h hk
  · obtain ⟨hb, s', hs', hst, hkeeps⟩ := h
    exact ⟨hb, s', hs', hst, hkeeps.mono hn⟩
  · exact h
  · obtain ⟨l, ls, s', hloops, hs', hst, hkeeps⟩ := h
    exact ⟨l, ls, s', hloops, hs', hst, hkeeps.mono hn⟩
  · obtain ⟨l, ls, s', hloops, hs', hst, hkeeps⟩ := h
    exact ⟨l, ls, s', hloops, hs', hst, hkeeps.mono hn⟩
  · exact h

/-- A hop more makes a path that lasts longer. -/
theorem Ends.hop {r : Option Bound.Flow} (hs : t.Hop s s₁) (hkeeps : t.Keeps n s s₁)
    (h : t.Ends k n loops b s₁ r) : t.Ends (k + 1) n loops b s r := by
  rcases r with - | (st | st | st | st | c)
  · exact hs.lasts h
  all_goals exact Ends.after (k := k) hs.leads hkeeps h

theorem Ends.then {r : Option Bound.Flow} {f : Store → Option Bound.Flow}
    (h : t.Ends k n loops b₁ s r)
    (hf : b₁.Open → ∀ st s', t.Shows st s' → t.Keeps n s s' →
      t.Ends k n loops b (s'.on b₁ []) (f st)) :
    t.Ends k n loops b s (Bound.Flow.then r f) := by
  rcases r with - | (st | st | st | st | c)
  case some.next =>
    obtain ⟨hb, s', hs', hst, hkeeps⟩ := h
    exact (hf hb st s' hst hkeeps).after hs' hkeeps
  all_goals exact h

theorem Ends.jump {r : Option Bound.Flow} {done pos : Nat} {c : Builder}
    (h : t.Ends k n loops b s r) (ht : t.Holds (b.jump done pos)) (hdone : c.Empty done) :
    t.Ends k n loops (c.goTo done) s r := by
  rcases r with - | (st | st | st | st | c)
  case some.next =>
    obtain ⟨hb, s', hs', hst, hkeeps⟩ := h
    refine ⟨hdone.goTo.1, s', hs'.trans ?_, hst, hkeeps⟩
    rw [← start_eq_on hdone]
    exact (hop_jump_on hb ht).leads
  all_goals exact h

/-- A round of a loop. The body is followed by a jump to where `continue` leads. -/
theorem Ends.round {r : Option Bound.Flow} {f : Store → Option Bound.Flow} {l : LoopTarget}
    {pos : Nat} (h : t.Ends k n (l :: loops) b₁ s r) (ht : t.Holds (b₁.jump l.next pos))
    (hleave : b.Empty l.leave)
    (hf : ∀ st s', t.Shows st s' → t.Keeps n s s' →
      t.Ends k n loops (b.goTo l.leave) (start s' l.next []) (f st)) :
    t.Ends k n loops (b.goTo l.leave) s (Bound.Flow.round r f) := by
  rcases r with - | (st | st | st | st | c)
  case some.next =>
    obtain ⟨hb, s', hs', hst, hkeeps⟩ := h
    exact (hf st s' hst hkeeps).after (hs'.trans (hop_jump_on hb ht).leads) hkeeps
  case some.continue =>
    obtain ⟨l', ls, s', hloops, hs', hst, hkeeps⟩ := h
    cases hloops
    exact (hf st s' hst hkeeps).after hs' hkeeps
  case some.break =>
    obtain ⟨l', ls, s', hloops, hs', hst, hkeeps⟩ := h
    cases hloops
    refine ⟨hleave.goTo.1, s', ?_, hst, hkeeps⟩
    rw [← start_eq_on hleave]
    exact hs'
  all_goals exact h

theorem Ends.with {r : Except FaultCause Value} {f : Value → Option Bound.Flow}
    {mid : Value → Spot} (h : t.Yields s mid r)
    (hf : ∀ v, r = .ok v → t.Ends k n loops b (mid v) (f v)) (hkeeps : ∀ v, t.Keeps n s (mid v)) :
    t.Ends k n loops b s (Bound.Flow.with r f) := by
  cases r with
  | error c => exact h
  | ok v => exact (hf v rfl).after h (hkeeps v)

/-! ## Specifications -/

/-- What the code of an expression does. -/
structure Evaluates (t : Target) (b b' : Builder) (value : Store → Except FaultCause Value) : Prop
    extends BuiltExpr b b' where
  yields : b.Open → t.Holds b' → ∀ {st : Store} {s : Spot} {ops : List Value}, t.Shows st s →
    t.Yields (s.on b ops) (fun v => s.on b' (v :: ops)) (value st)

/-- What the code of a statement does within so many rounds of each loop. -/
structure Performs (t : Target) (b b' : Builder) (act : Nat → Store → Option Bound.Flow) : Prop
    extends Built b b' where
  ends : b.Open → t.Holds b' → t.slots ≤ b.locals.size → ∀ {k : Nat} {st : Store} {s : Spot},
    t.Shows st s → t.Ends k b.locals.size b.loops b' (s.on b []) (act k st)

/-- Every code that is made so evaluates. -/
def Computes (t : Target) (x : Lower Unit) (value : Store → Except FaultCause Value) : Prop :=
  ∀ ⦃b b' : Builder⦄, x b = .ok ((), b') → b.current < b.blocks.size → t.Evaluates b b' value

/-- Every code that is made so performs. -/
def Does (t : Target) (x : Lower Unit) (act : Nat → Store → Option Bound.Flow) : Prop :=
  ∀ ⦃b b' : Builder⦄, x b = .ok ((), b') → b.current < b.blocks.size → t.Performs b b' act

theorem Does.congr {x : Lower Unit} {f g : Nat → Store → Option Bound.Flow} (h : t.Does x f)
    (hfg : ∀ k st, g k st = f k st) : t.Does x g := by
  have heq : g = f := funext fun k => funext fun st => hfg k st
  rw [heq]
  exact h

theorem Performs.part {act : Nat → Store → Option Bound.Flow} (h : t.Performs b₁ b' act)
    (hbuilt : Built b b₁) (hopen : b₁.Open) (ht : t.Holds b') (hslots : t.slots ≤ b.locals.size)
    (hs : t.Shows st s) :
    t.Ends k b.locals.size b.loops b' (s.on b₁ []) (act k st) := by
  rw [← hbuilt.loops]
  have hlocals := hbuilt.le.locals
  exact (h.ends hopen ht (Nat.le_trans hslots hlocals) hs).mono (Nat.le_refl _) hlocals

theorem computes_expr (ctx : LowerContext) {e : Bound.Expr} (he : e.Plain t.slots t.pool.Exact) :
    t.Computes (expr ctx e) (e.eval ctx.types) := fun _ _ h hb =>
  ⟨builtExpr_expr ctx e he h hb, fun hopen ht => yields_expr ctx e he h hopen ht⟩

end Target

end Pascaline
