import Mathlib.Tactic.Common
import Pascaline.Build.Run

/-!
# Steps of a build

What a step of a build on a disk leads to if it succeeds, and how it can fail, one rule for each way
to put steps together.
-/

namespace Pascaline.BuildM

variable {α β : Type} {s s' : Build × Disk} {a : α}

/-- A step succeeds with a result and a new state of build and disk. -/
def Yields (x : BuildM (StateM Disk) α) (s : Build × Disk) (a : α) (s' : Build × Disk) : Prop :=
  ((ExceptT.run x).run s.1).run s.2 = ((.ok a, s'.1), s'.2)

@[simp] theorem yields_pure {b : α} :
    Yields (pure b) s a s' ↔ a = b ∧ s' = s := by
  obtain ⟨b₁, d₁⟩ := s
  obtain ⟨b₂, d₂⟩ := s'
  change ((Except.ok b, b₁), d₁) = ((Except.ok a, b₂), d₂) ↔ _
  simp only [Prod.mk.injEq, Except.ok.injEq]
  tauto

@[simp] theorem yields_bind {x : BuildM (StateM Disk) α} {f : α → BuildM (StateM Disk) β} {b : β} :
    Yields (x >>= f) s b s' ↔ ∃ a t, Yields x s a t ∧ Yields (f a) t b s' := by
  simp only [Yields, ExceptT.run_bind, StateT.run_bind]
  generalize ((ExceptT.run x).run s.1).run s.2 = p
  obtain ⟨⟨r, b₁⟩, d₁⟩ := p
  cases r with
  | error e =>
    constructor
    · intro h
      cases h
    · rintro ⟨_, _, ht, -⟩
      cases ht
  | ok a =>
    constructor
    · intro h
      exact ⟨a, (b₁, d₁), rfl, h⟩
    · rintro ⟨_, t, ht, h⟩
      cases ht
      exact h

@[simp] theorem yields_throw {e : BuildError} : ¬ Yields (throw e) s a s' := by
  intro h
  cases h

@[simp] theorem yields_get {b : Build} : Yields get s b s' ↔ b = s.1 ∧ s' = s := by
  obtain ⟨b₁, d₁⟩ := s
  obtain ⟨b₂, d₂⟩ := s'
  change ((Except.ok b₁, b₁), d₁) = ((Except.ok b, b₂), d₂) ↔ _
  simp only [Prod.mk.injEq, Except.ok.injEq]
  tauto

@[simp] theorem yields_modifyGet {f : Build → α × Build} :
    Yields (modifyGet f) s a s' ↔ a = (f s.1).1 ∧ s' = ((f s.1).2, s.2) := by
  obtain ⟨b₁, d₁⟩ := s
  obtain ⟨b₂, d₂⟩ := s'
  change ((Except.ok (f b₁).1, (f b₁).2), d₁) = ((Except.ok a, b₂), d₂) ↔ _
  simp only [Prod.mk.injEq, Except.ok.injEq]
  tauto

@[simp] theorem yields_modify {f : Build → Build} {u : PUnit} :
    Yields (modify f) s u s' ↔ s' = (f s.1, s.2) := by
  rw [modify, yields_modifyGet]
  simp

@[simp] theorem yields_set {b : Build} {u : PUnit} : Yields (set b) s u s' ↔ s' = (b, s.2) := by
  exact yields_modify (f := fun _ => b)

@[simp] theorem yields_lift {x : StateM Disk α} :
    Yields (liftM x) s a s' ↔ s'.1 = s.1 ∧ x.run s.2 = (a, s'.2) := by
  obtain ⟨b₁, d₁⟩ := s
  obtain ⟨b₂, d₂⟩ := s'
  change ((Except.ok (x.run d₁).1, b₁), (x.run d₁).2) = ((Except.ok a, b₂), d₂) ↔ _
  generalize x.run d₁ = p
  obtain ⟨c, d₃⟩ := p
  constructor
  · intro h
    cases h
    exact ⟨rfl, rfl⟩
  · rintro ⟨hb, h⟩
    cases hb
    cases h
    rfl

theorem yields_observe {x : BuildM (StateM Disk) α} {r : Except BuildError α}
    (h : Yields (observe x) s r s') : ∀ a, r = .ok a → Yields x s a s' := by
  rintro a rfl
  change (match ((ExceptT.run x).run s.1).run s.2 with
    | ((r, b₁), d₁) => ((Except.ok r, b₁), d₁)) = ((Except.ok (Except.ok a), s'.1), s'.2) at h
  rw [Yields]
  generalize ((ExceptT.run x).run s.1).run s.2 = t at h ⊢
  obtain ⟨⟨r, b₁⟩, d₁⟩ := t
  cases h
  rfl

/-- Steps one after the other, for each value of a list, keep what holds of the values done so far. -/
theorem yields_forM_done {f : α → BuildM (StateM Disk) PUnit} {xs : List α} {u : PUnit}
    {I : List α → Build × Disk → Prop}
    (hf : ∀ done x rest, xs = done ++ x :: rest → ∀ s u s', I done s → Yields (f x) s u s' →
      I (done ++ [x]) s')
    (hs : I [] s) (h : Yields (xs.forM f) s u s') : I xs s' := by
  have hrest : ∀ rest done s u, xs = done ++ rest → I done s → Yields (rest.forM f) s u s' →
      I xs s' := by
    intro rest
    induction rest with
    | nil =>
      intro done s u hxs hs h
      rw [(yields_pure.mp h).2, hxs, List.append_nil]
      exact hs
    | cons x rest ih =>
      intro done s u hxs hs h
      obtain ⟨u₁, t, hx, hrest⟩ := yields_bind.mp h
      exact ih (done ++ [x]) t u (by rw [hxs, List.append_assoc]; rfl)
        (hf done x rest hxs s u₁ t hs hx) hrest
  exact hrest xs [] s u rfl hs h

theorem yields_forM {f : α → BuildM (StateM Disk) PUnit} {xs : List α} {u : PUnit}
    {P : Build → Prop} (hf : ∀ x ∈ xs, ∀ s u s', P s.1 → Yields (f x) s u s' → P s'.1)
    (hs : P s.1) (h : Yields (xs.forM f) s u s') : P s'.1 :=
  yields_forM_done (I := fun _ s => P s.1)
    (fun _ x _ hxs s u s' => hf x (by simp [hxs]) s u s') hs h

theorem yields_step {f : Build → Except BuildError (α × Build)} :
    Yields (step f) s a s' ↔ f s.1 = .ok (a, s'.1) ∧ s'.2 = s.2 := by
  simp only [step, yields_bind, yields_get]
  constructor
  · rintro ⟨b, t, ⟨rfl, rfl⟩, h⟩
    split at h
    case h_1 c b hf =>
      simp only [yields_bind, yields_set, yields_pure] at h
      obtain ⟨_, _, rfl, rfl, rfl⟩ := h
      exact ⟨hf, rfl⟩
    case h_2 => exact absurd h yields_throw
  · rintro ⟨hf, hdisk⟩
    refine ⟨s.1, s, ⟨rfl, rfl⟩, ?_⟩
    rw [hf]
    simp only [yields_bind, yields_set, yields_pure]
    exact ⟨⟨⟩, (s'.1, s.2), rfl, trivial, Prod.ext rfl hdisk⟩

/-! ## Failures -/

/-- A step fails with an error and leaves a new state. -/
def Fails (x : BuildM (StateM Disk) α) (s : Build × Disk) (e : BuildError) (s' : Build × Disk) : Prop :=
  ((ExceptT.run x).run s.1).run s.2 = ((.error e, s'.1), s'.2)

variable {e : BuildError}

@[simp] theorem fails_pure {b : α} : ¬ Fails (pure b) s e s' := by
  intro h
  cases h

@[simp] theorem fails_bind {x : BuildM (StateM Disk) α} {f : α → BuildM (StateM Disk) β} :
    Fails (x >>= f) s e s' ↔ Fails x s e s' ∨ ∃ a t, Yields x s a t ∧ Fails (f a) t e s' := by
  simp only [Fails, Yields, ExceptT.run_bind, StateT.run_bind]
  generalize ((ExceptT.run x).run s.1).run s.2 = p
  obtain ⟨⟨r, b₁⟩, d₁⟩ := p
  cases r with
  | error e₁ =>
    constructor
    · intro h
      cases h
      exact .inl rfl
    · rintro (h | ⟨_, _, ht, -⟩)
      · cases h
        rfl
      · cases ht
  | ok a =>
    constructor
    · intro h
      exact .inr ⟨a, (b₁, d₁), rfl, h⟩
    · rintro (h | ⟨_, t, ht, h⟩)
      · cases h
      · cases ht
        exact h

@[simp] theorem fails_throw {e₁ : BuildError} :
    Fails (throw e₁ : BuildM (StateM Disk) α) s e s' ↔ e = e₁ ∧ s' = s := by
  obtain ⟨b₁, d₁⟩ := s
  obtain ⟨b₂, d₂⟩ := s'
  change ((Except.error e₁, b₁), d₁) = ((Except.error e, b₂), d₂) ↔ _
  simp only [Prod.mk.injEq, Except.error.injEq]
  tauto

@[simp] theorem fails_get : ¬ Fails get s e s' := by
  intro h
  cases h

@[simp] theorem fails_modifyGet {f : Build → α × Build} : ¬ Fails (modifyGet f) s e s' := by
  intro h
  cases h

@[simp] theorem fails_modify {f : Build → Build} : ¬ Fails (modify f) s e s' := fails_modifyGet

@[simp] theorem fails_set {b : Build} : ¬ Fails (set b) s e s' := fails_modify

@[simp] theorem fails_lift {x : StateM Disk α} : ¬ Fails (liftM x) s e s' := by
  intro h
  cases h

@[simp] theorem fails_observe {x : BuildM (StateM Disk) α} : ¬ Fails (observe x) s e s' := by
  intro h
  cases h

theorem fails_of_observe {x : BuildM (StateM Disk) α}
    (h : Yields (observe x) s (.error e) s') : Fails x s e s' := by
  change (match ((ExceptT.run x).run s.1).run s.2 with
    | ((r, b₁), d₁) => ((Except.ok r, b₁), d₁)) = ((Except.ok (Except.error e), s'.1), s'.2) at h
  rw [Fails]
  generalize ((ExceptT.run x).run s.1).run s.2 = t at h ⊢
  obtain ⟨⟨r, b₁⟩, d₁⟩ := t
  cases h
  rfl

theorem fails_forM {f : α → BuildM (StateM Disk) PUnit} {xs : List α} (h : Fails (xs.forM f) s e s') :
    ∃ x ∈ xs, ∃ t, Fails (f x) t e s' := by
  induction xs generalizing s with
  | nil => exact absurd h fails_pure
  | cons x xs ih =>
    obtain h | ⟨_, t, -, h⟩ := fails_bind.mp h
    · exact ⟨x, List.mem_cons_self, s, h⟩
    · obtain ⟨y, hy, h⟩ := ih h
      exact ⟨y, List.mem_cons_of_mem x hy, h⟩

theorem fails_step {f : Build → Except BuildError (α × Build)} (h : Fails (step f) s e s') :
    f s.1 = .error e := by
  simp only [step, fails_bind, fails_get, yields_get, false_or] at h
  obtain ⟨_, _, ⟨rfl, rfl⟩, h⟩ := h
  split at h
  · simp only [fails_bind, fails_set, fails_pure, and_false, exists_false, or_self] at h
  case h_2 e₁ he =>
    rw [(fails_throw.mp h).1]
    exact he

/-! ## What is told -/

/-- Two states of a build that differ in what was told, timed and entered into types and
interfaces only. -/
structure Quiet (b b' : Build) : Prop where
  request : b'.request = b.request
  sources : b'.sources = b.sources
  graph : b'.graph = b.graph
  layering : b'.layering = b.layering
  broken : b'.broken = b.broken
  compiled : b'.compiled = b.compiled
  units : b'.units = b.units
  report : b'.report = b.report

theorem Quiet.trans {b₁ b₂ b₃ : Build} (h : Quiet b₁ b₂) (h' : Quiet b₂ b₃) : Quiet b₁ b₃ :=
  ⟨h'.1.trans h.1, h'.2.trans h.2, h'.3.trans h.3, h'.4.trans h.4, h'.5.trans h.5, h'.6.trans h.6,
    h'.7.trans h.7, h'.8.trans h.8⟩

theorem Quiet.refl (b : Build) : Quiet b b := ⟨rfl, rfl, rfl, rfl, rfl, rfl, rfl, rfl⟩

theorem quiet_emit (b : Build) (e : BuildEvent) : Quiet b (b.emit e) := ⟨rfl, rfl, rfl, rfl, rfl, rfl, rfl, rfl⟩

theorem quiet_mention (b : Build) (path : String) : Quiet b (b.mention path) := by
  rw [Build.mention]
  split
  · exact .refl b
  · exact ⟨rfl, rfl, rfl, rfl, rfl, rfl, rfl, rfl⟩

theorem quiet_begins (b : Build) (path : String) (stage : Stage) (elapsed : Nat) :
    Quiet b (b.begins path stage elapsed) :=
  (quiet_mention b path).trans (quiet_emit _ _)

theorem quiet_ends (b : Build) (path : String) (stage : Stage) (error : Option EventError)
    (elapsed : Nat) : Quiet b (b.ends path stage error elapsed) := by
  have htimed : Quiet b ({ b with timings := b.timings.add stage elapsed }.mention path) := by
    refine Quiet.trans ?_ (quiet_mention _ path)
    exact ⟨rfl, rfl, rfl, rfl, rfl, rfl, rfl, rfl⟩
  rw [Build.ends]
  split
  · exact htimed.trans (quiet_emit _ _)
  · split
    · exact htimed.trans (quiet_emit _ _)
    · exact htimed

theorem quiet_publish (b : Build) (u : CompiledUnit) : Quiet b (b.publish u).2 := by
  rw [Build.publish]
  split <;> exact ⟨rfl, rfl, rfl, rfl, rfl, rfl, rfl, rfl⟩

/-- Something was told, and the disk stays as it was. -/
structure Silent (s s' : Build × Disk) : Prop where
  quiet : Quiet s.1 s'.1
  disk : s'.2 = s.2

theorem Silent.trans {s₁ s₂ s₃ : Build × Disk} (h : Silent s₁ s₂) (h' : Silent s₂ s₃) : Silent s₁ s₃ :=
  ⟨h.quiet.trans h'.quiet, h'.disk.trans h.disk⟩

theorem Silent.refl (s : Build × Disk) : Silent s s := ⟨.refl s.1, rfl⟩

theorem silent_of_quiet {b : Build} (h : Quiet s.1 b) : Silent s (b, s.2) := ⟨h, rfl⟩

theorem silent_now {n : Nat} (h : Yields now s n s') : Silent s s' := by
  simp only [now, yields_bind, yields_lift, yields_modify, yields_pure] at h
  obtain ⟨_, t, ⟨ht, hclock⟩, _, _, rfl, -, rfl⟩ := h
  have hdisk := congrArg Prod.snd hclock
  change s.2 = t.2 at hdisk
  rw [← hdisk, ht]
  exact silent_of_quiet ⟨rfl, rfl, rfl, rfl, rfl, rfl, rfl, rfl⟩

theorem quiet_now {n : Nat} (h : Yields now s n s') : Quiet s.1 s'.1 := (silent_now h).quiet

@[simp] theorem fails_now : ¬ Fails now s e s' := by
  simp only [now, fails_bind, fails_lift, fails_modify, fails_pure, and_false, exists_false, or_self,
    not_false_eq_true]

theorem silent_openSpan {scope : Journal.Scope} {name : String} {parent : Nat} {sp : Journal.OpenSpan}
    (h : Yields (openSpan scope name parent) s sp s') : Silent s s' := by
  simp only [openSpan, yields_bind, yields_modifyGet] at h
  obtain ⟨_, t, ht, -, rfl⟩ := h
  exact (silent_now ht).trans (silent_of_quiet ⟨rfl, rfl, rfl, rfl, rfl, rfl, rfl, rfl⟩)

@[simp] theorem fails_openSpan {scope : Journal.Scope} {name : String} {parent : Nat} :
    ¬ Fails (openSpan scope name parent) s e s' := by
  simp [openSpan]

theorem silent_closeSpan {sp : Journal.OpenSpan} {detail : String} {u : PUnit}
    (h : Yields (closeSpan sp detail) s u s') : Silent s s' := by
  simp only [closeSpan, yields_bind, yields_modify] at h
  obtain ⟨_, t, ht, rfl⟩ := h
  exact (silent_now ht).trans (silent_of_quiet ⟨rfl, rfl, rfl, rfl, rfl, rfl, rfl, rfl⟩)

@[simp] theorem fails_closeSpan {sp : Journal.OpenSpan} {detail : String} :
    ¬ Fails (closeSpan sp detail) s e s' := by
  simp [closeSpan]

theorem yields_inSpan {scope : Journal.Scope} {name failDetail : String} {parent : Nat}
    {body : Journal.OpenSpan → BuildM (StateM Disk) (α × Journal.OpenSpan × String)}
    (h : Yields (inSpan scope name parent failDetail body) s a s') :
    ∃ sp t r t', Silent s t ∧ Yields (body sp) t r t' ∧ r.1 = a ∧ Silent t' s' := by
  simp only [inSpan, yields_bind] at h
  obtain ⟨sp, t, hopen, r, t', hbody, h⟩ := h
  split at h
  case h_1 c sp' detail =>
    simp only [yields_bind, yields_pure] at h
    obtain ⟨_, t'', hclose, rfl, rfl⟩ := h
    exact ⟨sp, t, _, t', silent_openSpan hopen, yields_observe hbody _ rfl, rfl,
      silent_closeSpan hclose⟩
  case h_2 =>
    simp only [yields_bind, yields_throw, and_false, exists_false] at h

theorem fails_inSpan {scope : Journal.Scope} {name failDetail : String} {parent : Nat}
    {body : Journal.OpenSpan → BuildM (StateM Disk) (α × Journal.OpenSpan × String)}
    (h : Fails (inSpan scope name parent failDetail body) s e s') :
    ∃ sp t t', Silent s t ∧ Fails (body sp) t e t' := by
  simp only [inSpan, fails_bind, fails_openSpan, fails_observe, false_or] at h
  obtain ⟨sp, t, hopen, r, t', hbody, h⟩ := h
  split at h
  case h_1 => simp only [fails_bind, fails_closeSpan, fails_pure, and_false, exists_false, or_self] at h
  case h_2 e₁ =>
    simp only [fails_bind, fails_closeSpan, fails_throw, false_or] at h
    obtain ⟨_, _, -, rfl, -⟩ := h
    exact ⟨sp, t, t', silent_openSpan hopen, fails_of_observe hbody⟩

theorem yields_inPhase {root : Nat} {name : String} {body : BuildM (StateM Disk) String} {u : PUnit}
    (h : Yields (inPhase root name body) s u s') :
    ∃ t note t', Silent s t ∧ Yields body t note t' ∧ Silent t' s' := by
  by_cases hname : name = "parse"
  · simp only [inPhase, hname, if_true, yields_bind, yields_modify] at h
    obtain ⟨_, _, rfl, _, t₁, hnow, _, t, hopen, r, t', hbody, h⟩ := h
    cases r with
    | error e => simp only [yields_bind, yields_throw, and_false, exists_false] at h
    | ok note =>
      simp only [yields_bind, yields_modify] at h
      obtain ⟨_, t₂, hclose, _, t₃, hnow', _, _, rfl, rfl⟩ := h
      refine ⟨t, note, t', ?_, yields_observe hbody note rfl, ?_⟩
      · exact ((silent_of_quiet (quiet_emit ..)).trans (silent_now hnow)).trans (silent_openSpan hopen)
      · exact ((silent_closeSpan hclose).trans (silent_now hnow')).trans
          (silent_of_quiet ⟨rfl, rfl, rfl, rfl, rfl, rfl, rfl, rfl⟩)
  · simp only [inPhase, hname, if_false, yields_bind] at h
    obtain ⟨_, t₁, hnow, _, t, hopen, r, t', hbody, h⟩ := h
    cases r with
    | error e => simp only [yields_bind, yields_throw, and_false, exists_false] at h
    | ok note =>
      simp only [yields_bind, yields_modify, yields_pure] at h
      obtain ⟨_, t₂, hclose, _, t₃, hnow', _, _, rfl, -, rfl⟩ := h
      refine ⟨t, note, t', ?_, yields_observe hbody note rfl, ?_⟩
      · exact (silent_now hnow).trans (silent_openSpan hopen)
      · exact ((silent_closeSpan hclose).trans (silent_now hnow')).trans
          (silent_of_quiet ⟨rfl, rfl, rfl, rfl, rfl, rfl, rfl, rfl⟩)

theorem fails_inPhase {root : Nat} {name : String} {body : BuildM (StateM Disk) String}
    (h : Fails (inPhase root name body) s e s') : ∃ t t', Silent s t ∧ Fails body t e t' := by
  by_cases hname : name = "parse"
  · simp only [inPhase, hname, if_true, fails_bind, fails_modify, yields_modify, fails_now,
      fails_openSpan, fails_observe, false_or] at h
    obtain ⟨_, _, rfl, _, t₁, hnow, _, t, hopen, r, t', hbody, h⟩ := h
    cases r with
    | ok note =>
      simp only [fails_bind, fails_closeSpan, fails_now, fails_modify, and_false, exists_false,
        or_self] at h
    | error e₁ =>
      simp only [fails_bind, fails_closeSpan, fails_now, fails_modify, fails_throw, false_or, and_false,
        exists_false] at h
      obtain ⟨_, _, -, _, _, -, rfl, -⟩ := h
      refine ⟨t, t', ?_, fails_of_observe hbody⟩
      exact ((silent_of_quiet (quiet_emit ..)).trans (silent_now hnow)).trans (silent_openSpan hopen)
  · simp only [inPhase, hname, if_false, fails_bind, fails_now, fails_openSpan, fails_observe,
      false_or] at h
    obtain ⟨_, t₁, hnow, _, t, hopen, r, t', hbody, h⟩ := h
    cases r with
    | ok note =>
      simp only [fails_bind, fails_closeSpan, fails_now, fails_modify, fails_pure, and_false,
        exists_false, or_self] at h
    | error e₁ =>
      simp only [fails_bind, fails_closeSpan, fails_now, fails_modify, fails_throw, fails_pure, false_or,
        and_false, exists_false] at h
      obtain ⟨_, _, -, _, _, -, rfl, -⟩ := h
      exact ⟨t, t', (silent_now hnow).trans (silent_openSpan hopen), fails_of_observe hbody⟩

theorem quiet_persist {path : String} {v : CompiledUnit} {u : PUnit}
    (h : Yields (persist path v) s u s') : Quiet s.1 s'.1 := by
  simp only [persist, yields_bind, yields_get] at h
  obtain ⟨b, t, ⟨rfl, rfl⟩, h⟩ := h
  split at h
  · rw [yields_pure] at h
    exact h.2 ▸ .refl _
  · simp only [yields_bind, yields_modify, yields_lift] at h
    obtain ⟨_, t₁, rfl, _, t₂, h₂, outcome, t₃, ⟨h₃, -⟩, _, t₄, h₄, h⟩ := h
    have hquiet : Quiet t.1 t₄.1 :=
      ((quiet_begins ..).trans (quiet_now h₂)).trans (h₃ ▸ quiet_now h₄)
    split at h
    · rw [yields_modify] at h
      subst h
      have hends := quiet_ends t₄.1 path .persist none
      exact hquiet.trans (hends _)
    · simp only [yields_bind, yields_throw, and_false, exists_false] at h

end Pascaline.BuildM
