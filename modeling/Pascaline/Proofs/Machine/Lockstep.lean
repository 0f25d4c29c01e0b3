import Pascaline.Proofs.Machine.Renaming

/-!
# Two executions side by side

`Agree P x y Q` runs `x` and `y` from two states that `P` relates. Either both end with related
results, or both stop with the same code, or one of them has run out of heap.
-/

namespace Pascaline

/-! ## Machines up to a renaming -/

/-- A frame without its values. -/
def Frame.bare (f : Frame) : Frame := { f with locals := #[], operands := [] }

structure Frame.Like (ρ : Renaming) (f f' : Frame) : Prop where
  locals : LikeAll ρ f.locals f'.locals
  operands : List.Forall₂ (Value.Like ρ) f.operands f'.operands
  bare : f.bare = f'.bare

namespace Frame.Like

variable {ρ : Renaming} {f f' : Frame}

theorem symm (h : Frame.Like ρ f f') : Frame.Like (fun j k => ρ k j) f' f :=
  ⟨h.locals.symm, (h.operands.imp fun _ _ hvw => hvw.symm).flip, h.bare.symm⟩

theorem mono {σ : Renaming} (h : Frame.Like ρ f f')
    (hle : ∀ k j, .ref k ∈ f.locals ∨ .ref k ∈ f.operands → ρ k j → σ k j) :
    Frame.Like σ f f' := by
  refine ⟨h.locals.mono fun k j hk => hle k j (Or.inl hk), ?_, h.bare⟩
  exact forall₂_mono_mem h.operands fun v hv w hvw =>
    hvw.mono fun k j hk => hle k j (Or.inr (hk ▸ hv))

theorem unit_eq (h : Frame.Like ρ f f') : f.unit = f'.unit := (congrArg Frame.unit h.bare :)

theorem name_eq (h : Frame.Like ρ f f') : f.name = f'.name := (congrArg Frame.name h.bare :)

theorem routine_eq (h : Frame.Like ρ f f') : f.routine = f'.routine := (congrArg Frame.routine h.bare :)

theorem block_eq (h : Frame.Like ρ f f') : f.block = f'.block := (congrArg Frame.block h.bare :)

theorem ip_eq (h : Frame.Like ρ f f') : f.ip = f'.ip := (congrArg Frame.ip h.bare :)

theorem span_eq (h : Frame.Like ρ f f') : f.span = f'.span := (congrArg Frame.span h.bare :)

theorem instr?_eq (h : Frame.Like ρ f f') : f.instr? = f'.instr? := by
  rw [Frame.instr?, Frame.instr?, h.block_eq, h.routine_eq, h.ip_eq]

end Frame.Like

/-- A machine without its values, its heap and its trace. -/
def Machine.bare (m : Machine) : Machine :=
  { m with globals := #[], heap := .ofBudget 0, frames := [], events := none }

/-- The same state, but for a renaming of handles, garbage and the trace. -/
structure Machine.Sim (ρ : Renaming) (m m' : Machine) : Prop where
  heap : Heap.Alike ρ m.heap m'.heap
  globals : List.Forall₂ (LikeAll ρ) m.globals.toList m'.globals.toList
  frames : List.Forall₂ (Frame.Like ρ) m.frames m'.frames
  bare : m.bare = m'.bare

/-- The same state for some renaming. -/
def Machine.Twins (m m' : Machine) : Prop := ∃ ρ, Machine.Sim ρ m m'

namespace Machine.Sim

variable {ρ : Renaming} {m m' : Machine}

theorem twins (h : Sim ρ m m') : Twins m m' := ⟨ρ, h⟩

theorem symm (h : Sim ρ m m') : Sim (fun j k => ρ k j) m' m :=
  ⟨h.heap.symm, (h.globals.imp fun _ _ hg => hg.symm).flip,
    (h.frames.imp fun _ _ hf => hf.symm).flip, h.bare.symm⟩

theorem mono {σ : Renaming} (h : Sim ρ m m') {heap heap' : Heap}
    (hheap : Heap.Alike σ heap heap') (hle : ∀ k j, .ref k ∈ m.roots → ρ k j → σ k j) :
    Sim σ { m with heap } { m' with heap := heap' } := by
  refine ⟨hheap, ?_, ?_, h.bare⟩
  · refine forall₂_mono_mem h.globals fun g hg g' hgg => hgg.mono fun k j hk => hle k j ?_
    exact List.mem_append_left _ (List.mem_flatMap.mpr ⟨g, hg, Array.mem_toList_iff.mpr hk⟩)
  · refine forall₂_mono_mem h.frames fun f hf f' hff => hff.mono fun k j hk => hle k j ?_
    refine List.mem_append_right _ (List.mem_flatMap.mpr ⟨f, hf, ?_⟩)
    exact List.mem_append.mpr (hk.imp Array.mem_toList_iff.mpr id)

theorem retrace (h : Sim ρ m m') {n n' : Machine} (hn : { n with events := m.events } = m)
    (hn' : { n' with events := m'.events } = m') : Sim ρ n n' := by
  have key : Sim ρ { n with events := m.events } { n' with events := m'.events } := by
    rw [hn, hn']
    exact h
  exact ⟨key.heap, key.globals, key.frames, key.bare⟩

theorem root_live (h : Sim ρ m m') {v : Value} (hv : v ∈ m.roots) : v.LiveIn m.heap := by
  rcases List.mem_append.mp hv with hv | hv
  · obtain ⟨g, hg, hv⟩ := List.mem_flatMap.mp hv
    obtain ⟨g', hgg⟩ := forall₂_mem h.globals hg
    obtain ⟨w, hvw⟩ := forall₂_mem hgg hv
    exact h.heap.live hvw
  · obtain ⟨f, hf, hv⟩ := List.mem_flatMap.mp hv
    obtain ⟨f', hff⟩ := forall₂_mem h.frames hf
    rcases List.mem_append.mp hv with hv | hv
    · obtain ⟨w, hvw⟩ := forall₂_mem hff.locals hv
      exact h.heap.live hvw
    · obtain ⟨w, hvw⟩ := forall₂_mem hff.operands hv
      exact h.heap.live hvw

theorem maxFrames_eq (h : Sim ρ m m') : m.maxFrames = m'.maxFrames :=
  (congrArg Machine.maxFrames h.bare :)

theorem halted_eq (h : Sim ρ m m') : m.halted = m'.halted := (congrArg Machine.halted h.bare :)

theorem stopping_eq (h : Sim ρ m m') : m.stopping = m'.stopping :=
  (congrArg Machine.stopping h.bare :)

theorem pending_eq (h : Sim ρ m m') : m.pending = m'.pending := (congrArg Machine.pending h.bare :)

theorem isDone_eq (h : Sim ρ m m') : m.isDone = m'.isDone := by
  have hframes : m.frames.isEmpty = m'.frames.isEmpty := by
    have hlength := h.frames.length_eq
    cases hm : m.frames <;> cases hm' : m'.frames <;> simp_all
  rw [isDone, isDone, h.halted_eq, hframes, h.pending_eq]

theorem input_eq (h : Sim ρ m m') : m.input = m'.input := (congrArg Machine.input h.bare :)

theorem span_eq (h : Sim ρ m m') : (m.frames.head?.map (·.span)).getD ⟨0, 0, 0⟩ =
    (m'.frames.head?.map (·.span)).getD ⟨0, 0, 0⟩ := by
  have hhead := forall₂_head? h.frames
  generalize m.frames.head? = f, m'.frames.head? = f' at hhead
  cases hhead with
  | none => rfl
  | some hff => simp [hff.span_eq]

theorem touch (h : Sim ρ m m') (k j : Handle) {f g : Cell → Cell}
    (hf : ∀ c, (f c).serial = c.serial ∧ (f c).kind = c.kind ∧ (f c).elems = c.elems)
    (hg : ∀ c, (g c).serial = c.serial ∧ (g c).kind = c.kind ∧ (g c).elems = c.elems) :
    Sim ρ { m with heap := m.heap.update k f } { m' with heap := m'.heap.update j g } := by
  have hleft := h.heap.update_left k (fun c => (hf c).1) (fun c => (hf c).2.1) fun c => (hf c).2.2
  have hboth := hleft.update_right j (fun c => (hg c).1) (fun c => (hg c).2.1) fun c => (hg c).2.2
  exact h.mono hboth fun _ _ _ h => h

theorem collect_left (h : Sim ρ m m') :
    ∃ σ, Sim σ { m with heap := m.heap.collect m.roots } m' := by
  refine ⟨_, h.mono (h.heap.collect_left m.roots) ?_⟩
  intro k j hk hρ
  refine ⟨hρ, ?_⟩
  exact (Heap.liveIn_collect (h.root_live hk) hk k rfl).resolve_left (h.heap.ne_zero hρ)

end Machine.Sim

/-! ## Rules -/

/-- The code of a fault; a breakdown has none. -/
def Stop.code? : Stop → Option Nat
  | .fault f => some f.cause.code
  | .breakdown => none

/-- The heap was too small. -/
def Stop.exhausted : Stop → Bool
  | .fault ⟨.heapExhausted _ _, _, _⟩ => true
  | _ => false

namespace Exec

open Machine

variable {α β γ δ : Type} {ρ : Renaming}

/-- How two results may compare. -/
def Meet (Q : α → β → Machine → Machine → Prop) :
    EStateM.Result Stop Machine α → EStateM.Result Stop Machine β → Prop
  | .ok a m, .ok b m' => Q a b m m'
  | .error e m, .error e' m' =>
    e.exhausted ∨ e'.exhausted ∨ (e.code? = e'.code? ∧ m.bare = m'.bare)
  | .ok _ _, .error e _ => e.exhausted
  | .error e _, .ok _ _ => e.exhausted

def Agree (P : Machine → Machine → Prop) (x : Exec α) (y : Exec β)
    (Q : α → β → Machine → Machine → Prop) : Prop :=
  ∀ m m', P m m' → Meet Q (x m) (y m')

variable {P P' : Machine → Machine → Prop} {Q : α → β → Machine → Machine → Prop}

theorem Meet.of_left {e : Stop} (he : e.exhausted) (m : Machine)
    (r : EStateM.Result Stop Machine β) : Meet Q (.error e m) r := by
  cases r with
  | ok b m' => exact he
  | error e' m' => exact Or.inl he

theorem Meet.of_right {e : Stop} (he : e.exhausted) (m : Machine)
    (r : EStateM.Result Stop Machine α) : Meet Q r (.error e m) := by
  cases r with
  | ok b m' => exact he
  | error e' m' => exact Or.inr (Or.inl he)

theorem Meet.cases {r : EStateM.Result Stop Machine α} {r' : EStateM.Result Stop Machine β}
    (h : Meet Q r r') :
    (∃ a b m m', r = .ok a m ∧ r' = .ok b m' ∧ Q a b m m') ∨
    (∃ e e' m m', r = .error e m ∧ r' = .error e' m' ∧ e.code? = e'.code? ∧ m.bare = m'.bare) ∨
    (∃ e m, r = .error e m ∧ e.exhausted) ∨ ∃ e m, r' = .error e m ∧ e.exhausted := by
  cases r <;> cases r'
  · exact Or.inl ⟨_, _, _, _, rfl, rfl, h⟩
  · exact Or.inr (Or.inr (Or.inr ⟨_, _, rfl, h⟩))
  · exact Or.inr (Or.inr (Or.inl ⟨_, _, rfl, h⟩))
  · rcases h with h | h | h
    · exact Or.inr (Or.inr (Or.inl ⟨_, _, rfl, h⟩))
    · exact Or.inr (Or.inr (Or.inr ⟨_, _, rfl, h⟩))
    · exact Or.inr (Or.inl ⟨_, _, _, _, rfl, rfl, h⟩)

theorem Meet.mono {R : α → β → Machine → Machine → Prop} {r : EStateM.Result Stop Machine α}
    {r' : EStateM.Result Stop Machine β} (h : Meet R r r')
    (hQ : ∀ a b m m', R a b m m' → Q a b m m') : Meet Q r r' := by
  cases r <;> cases r'
  · exact hQ _ _ _ _ h
  · exact h
  · exact h
  · exact h

theorem Agree.pure {a : α} {b : β} (h : ∀ m m', P m m' → Q a b m m') :
    Agree P (pure a) (pure b) Q := h

theorem Agree.bind {x : Exec α} {y : Exec β} {f : α → Exec γ} {g : β → Exec δ}
    {S : γ → δ → Machine → Machine → Prop} (hx : Agree P x y Q)
    (hf : ∀ a b, Agree (Q a b) (f a) (g b) S) : Agree P (x >>= f) (y >>= g) S := by
  intro m m' hm
  have hx := hx m m' hm
  simp only [Bind.bind, EStateM.bind]
  cases hxm : x m with
  | ok a s =>
    cases hym : y m' with
    | ok b s' =>
      rw [hxm, hym] at hx
      exact hf a b s s' hx
    | error e s' =>
      rw [hxm, hym] at hx
      exact Meet.of_right hx s' _
  | error e s =>
    cases hym : y m' with
    | ok b s' =>
      rw [hxm, hym] at hx
      exact Meet.of_left hx s _
    | error e' s' =>
      rw [hxm, hym] at hx
      exact hx

theorem Agree.pre {x : Exec α} {y : Exec β} (hx : Agree P' x y Q)
    (hP : ∀ m m', P m m' → P' m m') : Agree P x y Q :=
  fun m m' hm => hx m m' (hP m m' hm)

theorem Agree.post {x : Exec α} {y : Exec β} {R : α → β → Machine → Machine → Prop}
    (hx : Agree P x y R) (hQ : ∀ a b m m', R a b m m' → Q a b m m') : Agree P x y Q :=
  fun m m' hm => (hx m m' hm).mono hQ

theorem Agree.fact {p : Prop} {x : Exec α} {y : Exec β} (hp : ∀ m m', P m m' → p)
    (hx : p → Agree P x y Q) : Agree P x y Q :=
  fun m m' hm => hx (hp m m' hm) m m' hm

theorem Agree.left {x : Exec α} {y : Exec β} {P₁ : Machine → Prop} {Q₁ : α → Machine → Prop}
    (hx : Agree P x y Q) (hleft : Triple P₁ x Q₁ fun _ _ => True) :
    Agree (fun m m' => P m m' ∧ P₁ m) x y fun a b m m' => Q a b m m' ∧ Q₁ a m := by
  rintro m m' ⟨hm, hm₁⟩
  have hx := hx m m' hm
  have hleft := hleft m hm₁
  cases hxm : x m <;> cases hym : y m' <;> rw [hxm, hym] at hx <;> rw [hxm] at hleft
  · exact ⟨hx, hleft⟩
  · exact hx
  · exact hx
  · exact hx

theorem Agree.twins {x : Exec α} {y : Exec β} (hx : ∀ σ, Agree (Sim σ) x y Q) :
    Agree Twins x y Q :=
  fun m m' ⟨σ, hm⟩ => hx σ m m' hm

theorem Agree.ite {c c' : Prop} [Decidable c] [Decidable c'] {x y : Exec α} {x' y' : Exec β}
    (hc : c ↔ c') (hx : c → Agree P x x' Q) (hy : ¬c → Agree P y y' Q) :
    Agree P (if c then x else y) (if c' then x' else y') Q := by
  by_cases h : c
  · rw [if_pos h, if_pos (hc.mp h)]
    exact hx h
  · rw [if_neg h, if_neg (mt hc.mpr h)]
    exact hy h

/-- The states are the same up to `ρ`, and the values are related. -/
def Both (ρ : Renaming) (R : α → β → Prop) : α → β → Machine → Machine → Prop :=
  fun a b m m' => Sim ρ m m' ∧ R a b

/-- The states are the same up to more pairs than `ρ`, and so are the values. -/
def Later (ρ : Renaming) (R : Renaming → α → β → Prop) : α → β → Machine → Machine → Prop :=
  fun a b m m' => ∃ σ, (∀ k j, ρ k j → σ k j) ∧ Sim σ m m' ∧ R σ a b

theorem Agree.both {x : Exec α} {y : Exec β} {f : α → Exec γ} {g : β → Exec δ}
    {R : α → β → Prop} {S : γ → δ → Machine → Machine → Prop} (hx : Agree P x y (Both ρ R))
    (hf : ∀ a b, R a b → Agree (Sim ρ) (f a) (g b) S) : Agree P (x >>= f) (y >>= g) S :=
  hx.bind fun a b m m' h => hf a b h.2 m m' h.1

theorem Agree.later {x : Exec α} {y : Exec β} {f : α → Exec γ} {g : β → Exec δ}
    {R : Renaming → α → β → Prop} {S : γ → δ → Machine → Machine → Prop}
    (hx : Agree P x y (Later ρ R))
    (hf : ∀ σ a b, (∀ k j, ρ k j → σ k j) → R σ a b → Agree (Sim σ) (f a) (g b) S) :
    Agree P (x >>= f) (y >>= g) S :=
  hx.bind fun a b m m' ⟨σ, hle, hm, hR⟩ => hf σ a b hle hR m m' hm

theorem Agree.look {f : Machine → Exec γ} {g : Machine → Exec δ}
    {S : γ → δ → Machine → Machine → Prop}
    (h : ∀ m m', Sim ρ m m' → Agree (Sim ρ) (f m) (g m') S) :
    Agree (Sim ρ) (get >>= f) (get >>= g) S :=
  fun m m' hm => h m m' hm m m' hm

theorem Meet.look {f : Machine → Exec γ} {g : Machine → Exec δ}
    {S : γ → δ → Machine → Machine → Prop} {m m' : Machine} (hm : Sim ρ m m')
    (h : Agree (Sim ρ) (f m) (g m') S) : Meet S ((get >>= f) m) ((get >>= g) m') :=
  h m m' hm

theorem Agree.set {m₁ m₁' : Machine} {Q : PUnit → PUnit → Machine → Machine → Prop}
    (h : Q ⟨⟩ ⟨⟩ m₁ m₁') : Agree P (set m₁) (set m₁') Q := fun _ _ _ => h

theorem Agree.modify {f g : Machine → Machine} {Q : PUnit → PUnit → Machine → Machine → Prop}
    (h : ∀ m m', P m m' → Q ⟨⟩ ⟨⟩ (f m) (g m')) : Agree P (modify f) (modify g) Q := h

theorem Agree.discard {x : Exec α} {y : Exec β} {R : α → β → Prop} (hx : Agree P x y (Both ρ R)) :
    Agree P (Functor.discard x) (Functor.discard y) fun _ _ => Sim ρ := by
  intro m m' hm
  have hx := hx m m' hm
  simp only [Functor.discard, Functor.mapConst, EStateM.map, Function.comp]
  cases hxm : x m <;> cases hym : y m' <;> rw [hxm, hym] at hx
  · exact hx.1
  · exact hx
  · exact hx
  · exact hx

theorem Agree.raise {c c' : FaultCause} (hc : c.code = c'.code) :
    Agree (Sim ρ) (raise c : Exec α) (raise c' : Exec β) Q :=
  fun _ _ hm => Or.inr (Or.inr ⟨congrArg some hc, hm.bare⟩)

theorem Agree.breakdown : Agree (Sim ρ) (breakdown : Exec α) (breakdown : Exec β) Q :=
  fun _ _ hm => Or.inr (Or.inr ⟨rfl, hm.bare⟩)

theorem Agree.unless {c c' : Prop} [Decidable c] [Decidable c'] {e e' : FaultCause}
    {f : α → Exec γ} {g : β → Exec δ} {x : Exec γ} {y : Exec δ}
    {S : γ → δ → Machine → Machine → Prop} (hc : c ↔ c') (he : e.code = e'.code)
    (hx : ¬c → Agree (Sim ρ) x y S) :
    Agree (Sim ρ) (if c then Exec.raise e >>= f else x) (if c' then Exec.raise e' >>= g else y) S :=
  Agree.ite hc (fun _ => Agree.bind (Q := fun _ _ _ _ => False) (Agree.raise he)
    fun _ _ _ _ h => h.elim) hx

theorem Agree.unlessBroken {c c' : Prop} [Decidable c] [Decidable c'] {f : α → Exec γ}
    {g : β → Exec δ} {x : Exec γ} {y : Exec δ} {S : γ → δ → Machine → Machine → Prop}
    (hc : c ↔ c') (hx : ¬c → Agree (Sim ρ) x y S) :
    Agree (Sim ρ) (if c then Exec.breakdown >>= f else x)
      (if c' then Exec.breakdown >>= g else y) S :=
  Agree.ite hc (fun _ => Agree.bind (Q := fun _ _ _ _ => False) Agree.breakdown
    fun _ _ _ _ h => h.elim) hx

theorem Agree.unlessExhausted {c c' : Prop} [Decidable c] [Decidable c'] {e e' : FaultCause}
    {f : α → Exec γ} {g : β → Exec δ} {x : Exec γ} {y : Exec δ}
    {S : γ → δ → Machine → Machine → Prop}
    (he : ∀ m, Stop.exhausted (.fault (Machine.faultOf m e)))
    (he' : ∀ m, Stop.exhausted (.fault (Machine.faultOf m e'))) (hx : Agree (Sim ρ) x y S) :
    Agree (Sim ρ) (if c then Exec.raise e >>= f else x) (if c' then Exec.raise e' >>= g else y) S := by
  intro m m' hm
  by_cases hc : c
  · rw [if_pos hc]
    exact Meet.of_left (he m) m _
  · by_cases hc' : c'
    · rw [if_pos hc']
      exact Meet.of_right (he' m') m' _
    · rw [if_neg hc, if_neg hc']
      exact hx m m' hm

/-! ## Parts of instructions -/

theorem expect_agree {R : α → β → Prop} {o : Option α} {o' : Option β} (h : Option.Rel R o o') :
    Agree (Sim ρ) (expect o) (expect o') (Both ρ R) := by
  cases h with
  | none => exact Agree.breakdown
  | some hR => exact Agree.pure fun m m' hm => ⟨hm, hR⟩

theorem expect_same (o : Option α) :
    Agree (Sim ρ) (expect o) (expect o) (Both ρ fun a b => a = b) := by
  refine expect_agree ?_
  cases o with
  | none => exact .none
  | some a => exact .some rfl

theorem entry_agree (xs : Array α) (i : Int) :
    Agree (Sim ρ) (entry xs i) (entry xs i)
      (Both ρ fun a b => a = b ∧ 0 ≤ i ∧ xs[i.toNat]? = some a) := by
  refine expect_agree ?_
  split
  · exact .none
  · cases h : xs[i.toNat]? with
    | none => exact .none
    | some a => exact .some ⟨rfl, by omega, rfl⟩

theorem entry_like {xs ys : Array Value} (h : LikeAll ρ xs ys) (i : Int) :
    Agree (Sim ρ) (entry xs i) (entry ys i) (Both ρ (Value.Like ρ)) := by
  refine expect_agree ?_
  split
  · exact .none
  · exact h.getElem? _

theorem top_agree : Agree (Sim ρ) top top (Both ρ (Frame.Like ρ)) :=
  Agree.look fun _ _ hm => expect_agree (forall₂_head? hm.frames)

theorem log_agree (e e' : Machine → TraceEvent) :
    Agree (Sim ρ) (log e) (log e') fun _ _ => Sim ρ := by
  have hlog : ∀ (e : Machine → TraceEvent) (m : Machine),
      { (if m.events.isSome then m.log (e m) else m) with events := m.events } = m := by
    rintro e ⟨_, _, _, _, _, _, _, _, _, _, _ | es⟩ <;> rfl
  exact Agree.modify fun m m' hm => hm.retrace (hlog e m) (hlog e' m')

theorem globals_like {m m' : Machine} (hm : Sim ρ m m') (unit slot : Nat) :
    Option.Rel (Value.Like ρ) ((m.globals[unit]?).bind (·[slot]?))
      ((m'.globals[unit]?).bind (·[slot]?)) := by
  have hunit := forall₂_getElem? hm.globals unit
  rw [Array.getElem?_toList, Array.getElem?_toList] at hunit
  generalize m.globals[unit]? = g, m'.globals[unit]? = g' at hunit
  cases hunit with
  | none => exact .none
  | some hg => exact hg.getElem? slot

theorem setGlobal_like {gs gs' : Array (Array Value)}
    (hgs : List.Forall₂ (LikeAll ρ) gs.toList gs'.toList) (unit slot : Nat) {v w : Value}
    (hvw : v.Like ρ w) :
    List.Forall₂ (LikeAll ρ) (gs.modify unit (·.set! slot v)).toList
      (gs'.modify unit (·.set! slot w)).toList := by
  rw [Array.toList_modify, Array.toList_modify]
  exact forall₂_modify hgs unit fun g g' hg => hg.set slot hvw

theorem modifyTop_agree {f g : Frame → Frame}
    (h : ∀ fr fr', Frame.Like ρ fr fr' → Frame.Like ρ (f fr) (g fr')) :
    Agree (Sim ρ) (modifyTop f) (modifyTop g) fun _ _ => Sim ρ := by
  refine Agree.modify ?_
  intro m m' hm
  have hframes := hm.frames
  cases hm₁ : m.frames <;> cases hm₂ : m'.frames <;> rw [hm₁, hm₂] at hframes
  · exact hm
  · cases hframes
  · cases hframes
  · cases hframes with
    | cons hff hrest => exact ⟨hm.heap, hm.globals, .cons (h _ _ hff) hrest, hm.bare⟩

theorem push_agree {v w : Value} (h : v.Like ρ w) :
    Agree (Sim ρ) (push v) (push w) fun _ _ => Sim ρ :=
  modifyTop_agree fun _ _ hff => ⟨hff.locals, .cons h hff.operands, hff.bare⟩

theorem pop_agree : Agree (Sim ρ) pop pop (Both ρ (Value.Like ρ)) := by
  intro m m' hm
  have hframes := hm.frames
  cases hm₁ : m.frames <;> cases hm₂ : m'.frames <;> rw [hm₁, hm₂] at hframes
  · simp only [pop, hm₁, hm₂]
    exact Agree.breakdown m m' hm
  · cases hframes
  · cases hframes
  · rename_i f rest f' rest'
    cases hframes with
    | cons hff hrest =>
      have hops := hff.operands
      cases hf₁ : f.operands <;> cases hf₂ : f'.operands <;> rw [hf₁, hf₂] at hops
      all_goals simp only [pop, hm₁, hm₂, hf₁, hf₂]
      · exact Agree.breakdown m m' hm
      · cases hops
      · cases hops
      · cases hops with
        | cons hvw hops =>
          exact ⟨⟨hm.heap, hm.globals, .cons ⟨hff.locals, hops, hff.bare⟩ hrest, hm.bare⟩, hvw⟩

theorem peek_agree : Agree (Sim ρ) peek peek (Both ρ (Value.Like ρ)) :=
  top_agree.both fun _ _ hff => expect_agree (forall₂_head? hff.operands)

theorem popMany_agree (n : Int) :
    Agree (Sim ρ) (popMany n) (popMany n) (Both ρ (List.Forall₂ (Value.Like ρ))) := by
  refine top_agree.both ?_
  intro f f' hff
  have hlength := hff.operands.length_eq
  refine Agree.ite (by rw [hlength]) (fun _ => Agree.breakdown) fun _ => ?_
  refine Agree.bind (modifyTop_agree ?_) ?_
  · intro fr fr' hfr
    exact ⟨hfr.locals, List.forall₂_drop _ hfr.operands, hfr.bare⟩
  · intro _ _
    refine Agree.pure fun m m' hm => ⟨hm, ?_⟩
    exact List.rel_reverse (List.forall₂_take _ hff.operands)

/-! ## Room and cells -/

/-- What making room may do to a machine. -/
structure Thinned (m s : Machine) : Prop where
  heap : s.heap = m.heap ∨ s.heap = m.heap.collect m.roots
  globals : s.globals = m.globals
  frames : s.frames = m.frames
  bare : s.bare = m.bare

theorem reserve_thinned (words : Int) (m : Machine) :
    Triple (· = m) (reserve words) (fun _ => Thinned m) fun e _ => e.exhausted := by
  have hsame : Thinned m m := ⟨Or.inl rfl, rfl, rfl, rfl⟩
  unfold reserve
  refine Triple.ite (fun _ => Triple.pure fun s hs => hs ▸ hsame) fun _ => ?_
  refine Triple.bind Triple.get ?_
  intro m₁
  refine Triple.ite (fun _ => Triple.pure fun s hs => hs.2 ▸ hsame) fun _ => ?_
  refine Triple.bind (R := fun _ => Thinned m) ?_ ?_
  · refine Triple.bind Triple.get ?_
    intro m₂
    refine Triple.bind (R := fun _ s => s = { m with heap := m.heap.collect m.roots }) ?_ ?_
    · exact Triple.modify fun s hs => by rw [hs.2.2]
    · intro _
      refine Triple.modify ?_
      rintro s rfl
      unfold Machine.log
      cases m.events <;> exact ⟨Or.inr rfl, rfl, rfl, rfl⟩
  · intro _
    refine Triple.bind Triple.get ?_
    intro m₃
    refine Triple.ite (fun _ => ?_) (fun _ => Triple.pure fun s hs => hs.2)
    refine Triple.bind Triple.get ?_
    exact fun m₄ => Triple.raise fun s hs => rfl

theorem Thinned.twins {m m' s : Machine} (hm : Twins m m') (hs : Thinned m s) : Twins s m' := by
  obtain ⟨ρ, hm⟩ := hm
  rcases hs.heap with hheap | hheap
  · refine ⟨ρ, hheap ▸ hm.heap, hs.globals ▸ hm.globals, hs.frames ▸ hm.frames, ?_⟩
    exact hs.bare.trans hm.bare
  · obtain ⟨σ, hσ⟩ := hm.collect_left
    refine ⟨σ, hheap ▸ hσ.heap, hs.globals ▸ hσ.globals, hs.frames ▸ hσ.frames, ?_⟩
    exact hs.bare.trans hσ.bare

theorem Twins.symm {m m' : Machine} (h : Twins m m') : Twins m' m :=
  let ⟨_, hm⟩ := h
  ⟨_, hm.symm⟩

/-- One side may collect and the other not, and each may run out of room. -/
theorem reserve_agree (words : Int) :
    Agree (Sim ρ) (reserve words) (reserve words) fun _ _ => Twins := by
  intro m m' hm
  have hx := reserve_thinned words m m rfl
  have hy := reserve_thinned words m' m' rfl
  cases hxm : reserve words m with
  | error e s =>
    rw [hxm] at hx
    exact Meet.of_left hx s _
  | ok a s =>
    cases hym : reserve words m' with
    | error e s' =>
      rw [hym] at hy
      exact Meet.of_right hy s' _
    | ok b s' =>
      rw [hxm] at hx
      rw [hym] at hy
      exact Twins.symm (Thinned.twins (Twins.symm (Thinned.twins hm.twins hx)) hy)

theorem alloc_agree (kind : CellKind) (n : Int) :
    Agree (Sim ρ) (alloc kind n) (alloc kind n) (Later ρ fun σ h h' => σ h h') := by
  unfold alloc
  refine Agree.unlessBroken Iff.rfl fun _ => ?_
  refine Agree.later (ρ := ρ) (R := fun σ h h' => σ h h') ?_ ?_
  · intro m m' hm
    have hinvalid : LikeAll ρ (Array.replicate n.toNat .invalid) (Array.replicate n.toNat .invalid) := by
      unfold LikeAll
      exact List.forall₂_same.mpr fun v hv => .same (by simp_all [Value.kind])
    obtain ⟨σ, hle, hσ, hheap⟩ := hm.heap.alloc kind hinvalid
    exact ⟨σ, hle, hm.mono hheap fun k j _ => hle k j, hσ⟩
  · intro σ h h' hle hσ
    refine Agree.bind (log_agree _ _) ?_
    exact fun _ _ => Agree.pure fun m m' hm => ⟨σ, hle, hm, hσ⟩

theorem fill_agree {x : Exec Value} (hx : ∀ ρ, Agree (Sim ρ) x x (Later ρ Value.Like)) (n : Nat)
    {acc acc' : Array Value} (hacc : LikeAll ρ acc acc') :
    Agree (Sim ρ) (fill x n acc) (fill x n acc') (Later ρ LikeAll) := by
  induction n generalizing ρ acc acc' with
  | zero => exact Agree.pure fun m m' hm => ⟨ρ, fun _ _ h => h, hm, hacc⟩
  | succ n ih =>
    refine Agree.later (hx ρ) ?_
    intro σ v w hle hvw
    have hpush : LikeAll σ (acc.push v) (acc'.push w) := by
      unfold LikeAll
      rw [Array.toList_push, Array.toList_push]
      exact List.rel_append (hacc.mono fun k j _ => hle k j) (.cons hvw .nil)
    refine (ih hpush).post ?_
    rintro elems elems' m m' ⟨τ, hle', hm, helems⟩
    exact ⟨τ, fun k j h => hle' k j (hle k j h), hm, helems⟩

theorem zero_agree (s : Shape) :
    ∀ ρ, Agree (Sim ρ) (zero s) (zero s) (Later ρ Value.Like) := by
  induction s with
  | array n e ih =>
    intro ρ
    refine Agree.later (alloc_agree .array n) ?_
    intro σ h h' hle hσ
    refine Agree.later (fill_agree ih n.toNat (.nil : LikeAll σ #[] #[])) ?_
    intro τ elems elems' hle' helems
    refine Agree.bind (Q := fun _ _ => Sim τ) (Agree.modify ?_) ?_
    · intro m m' hm
      refine hm.mono (hm.heap.updateElems (hle' _ _ hσ) ?_ ?_ ?_) fun _ _ _ h => h
      · exact fun c => ⟨rfl, rfl⟩
      · exact fun c => ⟨rfl, rfl⟩
      · exact fun c c' _ => helems
    · intro _ _
      refine Agree.pure fun m m' hm => ⟨τ, fun k j h => hle' k j (hle k j h), hm, ?_⟩
      exact .ref (hle' _ _ hσ)
  | hollow n => exact fun ρ => Agree.raise rfl
  | _ =>
    intro ρ
    refine Agree.pure fun m m' hm => ⟨ρ, fun _ _ h => h, hm, ?_⟩
    first
      | exact .nil
      | exact .same (by simp [Shape.initial, Value.kind, Value.ofBool, Value.nilRoutine])

theorem zeroAll_agree (ss : List Shape) :
    Agree (Sim ρ) (zeroAll ss) (zeroAll ss)
      (Later ρ fun σ vs ws => List.Forall₂ (Value.Like σ) vs ws) := by
  induction ss generalizing ρ with
  | nil => exact Agree.pure fun m m' hm => ⟨ρ, fun _ _ h => h, hm, .nil⟩
  | cons s ss ih =>
    refine Agree.later (zero_agree s ρ) ?_
    intro σ v w hle hvw
    refine Agree.later ih ?_
    intro τ vs ws hle' hvs
    refine Agree.pure fun m m' hm => ⟨τ, fun k j h => hle' k j (hle k j h), hm, ?_⟩
    exact .cons (hvw.mono fun k j _ => hle' k j) hvs

end Exec

end Pascaline
