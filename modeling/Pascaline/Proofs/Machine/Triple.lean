import Pascaline.Machine.Step

/-!
# Triples over execution

`Triple P x Q E` says that from a state with `P`, the part `x` of an instruction ends with a value
and a state that satisfy `Q`, or stops in a state with `E`. What it did before it stopped stays
done, so `E` speaks about that state too.
-/

namespace Pascaline.Exec

variable {α β : Type}

def Triple (P : Machine → Prop) (x : Exec α) (Q : α → Machine → Prop)
    (E : Stop → Machine → Prop) : Prop :=
  ∀ m, P m →
    match x m with
    | .ok a m' => Q a m'
    | .error e m' => E e m'

variable {P P' : Machine → Prop} {Q : α → Machine → Prop} {E : Stop → Machine → Prop}

theorem Triple.pure {a : α} (h : ∀ m, P m → Q a m) : Triple P (pure a) Q E := h

theorem Triple.bind {x : Exec α} {f : α → Exec β} {R : α → Machine → Prop}
    {S : β → Machine → Prop} (hx : Triple P x R E) (hf : ∀ a, Triple (R a) (f a) S E) :
    Triple P (x >>= f) S E := by
  intro m hm
  have hx := hx m hm
  simp only [Bind.bind, EStateM.bind]
  cases hxm : x m with
  | ok a m' =>
    rw [hxm] at hx
    exact hf a m' hx
  | error e m' =>
    rw [hxm] at hx
    exact hx

theorem Triple.weaken {x : Exec α} {R : α → Machine → Prop} (hx : Triple P' x R E)
    (hP : ∀ m, P m → P' m) (hQ : ∀ a m, R a m → Q a m) : Triple P x Q E := by
  intro m hm
  have hx := hx m (hP m hm)
  cases hxm : x m with
  | ok a m' =>
    rw [hxm] at hx
    exact hQ a m' hx
  | error e m' =>
    rw [hxm] at hx
    exact hx

theorem Triple.pre {x : Exec α} (hx : Triple P' x Q E) (hP : ∀ m, P m → P' m) : Triple P x Q E :=
  hx.weaken hP fun _ _ h => h

theorem Triple.post {x : Exec α} {R : α → Machine → Prop} (hx : Triple P x R E)
    (hQ : ∀ a m, R a m → Q a m) : Triple P x Q E :=
  hx.weaken (fun _ h => h) hQ

theorem Triple.fact {p : Prop} {x : Exec α} (hp : ∀ m, P m → p) (hx : p → Triple P x Q E) :
    Triple P x Q E :=
  fun m hm => hx (hp m hm) m hm

theorem Triple.get : Triple P get (fun a m => a = m ∧ P m) E := fun _ hm => ⟨rfl, hm⟩

theorem get_bind {β : Type} (f : Machine → Exec β) (m : Machine) : (get >>= f) m = f m m := rfl

theorem bind_of_ok {x : Exec α} {a : α} {m m' : Machine} (hx : x m = .ok a m') (f : α → Exec β) :
    (x >>= f) m = f a m' := by
  simp only [Bind.bind, EStateM.bind, hx]

theorem bind_of_error {x : Exec α} {e : Stop} {m m' : Machine} (hx : x m = .error e m')
    (f : α → Exec β) : (x >>= f) m = .error e m' := by
  simp only [Bind.bind, EStateM.bind, hx]

theorem Triple.set {m₁ : Machine} {Q : PUnit → Machine → Prop} (h : ∀ m, P m → Q ⟨⟩ m₁) :
    Triple P (set m₁) Q E := h

theorem Triple.modify {f : Machine → Machine} {Q : PUnit → Machine → Prop}
    (h : ∀ m, P m → Q ⟨⟩ (f m)) : Triple P (modify f) Q E := h

theorem Triple.modifyGet {f : Machine → α × Machine} (h : ∀ m, P m → Q (f m).1 (f m).2) :
    Triple P (modifyGet f) Q E := h

theorem Triple.throw {e : Stop} (h : ∀ m, P m → E e m) : Triple P (throw e : Exec α) Q E := h

theorem Triple.discard {x : Exec α} {Q : PUnit → Machine → Prop}
    (hx : Triple P x (fun _ => Q ⟨⟩) E) : Triple P (Functor.discard x) Q E := by
  intro m hm
  have hx := hx m hm
  simp only [Functor.discard, Functor.mapConst, EStateM.map, Function.comp]
  cases hxm : x m with
  | ok a m' =>
    rw [hxm] at hx
    exact hx
  | error e m' =>
    rw [hxm] at hx
    exact hx

theorem Triple.ite {c : Prop} [Decidable c] {x y : Exec α} (hx : c → Triple P x Q E)
    (hy : ¬c → Triple P y Q E) : Triple P (if c then x else y) Q E := by
  by_cases hc : c
  · rw [if_pos hc]
    exact hx hc
  · rw [if_neg hc]
    exact hy hc

/-! ## Parts that stop -/

theorem Triple.raise {cause : FaultCause} (h : ∀ m, P m → E (.fault (m.faultOf cause)) m) :
    Triple P (raise cause : Exec α) Q E := h

theorem Triple.breakdown (h : ∀ m, P m → E .breakdown m) :
    Triple P (breakdown : Exec α) Q E := h

theorem Triple.unless {c : Prop} [Decidable c] {cause : FaultCause} {f : α → Exec β} {x : Exec β}
    {S : β → Machine → Prop} (hstop : c → ∀ m, P m → E (.fault (m.faultOf cause)) m)
    (hx : ¬c → Triple P x S E) : Triple P (if c then Exec.raise cause >>= f else x) S E :=
  Triple.ite (fun hc => Triple.bind (R := fun _ _ => False) (Triple.raise (hstop hc))
    fun _ _ h => h.elim) hx

theorem Triple.unlessBroken {c : Prop} [Decidable c] {f : α → Exec β} {x : Exec β}
    {S : β → Machine → Prop} (hstop : c → ∀ m, P m → E .breakdown m)
    (hx : ¬c → Triple P x S E) : Triple P (if c then Exec.breakdown >>= f else x) S E :=
  Triple.ite (fun hc => Triple.bind (R := fun _ _ => False) (Triple.breakdown (hstop hc))
    fun _ _ h => h.elim) hx

theorem Triple.expect {o : Option α} (h : ∀ m, P m → E .breakdown m) :
    Triple P (expect o) (fun a m => P m ∧ o = some a) E := by
  cases o with
  | none => exact Triple.breakdown h
  | some a => exact Triple.pure fun m hm => ⟨hm, rfl⟩

theorem Triple.entry {xs : Array α} {i : Int} (h : ∀ m, P m → E .breakdown m) :
    Triple P (entry xs i) (fun a m => P m ∧ 0 ≤ i ∧ xs[i.toNat]? = some a) E := by
  refine (Triple.expect h).post ?_
  rintro a m ⟨hm, ha⟩
  split at ha
  · simp at ha
  · exact ⟨hm, by omega, ha⟩

theorem Triple.top (h : ∀ m, P m → E .breakdown m) :
    Triple P top (fun f m => P m ∧ m.frames.head? = some f) E := by
  refine Triple.bind Triple.get ?_
  intro m₁
  refine (Triple.expect fun m hm => h m hm.2).post ?_
  rintro f m ⟨⟨rfl, hm⟩, hf⟩
  exact ⟨hm, hf⟩

/-! ## Parts that only look -/

/-- The state stays as it is, whether `x` stops or not. -/
def Looks (x : Exec α) : Prop := ∀ m, (∃ a, x m = .ok a m) ∨ ∃ e, x m = .error e m

theorem Looks.pure (a : α) : Looks (Pure.pure a) := fun _ => Or.inl ⟨a, rfl⟩

theorem Looks.get : Looks MonadState.get := fun m => Or.inl ⟨m, rfl⟩

theorem Looks.raise (cause : FaultCause) : Looks (Exec.raise cause : Exec α) :=
  fun _ => Or.inr ⟨_, rfl⟩

theorem Looks.breakdown : Looks (Exec.breakdown : Exec α) := fun _ => Or.inr ⟨_, rfl⟩

theorem Looks.bind {x : Exec α} {f : α → Exec β} (hx : Looks x) (hf : ∀ a, Looks (f a)) :
    Looks (x >>= f) := by
  intro m
  simp only [Bind.bind, EStateM.bind]
  rcases hx m with ⟨a, ha⟩ | ⟨e, he⟩
  · rw [ha]
    exact hf a m
  · rw [he]
    exact Or.inr ⟨e, rfl⟩

theorem Looks.ite {c : Prop} [Decidable c] {x y : Exec α} (hx : Looks x) (hy : Looks y) :
    Looks (if c then x else y) := by
  split
  · exact hx
  · exact hy

theorem Looks.expect (o : Option α) : Looks (Exec.expect o) := by
  cases o with
  | none => exact Looks.breakdown
  | some a => exact Looks.pure a

theorem Looks.top : Looks Exec.top := Looks.get.bind fun _ => Looks.expect _

theorem Looks.peek : Looks Exec.peek := Looks.top.bind fun _ => Looks.expect _

theorem Looks.object (v : Value) : Looks (Exec.object v) := by
  unfold Exec.object
  split
  · exact Looks.raise _
  · refine Looks.get.bind fun m => ?_
    split
    · split
      · exact Looks.pure _
      · exact Looks.raise _
    · exact Looks.raise _
  · exact Looks.raise _

theorem Looks.array (v : Value) : Looks (Exec.array v) := by
  unfold Exec.array
  split
  · exact Looks.raise _
  · refine Looks.get.bind fun m => ?_
    split
    · split
      · exact Looks.pure _
      · exact Looks.raise _
    · exact Looks.raise _
  · exact Looks.raise _

theorem Looks.routineValue (p : Program) (v : Value) : Looks (Exec.routineValue p v) := by
  unfold Exec.routineValue
  split
  · exact Looks.raise _
  · split
    · exact Looks.raise _
    · split
      · exact Looks.raise _
      · exact Looks.pure _
  · exact Looks.raise _

theorem Looks.frameWords (r : Routine) : Looks (Exec.frameWords r) :=
  Looks.ite Looks.breakdown (Looks.ite (Looks.pure _) (Looks.pure _))

theorem Triple.look {x : Exec α} (hx : Looks x) (h : ∀ m e, P m → E e m) :
    Triple P x (fun a m => P m ∧ x m = .ok a m) E := by
  intro m hm
  rcases hx m with ⟨a, ha⟩ | ⟨e, he⟩
  · rw [ha]
    exact ⟨hm, ha⟩
  · rw [he]
    exact h m e hm

end Pascaline.Exec
