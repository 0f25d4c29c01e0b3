import Pascaline.Proofs.Machine.Holding
import Pascaline.Proofs.Program.Link

/-!
# Safety of the collector

Every instruction keeps the invariant, so it holds in all states of a run: references are nil or
denote live cells, and a handle that is still referred to denotes the same object as before.
-/

namespace Pascaline

/-! ## Results of operators and built-in routines -/

theorem Op.binary?_kind {op : Op} {f : Value → Value → Value.Outcome} (hf : op.binary? = some f)
    {x y v : Value} (hv : f x y = .ok v) : v.kind ≠ .ref := by
  cases op <;> simp only [Op.binary?, reduceCtorEq, Option.some.injEq] at hf
  all_goals
    subst hf
    simp only [Value.add, Value.sub, Value.mul, Value.numeric, Value.quot, Value.div, Value.mod,
      Value.and, Value.or, Value.xor, Value.bitwise, Value.shl, Value.shr, Value.concat] at hv
    repeat' split at hv
    all_goals
      cases hv
      try simp only [Value.kind, Value.ofBool, ne_eq, reduceCtorEq, not_false_eq_true]

theorem Op.unary?_kind {op : Op} {f : Value → Value.Outcome} (hf : op.unary? = some f)
    {x v : Value} (hv : f x = .ok v) : v.kind ≠ .ref := by
  cases op <;> simp only [Op.unary?, reduceCtorEq, Option.some.injEq] at hf
  all_goals
    subst hf
    cases x
    all_goals
      simp only [Value.neg, Value.not, Value.succ, Value.pred, Value.ofBool, reduceCtorEq,
        Except.ok.injEq] at hv
      try
        subst hv
        simp only [Value.kind, ne_eq, reduceCtorEq, not_false_eq_true]

theorem Native.call_value {n : Native} {host : NativeHost} {args : List Value} {r : NativeReturn}
    (hr : n.call host args = .ok r) : r.value ∈ args ∨ r.value.kind ≠ .ref := by
  have harg : args.getD 0 .invalid ∈ args ∨ (args.getD 0 .invalid).kind ≠ .ref := by
    cases args with
    | nil => exact Or.inr (by simp [Value.kind])
    | cons v vs => exact Or.inl (by simp)
  cases n
  all_goals
    unfold Native.call at hr
    dsimp only at hr
  case abs =>
    split at hr
    · injection hr with hr
      subst hr
      exact Or.inr (by simp [Value.kind])
    · split at hr
      · injection hr with hr
        subst hr
        exact Or.inr (by simp [Value.kind])
      · injection hr with hr
        subst hr
        exact harg
  all_goals
    right
    repeat' split at hr
    all_goals
      cases hr
      try simp only [Value.kind, ne_eq, reduceCtorEq, not_false_eq_true]

namespace Exec

open Machine

variable {m₀ : Machine} {vs : List Value}

/-! ## Operands -/

theorem check_holding (o : Value.Outcome) :
    Triple (Holding m₀ vs) (check o) (fun v m => Holding m₀ vs m ∧ o = .ok v) (Halts m₀) := by
  unfold check
  split
  · exact Triple.pure fun m hm => ⟨hm, rfl⟩
  · exact Triple.raise holding_halts
  · exact Triple.raise holding_halts

theorem cell_holding {h : Handle} {c : Cell} {m : Machine} (hm : Holding m₀ vs m)
    (hc : m.heap.get? h = some c) : Holding m₀ (c.elems.toList ++ vs) m := by
  refine ⟨hm.safe, hm.tracks, ?_⟩
  intro v hv
  rcases List.mem_append.mp hv with hv | hv
  · exact hm.safe.heap.elems_live h c hc v (Array.mem_toList_iff.mp hv)
  · exact hm.hands v hv

theorem object_holding (v : Value) :
    Triple (Holding m₀ vs) (object v) (fun hc => Holding m₀ (hc.2.elems.toList ++ vs))
      (Halts m₀) := by
  unfold object
  split
  · exact Triple.raise holding_halts
  · refine Triple.bind Triple.get ?_
    intro m₁
    split
    case h_1 c hc =>
      split
      · refine Triple.pure ?_
        rintro m ⟨rfl, hm⟩
        exact cell_holding hm hc
      · exact Triple.raise fun m hm => hm.2.halts
    case h_2 => exact Triple.raise fun m hm => hm.2.halts
  · exact Triple.raise holding_halts

theorem array_holding (v : Value) :
    Triple (Holding m₀ vs) (array v) (fun hc => Holding m₀ (hc.2.elems.toList ++ vs))
      (Halts m₀) := by
  unfold array
  split
  · exact Triple.raise holding_halts
  · refine Triple.bind Triple.get ?_
    intro m₁
    split
    case h_1 c hc =>
      split
      · refine Triple.pure ?_
        rintro m ⟨rfl, hm⟩
        exact cell_holding hm hc
      · exact Triple.raise fun m hm => hm.2.halts
    case h_2 => exact Triple.raise fun m hm => hm.2.halts
  · exact Triple.raise holding_halts

theorem slot_holding (offset : Int) (size : Nat) :
    Triple (Holding m₀ vs) (slot offset size) (fun _ => Holding m₀ vs) (Halts m₀) := by
  unfold slot
  exact Triple.ite (fun _ => Triple.raise holding_halts) fun _ => Triple.pure fun m hm => hm

theorem index_holding (i : Value) (length : Nat) :
    Triple (Holding m₀ vs) (index i length) (fun _ => Holding m₀ vs) (Halts m₀) := by
  unfold index
  split
  · exact Triple.ite (fun _ => Triple.raise holding_halts) fun _ => Triple.pure fun m hm => hm
  · exact Triple.ite (fun _ => Triple.raise holding_halts) fun _ => Triple.pure fun m hm => hm
  · exact Triple.raise holding_halts

theorem getD_mem_or_kind_ne (elems : Array Value) (k : Nat) :
    elems.getD k .invalid ∈ elems ∨ (elems.getD k .invalid).kind ≠ .ref := by
  by_cases hk : k < elems.size
  · simp [hk]
  · simp [hk, Value.kind]

theorem push_value_holding {v : Value} (hv : v ∈ vs ∨ v.kind ≠ .ref) :
    Triple (Holding m₀ vs) (push v) (fun _ => Holding m₀ []) (Halts m₀) := by
  refine Triple.weaken (push_holding (List.mem_cons_self : v ∈ v :: vs)) ?_ ?_
  · intro m hm
    refine hm.take ?_
    rcases hv with hv | hv
    · exact hm.hands v hv
    · exact Value.liveIn_of_kind_ne hv
  · exact fun _ m hm => hm.halts

theorem write_holding {h : Handle} {k : Nat} {v : Value} (hv : v ∈ vs) {m : Machine}
    (hm : Holding m₀ vs m) : Holding m₀ [] { m with heap := m.heap.write h k v } := by
  have hgrown : Holding m₀ vs { m with heap := m.heap.write h k v } := by
    refine hm.grow (Heap.grows_update _ h fun _ => rfl) (hm.safe.heap.update h (fun _ => rfl) ?_) rfl
    intro c hc w hw
    rw [Array.set!_eq_setIfInBounds] at hw
    rcases Array.mem_or_eq_of_mem_setIfInBounds hw with hw | rfl
    · exact hm.safe.heap.elems_live h c hc w hw
    · exact hm.hands w hv
  exact hgrown.mono (by simp)

/-! ## Access to variables, fields and elements -/

theorem access_holding (u : LinkedUnit) (i : Instr) :
    Triple (Holding m₀ []) (access u i) (fun _ => Holding m₀ []) (Halts m₀) := by
  unfold access
  split
  case h_1 =>
    -- loadLocal
    refine Triple.bind (Triple.top holding_halts) ?_
    intro f
    refine Triple.bind (Triple.entry fun m hm => hm.1.halts) ?_
    intro v
    refine Triple.pre (push_value_holding (Or.inl (List.mem_singleton_self v))) ?_
    rintro m ⟨⟨hm, hf⟩, -, hv⟩
    exact hm.take (hm.of_frames hf (Or.inl (Array.mem_of_getElem? hv)))
  case h_2 =>
    -- storeLocal
    refine Triple.bind pop_holding ?_
    intro v
    refine Triple.bind (Triple.top holding_halts) ?_
    intro f
    refine Triple.bind (R := fun _ => Holding m₀ [v]) (Triple.discard ?_) ?_
    · refine Triple.post (Triple.entry fun m hm => hm.1.halts) ?_
      exact fun _ m hm => hm.1.1
    intro _
    refine Triple.post (modifyTop_holding ?_ ?_) (fun _ m hm => hm.halts)
    · intro fr w hw
      rw [Array.set!_eq_setIfInBounds] at hw
      rcases Array.mem_or_eq_of_mem_setIfInBounds hw with hw | rfl
      · exact Or.inl hw
      · exact Or.inr (by simp)
    · exact fun fr w hw => Or.inl hw
  case h_3 =>
    -- loadGlobal
    refine Triple.bind (Triple.entry holding_halts) ?_
    rintro ⟨unit, slot⟩
    refine Triple.bind Triple.get ?_
    intro m₁
    refine Triple.bind (Triple.expect fun m hm => hm.2.1.halts) ?_
    intro v
    refine Triple.pre (push_value_holding (Or.inl (List.mem_singleton_self v))) ?_
    rintro m ⟨⟨rfl, hm, -⟩, hv⟩
    refine hm.take (hm.safe.roots v (mem_roots.mpr (Or.inl ?_)))
    obtain ⟨g, hg, hv⟩ := Option.bind_eq_some_iff.mp hv
    exact ⟨g, Array.mem_of_getElem? hg, Array.mem_of_getElem? hv⟩
  case h_4 =>
    -- storeGlobal
    refine Triple.bind (Triple.entry holding_halts) ?_
    rintro ⟨unit, slot⟩
    refine Triple.bind (Triple.pre pop_holding fun m hm => hm.1) ?_
    intro v
    refine Triple.modify ?_
    intro m hm
    refine Holding.mono (hm.reroot rfl ?_) (by simp)
    intro w hw
    rw [mem_roots] at hw ⊢
    rcases hw with ⟨g, hg, hw⟩ | hw
    · obtain ⟨n, hn, rfl⟩ := Array.mem_iff_getElem.mp hg
      rw [Array.getElem_modify] at hw
      split at hw
      · rw [Array.set!_eq_setIfInBounds] at hw
        rcases Array.mem_or_eq_of_mem_setIfInBounds hw with hw | rfl
        · exact Or.inl (Or.inl ⟨_, Array.getElem_mem _, hw⟩)
        · exact Or.inr (by simp)
      · exact Or.inl (Or.inl ⟨_, Array.getElem_mem _, hw⟩)
    · exact Or.inl (Or.inr hw)
  case h_5 =>
    -- loadField
    refine Triple.bind pop_holding ?_
    intro v
    refine Triple.bind (object_holding v) ?_
    rintro ⟨h, c⟩
    refine Triple.bind (slot_holding _ _) ?_
    intro k
    refine push_value_holding ((getD_mem_or_kind_ne c.elems k).imp ?_ id)
    simp +contextual
  case h_6 =>
    -- storeField
    refine Triple.bind pop_holding ?_
    intro v
    refine Triple.bind pop_holding ?_
    intro w
    refine Triple.bind (object_holding w) ?_
    rintro ⟨h, c⟩
    refine Triple.bind (slot_holding _ _) ?_
    intro k
    exact Triple.modify fun m hm => write_holding (by simp) hm
  case h_7 =>
    -- loadElem
    refine Triple.bind pop_holding ?_
    intro i
    refine Triple.bind pop_holding ?_
    intro v
    refine Triple.bind (array_holding v) ?_
    rintro ⟨h, c⟩
    refine Triple.bind (index_holding _ _) ?_
    intro k
    refine push_value_holding ((getD_mem_or_kind_ne c.elems k).imp ?_ id)
    simp +contextual
  case h_8 =>
    -- storeElem
    refine Triple.bind pop_holding ?_
    intro v
    refine Triple.bind pop_holding ?_
    intro i
    refine Triple.bind pop_holding ?_
    intro w
    refine Triple.bind (array_holding w) ?_
    rintro ⟨h, c⟩
    refine Triple.bind (index_holding _ _) ?_
    intro k
    exact Triple.modify fun m hm => write_holding (by simp) hm
  case h_9 =>
    -- loadChar
    refine Triple.bind pop_holding ?_
    intro i
    refine Triple.bind pop_holding ?_
    intro v
    split
    · refine Triple.bind (index_holding _ _) ?_
      intro k
      exact push_value_holding (Or.inr (by simp [Value.kind]))
    · exact Triple.raise holding_halts
  case h_10 => exact Triple.raise holding_halts

/-! ## Allocation -/

theorem allocate_holding (p : Program) (u : LinkedUnit) (i : Instr) :
    Triple (Calm m₀) (allocate p u i) (fun _ => Holding m₀ []) (Halts m₀) := by
  unfold allocate
  split
  case h_1 =>
    -- newObject
    refine Triple.bind (Triple.entry calm_halts) ?_
    intro k
    refine Triple.bind (Triple.expect fun m hm => hm.1.holding) ?_
    intro c
    refine Triple.bind (Triple.pre (reserve_holding _) fun m hm => hm.1.1) ?_
    intro _
    refine Triple.bind (alloc_holding _ _) ?_
    intro h
    refine Triple.bind (zeroAll_holding _) ?_
    intro fields
    refine Triple.bind (R := fun _ : Unit => Holding m₀ (fields ++ [Value.ref h])) ?_ ?_
    · refine Triple.modify ?_
      intro m hm
      have helems : ∀ v ∈ fields.toArray, v ∈ fields ++ [.ref h] := by simp +contextual
      have hset := setElems_holding (h := h) helems hm
      refine hset.grow (Heap.grows_update _ h fun _ => rfl)
        (hset.safe.heap.update h (fun _ => rfl) ?_) rfl
      exact fun c hc v hv => hset.safe.heap.elems_live h c hc v hv
    · exact fun _ => push_value_holding (Or.inl (by simp))
  case h_2 =>
    -- unpin
    refine Triple.bind (Triple.look Looks.peek fun m e hm => hm.holding) ?_
    intro v
    refine Triple.modify ?_
    rintro m ⟨hm, -⟩
    refine hm.holding.grow (Heap.grows_update _ v.handle fun _ => rfl)
      (hm.safe.heap.update v.handle (fun _ => rfl) ?_) rfl
    exact fun c hc w hw => hm.safe.heap.elems_live _ c hc w hw
  case h_3 =>
    -- newArray
    refine Triple.bind (Triple.entry calm_halts) ?_
    intro elem
    refine Triple.bind (Triple.look Looks.peek fun m e hm => hm.1.holding) ?_
    intro v
    split
    case h_2 => exact Triple.raise fun m hm => hm.1.1.holding
    case h_1 n =>
      refine Triple.unless (fun _ m hm => hm.1.1.holding) fun _ => ?_
      refine Triple.bind Triple.get ?_
      intro m₁
      refine Triple.unless (fun _ m hm => hm.2.1.1.holding) fun _ => ?_
      refine Triple.bind (Triple.pre (reserve_holding _) fun m hm => hm.2.1.1) ?_
      intro _
      refine Triple.bind (R := fun _ => Holding m₀ []) (Triple.discard ?_) ?_
      · exact Triple.post pop_holding fun _ m hm => hm.halts
      intro _
      refine Triple.bind (zero_holding _ _) ?_
      exact fun w => push_value_holding (Or.inl (by simp))
  case h_4 =>
    -- newCell
    refine Triple.bind (Triple.entry calm_halts) ?_
    intro elem
    refine Triple.bind (Triple.pre (reserve_holding _) fun m hm => hm.1) ?_
    intro _
    refine Triple.bind (zero_holding _ _) ?_
    exact fun w => push_value_holding (Or.inl (by simp))
  case h_5 => exact Triple.raise calm_halts

/-! ## Calls -/

theorem enter_holding (p : Program) (c : Callee) (args : List Value) :
    Triple (Holding m₀ args) (enter p c args) (fun _ => Holding m₀ []) (Halts m₀) := by
  unfold enter
  refine Triple.bind Triple.get ?_
  intro m₁
  dsimp only
  refine Triple.unless (fun _ m hm => hm.2.halts) fun _ => ?_
  refine Triple.unless (fun _ m hm => hm.2.halts) fun _ => ?_
  refine Triple.unlessBroken (fun _ m hm => hm.2.halts) fun _ => ?_
  refine Triple.bind (Triple.pre (zeroAll_holding _) fun m hm => hm.2) ?_
  intro own
  refine Triple.bind (R := fun _ => Holding m₀ (own ++ args)) ?_ ?_
  · refine Triple.modify ?_
    intro m hm
    refine hm.reroot rfl ?_
    intro v hv
    rw [mem_roots] at hv ⊢
    rcases hv with hv | ⟨f, hf, hv⟩
    · exact Or.inl (Or.inl hv)
    · rcases List.mem_cons.mp hf with rfl | hf
      · simp only [List.mem_toArray, List.mem_append, List.not_mem_nil, or_false] at hv
        exact Or.inr (List.mem_append.mpr hv.symm)
      · exact Or.inl (Or.inr ⟨f, hf, hv⟩)
  · exact fun _ => Triple.post (log_holding _) fun _ m hm => hm.halts

theorem call_holding (p : Program) (c : Callee) (argc : Int) :
    Triple (Calm m₀) (call p c argc) (fun _ => Holding m₀ []) (Halts m₀) := by
  unfold call
  refine Triple.bind Triple.get ?_
  intro m₁
  dsimp only
  refine Triple.unless (fun _ m hm => hm.2.holding) fun _ => ?_
  refine Triple.bind (Triple.top fun m hm => hm.2.holding) ?_
  intro f
  refine Triple.unless (fun _ m hm => hm.1.2.holding) fun _ => ?_
  refine Triple.bind (Triple.look (Looks.frameWords _) fun m e hm => hm.1.2.holding) ?_
  intro words
  refine Triple.bind (Triple.pre (reserve_holding _) fun m hm => hm.1.1.2) ?_
  intro _
  refine Triple.bind (popMany_holding _) ?_
  intro args
  refine Triple.bind (modifyTop_holding (fun fr v hv => Or.inl hv) fun fr v hv => Or.inl hv) ?_
  intro _
  exact Triple.pre (enter_holding p c args) fun m hm => hm.mono (by simp +contextual)

theorem leave_holding (withResult : Bool) :
    Triple (Holding m₀ []) (leave withResult) (fun _ => Holding m₀ []) (Halts m₀) := by
  -- The result is in hand when its frame goes.
  have hdrop : ∀ (result : Option Value) (name : String),
      Triple (Holding m₀ result.toList)
        (do
          log fun m => .leave m.frames.length name result
          modify fun m => { m with frames := m.frames.tail }
          modifyTop ({ · with state := .running })
          result.elim (Pure.pure ()) push)
        (fun _ => Holding m₀ []) (Halts m₀) := by
    intro result name
    refine Triple.bind (log_holding _) ?_
    intro _
    refine Triple.bind (R := fun _ => Holding m₀ result.toList) ?_ ?_
    · refine Triple.modify ?_
      intro m hm
      refine hm.reroot rfl ?_
      intro v hv
      left
      rw [mem_roots] at hv ⊢
      exact hv.imp id fun ⟨f, hf, hv⟩ => ⟨f, List.mem_of_mem_tail hf, hv⟩
    intro _
    refine Triple.bind (modifyTop_holding (fun fr v hv => Or.inl hv) fun fr v hv => Or.inl hv) ?_
    intro _
    cases result with
    | none => exact Triple.pure fun m hm => hm
    | some v => exact push_value_holding (Or.inl (by simp))
  unfold leave
  refine Triple.bind (Triple.top holding_halts) ?_
  intro f
  have hlocals : ∀ m, Holding m₀ [] m ∧ m.frames.head? = some f →
      Holding m₀ f.locals.toList m := by
    rintro m ⟨hm, hf⟩
    refine ⟨hm.safe, hm.tracks, ?_⟩
    exact fun v hv => hm.of_frames hf (Or.inl (Array.mem_toList_iff.mp hv))
  refine Triple.bind (Triple.pre (modifyTop_holding ?_ ?_) hlocals) ?_
  · exact fun fr v hv => Or.inl hv
  · exact fun fr v hv => Or.inl hv
  intro _
  dsimp only
  refine Triple.ite (fun _ => ?_) fun _ => ?_
  · refine Triple.unless (fun _ m hm => hm.halts) fun _ => ?_
    refine Triple.bind (Triple.entry holding_halts) ?_
    intro v
    refine Triple.pre (hdrop (some v) f.name) ?_
    rintro m ⟨hm, -, hv⟩
    have hmem : v ∈ f.locals := Array.mem_of_getElem? hv
    exact hm.mono (by simpa using hmem)
  · exact Triple.pre (hdrop none f.name) fun m hm => hm.halts

theorem callNative_holding (n : Native) (argc : Int) :
    Triple (Holding m₀ []) (callNative n argc) (fun _ => Holding m₀ []) (Halts m₀) := by
  unfold callNative
  refine Triple.bind (popMany_holding _) ?_
  intro args
  dsimp only
  refine Triple.unlessBroken (fun _ m hm => hm.halts) fun _ => ?_
  refine Triple.bind Triple.get ?_
  intro m₁
  split
  · refine Triple.modify ?_
    rintro m ⟨-, hm⟩
    refine Holding.halts (hm.reroot rfl ?_)
    intro v hv
    rw [mem_roots] at hv ⊢
    exact Or.inl (hv.imp id fun ⟨f, hf, _⟩ => by simp at hf)
  · exact Triple.raise fun m hm => hm.2.halts
  · exact Triple.breakdown fun m hm => hm.2.halts
  case h_4 r hr =>
    refine Triple.bind (R := fun _ => Holding m₀ (args ++ [])) ?_ ?_
    · exact Triple.modify fun m hm => hm.2.reroot rfl fun v hv => Or.inl hv
    intro _
    refine Triple.ite (fun _ => ?_) fun _ => Triple.pure fun m hm => hm.halts
    exact push_value_holding ((Native.call_value hr).imp (by simp) id)

/-! ## Control -/

theorem routineValue_kind {p : Program} {v : Value} {m : Machine} {c : Callee}
    (hc : routineValue p v m = .ok c m) : v.kind = .routine := by
  unfold routineValue at hc
  split at hc
  · rfl
  · rfl
  · cases hc

theorem eraseOperand_calm {f : Frame} {n : Nat} {m : Machine} (hm : Calm m₀ m)
    (hf : m.frames.head? = some f) (hn : (f.operands.getD n .invalid).kind ≠ .ref) :
    match modifyTop (fun f => { f with operands := f.operands.eraseIdx n }) m with
    | .ok _ m' => Calm m₀ m'
    | .error _ _ => False := by
  obtain ⟨rest, hframes⟩ : ∃ rest, m.frames = f :: rest := by
    cases hfr : m.frames with
    | nil => simp [hfr] at hf
    | cons g rest => exact ⟨rest, by simpa [hfr] using hf⟩
  have hmod : modifyTop (fun f => { f with operands := f.operands.eraseIdx n }) m =
      .ok () { m with frames := { f with operands := f.operands.eraseIdx n } :: rest } := by
    show EStateM.Result.ok () _ = _
    simp only [hframes]
  rw [hmod]
  refine ⟨⟨hm.safe.heap, ?_⟩, hm.heap, ?_⟩
  · intro v hv
    refine hm.safe.roots v ?_
    rw [mem_roots] at hv ⊢
    rw [hframes]
    refine hv.imp id ?_
    rintro ⟨g, hg, hv⟩
    rcases List.mem_cons.mp hg with rfl | hg
    · exact ⟨f, List.mem_cons_self, hv.imp id List.mem_of_mem_eraseIdx⟩
    · exact ⟨g, List.mem_cons_of_mem _ hg, hv⟩
  · intro k hk
    have hk := hm.roots k hk
    rw [mem_roots] at hk ⊢
    rw [hframes] at hk
    refine hk.imp id ?_
    rintro ⟨g, hg, hv⟩
    rcases List.mem_cons.mp hg with rfl | hg
    · refine ⟨_, List.mem_cons_self, hv.imp id ?_⟩
      intro hmem
      obtain ⟨j, hj⟩ := List.mem_iff_getElem?.mp hmem
      refine List.mem_eraseIdx_iff_getElem?.mpr ⟨j, ?_, hj⟩
      rintro rfl
      simp [List.getD_eq_getElem?_getD, hj, Value.kind] at hn
    · exact ⟨g, List.mem_cons_of_mem _ hg, hv⟩

theorem control_holding (p : Program) (u : LinkedUnit) (i : Instr) :
    Triple (Calm m₀) (control p u i) (fun _ => Holding m₀ []) (Halts m₀) := by
  have hjump : ∀ block : Int, Triple (Holding m₀ []) (modifyTop ({ · with block, ip := 0 }))
      (fun _ => Holding m₀ []) (Halts m₀) :=
    fun block => modifyTop_holding (fun fr v hv => Or.inl hv) fun fr v hv => Or.inl hv
  unfold control
  dsimp only
  split
  case h_1 => exact Triple.pre (hjump i.a) fun m hm => hm.holding
  case h_2 =>
    -- branch
    refine Triple.bind (Triple.pre pop_holding fun m hm => hm.holding) ?_
    intro v
    exact Triple.ite (fun _ => Triple.pre (hjump i.a) fun m hm => hm.halts)
      fun _ => Triple.pre (hjump i.b) fun m hm => hm.halts
  case h_3 => exact Triple.pre (leave_holding _) fun m hm => hm.holding
  case h_4 =>
    -- call
    refine Triple.bind (Triple.entry calm_halts) ?_
    exact fun c => Triple.pre (call_holding p c _) fun m hm => hm.1
  case h_5 =>
    -- callVirtual
    refine Triple.bind (Triple.top calm_halts) ?_
    intro f
    refine Triple.unless (fun _ m hm => hm.1.holding) fun _ => ?_
    refine Triple.bind (Triple.look (Looks.object _) fun m e hm => hm.1.holding) ?_
    rintro ⟨h, c⟩
    dsimp only
    split
    · exact Triple.raise fun m hm => hm.1.1.holding
    · refine Triple.unless (fun _ m hm => hm.1.1.holding) fun _ => ?_
      refine Triple.bind (Triple.entry fun m hm => hm.1.1.holding) ?_
      exact fun c => Triple.pre (call_holding p c _) fun m hm => hm.1.1.1
  case h_6 =>
    -- callIndirect
    refine Triple.bind (Triple.top calm_halts) ?_
    intro f
    refine Triple.unless (fun _ m hm => hm.1.holding) fun _ => ?_
    refine Triple.unlessBroken (fun _ m hm => hm.1.holding) fun _ => ?_
    refine Triple.bind (Triple.look (Looks.routineValue _ _) fun m e hm => hm.1.holding) ?_
    intro target
    refine Triple.bind (R := fun _ => Calm m₀) ?_ fun _ => call_holding p target _
    rintro m ⟨⟨hm, hf⟩, htarget⟩
    have hkind := routineValue_kind htarget
    refine eraseOperand_calm hm hf ?_
    rw [hkind]
    simp
  case h_7 =>
    -- callNative
    refine Triple.bind (Triple.entry calm_halts) ?_
    exact fun n => Triple.pre (callNative_holding n _) fun m hm => hm.1.holding
  case h_8 => exact Triple.raise calm_halts

/-! ## Steps -/

/-- The constants of a unit hold no reference but nil. -/
def NilConsts (u : CompiledUnit) : Prop := ∀ v ∈ u.pool.consts, ∀ k, v = .ref k → k = 0

theorem instr_holding (p : Program) {u : LinkedUnit} (hu : NilConsts u.unit) (i : Instr) :
    Triple (Calm m₀) (instr p u i) (fun _ => Holding m₀ []) (Halts m₀) := by
  unfold instr
  split
  case h_1 f hf =>
    -- operators on two values
    refine Triple.bind (Triple.pre pop_holding fun m hm => hm.holding) ?_
    intro y
    refine Triple.bind pop_holding ?_
    intro x
    refine Triple.bind (check_holding _) ?_
    intro v
    refine Triple.fact (fun m hm => hm.2) fun hv => ?_
    exact Triple.pre (push_value_holding (Or.inr (Op.binary?_kind hf hv))) fun m hm => hm.1
  case h_2 f hf _ =>
    refine Triple.bind (Triple.pre pop_holding fun m hm => hm.holding) ?_
    intro x
    refine Triple.bind (check_holding _) ?_
    intro v
    refine Triple.fact (fun m hm => hm.2) fun hv => ?_
    exact Triple.pre (push_value_holding (Or.inr (Op.unary?_kind hf hv))) fun m hm => hm.1
  case h_3 =>
    -- comparisons
    refine Triple.bind (Triple.pre pop_holding fun m hm => hm.holding) ?_
    intro y
    refine Triple.bind pop_holding ?_
    intro x
    exact push_value_holding (Or.inr (by simp [Value.ofBool, Value.kind]))
  case h_4 =>
    split
    case h_1 => exact Triple.pure fun m hm => hm.holding
    case h_2 =>
      -- const
      refine Triple.bind (Triple.entry calm_halts) ?_
      intro v
      refine Triple.pre (push_value_holding (Or.inl (List.mem_singleton_self v))) ?_
      rintro m ⟨hm, -, hv⟩
      refine hm.holding.take ?_
      rintro k rfl
      exact Or.inl (hu _ (Array.mem_of_getElem? hv) k rfl)
    case h_3 =>
      refine Triple.discard ?_
      exact Triple.weaken pop_holding (fun m hm => hm.holding) fun _ m hm => hm.halts
    case h_4 =>
      -- dup
      refine Triple.bind (Triple.pre peek_holding fun m hm => hm.holding) ?_
      exact fun v => push_value_holding (Or.inl (by simp))
    case h_5 =>
      refine Triple.bind (Triple.pre pop_holding fun m hm => hm.holding) ?_
      exact fun v => push_value_holding (Or.inr (by simp [Value.kind]))
    case h_6 =>
      -- charToString
      refine Triple.bind (Triple.pre pop_holding fun m hm => hm.holding) ?_
      intro v
      split
      · exact push_value_holding (Or.inr (by simp [Value.kind]))
      · exact push_value_holding (Or.inl (by simp))
    case h_7 =>
      -- routine
      refine Triple.bind (Triple.entry calm_halts) ?_
      intro c
      refine Triple.pre (push_value_holding (Or.inr ?_)) fun m hm => hm.1.holding
      simp [Value.kind]
    case h_21 => exact control_holding p u i
    case h_17 | h_18 | h_19 | h_20 => exact allocate_holding p u i
    all_goals exact Triple.pre (access_holding u i) fun m hm => hm.holding

theorem marking_holding {x : Exec Unit} {P : Machine → Prop}
    (hx : Triple P x (fun _ => Holding m₀ []) (Halts m₀)) :
    Triple P (marking x) (fun _ => Holding m₀ []) (Halts m₀) := by
  intro m hm
  have hx := hx m hm
  unfold marking
  cases hxm : x m with
  | ok a m' =>
    rw [hxm] at hx
    exact hx
  | error e m' =>
    rw [hxm] at hx
    exact modifyTop_holding (f := ({ · with state := .faulted })) (fun fr v hv => Or.inl hv)
      (fun fr v hv => Or.inl hv) m' hx

/-- The constants of all units of a program hold no reference but nil. -/
def NilProgram (p : Program) : Prop := ∀ u ∈ p.units, NilConsts u.unit

theorem step_holding {p : Program} (hp : NilProgram p) (hsafe : m₀.Safe) :
    Triple (· = m₀) (step p) (fun _ => Holding m₀ []) (Halts m₀) := by
  have hcalm : Calm m₀ m₀ := ⟨hsafe, rfl, fun _ hk => hk⟩
  unfold step
  refine Triple.bind Triple.get ?_
  intro m₁
  refine Triple.fact (p := m₁ = m₀) (fun m hm => hm.1.trans hm.2) ?_
  rintro rfl
  refine Triple.ite (fun _ => Triple.pure ?_) fun _ => ?_
  · rintro m ⟨rfl, -⟩
    exact hcalm.holding
  dsimp only
  refine Triple.unless (fun _ m hm => hm.2 ▸ hcalm.holding) fun _ => ?_
  split
  case h_1 =>
    refine Triple.pure ?_
    rintro m ⟨rfl, -⟩
    exact hcalm.holding
  case h_2 e rest hframes hpending =>
    refine Triple.bind (R := fun _ => Calm m₁) (Triple.set fun m hm => ?_) ?_
    · exact ⟨⟨hsafe.heap, hsafe.roots⟩, rfl, fun _ hk => hk⟩
    intro _
    split
    · exact Triple.raise calm_halts
    · refine Triple.bind (Triple.look (Looks.frameWords _) fun m e hm => hm.holding) ?_
      intro words
      refine Triple.bind (Triple.pre (reserve_holding _) fun m hm => hm.1) ?_
      exact fun _ => enter_holding p _ []
  case h_3 _ f rest hframes =>
    split
    case h_2 => exact Triple.raise fun m hm => hm.2 ▸ hcalm.holding
    case h_1 i u hi hu =>
      have hunit : NilConsts u.unit := hp u (Array.mem_of_getElem? hu)
      have hroots : ∀ v, v ∈ roots { m₁ with frames :=
          { f with state := .running, span := ⟨u.unit.file, i.pos, (i.pos + 1) % 0x100000000⟩,
                   ip := f.ip + 1 } :: rest } ↔ v ∈ m₁.roots := by
        intro v
        rw [mem_roots, mem_roots, hframes]
        simp
      refine Triple.bind (R := fun _ => Calm m₁) (Triple.set fun m hm => ?_) ?_
      · exact ⟨⟨hsafe.heap, fun v hv => hsafe.roots v ((hroots v).mp hv)⟩, rfl,
          fun k hk => (hroots _).mpr hk⟩
      intro _
      refine Triple.bind (R := fun _ => Calm m₁) ?_ ?_
      · refine Triple.modify ?_
        intro m hm
        unfold Machine.log
        split
        · split
          · exact hm
          · exact ⟨⟨hm.safe.heap, hm.safe.roots⟩, hm.heap, hm.roots⟩
        · exact hm
      · exact fun _ => marking_holding (instr_holding p hunit i)

end Exec

namespace Machine

variable {p : Program} {m : Machine}

theorem step_machine_holding (hp : Exec.NilProgram p) (hm : m.Safe) :
    Holding m [] (m.step p).machine := by
  have hstep := Exec.step_holding hp hm m rfl
  unfold step
  cases hsm : Exec.step p m with
  | ok a m' =>
    rw [hsm] at hstep
    exact hstep
  | error e m' =>
    rw [hsm] at hstep
    exact hstep

/-! ## Runs -/

theorem reserve_safe (words : Int) :
    Exec.Triple Safe (Exec.reserve words) (fun _ => Safe) (fun _ => Safe) := by
  intro m hm
  have hcalm : Calm m m := ⟨hm, rfl, fun _ hk => hk⟩
  have hreserve := Exec.reserve_holding words m hcalm
  cases hx : Exec.reserve words m with
  | ok a m' =>
    rw [hx] at hreserve
    exact hreserve.safe
  | error e m' =>
    rw [hx] at hreserve
    exact Holding.safe hreserve

theorem zeroAll_safe (shapes : List Shape) :
    Exec.Triple Safe (Exec.zeroAll shapes) (fun vs m => m.Safe ∧ ∀ v ∈ vs, v.LiveIn m.heap)
      (fun _ => Safe) := by
  intro m hm
  have hholding : Holding m [] m := ⟨hm, hm.tracks, by simp⟩
  have hzero := Exec.zeroAll_holding shapes m hholding
  cases hx : Exec.zeroAll shapes m with
  | ok vs m' =>
    rw [hx] at hzero
    exact ⟨hzero.safe, by simpa using hzero.hands⟩
  | error e m' =>
    rw [hx] at hzero
    exact Holding.safe hzero

theorem makeGlobals_safe (us : List LinkedUnit) :
    Exec.Triple Safe (makeGlobals us) (fun _ => Safe) (fun _ => Safe) := by
  induction us with
  | nil => exact Exec.Triple.pure fun m hm => hm
  | cons u us ih =>
    refine Exec.Triple.bind (reserve_safe _) ?_
    intro _
    refine Exec.Triple.bind (zeroAll_safe _) ?_
    intro values
    refine Exec.Triple.bind (R := fun _ => Safe) (Exec.Triple.modify ?_) fun _ => ih
    rintro m ⟨hm, hvalues⟩
    refine ⟨hm.heap, ?_⟩
    intro v hv
    rw [mem_roots] at hv
    rcases hv with ⟨g, hg, hv⟩ | hv
    · rcases Array.mem_push.mp hg with hg | rfl
      · exact hm.roots v (mem_roots.mpr (Or.inl ⟨g, hg, hv⟩))
      · exact hvalues v (by simpa using hv)
    · exact hm.roots v (mem_roots.mpr (Or.inr hv))

theorem start_safe {o : RunOptions} (h : start p o = .ok m) : m.Safe := by
  have hblank : (blank o).Safe := ⟨Heap.sound_ofBudget _, by simp [blank, roots]⟩
  have hglobals := makeGlobals_safe p.units.toList (blank o) hblank
  unfold start at h
  cases hx : makeGlobals p.units.toList (blank o) with
  | ok a m' =>
    rw [hx] at h hglobals
    injection h with h
    subst h
    exact ⟨hglobals.heap, hglobals.roots⟩
  | error e m' =>
    rw [hx] at h
    cases h

/-- The machine after so many steps, whether they fault or not. -/
def after (p : Program) (m : Machine) : Nat → Machine
  | 0 => m
  | n + 1 => ((m.after p n).step p).machine

theorem after_add (p : Program) (m : Machine) (n i : Nat) :
    m.after p (n + i) = (m.after p n).after p i := by
  induction i with
  | zero => rfl
  | succ i ih =>
    rw [Nat.add_succ, after, after, ih]

theorem after_safe (hp : Exec.NilProgram p) (hm : m.Safe) (n : Nat) : (m.after p n).Safe := by
  induction n with
  | zero => exact hm
  | succ n ih => exact (step_machine_holding hp ih).safe

/-- The values in unit variables, in frames, on operand stacks and in live cells. -/
def Holds (m : Machine) (v : Value) : Prop :=
  v ∈ m.roots ∨ ∃ k c, m.heap.get? k = some c ∧ v ∈ c.elems

/-- A reference to the object of a handle that the next step does not remove together with the
object that holds it. -/
def Refers (p : Program) (m : Machine) (k : Handle) : Prop :=
  .ref k ∈ m.roots ∨ ∃ j c, m.heap.get? j = some c ∧ .ref k ∈ c.elems ∧
    m.heap.SameObject (m.step p).machine.heap j

theorem Safe.holds_live {v : Value} (hm : m.Safe) (hv : m.Holds v) : v.LiveIn m.heap := by
  rcases hv with hv | ⟨k, c, hc, hv⟩
  · exact hm.roots v hv
  · exact hm.heap.elems_live k c hc v hv

/-- An object that something still refers to is not freed by a step. -/
theorem step_sameObject (hp : Exec.NilProgram p) (hm : m.Safe) {k : Handle} (hk : k ≠ 0)
    (href : m.Refers p k) : m.heap.SameObject (m.step p).machine.heap k := by
  obtain ⟨S, hS, hsame, hnew, -⟩ := (step_machine_holding hp hm).tracks
  apply hsame
  rcases href with hroot | ⟨j, c, hc, hmem, hj⟩
  · exact hS.roots k hk hroot
  · obtain ⟨c₀, c', hc₀, hc', hserial⟩ := hj
    -- A cell made since would have a serial number that no cell had before.
    have hSj : S j := by
      refine (hnew j c' hc').resolve_right ?_
      have := hm.heap.serial_lt j c₀ hc₀
      omega
    exact hS.elems j c k hSj hc hmem hk

theorem after_sameObject (hp : Exec.NilProgram p) (hm : m.Safe) {k : Handle} {c : Cell}
    (hc : m.heap.get? k = some c) (i : Nat) (href : ∀ j < i, (m.after p j).Refers p k) :
    m.heap.SameObject (m.after p i).heap k := by
  have hk : k ≠ 0 := by
    rintro rfl
    simp [hm.heap.nil_dead] at hc
  induction i with
  | zero => exact ⟨c, c, hc, hc, rfl⟩
  | succ i ih =>
    obtain ⟨c, c₁, hc, hc₁, hserial₁⟩ := ih fun j hj => href j (Nat.lt_succ_of_lt hj)
    obtain ⟨c₁', c₂, hc₁', hc₂, hserial₂⟩ :=
      step_sameObject hp (after_safe hp hm i) hk (href i (Nat.lt_succ_self i))
    rw [hc₁] at hc₁'
    injection hc₁' with hc₁'
    subst hc₁'
    exact ⟨c, c₂, hc, hc₂, hserial₂.trans hserial₁⟩

end Machine

open Machine in
/-- In every state of a run, whatever its budget, a value that is held somewhere is nil, denotes a
live cell or is no reference; and as long as something refers to a cell, it is the same object. -/
theorem references_stay_alive {units : List CompiledUnit} {p : Program} {o : RunOptions}
    {m₀ : Machine} (hlink : Program.link units = .ok p)
    (hconsts : ∀ u ∈ units, ∀ v ∈ u.pool.consts, ∀ k, v = .ref k → k = 0)
    (hstart : start p o = .ok m₀) (n : Nat) :
    (∀ k, (m₀.after p n).Holds (.ref k) →
      k = 0 ∨ ∃ c, (m₀.after p n).heap.get? k = some c) ∧
    ∀ k c, (m₀.after p n).heap.get? k = some c → ∀ i,
      (∀ j < i, (m₀.after p (n + j)).Refers p k) →
      ∃ c', (m₀.after p (n + i)).heap.get? k = some c' ∧ c'.serial = c.serial := by
  have hp : Exec.NilProgram p :=
    fun u hu => hconsts u.unit ((Program.links_of_link hlink).mem_units hu)
  have hsafe := after_safe hp (start_safe hstart) n
  refine ⟨?_, ?_⟩
  · intro k hk
    exact (hsafe.holds_live hk k rfl).imp id Option.isSome_iff_exists.mp
  · intro k c hc i href
    rw [after_add]
    obtain ⟨c₀, c', hc₀, hc', hserial⟩ :=
      after_sameObject hp hsafe hc i fun j hj => after_add p m₀ n j ▸ href j hj
    rw [hc] at hc₀
    injection hc₀ with hc₀
    exact ⟨c', hc', hserial.trans (congrArg Cell.serial hc₀.symm)⟩

/-- Keeps one cell in a variable, drops a second one, and makes a third. -/
def threeCells : CompiledUnit :=
  { name := "cells", display := "cells", globals := [⟨"kept", .ref⟩], main := 0,
    pool := { globals := #[⟨"cells", 0⟩], shapes := #[.int] },
    table := some #[{ name := "main", blocks := #[#[
      { op := .newCell }, { op := .storeGlobal }, { op := .newCell }, { op := .pop },
      { op := .newCell }, { op := .ret }]] }] }

def threeCellsProgram : Program := (Program.link [threeCells]).toOption.getD {}

/-- There is room for two cells, so the third one takes the place of the second. -/
def threeCellsStart : Machine :=
  ((Machine.start threeCellsProgram { heapBudget := 4 }).toOption).getD
    { heap := .ofBudget 4, maxFrames := 0 }

/-- Whether the variables and frames of a machine hold a reference. -/
def Machine.rootsHave (m : Machine) (k : Handle) : Bool :=
  m.roots.any fun v => v.kind = .ref && v.handle = k

theorem Machine.mem_roots_of_rootsHave {m : Machine} {k : Handle} (h : m.rootsHave k = true) :
    .ref k ∈ m.roots := by
  obtain ⟨v, hv, hk⟩ := List.any_eq_true.mp h
  rw [Bool.and_eq_true, decide_eq_true_iff, decide_eq_true_iff] at hk
  cases v with
  | ref j =>
    rw [← hk.2]
    exact hv
  | _ => exact absurd hk.1 (by simp [Value.kind])

theorem references_stay_alive_cells :
    (threeCellsStart.after threeCellsProgram 6).heap.collections = 1 ∧
    ∃ c', (threeCellsStart.after threeCellsProgram 6).heap.get? 1 = some c' ∧ c'.serial = 0 := by
  refine ⟨by decide +kernel, ?_⟩
  have hcell : ((threeCellsStart.after threeCellsProgram 3).heap.get? 1).map (·.serial) = some 0 := by
    decide +kernel
  obtain ⟨c, hc, hserial⟩ := Option.map_eq_some_iff.mp hcell
  have hlink : Program.link [threeCells] = .ok threeCellsProgram :=
    eq_ok_of_isSome (by decide +kernel)
  have hstart : Machine.start threeCellsProgram { heapBudget := 4 } = .ok threeCellsStart := by
    with_unfolding_all rfl
  have hconsts : ∀ u ∈ [threeCells], ∀ v ∈ u.pool.consts, ∀ k, v = .ref k → k = 0 := by
    simp [threeCells]
  have hroots : ∀ j < 3,
      (threeCellsStart.after threeCellsProgram (3 + j)).rootsHave 1 = true := by
    decide +kernel
  obtain ⟨c', hc', hserial'⟩ := (references_stay_alive hlink hconsts hstart 3).2 1 c hc 3
    fun j hj => Or.inl (Machine.mem_roots_of_rootsHave (hroots j hj))
  exact ⟨c', hc', hserial'.trans hserial⟩

end Pascaline
