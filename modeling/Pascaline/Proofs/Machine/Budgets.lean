import Pascaline.Proofs.Machine.Lockstep
import Pascaline.Proofs.Machine.Safety

/-!
# Collections do not show

Two runs of a program under different budgets collect at different times and use different handles.
As long as no reference is printed or compared with a string, they go in lockstep: they write the
same bytes and end in the same way, unless one of them runs out of heap.
-/

namespace Pascaline

/-! ## Operators on renamed values -/

section Operators

variable {ρ : Renaming} {x x' y y' : Value}

@[simp] theorem Value.kind_ref (k : Handle) : (Value.ref k).kind = .ref := rfl

@[simp] theorem Value.asReal_ref (k : Handle) : (Value.ref k).asReal = 0.0 := rfl

@[simp] theorem Value.number_ref (k : Handle) : (Value.ref k).number = 0 := rfl

theorem eq_of_like {α : Type} {f : Value → α} (h : ∀ k, f (.ref k) = f (.ref 0))
    (hx : x.Like ρ x') : f x = f x' := by
  cases hx with
  | same => rfl
  | nil => rfl
  | @ref k j => rw [h k, h j]

theorem Op.binary?_like {op : Op} {f : Value → Value → Value.Outcome} (hf : op.binary? = some f)
    (hx : x.Like ρ x') (hy : y.Like ρ y') : f x y = f x' y' := by
  have hleft : ∀ k v, f (.ref k) v = f (.ref 0) v := by
    cases op <;> simp only [Op.binary?, reduceCtorEq, Option.some.injEq] at hf
    all_goals
      subst hf
      intro k v
      cases v <;> rfl
  have hright : ∀ k v, f v (.ref k) = f v (.ref 0) := by
    cases op <;> simp only [Op.binary?, reduceCtorEq, Option.some.injEq] at hf
    all_goals
      subst hf
      intro k v
      cases v <;> rfl
  calc f x y = f x' y := eq_of_like (f := fun v => f v y) (fun k => hleft k y) hx
    _ = f x' y' := eq_of_like (fun k => hright k x') hy

theorem Op.unary?_like {op : Op} {f : Value → Value.Outcome} (hf : op.unary? = some f)
    (hx : x.Like ρ x') : f x = f x' := by
  refine eq_of_like ?_ hx
  intro k
  cases op <;> simp only [Op.unary?, reduceCtorEq, Option.some.injEq] at hf
  all_goals
    subst hf
    rfl

/-- A reference other than nil. -/
def Value.isCellRef : Value → Bool
  | .ref h => h != 0
  | _ => false

/-- One of the two is a string and the other one a reference, so that comparing them prints it. -/
def Value.mixed (x y : Value) : Bool :=
  (x.kind = .string && y.isCellRef) || (x.isCellRef && y.kind = .string)

theorem Value.equal_ref_left {k j : Handle} (hk : (k == 0) = false) (hj : (j == 0) = false)
    (hy : y.kind ≠ .string) (href : y.isCellRef = false) :
    (Value.ref k).equal y = (Value.ref j).equal y := by
  cases y with
  | ref i =>
    have hi : i = 0 := by simpa [Value.isCellRef] using href
    simp [Value.equal, Value.isNil, hk, hj, hi]
  | string s => exact absurd rfl hy
  | _ => simp [Value.equal, Value.isNil, Value.kind, Value.asReal, hk, hj]

theorem Value.equal_ref_right {k j : Handle} (hk : (k == 0) = false) (hj : (j == 0) = false)
    (hx : x.kind ≠ .string) (href : x.isCellRef = false) :
    x.equal (.ref k) = x.equal (.ref j) := by
  cases x with
  | ref i =>
    have hi : i = 0 := by simpa [Value.isCellRef] using href
    simp [Value.equal, Value.isNil, hk, hj, hi]
  | string s => exact absurd rfl hx
  | _ => simp [Value.equal, Value.isNil, Value.kind, Value.asReal, Value.number, hk, hj]

theorem Value.equal_refs {k j : Handle} (hk : (k == 0) = false) (hj : (j == 0) = false) :
    (Value.ref k).equal (.ref j) = (k == j) := by
  simp [Value.equal, Value.isNil, Value.kind, hk, hj]

theorem Value.compare_ref_left {k : Handle} (hy : y.kind ≠ .string) :
    (Value.ref k).compare y = (Value.ref 0).compare y := by
  simp only [Value.compare, Value.kind_ref, Value.asReal_ref, Value.number_ref, hy, reduceCtorEq,
    decide_false, Bool.false_or, Bool.or_false, Bool.false_eq_true, if_false]
  rfl

theorem Value.compare_ref_right {k : Handle} (hx : x.kind ≠ .string) :
    x.compare (.ref k) = x.compare (.ref 0) := by
  simp only [Value.compare, Value.kind_ref, Value.asReal_ref, Value.number_ref, hx, reduceCtorEq,
    decide_false, Bool.or_false, Bool.false_eq_true, if_false]
  rfl

theorem Value.isCellRef_of_kind_ne (hx : x.kind ≠ .ref) : x.isCellRef = false := by
  cases x with
  | ref k => exact absurd rfl hx
  | _ => rfl

theorem Value.equal_like {h h' : Heap} (ha : Heap.Alike ρ h h') (hx : x.Like ρ x')
    (hy : y.Like ρ y') (hmixed : x.mixed y = false) : x.equal y = x'.equal y' := by
  have hne : ∀ {k j}, ρ k j → (k == 0) = false ∧ (j == 0) = false := fun hρ =>
    ⟨beq_eq_false_iff_ne.mpr (ha.ne_zero hρ), beq_eq_false_iff_ne.mpr (ha.symm.ne_zero hρ)⟩
  cases hx with
  | same hv =>
    cases hy with
    | same => rfl
    | nil => rfl
    | ref hρ =>
      refine equal_ref_right (hne hρ).1 (hne hρ).2 ?_ (isCellRef_of_kind_ne hv)
      rintro hs
      simp [mixed, hs, isCellRef, ha.ne_zero hρ] at hmixed
  | nil =>
    cases hy with
    | same => rfl
    | nil => rfl
    | ref hρ => exact equal_ref_right (hne hρ).1 (hne hρ).2 (by simp) rfl
  | ref hρ =>
    cases hy with
    | same hv =>
      refine equal_ref_left (hne hρ).1 (hne hρ).2 ?_ (isCellRef_of_kind_ne hv)
      rintro hs
      simp [mixed, hs, isCellRef, ha.ne_zero hρ] at hmixed
    | nil => exact equal_ref_left (hne hρ).1 (hne hρ).2 (by simp) rfl
    | ref hρ' =>
      -- Here the renaming has to pair handles one to one.
      rw [equal_refs (hne hρ).1 (hne hρ').1, equal_refs (hne hρ).2 (hne hρ').2, Bool.eq_iff_iff,
        beq_iff_eq, beq_iff_eq]
      constructor
      · rintro rfl
        exact ha.functional _ _ _ hρ hρ'
      · rintro rfl
        exact ha.injective _ _ _ hρ hρ'

theorem Value.compare_like {h h' : Heap} (ha : Heap.Alike ρ h h') (hx : x.Like ρ x')
    (hy : y.Like ρ y') (hmixed : x.mixed y = false) : x.compare y = x'.compare y' := by
  have hleft : x.compare y = x'.compare y := by
    cases hx with
    | same => rfl
    | nil => rfl
    | @ref k j hρ =>
      have hs : y.kind ≠ .string := by
        intro hs
        simp [mixed, hs, isCellRef, ha.ne_zero hρ] at hmixed
      rw [compare_ref_left (k := k) hs, compare_ref_left (k := j) hs]
  rw [hleft]
  cases hy with
  | same => rfl
  | nil => rfl
  | @ref k j hρ =>
    have hs : x'.kind ≠ .string := by
      intro hs
      rw [← hx.kind_eq] at hs
      simp [mixed, hs, isCellRef, ha.ne_zero hρ] at hmixed
    rw [compare_ref_right (k := k) hs, compare_ref_right (k := j) hs]

theorem Op.relation?_like {op : Op} {f : Value → Value → Bool} (hf : op.relation? = some f)
    {h h' : Heap} (ha : Heap.Alike ρ h h') (hx : x.Like ρ x') (hy : y.Like ρ y')
    (hmixed : x.mixed y = false) : f x y = f x' y' := by
  have hequal := Value.equal_like ha hx hy hmixed
  have hcompare := Value.compare_like ha hx hy hmixed
  cases op <;> simp only [Op.relation?, reduceCtorEq, Option.some.injEq] at hf
  all_goals
    subst hf
    simp only [hequal, hcompare]

end Operators

/-! ## Built-in routines -/

section Natives

variable {ρ : Renaming} {h h' : Heap}

theorem lengthIn_like (ha : Heap.Alike ρ h h') {v w : Value} (hvw : v.Like ρ w) :
    Exec.lengthIn h v = Exec.lengthIn h' w := by
  cases hvw with
  | same hv =>
    cases v with
    | ref k => exact absurd rfl hv
    | _ => rfl
  | nil => rfl
  | @ref k j hρ =>
    obtain ⟨c, c', hc, hc', hkind, helems⟩ := ha.cells k j hρ
    have hk := ha.ne_zero hρ
    have hj := ha.symm.ne_zero hρ
    simp [Exec.lengthIn, hc, hc', hkind, helems.size_eq]

/-- Only `length` looks at the heap. -/
theorem Native.call_host {n : Native} (hn : n ≠ .length) (input : Option Bytes)
    (f g : Option (Value → Except NativeError Nat)) (args : List Value) :
    n.call ⟨input, f⟩ args = n.call ⟨input, g⟩ args := by
  cases n with
  | length => exact absurd rfl hn
  | _ => rfl

theorem Native.length_value {host : NativeHost} {args : List Value} {r : NativeReturn}
    (hr : Native.length.call host args = .ok r) : r.value.kind ≠ .ref := by
  unfold Native.call at hr
  dsimp only at hr
  repeat' split at hr
  all_goals
    cases hr
    try simp [Value.kind]

theorem Native.length_like (ha : Heap.Alike ρ h h') {args args' : List Value}
    (hargs : List.Forall₂ (Value.Like ρ) args args') (input : Option Bytes) :
    Native.length.call ⟨input, some (Exec.lengthIn h')⟩ args' =
      Native.length.call ⟨input, some (Exec.lengthIn h)⟩ args := by
  have harg : (args.getD 0 .invalid).Like ρ (args'.getD 0 .invalid) := by
    cases hargs with
    | nil => exact .same (by simp [Value.kind])
    | cons hvw _ => exact hvw
  have hlength := lengthIn_like ha harg
  unfold Native.call
  dsimp only
  generalize args.getD 0 .invalid = v, args'.getD 0 .invalid = w at harg hlength
  cases harg with
  | same hv =>
    cases v with
    | ref k => exact absurd rfl hv
    | _ => rfl
  | nil => rfl
  | ref hρ => simp only [hlength]

theorem Native.call_like (ha : Heap.Alike ρ h h') (n : Native) {args args' : List Value}
    (hargs : List.Forall₂ (Value.Like ρ) args args')
    (hn : n = .length ∨ args.any Value.isCellRef = false) (input : Option Bytes) :
    n.call ⟨input, some (Exec.lengthIn h')⟩ args' = n.call ⟨input, some (Exec.lengthIn h)⟩ args ∧
      ∀ r, n.call ⟨input, some (Exec.lengthIn h)⟩ args = .ok r → r.value.Like ρ r.value := by
  by_cases hlength : n = .length
  · subst hlength
    exact ⟨length_like ha hargs input, fun r hr => .same (length_value hr)⟩
  · have hnil : ∀ v ∈ args, ∀ k, v = .ref k → k = 0 := by
      rintro v hv k rfl
      simpa [Value.isCellRef] using List.any_eq_false.mp (hn.resolve_left hlength) _ hv
    have heq : args' = args := by
      clear hn
      induction hargs with
      | nil => rfl
      | cons hvw _ ih =>
        rw [hvw.eq_of_nil (hnil _ List.mem_cons_self) fun k j => ha.ne_zero,
          ih fun v hv => hnil v (List.mem_cons_of_mem _ hv)]
    rw [heq]
    refine ⟨call_host hlength input _ _ args, ?_⟩
    intro r hr
    rcases call_value hr with hmem | hkind
    · cases hv : r.value with
      | ref k =>
        rw [hv] at hmem
        rw [hnil _ hmem k rfl]
        exact .nil
      | _ => exact .same (by simp [Value.kind])
    · exact .same hkind

end Natives

namespace Exec

open Machine

variable {ρ : Renaming}

/-! ## Operands -/

theorem check_agree (o : Value.Outcome) :
    Agree (Sim ρ) (check o) (check o) (Both ρ fun v w => v = w ∧ o = .ok v) := by
  unfold check
  split
  · exact Agree.pure fun m m' hm => ⟨hm, rfl, rfl⟩
  · exact Agree.raise rfl
  · exact Agree.raise rfl

/-- Two cells that are partners. -/
def Partners (ρ : Renaming) (x y : Handle × Cell) : Prop :=
  ρ x.1 y.1 ∧ x.2.kind = y.2.kind ∧ LikeAll ρ x.2.elems y.2.elems

theorem object_agree {v w : Value} (hvw : v.Like ρ w) :
    Agree (Sim ρ) (object v) (object w) (Both ρ (Partners ρ)) := by
  cases hvw with
  | same hv =>
    unfold object
    split
    · exact Agree.raise rfl
    · exact absurd rfl hv
    · exact Agree.raise rfl
  | nil => exact Agree.raise rfl
  | @ref k j hρ =>
    match k, j with
    | 0, _ => exact fun m m' hm => absurd rfl (hm.heap.ne_zero hρ)
    | _, 0 => exact fun m m' hm => absurd rfl (hm.heap.symm.ne_zero hρ)
    | k + 1, j + 1 =>
      refine Agree.look fun m m' hm => ?_
      obtain ⟨c, c', hc, hc', hkind, helems⟩ := hm.heap.cells _ _ hρ
      rw [hc, hc']
      dsimp only
      rw [← hkind]
      cases hc₀ : c.kind with
      | object _ => exact Agree.pure fun m m' hm => ⟨hm, hρ, hkind, helems⟩
      | array => exact Agree.raise rfl

theorem array_agree {v w : Value} (hvw : v.Like ρ w) :
    Agree (Sim ρ) (array v) (array w) (Both ρ (Partners ρ)) := by
  cases hvw with
  | same hv =>
    unfold array
    split
    · exact Agree.raise rfl
    · exact absurd rfl hv
    · exact Agree.raise rfl
  | nil => exact Agree.raise rfl
  | @ref k j hρ =>
    match k, j with
    | 0, _ => exact fun m m' hm => absurd rfl (hm.heap.ne_zero hρ)
    | _, 0 => exact fun m m' hm => absurd rfl (hm.heap.symm.ne_zero hρ)
    | k + 1, j + 1 =>
      refine Agree.look fun m m' hm => ?_
      obtain ⟨c, c', hc, hc', hkind, helems⟩ := hm.heap.cells _ _ hρ
      rw [hc, hc']
      dsimp only
      rw [← hkind]
      cases hc₀ : c.kind with
      | object _ => exact Agree.raise rfl
      | array => exact Agree.pure fun m m' hm => ⟨hm, hρ, hkind, helems⟩

theorem slot_agree (offset : Int) (size : Nat) :
    Agree (Sim ρ) (slot offset size) (slot offset size) (Both ρ fun k k' => k = k') := by
  unfold slot
  exact Agree.ite Iff.rfl (fun _ => Agree.raise rfl) fun _ => Agree.pure fun m m' hm => ⟨hm, rfl⟩

theorem index_agree {i j : Value} (hij : i.Like ρ j) (length : Nat) :
    Agree (Sim ρ) (index i length) (index j length) (Both ρ fun k k' => k = k') := by
  have heq : index i length = index j length := eq_of_like (f := (index · length)) (fun _ => rfl) hij
  rw [← heq]
  unfold index
  split
  · exact Agree.ite Iff.rfl (fun _ => Agree.raise rfl) fun _ => Agree.pure fun m m' hm => ⟨hm, rfl⟩
  · exact Agree.ite Iff.rfl (fun _ => Agree.raise rfl) fun _ => Agree.pure fun m m' hm => ⟨hm, rfl⟩
  · exact Agree.raise rfl

theorem routineValue_agree (p : Program) {v w : Value} (hvw : v.Like ρ w) :
    Agree (Sim ρ) (routineValue p v) (routineValue p w) (Both ρ fun c c' => c = c') := by
  have heq : routineValue p v = routineValue p w := eq_of_like (fun _ => rfl) hvw
  rw [← heq]
  unfold routineValue
  split
  · exact Agree.raise rfl
  · split
    · exact Agree.raise rfl
    · split
      · exact Agree.raise rfl
      · exact Agree.pure fun m m' hm => ⟨hm, rfl⟩
  · exact Agree.raise rfl

theorem frameWords_agree (r : Routine) :
    Agree (Sim ρ) (frameWords r) (frameWords r) (Both ρ fun n n' => n = n') := by
  unfold frameWords
  refine Agree.ite Iff.rfl (fun _ => Agree.breakdown) fun _ => ?_
  exact Agree.ite Iff.rfl (fun _ => Agree.pure fun m m' hm => ⟨hm, rfl⟩)
    fun _ => Agree.pure fun m m' hm => ⟨hm, rfl⟩

theorem getD_like {xs ys : Array Value} (h : LikeAll ρ xs ys) (k : Nat) :
    (xs.getD k .invalid).Like ρ (ys.getD k .invalid) := by
  rw [Array.getD_eq_getD_getElem?, Array.getD_eq_getD_getElem?]
  have hk := h.getElem? k
  generalize xs[k]? = x, ys[k]? = y at hk
  cases hk with
  | none => exact .same (by simp [Value.kind])
  | some hxy => exact hxy

theorem operand_like {f f' : Frame} (hff : Frame.Like ρ f f') (k : Nat) :
    (f.operands.getD k .invalid).Like ρ (f'.operands.getD k .invalid) := by
  rw [List.getD_eq_getElem?_getD, List.getD_eq_getElem?_getD]
  have hk := forall₂_getElem? hff.operands k
  generalize f.operands[k]? = x, f'.operands[k]? = y at hk
  cases hk with
  | none => exact .same (by simp [Value.kind])
  | some hxy => exact hxy

theorem write_sim {m m' : Machine} (hm : Sim ρ m m') {h h' : Handle} (hρ : ρ h h') (k : Nat)
    {v w : Value} (hvw : v.Like ρ w) :
    Sim ρ { m with heap := m.heap.write h k v } { m' with heap := m'.heap.write h' k w } := by
  refine hm.mono (hm.heap.updateElems hρ ?_ ?_ ?_) fun _ _ _ h => h
  · exact fun c => ⟨rfl, rfl⟩
  · exact fun c => ⟨rfl, rfl⟩
  · exact fun c c' helems => helems.set k hvw

/-! ## Access to variables, fields and elements -/

theorem access_agree (u : LinkedUnit) (i : Instr) :
    Agree (Sim ρ) (access u i) (access u i) fun _ _ => Sim ρ := by
  unfold access
  split
  case h_1 =>
    -- loadLocal
    refine top_agree.both fun f f' hff => ?_
    refine (entry_like hff.locals _).both fun v w hvw => ?_
    exact push_agree hvw
  case h_2 =>
    -- storeLocal
    refine pop_agree.both fun v w hvw => ?_
    refine top_agree.both fun f f' hff => ?_
    refine Agree.bind (Agree.discard (entry_like hff.locals _)) fun _ _ => ?_
    refine modifyTop_agree fun fr fr' hfr => ?_
    exact ⟨hfr.locals.set _ hvw, hfr.operands, hfr.bare⟩
  case h_3 =>
    -- loadGlobal
    refine (entry_agree _ _).both ?_
    rintro ⟨unit, slot⟩ _ ⟨rfl, -⟩
    refine Agree.look fun m m' hm => ?_
    refine (expect_agree (globals_like hm unit slot)).both fun v w hvw => ?_
    exact push_agree hvw
  case h_4 =>
    -- storeGlobal
    refine (entry_agree _ _).both ?_
    rintro ⟨unit, slot⟩ _ ⟨rfl, -⟩
    refine pop_agree.both fun v w hvw => ?_
    exact Agree.modify fun m m' hm => ⟨hm.heap, setGlobal_like hm.globals unit slot hvw, hm.frames, hm.bare⟩
  case h_5 =>
    -- loadField
    refine pop_agree.both fun v w hvw => ?_
    refine (object_agree hvw).both ?_
    rintro ⟨h, c⟩ ⟨h', c'⟩ ⟨hρ, hkind, helems⟩
    dsimp only at helems ⊢
    rw [helems.size_eq]
    refine (slot_agree _ _).both ?_
    rintro k _ rfl
    exact push_agree (getD_like helems k)
  case h_6 =>
    -- storeField
    refine pop_agree.both fun v w hvw => ?_
    refine pop_agree.both fun x y hxy => ?_
    refine (object_agree hxy).both ?_
    rintro ⟨h, c⟩ ⟨h', c'⟩ ⟨hρ, hkind, helems⟩
    dsimp only at hρ helems ⊢
    rw [helems.size_eq]
    refine (slot_agree _ _).both ?_
    rintro k _ rfl
    exact Agree.modify fun m m' hm => write_sim hm hρ k hvw
  case h_7 =>
    -- loadElem
    refine pop_agree.both fun i j hij => ?_
    refine pop_agree.both fun v w hvw => ?_
    refine (array_agree hvw).both ?_
    rintro ⟨h, c⟩ ⟨h', c'⟩ ⟨hρ, hkind, helems⟩
    dsimp only at helems ⊢
    rw [helems.size_eq]
    refine (index_agree hij _).both ?_
    rintro k _ rfl
    exact push_agree (getD_like helems k)
  case h_8 =>
    -- storeElem
    refine pop_agree.both fun v w hvw => ?_
    refine pop_agree.both fun i j hij => ?_
    refine pop_agree.both fun x y hxy => ?_
    refine (array_agree hxy).both ?_
    rintro ⟨h, c⟩ ⟨h', c'⟩ ⟨hρ, hkind, helems⟩
    dsimp only at hρ helems ⊢
    rw [helems.size_eq]
    refine (index_agree hij _).both ?_
    rintro k _ rfl
    exact Agree.modify fun m m' hm => write_sim hm hρ k hvw
  case h_9 =>
    -- loadChar
    refine pop_agree.both fun i j hij => ?_
    refine pop_agree.both fun v w hvw => ?_
    have hchar : ∀ s : Bytes, Agree (Sim ρ)
        (do
          let k ← index i (Utf8.chars s).length
          push (.char (Int64.ofNat (((Utf8.chars s).getD k ' ').toNat))))
        (do
          let k ← index j (Utf8.chars s).length
          push (.char (Int64.ofNat (((Utf8.chars s).getD k ' ').toNat)))) fun _ _ => Sim ρ := by
      intro s
      refine (index_agree hij _).both ?_
      rintro k _ rfl
      exact push_agree (.same (by simp [Value.kind]))
    cases hvw with
    | same hv =>
      cases v with
      | string s => exact hchar s
      | _ => exact Agree.raise rfl
    | nil => exact Agree.raise rfl
    | ref hρ => exact Agree.raise rfl
  case h_10 => exact Agree.raise rfl

/-! ## Allocation -/

theorem allocate_agree (p : Program) (u : LinkedUnit) (i : Instr) :
    Agree (Sim ρ) (allocate p u i) (allocate p u i) fun _ _ => Twins := by
  unfold allocate
  split
  case h_1 =>
    -- newObject
    refine (entry_agree _ _).both ?_
    rintro k _ ⟨rfl, -⟩
    refine (expect_same _).both ?_
    rintro c _ rfl
    refine Agree.bind (reserve_agree _) fun _ _ => Agree.twins fun ρ => ?_
    refine Agree.later (alloc_agree _ _) fun σ h h' hle hσ => ?_
    refine Agree.later (zeroAll_agree _) fun τ fields fields' hle' hfields => ?_
    refine Agree.bind (Q := fun _ _ => Sim τ) (Agree.modify fun m m' hm => ?_) fun _ _ => ?_
    · have hset : Sim τ { m with heap := m.heap.setElems h fields.toArray }
          { m' with heap := m'.heap.setElems h' fields'.toArray } := by
        refine hm.mono (hm.heap.updateElems (hle' _ _ hσ) ?_ ?_ ?_) fun _ _ _ h => h
        · exact fun c => ⟨rfl, rfl⟩
        · exact fun c => ⟨rfl, rfl⟩
        · exact fun c c' _ => hfields
      exact hset.touch h h' (fun _ => ⟨rfl, rfl, rfl⟩) fun _ => ⟨rfl, rfl, rfl⟩
    · exact (push_agree (.ref (hle' _ _ hσ))).post fun _ _ m m' hm => hm.twins
  case h_2 =>
    -- unpin
    refine peek_agree.both fun v w hvw => ?_
    refine Agree.modify fun m m' hm => Sim.twins (ρ := ρ) ?_
    exact hm.touch _ _ (fun _ => ⟨rfl, rfl, rfl⟩) fun _ => ⟨rfl, rfl, rfl⟩
  case h_3 =>
    -- newArray
    refine (entry_agree _ _).both ?_
    rintro elem _ ⟨rfl, -⟩
    refine peek_agree.both fun v w hvw => ?_
    cases hvw with
    | nil => exact Agree.raise rfl
    | ref hρ => exact Agree.raise rfl
    | same hv =>
      cases v with
      | int n =>
        refine Agree.unless Iff.rfl rfl fun _ => ?_
        refine Agree.look fun m m' hm => ?_
        refine Agree.unlessExhausted (fun _ => rfl) (fun _ => rfl) ?_
        refine Agree.bind (reserve_agree _) fun _ _ => Agree.twins fun ρ => ?_
        refine Agree.bind (Agree.discard pop_agree) fun _ _ => ?_
        refine Agree.later (zero_agree _ _) fun σ v w hle hvw => ?_
        exact (push_agree hvw).post fun _ _ m m' hm => hm.twins
      | _ => exact Agree.raise rfl
  case h_4 =>
    -- newCell
    refine (entry_agree _ _).both ?_
    rintro elem _ ⟨rfl, -⟩
    refine Agree.bind (reserve_agree _) fun _ _ => Agree.twins fun ρ => ?_
    refine Agree.later (zero_agree _ _) fun σ v w hle hvw => ?_
    exact (push_agree hvw).post fun _ _ m m' hm => hm.twins
  case h_5 => exact Agree.raise rfl

/-! ## Calls -/

theorem enter_agree (p : Program) (c : Callee) {args args' : List Value}
    (hargs : List.Forall₂ (Value.Like ρ) args args') :
    Agree (Sim ρ) (enter p c args) (enter p c args') fun _ _ => Twins := by
  have hlength := hargs.length_eq
  unfold enter
  refine Agree.look fun m m' hm => ?_
  dsimp only
  rw [hlength, hm.maxFrames_eq, hm.frames.length_eq, hm.span_eq]
  refine Agree.unless Iff.rfl rfl fun _ => ?_
  refine Agree.unless Iff.rfl rfl fun _ => ?_
  refine Agree.unlessBroken Iff.rfl fun _ => ?_
  refine Agree.later (zeroAll_agree _) fun σ own own' hle hown => ?_
  refine Agree.bind (Q := fun _ _ => Sim σ) (Agree.modify fun n n' hn => ?_) fun _ _ => ?_
  · refine ⟨hn.heap, hn.globals, .cons ⟨?_, .nil, rfl⟩ hn.frames, hn.bare⟩
    exact List.rel_append (hargs.imp fun v w hvw => hvw.mono fun k j _ => hle k j) hown
  · exact (log_agree _ _).post fun _ _ n n' hn => hn.twins

theorem call_agree (p : Program) (c : Callee) (argc : Int) :
    Agree (Sim ρ) (call p c argc) (call p c argc) fun _ _ => Twins := by
  unfold call
  refine Agree.look fun m m' hm => ?_
  dsimp only
  rw [hm.maxFrames_eq, hm.frames.length_eq]
  refine Agree.unless Iff.rfl rfl fun _ => ?_
  refine top_agree.both fun f f' hff => ?_
  rw [hff.operands.length_eq, hff.name_eq]
  refine Agree.unless Iff.rfl rfl fun _ => ?_
  refine (frameWords_agree _).both ?_
  rintro words _ rfl
  refine Agree.bind (reserve_agree _) fun _ _ => Agree.twins fun σ => ?_
  refine (popMany_agree _).both fun args args' hargs => ?_
  refine Agree.bind (modifyTop_agree fun fr fr' hfr => ?_) fun _ _ => ?_
  · exact ⟨hfr.locals, hfr.operands, congrArg (fun f => { f with state := .suspended }) hfr.bare⟩
  · exact enter_agree p c hargs

theorem leave_agree (withResult : Bool) :
    Agree (Sim ρ) (leave withResult) (leave withResult) fun _ _ => Sim ρ := by
  have hdrop : ∀ (result result' : Option Value) (name name' : String),
      Option.Rel (Value.Like ρ) result result' →
      Agree (Sim ρ)
        (do
          log fun m => .leave m.frames.length name result
          modify fun m => { m with frames := m.frames.tail }
          modifyTop ({ · with state := .running })
          result.elim (Pure.pure ()) push)
        (do
          log fun m => .leave m.frames.length name' result'
          modify fun m => { m with frames := m.frames.tail }
          modifyTop ({ · with state := .running })
          result'.elim (Pure.pure ()) push) fun _ _ => Sim ρ := by
    intro result result' name name' hresult
    refine Agree.bind (log_agree _ _) fun _ _ => ?_
    refine Agree.bind (Q := fun _ _ => Sim ρ) (Agree.modify fun m m' hm => ?_) fun _ _ => ?_
    · exact ⟨hm.heap, hm.globals, forall₂_tail hm.frames, hm.bare⟩
    refine Agree.bind (modifyTop_agree fun fr fr' hfr => ?_) fun _ _ => ?_
    · exact ⟨hfr.locals, hfr.operands, congrArg (fun f => { f with state := .running }) hfr.bare⟩
    cases hresult with
    | none => exact Agree.pure fun m m' hm => hm
    | some hvw => exact push_agree hvw
  unfold leave
  refine top_agree.both fun f f' hff => ?_
  refine Agree.bind (modifyTop_agree fun fr fr' hfr => ?_) fun _ _ => ?_
  · exact ⟨hfr.locals, hfr.operands, congrArg (fun f => { f with state := .returned }) hfr.bare⟩
  dsimp only
  rw [hff.routine_eq]
  refine Agree.ite Iff.rfl (fun _ => ?_) fun _ => ?_
  · refine Agree.unless Iff.rfl rfl fun _ => ?_
    refine (entry_like hff.locals _).both fun v w hvw => ?_
    exact hdrop (some v) (some w) f.name f'.name (.some hvw)
  · exact hdrop none none f.name f'.name .none

/-! ## References that show -/

/-- The operands of the innermost frame, the top first. -/
def operandsOf (m : Machine) : List Value := (m.frames.head?.map (·.operands)).getD []

theorem pop_operands (front ops : List Value) :
    Triple (fun m => front ++ operandsOf m = ops) pop (fun v m => front ++ v :: operandsOf m = ops)
      fun _ _ => True := by
  rintro m rfl
  unfold pop operandsOf
  cases m.frames with
  | nil => trivial
  | cons f rest =>
    dsimp only
    cases hops : f.operands with
    | nil => trivial
    | cons v vs => simp [hops]

theorem popMany_operands (ops : List Value) (n : Int) :
    Triple (operandsOf · = ops) (popMany n) (fun vs _ => vs = (ops.take n.toNat).reverse)
      fun _ _ => True := by
  refine Triple.bind (Triple.top fun _ _ => trivial) fun f => ?_
  refine Triple.fact (p := f.operands = ops) ?_ fun hops => ?_
  · rintro m ⟨rfl, hf⟩
    simp [operandsOf, hf]
  · refine Triple.ite (fun _ => Triple.breakdown fun _ _ => trivial) fun _ => ?_
    refine Triple.bind (R := fun _ _ => True) (Triple.modify fun _ _ => trivial) fun _ => ?_
    exact Triple.pure fun _ _ => by rw [hops]

end Exec

/-- Whether an instruction would make a reference visible: it compares one with a string, or hands
one to a built-in routine other than `length`. -/
def Instr.discloses (i : Instr) (u : LinkedUnit) (operands : List Value) : Bool :=
  (i.op.relation?.isSome && match operands with
    | y :: x :: _ => x.mixed y
    | _ => false) ||
  (i.op == .callNative && 0 ≤ i.a && (u.natives[i.a.toNat]?).any (· ≠ .length) &&
    (operands.take i.b.toNat).any Value.isCellRef)

namespace Exec

open Machine

variable {ρ : Renaming}

theorem callNative_agree (n : Native) (argc : Int) (ops : List Value)
    (hn : n = .length ∨ (ops.take argc.toNat).any Value.isCellRef = false) :
    Agree (fun m m' => Sim ρ m m' ∧ operandsOf m = ops) (callNative n argc) (callNative n argc)
      fun _ _ => Sim ρ := by
  unfold callNative
  have hpop : Agree (fun m m' => Sim ρ m m' ∧ operandsOf m = ops) (popMany argc) (popMany argc)
      (Both ρ fun vs ws => List.Forall₂ (Value.Like ρ) vs ws ∧ vs = (ops.take argc.toNat).reverse) :=
    ((popMany_agree argc).left (popMany_operands ops argc)).post fun _ _ _ _ h =>
      ⟨h.1.1, h.1.2, h.2⟩
  refine hpop.both ?_
  rintro args args' ⟨hargs, hops⟩
  rw [← List.any_reverse, ← hops] at hn
  rw [hargs.length_eq]
  refine Agree.unlessBroken Iff.rfl fun _ => ?_
  refine Agree.look fun m m' hm => ?_
  obtain ⟨hcall, hvalue⟩ := Native.call_like hm.heap n hargs hn m.input
  rw [← hm.input_eq, hcall]
  cases hr : n.call ⟨m.input, some (lengthIn m.heap)⟩ args with
  | error e =>
    cases e with
    | halt code =>
      refine Agree.modify fun s s' hs => ⟨hs.heap, hs.globals, .nil, ?_⟩
      exact congrArg (fun s => { s with halted := true, exitCode := code.toInt, pending := [] }) hs.bare
    | error e => exact Agree.raise rfl
    | breakdown => exact Agree.breakdown
  | ok r =>
    refine Agree.bind (Q := fun _ _ => Sim ρ) (Agree.modify fun s s' hs => ?_) fun _ _ => ?_
    · refine ⟨hs.heap, hs.globals, hs.frames, ?_⟩
      exact congrArg (fun s => { s with input := r.input, output := s.output ++ r.output }) hs.bare
    · exact Agree.ite Iff.rfl (fun _ => push_agree (hvalue r hr)) fun _ => Agree.pure fun _ _ hs => hs

/-! ## Control -/

theorem control_agree (p : Program) (u : LinkedUnit) (i : Instr) (ops : List Value)
    (hi : i.discloses u ops = false) :
    Agree (fun m m' => Sim ρ m m' ∧ operandsOf m = ops) (control p u i) (control p u i)
      fun _ _ => Twins := by
  have hjump : ∀ block : Int, Agree (Sim ρ) (modifyTop ({ · with block, ip := 0 }))
      (modifyTop ({ · with block, ip := 0 })) fun _ _ => Twins := by
    intro block
    refine (modifyTop_agree fun fr fr' hfr => ?_).post fun _ _ m m' (hm : Sim ρ m m') => hm.twins
    exact ⟨hfr.locals, hfr.operands, congrArg (fun f => { f with block, ip := 0 }) hfr.bare⟩
  unfold control
  dsimp only
  split
  case h_1 => exact (hjump i.a).pre fun m m' hm => hm.1
  case h_2 =>
    -- branch
    refine (pop_agree.pre fun m m' hm => hm.1).both fun v w hvw => ?_
    rw [hvw.isTrue_eq]
    exact Agree.ite Iff.rfl (fun _ => hjump i.a) fun _ => hjump i.b
  case h_3 => exact ((leave_agree _).post fun _ _ m m' hm => hm.twins).pre fun m m' hm => hm.1
  case h_4 =>
    -- call
    refine ((entry_agree _ _).pre fun m m' hm => hm.1).both ?_
    rintro c _ ⟨rfl, -⟩
    exact call_agree p c _
  case h_5 =>
    -- callVirtual
    refine (top_agree.pre fun m m' hm => hm.1).both fun f f' hff => ?_
    rw [hff.operands.length_eq]
    refine Agree.unless Iff.rfl rfl fun _ => ?_
    refine (object_agree (operand_like hff _)).both ?_
    rintro ⟨h, c⟩ ⟨h', c'⟩ ⟨-, hkind, -⟩
    dsimp only at hkind ⊢
    rw [hkind]
    split
    · exact Agree.raise rfl
    · refine Agree.unless Iff.rfl rfl fun _ => ?_
      refine (entry_agree _ _).both ?_
      rintro c _ ⟨rfl, -⟩
      exact call_agree p c _
  case h_6 =>
    -- callIndirect
    refine (top_agree.pre fun m m' hm => hm.1).both fun f f' hff => ?_
    rw [hff.operands.length_eq]
    refine Agree.unless Iff.rfl rfl fun _ => ?_
    refine Agree.unlessBroken Iff.rfl fun _ => ?_
    refine (routineValue_agree p (operand_like hff _)).both ?_
    rintro target _ rfl
    refine Agree.bind (modifyTop_agree fun fr fr' hfr => ?_) fun _ _ => call_agree p target _
    exact ⟨hfr.locals, forall₂_eraseIdx hfr.operands _, hfr.bare⟩
  case h_7 hop =>
    -- callNative
    have hentry : Triple (operandsOf · = ops) (entry u.natives i.a)
        (fun _ m => operandsOf m = ops) fun _ _ => True :=
      (Triple.entry fun _ _ => trivial).post fun _ _ h => h.1
    refine Agree.bind ((entry_agree u.natives i.a).left hentry) fun n n' => ?_
    refine Agree.fact (fun m m' hm => hm.1.2) ?_
    rintro ⟨rfl, ha, hn⟩
    have hquiet : n = .length ∨ (ops.take i.b.toNat).any Value.isCellRef = false := by
      by_cases hlength : n = .length
      · exact Or.inl hlength
      · simp only [Instr.discloses, hop, ha, hn, Bool.or_eq_false_iff] at hi
        simpa [hlength] using hi.2
    exact ((callNative_agree n _ ops hquiet).post fun _ _ m m' hm => hm.twins).pre
      fun m m' hm => ⟨hm.1.1, hm.2⟩
  case h_8 => exact (Agree.raise rfl).pre fun m m' hm => hm.1

/-! ## Steps -/

theorem instr_agree (p : Program) {u : LinkedUnit} (hu : NilConsts u.unit) (i : Instr)
    (ops : List Value) (hi : i.discloses u ops = false) :
    Agree (fun m m' => Sim ρ m m' ∧ operandsOf m = ops) (instr p u i) (instr p u i)
      fun _ _ => Twins := by
  have hpush : ∀ {v w : Value}, v.Like ρ w → Agree (Sim ρ) (push v) (push w) fun _ _ => Twins :=
    fun hvw => (push_agree hvw).post fun _ _ m m' hm => hm.twins
  have hpop : Agree (fun m m' => Sim ρ m m' ∧ operandsOf m = ops) pop pop
      (Both ρ (Value.Like ρ)) := pop_agree.pre fun m m' hm => hm.1
  unfold instr
  split
  case h_1 f hf =>
    -- operators on two values
    refine hpop.both fun y y' hy => ?_
    refine pop_agree.both fun x x' hx => ?_
    rw [Op.binary?_like hf hx hy]
    refine (check_agree _).both ?_
    rintro v _ ⟨rfl, hv⟩
    exact hpush (.same (Op.binary?_kind hf hv))
  case h_2 f hf _ =>
    refine hpop.both fun x x' hx => ?_
    rw [Op.unary?_like hf hx]
    refine (check_agree _).both ?_
    rintro v _ ⟨rfl, hv⟩
    exact hpush (.same (Op.unary?_kind hf hv))
  case h_3 f hf _ _ =>
    -- comparisons
    refine Agree.bind (pop_agree.left (pop_operands [] ops)) fun y y' => ?_
    refine Agree.fact (fun m m' hm => hm.1.2) fun hy => ?_
    refine Agree.bind ((pop_agree.left (pop_operands [y] ops)).pre fun m m' hm => ⟨hm.1.1, hm.2⟩)
      fun x x' => ?_
    rintro m m' ⟨⟨hm, hx⟩, rfl⟩
    have hmixed : x.mixed y = false := by
      simp only [Instr.discloses, hf, Bool.or_eq_false_iff] at hi
      simpa using hi.1
    rw [Op.relation?_like hf hm.heap hx hy hmixed]
    exact hpush (.same (by simp [Value.ofBool, Value.kind])) m m' hm
  case h_4 =>
    split
    case h_1 => exact Agree.pure fun m m' hm => hm.1.twins
    case h_2 =>
      -- const
      refine ((entry_agree _ _).pre fun m m' hm => hm.1).both ?_
      rintro v _ ⟨rfl, -, hv⟩
      refine hpush ?_
      cases v with
      | ref k =>
        rw [hu _ (Array.mem_of_getElem? hv) k rfl]
        exact .nil
      | _ => exact .same (by simp [Value.kind])
    case h_3 => exact (Agree.discard hpop).post fun _ _ m m' hm => hm.twins
    case h_4 => exact (peek_agree.pre fun m m' hm => hm.1).both fun v w hvw => hpush hvw
    case h_5 =>
      refine hpop.both fun v w hvw => ?_
      rw [hvw.asReal_eq]
      exact hpush (.same (by simp [Value.kind]))
    case h_6 =>
      -- charToString
      refine hpop.both fun v w hvw => ?_
      cases hvw with
      | same hv =>
        cases v with
        | char n => exact hpush (.same (by simp [Value.kind]))
        | _ => exact hpush (.same hv)
      | nil => exact hpush .nil
      | ref hρ => exact hpush (.ref hρ)
    case h_7 =>
      -- routine
      refine ((entry_agree _ _).pre fun m m' hm => hm.1).both ?_
      rintro c _ ⟨rfl, -⟩
      exact hpush (.same (by simp [Value.kind]))
    case h_21 => exact control_agree p u i ops hi
    case h_17 | h_18 | h_19 | h_20 => exact (allocate_agree p u i).pre fun m m' hm => hm.1
    all_goals exact ((access_agree u i).post fun _ _ m m' hm => hm.twins).pre fun m m' hm => hm.1

theorem marking_error {x : Exec Unit} {m m' : Machine} {e : Stop} (h : x m = .error e m') :
    ∃ m'', marking x m = .error e m'' ∧ m''.bare = m'.bare := by
  unfold marking
  rw [h]
  refine ⟨_, rfl, ?_⟩
  split <;> rfl

theorem marking_ok {x : Exec Unit} {m m' : Machine} {a : Unit} (h : x m = .ok a m') :
    marking x m = .ok a m' := by
  unfold marking
  rw [h]

theorem marking_agree {P : Machine → Machine → Prop} {Q : Unit → Unit → Machine → Machine → Prop}
    {x y : Exec Unit} (hx : Agree P x y Q) : Agree P (marking x) (marking y) Q := by
  intro m m' hm
  have hx := hx m m' hm
  cases hxm : x m <;> cases hym : y m' <;> rw [hxm, hym] at hx
  · rw [marking_ok hxm, marking_ok hym]
    exact hx
  · obtain ⟨m₂, hm₂, -⟩ := marking_error hym
    rw [marking_ok hxm, hm₂]
    exact hx
  · obtain ⟨m₁, hm₁, -⟩ := marking_error hxm
    rw [hm₁, marking_ok hym]
    exact hx
  · obtain ⟨m₁, hm₁, hbare₁⟩ := marking_error hxm
    obtain ⟨m₂, hm₂, hbare₂⟩ := marking_error hym
    rw [hm₁, hm₂]
    rcases hx with hx | hx | ⟨hcode, hm⟩
    · exact Or.inl hx
    · exact Or.inr (Or.inl hx)
    · exact Or.inr (Or.inr ⟨hcode, hbare₁.trans (hm.trans hbare₂.symm)⟩)

end Exec

/-- Whether the next step would make a reference visible. -/
def Machine.discloses (p : Program) (m : Machine) : Bool :=
  match m.frames with
  | [] => false
  | f :: _ =>
    match f.instr?, p.units[f.unit]? with
    | some i, some u => i.discloses u f.operands
    | _, _ => false

namespace Exec

open Machine

variable {ρ : Renaming}

theorem step_agree {p : Program} (hp : NilProgram p) {m m' : Machine} (hm : Sim ρ m m')
    (hquiet : m.discloses p = false) :
    Meet (fun _ _ => Twins) (step p m) (step p m') := by
  unfold step
  refine Meet.look hm ?_
  refine Agree.ite (by rw [hm.halted_eq]) (fun _ => Agree.pure fun s s' hs => hs.twins) fun _ => ?_
  dsimp only
  refine Agree.unless (by rw [hm.stopping_eq]) rfl fun _ => ?_
  have hframes := hm.frames
  unfold Machine.discloses at hquiet
  cases hm₁ : m.frames <;> cases hm₂ : m'.frames <;> rw [hm₁, hm₂] at hframes
  · -- There is no frame.
    rw [hm.pending_eq]
    cases m'.pending with
    | nil => exact Agree.pure fun s s' hs => hs.twins
    | cons e rest =>
      refine Agree.bind (Q := fun _ _ => Sim ρ) (Agree.set ?_) fun _ _ => ?_
      · exact ⟨hm.heap, hm.globals, .nil, congrArg (fun m => { m with pending := rest }) hm.bare⟩
      cases e.callee? p with
      | none => exact Agree.raise rfl
      | some c =>
        refine (frameWords_agree _).both ?_
        rintro words _ rfl
        exact Agree.bind (reserve_agree _) fun _ _ => Agree.twins fun σ => enter_agree p c .nil
  · cases hframes
  · cases hframes
  · rename_i f rest f' rest'
    cases hframes with
    | cons hff hrest =>
      rw [hm₁] at hquiet
      dsimp only at hquiet ⊢
      have hinstr := hff.instr?_eq
      have hunit : p.units[f.unit]? = p.units[f'.unit]? := by rw [hff.unit_eq]
      cases hi : f.instr? <;> rw [← hinstr, hi]
      · exact Agree.raise rfl
      cases hu : p.units[f.unit]? <;> rw [← hunit, hu]
      · exact Agree.raise rfl
      rename_i i u
      rw [hi, hu] at hquiet
      refine Agree.bind (Q := fun _ _ n n' => Sim ρ n n' ∧ operandsOf n = f.operands)
        (Agree.set ⟨?_, rfl⟩) fun _ _ => ?_
      · refine ⟨hm.heap, hm.globals, .cons ⟨hff.locals, hff.operands, ?_⟩ hrest, hm.bare⟩
        exact congrArg (fun g : Frame =>
          { g with
            state := .running
            span := ⟨u.unit.file, i.pos, (i.pos + 1) % 0x100000000⟩
            ip := g.ip + 1 }) hff.bare
      refine Agree.bind (Q := fun _ _ n n' => Sim ρ n n' ∧ operandsOf n = f.operands) ?_
        fun _ _ => marking_agree (instr_agree p (hp u (Array.mem_of_getElem? hu)) i _ hquiet)
      refine (log_agree _ _).left (Triple.modify fun n hn => ?_)
      rw [← hn]
      unfold Machine.log
      repeat' split
      all_goals rfl

end Exec

/-! ## Runs -/

namespace Machine

variable {p : Program}

theorem makeGlobals_agree (us : List LinkedUnit) :
    Exec.Agree Twins (makeGlobals us) (makeGlobals us) fun _ _ => Twins := by
  induction us with
  | nil => exact Exec.Agree.pure fun m m' hm => hm
  | cons u us ih =>
    refine Exec.Agree.twins fun ρ => ?_
    refine Exec.Agree.bind (Exec.reserve_agree _) fun _ _ => Exec.Agree.twins fun ρ => ?_
    refine Exec.Agree.later (Exec.zeroAll_agree _) fun σ values values' _ hvalues => ?_
    refine Exec.Agree.bind (Q := fun _ _ => Twins) (Exec.Agree.modify fun m m' hm => ?_) fun _ _ => ih
    refine ⟨σ, hm.heap, ?_, hm.frames, hm.bare⟩
    rw [Array.toList_push, Array.toList_push]
    exact List.rel_append hm.globals (.cons hvalues .nil)

/-- A run of at most so many steps from the start. One that cannot start has no steps. -/
def trial (p : Program) (o : RunOptions) (steps : Nat) : Outcome :=
  match start p o with
  | .ok m => run p steps m
  | .error e => ⟨blank o, some e⟩

/-- What a run shows: the bytes written, the exit code, whether it was halted, whether it is over,
and if a fault ended it, the code of that. -/
structure Sight where
  output : Bytes
  exitCode : Int
  halted : Bool
  ended : Bool
  fault : Option (Option Nat)
deriving DecidableEq

namespace Outcome

def sight (o : Outcome) : Sight :=
  { output := o.machine.written, exitCode := o.machine.exitCode, halted := o.machine.halted,
    ended := o.stop.isSome || o.machine.isDone, fault := o.stop.map Stop.code? }

/-- The run ended because the heap was too small. -/
def exhausted (o : Outcome) : Bool := o.stop.any Stop.exhausted

/-- If the run goes on, its next step makes no reference visible. -/
def quiet (p : Program) (o : Outcome) : Bool := o.stop.isSome || !o.machine.discloses p

theorem sight_of_bare {m m' : Machine} {e e' : Stop} (hm : m.bare = m'.bare)
    (he : e.code? = e'.code?) : sight ⟨m, some e⟩ = sight ⟨m', some e'⟩ := by
  have houtput : m.output = m'.output := (congrArg Machine.output hm :)
  have hexit : m.exitCode = m'.exitCode := (congrArg Machine.exitCode hm :)
  have hhalted : m.halted = m'.halted := (congrArg Machine.halted hm :)
  simp [sight, written, houtput, hexit, hhalted, he]

theorem sight_of_sim {ρ : Renaming} {m m' : Machine} (hm : Sim ρ m m') :
    sight ⟨m, none⟩ = sight ⟨m', none⟩ := by
  have houtput : m.output = m'.output := (congrArg Machine.output hm.bare :)
  have hexit : m.exitCode = m'.exitCode := (congrArg Machine.exitCode hm.bare :)
  simp [sight, written, houtput, hexit, hm.halted_eq, hm.isDone_eq]

end Outcome

theorem run_sight (hp : Exec.NilProgram p) (n : Nat) {m m' : Machine} (hm : Twins m m')
    (hroom : (run p n m).exhausted = false) (hroom' : (run p n m').exhausted = false)
    (hquiet : ∀ i < n, (run p i m).quiet p) : (run p n m).sight = (run p n m').sight := by
  induction n generalizing m m' with
  | zero =>
    obtain ⟨ρ, hm⟩ := hm
    exact Outcome.sight_of_sim hm
  | succ n ih =>
    obtain ⟨ρ, hm⟩ := hm
    have hfirst : m.discloses p = false := by
      simpa [run, Outcome.quiet] using hquiet 0 n.succ_pos
    have hstep := Exec.step_agree hp hm hfirst
    by_cases hdone : m.isDone
    · have hdone' : m'.isDone := hm.isDone_eq ▸ hdone
      simp only [run, hdone, hdone', if_true]
      exact Outcome.sight_of_sim hm
    · have hdone' : ¬m'.isDone := hm.isDone_eq ▸ hdone
      simp only [run, hdone, hdone', if_false, Bool.false_eq_true] at hroom hroom' ⊢
      rcases hstep.cases with ⟨_, _, s, s', hs, hs', htwins⟩ | ⟨e, e', s, s', hs, hs', hcode, hbare⟩ |
        ⟨e, s, hs, he⟩ | ⟨e, s, hs, he⟩
      · rw [hs] at hroom ⊢
        rw [hs'] at hroom' ⊢
        refine ih htwins hroom hroom' fun i hi => ?_
        have hquiet := hquiet (i + 1) (Nat.succ_lt_succ hi)
        simpa only [run, hdone, hs, if_false, Bool.false_eq_true] using hquiet
      · rw [hs, hs']
        exact Outcome.sight_of_bare hbare hcode
      · rw [hs] at hroom
        simp [Outcome.exhausted, he] at hroom
      · rw [hs] at hroom'
        simp [Outcome.exhausted, he] at hroom'

theorem blank_twins (o : RunOptions) (b b' : Int) :
    Twins (blank { o with heapBudget := b }) (blank { o with heapBudget := b' }) := by
  refine ⟨fun _ _ => False, ⟨Heap.sound_ofBudget _, Heap.sound_ofBudget _, ?_, ?_, ?_⟩, .nil, .nil, rfl⟩
  · exact fun _ _ _ h => h.elim
  · exact fun _ _ _ h => h.elim
  · exact fun _ _ h => h.elim

theorem trial_sight (hp : Exec.NilProgram p) (o : RunOptions) (b b' : Int) (n : Nat)
    (hroom : (trial p { o with heapBudget := b } n).exhausted = false)
    (hroom' : (trial p { o with heapBudget := b' } n).exhausted = false)
    (hquiet : ∀ i < n, (trial p { o with heapBudget := b } i).quiet p) :
    (trial p { o with heapBudget := b } n).sight = (trial p { o with heapBudget := b' } n).sight := by
  have hstart := makeGlobals_agree p.units.toList _ _ (blank_twins o b b')
  unfold trial start at hroom hroom' hquiet ⊢
  rcases hstart.cases with ⟨_, _, s, s', hs, hs', ρ, hm⟩ | ⟨e, e', s, s', hs, hs', hcode, -⟩ |
    ⟨e, s, hs, he⟩ | ⟨e, s, hs, he⟩
  · rw [hs] at hroom hquiet ⊢
    rw [hs'] at hroom' ⊢
    refine run_sight hp n ⟨ρ, hm.heap, hm.globals, hm.frames, ?_⟩ hroom hroom' hquiet
    exact congrArg (fun m => { m with pending := p.entries }) hm.bare
  · rw [hs, hs']
    exact Outcome.sight_of_bare rfl hcode
  · rw [hs] at hroom
    simp [Outcome.exhausted, he] at hroom
  · rw [hs] at hroom'
    simp [Outcome.exhausted, he] at hroom'

end Machine

open Machine in
/-- Two runs of linked units that differ in the heap budget show the same after any number of steps,
unless one of them runs out of heap or the first one makes a reference visible. As they go in
lockstep, the other one makes none visible either. -/
theorem collection_does_not_show {units : List CompiledUnit} {p : Program}
    (hlink : Program.link units = .ok p)
    (hconsts : ∀ u ∈ units, ∀ v ∈ u.pool.consts, ∀ k, v = .ref k → k = 0)
    (o : RunOptions) (b b' : Int) (n : Nat)
    (hroom : (trial p { o with heapBudget := b } n).exhausted = false)
    (hroom' : (trial p { o with heapBudget := b' } n).exhausted = false)
    (hquiet : ∀ i < n, (trial p { o with heapBudget := b } i).quiet p) :
    (trial p { o with heapBudget := b } n).sight =
      (trial p { o with heapBudget := b' } n).sight := by
  have hp : Exec.NilProgram p :=
    fun u hu => hconsts u.unit ((Program.links_of_link hlink).mem_units hu)
  exact trial_sight hp o b b' n hroom hroom' hquiet

/-- Keeps one cell, drops a second one, makes a third and asks whether it is the first. -/
def recycledCell : CompiledUnit :=
  { name := "cells", display := "cells", globals := [⟨"kept", .ref⟩], main := 0,
    pool := { globals := #[⟨"cells", 0⟩], shapes := #[.int], natives := #["writeln"] },
    table := some #[{ name := "main", blocks := #[#[
      { op := .newCell }, { op := .storeGlobal }, { op := .newCell }, { op := .pop },
      { op := .newCell }, { op := .loadGlobal }, { op := .eq }, { op := .callNative, b := 1 },
      { op := .ret }]] }] }

def recycledCellProgram : Program := (Program.link [recycledCell]).toOption.getD {}

/-- With room for two cells the third one takes the handle of the second; with more room it has a
handle of its own. -/
theorem collection_does_not_show_recycled :
    (Machine.trial recycledCellProgram { heapBudget := 4 } 12).machine.heap.collections = 1 ∧
    (Machine.trial recycledCellProgram { heapBudget := 100 } 12).machine.heap.collections = 0 ∧
    (Machine.trial recycledCellProgram { heapBudget := 4 } 12).sight =
      (Machine.trial recycledCellProgram { heapBudget := 100 } 12).sight := by
  refine ⟨by decide +kernel, by decide +kernel, ?_⟩
  have hlink : Program.link [recycledCell] = .ok recycledCellProgram :=
    eq_ok_of_isSome (by decide +kernel)
  have hconsts : ∀ u ∈ [recycledCell], ∀ v ∈ u.pool.consts, ∀ k, v = .ref k → k = 0 := by
    simp [recycledCell]
  exact collection_does_not_show hlink hconsts {} 4 100 12 (by decide +kernel) (by decide +kernel)
    (by decide +kernel)

end Pascaline
