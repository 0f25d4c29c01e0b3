import Mathlib
import Pascaline.Proofs.Interface.Tables
import Pascaline.Proofs.Lowering.Building
import Pascaline.Proofs.Lowering.Expressions
import Pascaline.Proofs.Lowering.Pools

/-!
# What a pool holds

The pool of a unit is asked for the places of entries, one after the other. What is not there is
put at the end, so that the entry of a place never changes; what is there is found at the first
place whose entry looks the same. So a place holds the first of all entries asked for that look like
the one it was given for.

Constants that compare equal share a place. The two zeros do, and are the only different values
that do: of them, the pool has the one that is asked for first. Every other constant is found at its
place as it was. The library's lemmas about `Float` come with no smaller part of it than the whole.

Shapes are told apart by their texts. The shape of a slot can be read off its text: a length stands
between brackets, and what is behind them is the text of the elements. So a shape is found at its
place as it was.
-/

namespace Pascaline

/-- What a pool is asked the place of. -/
inductive PoolRequest where
  | const (v : Value)
  | call (ref : RoutineRef)
  | global (ref : GlobalRef)
  | classKey (key : ClassKey)
  | native (name : String)
  | shape (s : Shape)

namespace PoolRequest

/-- The constant asked for. -/
def const? : PoolRequest → Option Value
  | const v => some v
  | _ => none

/-- The shape asked for. -/
def shape? : PoolRequest → Option Shape
  | shape s => some s
  | _ => none

end PoolRequest

namespace Pool

/-! ## Entering one after the other -/

section Entering

variable {α : Type} {same : α → α → Bool}

def enterAll (same : α → α → Bool) (xs : Array α) (ys : List α) : Array α :=
  ys.foldl (fun xs y => (enter same xs y).2) xs

theorem enterAll_append (xs : Array α) (ys zs : List α) :
    enterAll same xs (ys ++ zs) = enterAll same (enterAll same xs ys) zs :=
  List.foldl_append

theorem isPrefix_enterAll (xs : Array α) (ys : List α) :
    xs.toList <+: (enterAll same xs ys).toList := by
  induction ys generalizing xs with
  | nil => exact List.prefix_refl _
  | cons y ys ih => exact (Builder.enter_prefix same xs y).trans (ih _)

/-- The entry found for `x` is the first that looks the same, and `x` itself if there is none. -/
theorem entry_enter (xs : Array α) (x : α) :
    (enter same xs x).2[(enter same xs x).1]? = some ((xs.toList.find? (same · x)).getD x) := by
  unfold enter
  split
  case h_1 i hi =>
    obtain ⟨hlt, hsame, hfirst⟩ := Array.findIdx?_eq_some_iff_getElem.mp hi
    have hfind : xs.toList.find? (same · x) = some xs[i] :=
      List.find?_eq_some_iff_getElem.mpr ⟨hsame, i, by simpa using hlt, by simp, fun j hj => by
        simpa using hfirst j hj⟩
    rw [hfind, Option.getD_some]
    exact Array.getElem?_eq_getElem hlt
  case h_2 hnone =>
    have hfind : xs.toList.find? (same · x) = none :=
      List.find?_eq_none.mpr fun y hy => by
        simpa using Array.findIdx?_eq_none_iff.mp hnone y (Array.mem_toList_iff.mp hy)
    rw [hfind]
    simp

theorem find?_enter (htrans : ∀ a b c, same a b → same b c → same a c) (xs : Array α) (y x : α) :
    (enter same xs y).2.toList.find? (same · x) = (xs.toList ++ [y]).find? (same · x) := by
  unfold enter
  split
  case h_1 i hi =>
    obtain ⟨hlt, hsame, -⟩ := Array.findIdx?_eq_some_iff_getElem.mp hi
    rw [List.find?_append]
    by_cases hyx : same y x
    · -- the entry in place of `y` looks like `x` too
      have hsome : (xs.toList.find? (same · x)).isSome :=
        List.find?_isSome.mpr ⟨xs[i], by simp, htrans _ _ _ hsame hyx⟩
      obtain ⟨z, hz⟩ := Option.isSome_iff_exists.mp hsome
      rw [hz, Option.some_or]
    · rw [List.find?_singleton, if_neg hyx, Option.or_none]
  case h_2 => rw [Array.toList_push]

theorem find?_enterAll (htrans : ∀ a b c, same a b → same b c → same a c) (ys : List α) (x : α) :
    (enterAll same #[] ys).toList.find? (same · x) = ys.find? (same · x) := by
  induction ys using List.reverseRecOn with
  | nil => rfl
  | append_singleton ys y ih =>
    calc (enterAll same #[] (ys ++ [y])).toList.find? (same · x)
        = (enter same (enterAll same #[] ys) y).2.toList.find? (same · x) := by
          rw [enterAll_append]
          rfl
      _ = ((enterAll same #[] ys).toList ++ [y]).find? (same · x) := find?_enter htrans _ _ _
      _ = (ys ++ [y]).find? (same · x) := by
          rw [List.find?_append, ih, ← List.find?_append]

/-- The place that `x` is given holds, whatever is entered behind it, the first entry asked for that
looks like `x`. -/
theorem entry_enterAll (htrans : ∀ a b c, same a b → same b c → same a c) (ys zs : List α) (x : α) :
    (enterAll same #[] (ys ++ x :: zs))[(enter same (enterAll same #[] ys) x).1]? =
      some ((ys.find? (same · x)).getD x) := by
  have hentry : (enterAll same #[] (ys ++ [x]))[(enter same (enterAll same #[] ys) x).1]? =
      some ((ys.find? (same · x)).getD x) := by
    rw [enterAll_append, ← find?_enterAll htrans]
    exact entry_enter _ x
  rw [List.append_cons, enterAll_append]
  exact getElem?_of_isPrefix (isPrefix_enterAll _ zs) hentry

end Entering

/-! ## Requests -/

/-- The place of what is asked for, and the pool that has it. -/
def answer (p : Pool) : PoolRequest → Nat × Pool
  | .const v => p.addConst v
  | .call ref => p.addCall ref
  | .global ref => p.addGlobal ref
  | .classKey key => p.addClass key
  | .native name => p.addNative name
  | .shape s => p.addShape s

/-- The pool after requests made one after the other. -/
def ofRequests (rs : List PoolRequest) : Pool := rs.foldl (fun p r => (p.answer r).2) {}

/-- Shapes that are entered as one. -/
def sameShape (s s' : Shape) : Bool := s.render == s'.render

theorem ofRequests_append_singleton (rs : List PoolRequest) (r : PoolRequest) :
    ofRequests (rs ++ [r]) = ((ofRequests rs).answer r).2 := by
  rw [ofRequests, List.foldl_append]
  rfl

theorem consts_ofRequests (rs : List PoolRequest) :
    (ofRequests rs).consts = enterAll Value.sameConstant #[] (rs.filterMap (·.const?)) := by
  induction rs using List.reverseRecOn with
  | nil => rfl
  | append_singleton rs r ih =>
    rw [ofRequests_append_singleton, List.filterMap_append, enterAll_append, ← ih]
    cases r <;> rfl

theorem shapes_ofRequests (rs : List PoolRequest) :
    (ofRequests rs).shapes = enterAll sameShape #[] (rs.filterMap (·.shape?)) := by
  induction rs using List.reverseRecOn with
  | nil => rfl
  | append_singleton rs r ih =>
    rw [ofRequests_append_singleton, List.filterMap_append, enterAll_append, ← ih]
    cases r <;> rfl

theorem getElem?_consts_append {before : List PoolRequest} {i : Nat} {v : Value}
    (h : (ofRequests before).consts[i]? = some v) (later : List PoolRequest) :
    (ofRequests (before ++ later)).consts[i]? = some v := by
  rw [consts_ofRequests, List.filterMap_append, enterAll_append, ← consts_ofRequests]
  exact getElem?_of_isPrefix (isPrefix_enterAll _ _) h

theorem exists_requests_answer {p : Pool} (r : PoolRequest) (h : ∃ rs, p = ofRequests rs) :
    ∃ rs, (p.answer r).2 = ofRequests rs := by
  obtain ⟨rs, rfl⟩ := h
  exact ⟨rs ++ [r], (ofRequests_append_singleton rs r).symm⟩

theorem stable_ofRequests (R : References) :
    Builder.Stable R 0 fun b => ∃ rs, b.pool = ofRequests rs where
  frame _ := Nat.zero_le _
  block h := h
  goTo _ h := h
  loops _ h := h
  emit _ h := by simpa using h
  slot _ h := h
  const v := exists_requests_answer (.const v)
  shape s := exists_requests_answer (.shape s)
  native n := exists_requests_answer (.native n.name)
  call {_ ref} _ := exists_requests_answer (.call ref)
  global {_ ref} _ := exists_requests_answer (.global ref)
  object {_ key} _ := exists_requests_answer (.classKey key)

end Pool

theorem CompiledUnit.pool_ofModule {types : TypeTable} {m : Bound.Module} {u : CompiledUnit}
    (h : ofModule types m = .ok u) : ∃ rs, u.pool = Pool.ofRequests rs :=
  (ofModule_keeps (I := fun p => ∃ rs, p = Pool.ofRequests rs) (Pool.stable_ofRequests .any)
    ⟨[], rfl⟩ h fun _ _ e _ => e.refers_any).1

/-! ## Constants -/

namespace Value

variable {u v w : Value}

/-- No run tells the values apart: their kinds and printed texts agree, and so does what every
operator makes of them. -/
structure Indistinct (u v : Value) : Prop where
  kind : u.kind = v.kind
  print : u.print = v.print
  unary : ∀ o : Bound.UnaryOp, o.apply u = o.apply v
  left : ∀ (o : Bound.BinaryOp) (w : Value), o.apply u w = o.apply v w
  right : ∀ (o : Bound.BinaryOp) (w : Value), o.apply w u = o.apply w v
  convert : ∀ c : Bound.Conversion, c.apply u = c.apply v

theorem Indistinct.refl (v : Value) : v.Indistinct v :=
  ⟨rfl, rfl, fun _ => rfl, fun _ _ => rfl, fun _ _ => rfl, fun _ => rfl⟩

/-- The two zeros. -/
def OtherZero (u v : Value) : Prop :=
  u = .real 0.0 ∧ v = .real (-0.0) ∨ u = .real (-0.0) ∧ v = .real 0.0

namespace OtherZero

theorem print_ne (h : u.OtherZero v) : u.print ≠ v.print := by
  rcases h with ⟨rfl, rfl⟩ | ⟨rfl, rfl⟩ <;> decide

theorem ne (h : u.OtherZero v) : u ≠ v := fun heq => h.print_ne (congrArg print heq)

theorem sameConstant (h : u.OtherZero v) : u.sameConstant v := by
  rcases h with ⟨rfl, rfl⟩ | ⟨rfl, rfl⟩ <;> decide

theorem sameConstant_self (h : u.OtherZero v) : v.sameConstant v := by
  rcases h with ⟨-, rfl⟩ | ⟨-, rfl⟩ <;> decide

theorem unique (h : u.OtherZero v) (h' : w.OtherZero v) : u = w := by
  rcases h with ⟨rfl, rfl⟩ | ⟨rfl, rfl⟩ <;> rcases h' with ⟨rfl, hv⟩ | ⟨rfl, hv⟩
  · rfl
  · exact absurd (congrArg print hv) (by decide)
  · exact absurd (congrArg print hv) (by decide)
  · rfl

end OtherZero

/-- Different constants that share a place are the zeros. -/
theorem eq_or_otherZero (h : u.sameConstant v) : u = v ∨ u.OtherZero v := by
  rcases eq_of_sameConstant h with heq | ⟨x, y, rfl, rfl, hxy⟩
  · exact .inl heq
  · rcases (Float.beq_iff_ne_nan_and_eq.mp hxy).2.2 with rfl | ⟨rfl, rfl⟩ | ⟨rfl, rfl⟩
    · exact .inl rfl
    · exact .inr (.inl ⟨rfl, rfl⟩)
    · exact .inr (.inr ⟨rfl, rfl⟩)

theorem sameConstant_trans (u v w : Value) (h : u.sameConstant v) (h' : v.sameConstant w) :
    u.sameConstant w := by
  rcases eq_or_otherZero h with rfl | huv
  · exact h'
  · rcases eq_or_otherZero h' with rfl | hvw
    · exact h
    · rcases huv with ⟨rfl, -⟩ | ⟨rfl, -⟩ <;> rcases hvw with ⟨-, rfl⟩ | ⟨-, rfl⟩ <;> decide

theorem first_eq_or_otherZero (vs : List Value) (v : Value) :
    (vs.find? (·.sameConstant v)).getD v = v ∨ ((vs.find? (·.sameConstant v)).getD v).OtherZero v := by
  cases hfind : vs.find? (·.sameConstant v) with
  | none => exact .inl rfl
  | some u => exact eq_or_otherZero (by simpa using List.find?_some hfind)

/-- Of the two zeros, the other one is among the values before this one is. -/
def Preempted (v : Value) (vs : List Value) : Prop :=
  ∃ u before between, vs = before ++ u :: between ∧ u.OtherZero v ∧ v ∉ before

/-- The first value that looks like `v` is `v`, unless that is a zero and the other one is first. -/
theorem first_eq_iff_not_preempted (vs : List Value) (v : Value) :
    (vs.find? (·.sameConstant v)).getD v = v ↔ ¬ v.Preempted vs := by
  constructor
  · rintro hfirst ⟨u, before, between, rfl, hzero, hnot⟩
    have hfind : (before ++ u :: between).find? (·.sameConstant v) = some u := by
      rw [List.find?_append]
      cases hbefore : before.find? (·.sameConstant v) with
      | none => rw [Option.none_or, List.find?_cons, hzero.sameConstant]
      | some y =>
        have hsame : y.sameConstant v := by simpa using List.find?_some hbefore
        rcases eq_or_otherZero hsame with rfl | hy
        · exact absurd (List.mem_of_find?_eq_some hbefore) hnot
        · rw [hy.unique hzero, Option.some_or]
    rw [hfind] at hfirst
    exact hzero.ne hfirst
  · intro h
    cases hfind : vs.find? (·.sameConstant v) with
    | none => rfl
    | some u =>
      obtain ⟨hsame, before, between, rfl, hbefore⟩ := List.find?_eq_some_iff_append.mp hfind
      rcases eq_or_otherZero hsame with rfl | hzero
      · rfl
      · refine absurd ⟨u, before, between, rfl, hzero, fun hmem => ?_⟩ h
        have := hbefore v hmem
        rw [hzero.sameConstant_self] at this
        cases this

end Value

theorem Pool.entry_const (before later : List PoolRequest) (v : Value) :
    (ofRequests (before ++ .const v :: later)).consts[((ofRequests before).addConst v).1]? =
      some (((before.filterMap (·.const?)).find? (·.sameConstant v)).getD v) := by
  have hplace : ((ofRequests before).addConst v).1 =
      (enter Value.sameConstant (ofRequests before).consts v).1 := rfl
  rw [hplace, consts_ofRequests, consts_ofRequests, List.filterMap_append]
  exact entry_enterAll Value.sameConstant_trans _ _ v

/-- Lowering does nothing to the pool of a unit but ask it for places, and no place ever changes its
constant. The place that a constant is given holds it, or else the other zero; a run tells the two
apart unless they are the same. They are the same just if the other zero was not asked for before
this one was. -/
theorem constants_keep_value (before later : List PoolRequest) (v : Value) :
    (∀ (types : TypeTable) (m : Bound.Module) (u : CompiledUnit),
      CompiledUnit.ofModule types m = .ok u → ∃ rs, u.pool = Pool.ofRequests rs) ∧
    (∀ (i : Nat) (w : Value), (Pool.ofRequests before).consts[i]? = some w →
      (Pool.ofRequests (before ++ later)).consts[i]? = some w) ∧
    ∃ w,
      (Pool.ofRequests (before ++ .const v :: later)).consts[
        ((Pool.ofRequests before).addConst v).1]? = some w ∧
      (w = v ∨ w.OtherZero v) ∧ (w.Indistinct v ↔ w = v) ∧
      (w = v ↔ ¬ v.Preempted (before.filterMap (·.const?))) := by
  refine ⟨fun types m u => CompiledUnit.pool_ofModule,
    fun i w h => Pool.getElem?_consts_append h later, ?_⟩
  let vs := before.filterMap (·.const?)
  let w := (vs.find? (·.sameConstant v)).getD v
  have hentry := Pool.entry_const before later v
  have hzero : w = v ∨ w.OtherZero v := Value.first_eq_or_otherZero vs v
  have hindistinct : w.Indistinct v ↔ w = v :=
    ⟨fun h => hzero.resolve_right fun hother => hother.print_ne h.print, fun h => h ▸ .refl w⟩
  exact ⟨w, hentry, hzero, hindistinct, Value.first_eq_iff_not_preempted vs v⟩

/-- A negative zero that is asked for behind a positive one gets the place of that one, which is
printed without a sign. -/
theorem constant_loses_sign :
    let asked : List PoolRequest := [.const (.real 0.0)]
    ((Pool.ofRequests asked).addConst (.real (-0.0))).1 = 0 ∧
      (Pool.ofRequests (asked ++ [.const (.real (-0.0))])).consts[0]?.map Value.print =
        some (utf8 "0") ∧
      (Value.real (-0.0)).print = utf8 "-0" := by
  decide +kernel

namespace Shape

variable {s s' e e' : Shape} {n n' : Int}

/-- Neither unknown nor an array of what has no shape. -/
def Solid : Shape → Prop
  | array _ e => e.Solid
  | hollow _ | unknown _ => False
  | _ => True

/-! ## Texts of shapes -/

theorem toList_signedDecimal (n : Int) :
    (signedDecimal n).toList = (if n < 0 then ['-'] else []) ++ Nat.toDigits 10 n.natAbs := by
  unfold signedDecimal
  split <;> simp [toList_decimal]

theorem not_mem_signedDecimal {c : Char} (hc : c.isDigit = false) (hsign : c ≠ '-') (n : Int) :
    c ∉ (signedDecimal n).toList := by
  rw [toList_signedDecimal, List.mem_append, not_or]
  refine ⟨?_, not_mem_digits hc _⟩
  split <;> simp [hsign]

theorem signedDecimal_inj (h : (signedDecimal n).toList = (signedDecimal n').toList) : n = n' := by
  have hsign : ∀ m : Nat, '-' ∉ Nat.toDigits 10 m := not_mem_digits rfl
  have hne : ∀ m m' : Nat, '-' :: Nat.toDigits 10 m ≠ Nat.toDigits 10 m' :=
    fun m m' heq => hsign m' (heq ▸ List.mem_cons_self)
  rw [toList_signedDecimal, toList_signedDecimal] at h
  split at h <;> split at h
  · have := decimal_inj (List.append_cancel_left h)
    omega
  · exact absurd h (hne _ _)
  · exact absurd h.symm (hne _ _)
  · have := decimal_inj h
    omega

theorem toList_render_array (n : Int) (e : Shape) :
    (array n e).render.toList = '[' :: ((signedDecimal n).toList ++ ']' :: e.render.toList) := by
  simp [render, String.toList_append]

/-- Only the text of an array starts with a bracket. -/
theorem render_ne_array (hs : ∀ m f, s ≠ array m f) (hsolid : s.Solid) (n : Int) (e : Shape) :
    s.render ≠ (array n e).render := by
  intro h
  have hhead := congrArg (fun t : String => t.toList.head?) h
  simp only [toList_render_array, List.head?_cons] at hhead
  cases s with
  | array m f => exact hs m f rfl
  | hollow m | unknown m => exact hsolid
  | _ => simp [render] at hhead

theorem render_inj (hs : s.Solid) (hs' : s'.Solid) : s.render = s'.render ↔ s = s' := by
  refine ⟨fun h => ?_, congrArg render⟩
  induction s generalizing s' with
  | array n e ih =>
    cases s' with
    | array n' e' =>
      rw [← String.toList_inj, toList_render_array, toList_render_array] at h
      have hmark : ∀ m, ']' ∉ (signedDecimal m).toList := not_mem_signedDecimal rfl (by decide)
      obtain ⟨hlength, -, helem⟩ := cut_inj (hmark n) (hmark n') (List.cons_eq_cons.mp h).2
      have hs' : e'.Solid := hs'
      rw [signedDecimal_inj hlength, ih hs hs' (String.toList_inj.mp helem)]
    | _ => exact absurd h.symm (render_ne_array (by simp) hs' n e)
  | hollow n | unknown n => exact hs.elim
  | _ =>
    cases s' with
    | array n e => exact absurd h (render_ne_array (by simp) hs n e)
    | hollow n | unknown n => exact hs'.elim
    | _ => simp_all [render]

end Shape

/-! ## Shapes of types -/

/-- A shape that a slot of some type has. -/
def Shape.OfSlot (s : Shape) : Prop := ∃ (t : TypeTable) (id : TypeId), t.slotShape id = .ok s

theorem Shape.OfSlot.solid {s : Shape} (h : s.OfSlot) : s.Solid := by
  obtain ⟨t, id, h⟩ := h
  unfold TypeTable.slotShape at h
  generalize t.shapes.size + 1 = fuel at h
  induction fuel generalizing id s with
  | zero => cases h
  | succ fuel ih =>
    unfold TypeTable.slotShapeFrom at h
    split at h
    case h_1 => cases h
    case h_8 =>
      obtain ⟨e, he, h⟩ := except_bind_ok h
      cases h
      have hsolid : e.Solid := ih _ he
      exact hsolid
    all_goals
      cases h
      trivial

theorem Pool.entry_shape (before later : List PoolRequest) (s : Shape) :
    (ofRequests (before ++ .shape s :: later)).shapes[((ofRequests before).addShape s).1]? =
      some (((before.filterMap (·.shape?)).find? (sameShape · s)).getD s) := by
  have htrans : ∀ a b c, sameShape a b → sameShape b c → sameShape a c := by
    simp only [sameShape, beq_iff_eq]
    exact fun a b c => Eq.trans
  have hplace : ((ofRequests before).addShape s).1 =
      (enter sameShape (ofRequests before).shapes s).1 := rfl
  rw [hplace, shapes_ofRequests, shapes_ofRequests, List.filterMap_append]
  exact entry_enterAll htrans _ _ s

/-- The shapes of slots have different texts just if they are different. Where a pool is asked for
no other shapes, the place that it gives a shape holds this shape from then on, whatever it is asked
for later. -/
theorem shapes_keep_structure :
    (∀ s s' : Shape, s.OfSlot → s'.OfSlot → (s.render = s'.render ↔ s = s')) ∧
    ∀ (before later : List PoolRequest) (s : Shape),
      (∀ s' : Shape, .shape s' ∈ before ++ [.shape s] → s'.OfSlot) →
      (Pool.ofRequests (before ++ .shape s :: later)).shapes[
        ((Pool.ofRequests before).addShape s).1]? = some s := by
  refine ⟨fun s s' hs hs' => Shape.render_inj hs.solid hs'.solid, fun before later s hslots => ?_⟩
  let ss := before.filterMap (·.shape?)
  refine (Pool.entry_shape before later s).trans (congrArg some ?_)
  cases hfind : ss.find? (Pool.sameShape · s) with
  | none => rfl
  | some s' =>
    obtain ⟨r, hr, hs'⟩ := List.mem_filterMap.mp (List.mem_of_find?_eq_some hfind)
    obtain rfl : r = .shape s' := by
      cases r <;> simp_all [PoolRequest.shape?]
    have hsame : s'.render = s.render := by
      simpa [Pool.sameShape] using List.find?_some hfind
    exact (Shape.render_inj (hslots s' (by simp [hr])).solid (hslots s (by simp)).solid).mp hsame

/-- Three rows of four integers, and one row of thirty-four. -/
def rowsAndRow : TypeTable :=
  let rows := ((TypeTable.empty.array TypeTable.integer 4).2.array 8 3).2
  (rows.array TypeTable.integer 34).2

/-- The lengths of nested rows are not read as one. -/
theorem shapes_keep_structure_rows :
    let rows : Shape := .array 3 (.array 4 .int)
    let row : Shape := .array 34 .int
    rows.OfSlot ∧ row.OfSlot ∧ rows.render ≠ row.render ∧
      (Pool.ofRequests [.shape rows, .native "writeln", .shape row, .shape .int]).shapes[
        ((Pool.ofRequests [.shape rows, .native "writeln"]).addShape row).1]? = some row := by
  intro rows row
  have hrows : rows.OfSlot := ⟨rowsAndRow, 9, by cbv⟩
  have hrow : row.OfSlot := ⟨rowsAndRow, 10, by cbv⟩
  obtain ⟨htext, hplace⟩ := shapes_keep_structure
  refine ⟨hrows, hrow, fun h => absurd ((htext rows row hrows hrow).mp h) (by decide), ?_⟩
  refine hplace [.shape rows, .native "writeln"] [.shape .int] row fun s hs => ?_
  simp only [List.cons_append, List.nil_append, List.mem_cons, List.not_mem_nil, or_false,
    PoolRequest.shape.injEq, reduceCtorEq, false_or] at hs
  obtain rfl | rfl := hs
  · exact hrows
  · exact hrow

end Pascaline
