import Pascaline.Proofs.Machine.Path
import Pascaline.Proofs.Typing.Frames

/-!
# Typed instructions

What an instruction of typed code makes of typed operands. It finds all that it needs, and what it
leaves has the types that the next instruction expects.
-/

namespace Pascaline

open TypeTable

variable {W : World} {p : Program} {vars : List (List TypeId)} {x : Stance} {tags : List TypeId}
  {ts as : List TypeId} {a b e : TypeId} {v : Value} {vs : List Value} {sig : Signature}
  {Q : Referents → Machine → Prop} {n k : Int} {pos : Nat}

namespace Exec

open Machine

/-! ## Parts of instructions -/

theorem entry_of_listed {α : Type} {xs : Array α} {i : Int} {y : α} (h : Listed xs.toList i y) :
    entry xs i = pure y := by
  obtain ⟨k, rfl, hk⟩ := h
  exact Site.entry_eq (by rwa [Array.getElem?_toList] at hk)

theorem check_keeps {o : Value.Outcome} (ho : ∀ S, List.Forall₂ (W.types.Has S) as vs →
      o = .error .divisionByZero ∨ ∃ v, o = .ok v ∧ W.types.Has S a v) :
    Triple (Keeps W Q tags [] as vs) (check o) (fun v => Keeps W Q tags [] [a] [v]) Harmless := by
  rintro m ⟨tags', htags, hh, hq, hvs⟩
  rcases ho _ hvs with rfl | ⟨v, rfl, hv⟩
  · exact harmless_raise rfl m m
  · exact ⟨tags', htags, hh, hq, .cons hv .nil⟩

theorem array_keeps (ha : W.types.Refers a e) :
    Triple (Keeps W Q tags [] (a :: as) (v :: vs)) (array v)
      (fun r m => Keeps W (fun S m => Q S m ∧ ∀ w ∈ r.2.elems, W.types.Has S e w) tags []
        (a :: as) (.ref r.1 :: vs) m ∧ r.1 ≠ 0) Harmless := by
  rintro m ⟨tags', htags, hh, hq, hvs⟩
  have hv := (List.forall₂_cons.mp hvs).1
  obtain ⟨j, rfl⟩ := ha.exists_ref hv
  cases j with
  | zero => exact harmless_raise rfl m m
  | succ j =>
    obtain ⟨c, hc, he⟩ := ha.cell hv (Nat.succ_ne_zero j)
    have harray : array (.ref (j + 1)) m = .ok (j + 1, c) m := by
      unfold array
      simp only [get_bind, hc, hh.array _ c hc]
      rfl
    rw [harray]
    exact ⟨⟨tags', htags, hh, ⟨hq, hh.elems _ c e hc he (by simp)⟩, hvs⟩, Nat.succ_ne_zero j⟩

theorem index_keeps (n : Int64) (length : Nat) {P : Machine → Prop} :
    Triple P (index (.int n) length) (fun k m => P m ∧ k < length) Harmless := by
  refine Triple.ite (fun _ => Triple.raise fun m _ => harmless_raise rfl m m) fun hn => ?_
  refine Triple.pure fun m hm => ⟨hm, ?_⟩
  simp only [Bool.or_eq_true, decide_eq_true_eq, not_or, not_le] at hn
  have hpos : 0 < length := by
    have hge : 0 ≤ n.toInt := Int64.le_iff_toInt_le.mp (Int64.not_lt.mp hn.1)
    omega
  omega

theorem write_keeps (hQ : Lasting W Q) (ha : W.types.Refers a e) {j i : Nat} (hj : j ≠ 0) :
    Triple (Keeps W Q tags [] (e :: a :: as) (v :: .ref j :: vs))
      (modify fun m => { m with heap := m.heap.write j i v }) (fun _ => Keeps W Q tags [] as vs)
      Harmless := by
  refine Triple.modify ?_
  rintro m ⟨tags', htags, hh, hq, hvs⟩
  obtain ⟨hv, hvs⟩ := List.forall₂_cons.mp hvs
  obtain ⟨hj', hvs⟩ := List.forall₂_cons.mp hvs
  have hle := Heap.referents_le (W := W) (List.prefix_refl tags')
    (Heap.grows_update m.heap j (f := fun c => { c with elems := c.elems.set! i v }) fun _ => rfl)
  refine ⟨tags', htags, (hh.weaken j).update (fun _ => rfl) (fun _ => rfl) fun c e' hc he' w hw => ?_,
    hQ.spares (hQ.same hq rfl rfl rfl) fun _ _ a hv => hv.mono (.refl _) hle,
    hvs.imp fun _ _ hv => hv.mono (.refl _) hle⟩
  obtain ⟨c', hc', hcell⟩ := ha.cell hj' hj
  cases hc.symm.trans hc'
  cases he'.symm.trans hcell
  rw [Array.set!_eq_setIfInBounds] at hw
  rcases Array.mem_or_eq_of_mem_setIfInBounds hw with hw | rfl
  · exact hh.elems j c e hc he' (by simp) w hw
  · exact hv

/-! ## Instructions inside a block -/

/-- From operands of the types `ts` the instruction makes operands of the types `us`. -/
def Retypes (W : World) (p : Program) (vars : List (List TypeId)) (x : Stance) (tags : List TypeId)
    (i : Instr) (ts us : List TypeId) : Prop :=
  Triple (Keeps W (Busy W p vars x ts) tags [] [] []) (instr p x.unit i)
    (fun _ => Keeps W (Busy W p vars x us) tags [] [] []) Harmless

theorem retypes_const (hv : Listed x.unit.unit.pool.consts.toList n v) (ha : W.types.Has .none a v) :
    Retypes W p vars x tags ⟨.const, n, k, pos⟩ ts (a :: ts) := by
  change Triple _ (entry _ _ >>= push) _ _
  rw [entry_of_listed hv]
  exact push_busy.pre fun m hm => hm.take fun _ _ => ha.mono (.refl _) (Referents.none_le _)

theorem retypes_pop : Retypes W p vars x tags ⟨.pop, n, k, pos⟩ (a :: ts) ts := by
  change Triple _ (discard pop) _ _
  exact Triple.discard (pop_busy.post fun v m hm => hm.drop)

theorem retypes_dup : Retypes W p vars x tags ⟨.dup, n, k, pos⟩ (a :: ts) (a :: a :: ts) := by
  change Triple _ (peek >>= push) _ _
  exact Triple.bind peek_busy fun v => push_busy

theorem retypes_loadLocal (ha : Listed x.chart.slots n a) :
    Retypes W p vars x tags ⟨.loadLocal, n, k, pos⟩ ts (a :: ts) := by
  change Triple _ (top >>= fun f => entry f.locals n >>= push) _ _
  refine Triple.bind top_busy fun f => Triple.bind (entry_keeps ha fun S m hq => hq.2.locals) fun v => ?_
  exact push_busy.pre fun m hm => hm.imp fun S hq _ => hq.1

theorem retypes_storeLocal (hb : Listed x.chart.slots n b) (hfits : W.types.Fits a b) :
    Retypes W p vars x tags ⟨.storeLocal, n, k, pos⟩ (a :: ts) ts := by
  change Triple _ (pop >>= fun v => top >>= fun f => discard (entry f.locals n) >>= fun _ =>
    modifyTop fun f => { f with locals := f.locals.set! n.toNat v }) _ _
  refine Triple.bind pop_busy fun v => Triple.bind top_busy fun f => ?_
  refine Triple.bind (R := fun _ => Keeps W (Busy W p vars x ts) tags [] [a] [v])
    (Triple.discard ((entry_keeps hb fun S m hq => hq.2.locals).post fun _ m hm =>
      (hm.imp fun S hq _ => hq.1).drop)) fun _ => ?_
  obtain ⟨j, rfl, hj⟩ := hb
  refine (modifyTop_busy (y := x) rfl fun S f hf hvs => ?_).post fun _ m hm => hm.drop
  have hv := (List.forall₂_cons.mp hvs).1.fits hfits
  refine ⟨hf.follows, hf.unit, hf.routine, hf.block, hf.ip, ?_, hf.operands⟩
  rw [Array.set!_eq_setIfInBounds, Array.toList_setIfInBounds]
  exact forall₂_set_right hf.locals hj hv

theorem retypes_loadGlobal {place : Nat × Nat} (hplace : Listed x.unit.globals.toList n place)
    (ha : (vars[place.1]?).bind (·[place.2]?) = some a) :
    Retypes W p vars x tags ⟨.loadGlobal, n, k, pos⟩ ts (a :: ts) := by
  change Triple _ (entry x.unit.globals n >>= fun place => get >>= fun m =>
    expect ((m.globals[place.1]?).bind (·[place.2]?)) >>= push) _ _
  rw [entry_of_listed hplace, pure_bind]
  refine Triple.bind Triple.get fun m₁ => Triple.bind
    (Triple.expect fun m _ => harmless_breakdown m) fun v => push_busy.pre ?_
  rintro m ⟨⟨rfl, hm⟩, hv⟩
  refine hm.take fun _ hq => ?_
  obtain ⟨bs, hbs, ha⟩ := Option.bind_eq_some_iff.mp ha
  obtain ⟨g, hg, hv⟩ := Option.bind_eq_some_iff.mp hv
  have hglobals := forall₂_getElem? hq.1.globals place.1
  rw [hbs, Array.getElem?_toList, hg] at hglobals
  cases hglobals with
  | some hslots =>
    have hslot := forall₂_getElem? hslots place.2
    rw [ha, Array.getElem?_toList, hv] at hslot
    cases hslot with
    | some hv => exact hv

theorem retypes_storeGlobal {place : Nat × Nat} (hplace : Listed x.unit.globals.toList n place)
    (hb : (vars[place.1]?).bind (·[place.2]?) = some b) (hfits : W.types.Fits a b) :
    Retypes W p vars x tags ⟨.storeGlobal, n, k, pos⟩ (a :: ts) ts := by
  change Triple _ (entry x.unit.globals n >>= fun place => pop >>= fun v => modify fun m =>
    { m with globals := m.globals.modify place.1 (·.set! place.2 v) }) _ _
  rw [entry_of_listed hplace, pure_bind]
  refine Triple.bind pop_busy fun v => Triple.modify ?_
  rintro m ⟨tags', htags, hh, ⟨hst, f, rest, hframes, hf, hrest⟩, hvs⟩
  refine ⟨tags', htags, hh, ⟨⟨?_, hst.pending⟩, f, rest, hframes, hf, hrest⟩, .nil⟩
  obtain ⟨bs, hbs, hb⟩ := Option.bind_eq_some_iff.mp hb
  rw [Array.toList_modify]
  refine forall₂_modify_right hst.globals hbs fun g hg => ?_
  rw [Array.set!_eq_setIfInBounds, Array.toList_setIfInBounds]
  exact forall₂_set_right hg hb ((List.forall₂_cons.mp hvs).1.fits hfits)

theorem retypes_loadElem (hW : W.types.Sound) (ha : W.types.Refers a e) :
    Retypes W p vars x tags ⟨.loadElem, n, k, pos⟩ (integer :: a :: ts) (e :: ts) := by
  change Triple _ (pop >>= fun k => pop >>= fun v => array v >>= fun r =>
    index k r.2.elems.size >>= fun k => push (r.2.elems.getD k .invalid)) _ _
  refine Triple.bind pop_busy fun k => Triple.fact (fun m hm => hm.has) fun ⟨_, _, hk⟩ => ?_
  obtain ⟨k, rfl⟩ := hW.has_integer.mp hk
  refine Triple.bind pop_busy fun v => Triple.bind (array_keeps ha) fun r => ?_
  refine Triple.bind (index_keeps k _) fun i => push_busy.pre ?_
  rintro m ⟨⟨hm, -⟩, hi⟩
  refine (hm.take fun _ hq => hq.2 _ ?_).only.imp fun S hq _ => hq.1
  rw [Array.getD_eq_getD_getElem?, Array.getElem?_eq_getElem hi]
  exact Array.getElem_mem hi

theorem retypes_storeElem (hW : W.types.Sound) (ha : W.types.Refers a e) (hfits : W.types.Fits b e) :
    Retypes W p vars x tags ⟨.storeElem, n, k, pos⟩ (b :: integer :: a :: ts) ts := by
  change Triple _ (pop >>= fun v => pop >>= fun k => pop >>= fun w => array w >>= fun r =>
    index k r.2.elems.size >>= fun k =>
      modify fun m => { m with heap := m.heap.write r.1 k v }) _ _
  refine Triple.bind pop_busy fun v => Triple.bind pop_busy fun k => ?_
  refine Triple.fact (fun m hm => hm.has) fun ⟨_, _, hk⟩ => ?_
  obtain ⟨k, rfl⟩ := hW.has_integer.mp hk
  refine Triple.bind pop_busy fun w => Triple.bind (array_keeps ha) fun r => ?_
  refine Triple.fact (fun m hm => hm.2) fun hr => Triple.bind (index_keeps k _) fun i => ?_
  refine (write_keeps lasting_busy ha hr).pre ?_
  rintro m ⟨⟨hm, -⟩, -⟩
  refine (hm.hands fun S _ hvs => ?_).imp fun S hq _ => hq.1
  obtain ⟨hw, hvs⟩ := List.forall₂_cons.mp hvs
  exact .cons ((List.forall₂_cons.mp (List.forall₂_cons.mp hvs).2).1.fits hfits) (.cons hw .nil)

theorem retypes_loadChar (hW : W.types.Sound) :
    Retypes W p vars x tags ⟨.loadChar, n, k, pos⟩ (integer :: string :: ts) (char :: ts) := by
  change Triple _ (pop >>= fun k => pop >>= fun v => _) _ _
  refine Triple.bind pop_busy fun k => Triple.fact (fun m hm => hm.has) fun ⟨_, _, hk⟩ => ?_
  obtain ⟨k, rfl⟩ := hW.has_integer.mp hk
  refine Triple.bind pop_busy fun v => Triple.fact (fun m hm => hm.has) fun ⟨_, _, hv⟩ => ?_
  obtain ⟨s, rfl⟩ := hW.has_string.mp hv
  refine Triple.bind (index_keeps k _) fun i => push_busy.pre ?_
  rintro m ⟨hm, -⟩
  exact (hm.take fun _ _ => hW.has_char.mpr ⟨_, rfl⟩).only

theorem retypes_binary (hW : W.types.Sound) {o : Bound.BinaryOp} {r : TypeId} (ho : o.Types a b r) :
    Retypes W p vars x tags ⟨Lower.binaryOp o, n, k, pos⟩ (b :: a :: ts) (r :: ts) := by
  have hinstr : instr p x.unit ⟨Lower.binaryOp o, n, k, pos⟩ =
      pop >>= fun w => pop >>= fun v => check (o.apply v w) >>= push := by
    cases o <;> rfl
  unfold Retypes
  rw [hinstr]
  refine Triple.bind pop_busy fun w => Triple.bind pop_busy fun v => ?_
  refine Triple.bind (check_keeps fun S hvs => ?_) fun _ => push_busy
  obtain ⟨hv, hvs⟩ := List.forall₂_cons.mp hvs
  exact ho.computes hW S v w hv (List.forall₂_cons.mp hvs).1

theorem unary_keeps {f : Value → Value.Outcome}
    (hf : ∀ S v, W.types.Has S a v → ∃ w, f v = .ok w ∧ W.types.Has S a w) :
    Triple (Keeps W (Busy W p vars x (a :: ts)) tags [] [] []) (pop >>= fun v => check (f v) >>= push)
      (fun _ => Keeps W (Busy W p vars x (a :: ts)) tags [] [] []) Harmless :=
  Triple.bind pop_busy fun v => Triple.bind
    (check_keeps fun S hvs => .inr (hf S v (List.forall₂_cons.mp hvs).1)) fun _ => push_busy

theorem retypes_neg (hW : W.types.Sound) (ho : Bound.UnaryOp.neg.Types a) :
    Retypes W p vars x tags ⟨.neg, n, k, pos⟩ (a :: ts) (a :: ts) :=
  unary_keeps fun _ _ hv => ho.apply hW hv

theorem retypes_not (hW : W.types.Sound) (ho : Bound.UnaryOp.not.Types a) :
    Retypes W p vars x tags ⟨.not, n, k, pos⟩ (a :: ts) (a :: ts) :=
  unary_keeps fun _ _ hv => ho.apply hW hv

theorem ordinal_cases (hW : W.types.Sound) (ha : Bound.Ordinal a) {S : Referents}
    (hv : W.types.Has S a v) {f : Int64 → Int64} {g : Value → Value.Outcome}
    (hbool : ∀ n, g (.bool n) = .ok (.bool (f n))) (hint : ∀ n, g (.int n) = .ok (.int (f n)))
    (hchar : ∀ n, g (.char n) = .ok (.char (f n))) : ∃ w, g v = .ok w ∧ W.types.Has S a w := by
  rcases ha with rfl | rfl | rfl
  · obtain ⟨n, rfl⟩ := hW.has_boolean.mp hv
    exact ⟨_, hbool n, hW.has_boolean.mpr ⟨_, rfl⟩⟩
  · obtain ⟨n, rfl⟩ := hW.has_integer.mp hv
    exact ⟨_, hint n, hW.has_integer.mpr ⟨_, rfl⟩⟩
  · obtain ⟨n, rfl⟩ := hW.has_char.mp hv
    exact ⟨_, hchar n, hW.has_char.mpr ⟨_, rfl⟩⟩

theorem retypes_succ (hW : W.types.Sound) (ha : Bound.Ordinal a) :
    Retypes W p vars x tags ⟨.succ, n, k, pos⟩ (a :: ts) (a :: ts) :=
  unary_keeps fun _ _ hv => ordinal_cases hW ha hv (f := (· + 1)) (fun _ => rfl) (fun _ => rfl)
    fun _ => rfl

theorem retypes_pred (hW : W.types.Sound) (ha : Bound.Ordinal a) :
    Retypes W p vars x tags ⟨.pred, n, k, pos⟩ (a :: ts) (a :: ts) :=
  unary_keeps fun _ _ hv => ordinal_cases hW ha hv (f := (· - 1)) (fun _ => rfl) (fun _ => rfl)
    fun _ => rfl

theorem retypes_intToReal (hW : W.types.Sound) :
    Retypes W p vars x tags ⟨.intToReal, n, k, pos⟩ (integer :: ts) (real :: ts) := by
  change Triple _ (pop >>= fun v => push (.real v.asReal)) _ _
  refine Triple.bind pop_busy fun v => push_busy.pre fun m hm => ?_
  exact hm.swap fun S _ => hW.has_real.mpr ⟨_, rfl⟩

theorem retypes_charToString (hW : W.types.Sound) :
    Retypes W p vars x tags ⟨.charToString, n, k, pos⟩ (char :: ts) (string :: ts) := by
  change Triple _ (pop >>= fun v => _) _ _
  refine Triple.bind pop_busy fun v => Triple.fact (fun m hm => hm.has) fun ⟨_, _, hv⟩ => ?_
  obtain ⟨n, rfl⟩ := hW.has_char.mp hv
  exact push_busy.pre fun m hm => hm.swap fun S _ => hW.has_string.mpr ⟨_, rfl⟩

theorem retypes_routine (hp : p.Typed W vars) (hu : x.unit ∈ p.units) {ref : RoutineRef}
    (href : Listed x.unit.unit.pool.calls.toList n ref) (hsig : W.routine ref sig)
    (ha : W.types.shape? a = some (.routine sig)) :
    Retypes W p vars x tags ⟨.routine, n, k, pos⟩ ts (a :: ts) := by
  obtain ⟨c, hc, hindex, -, hname⟩ := hp.calls _ hu n ref sig href hsig
  change Triple _ (entry x.unit.calls n >>= fun c => push
    (.routine (((p.units[c.unit]?).map (·.unit.name)).getD "") (Int64.ofInt c.index))) _ _
  rw [entry_of_listed hc, pure_bind, hname, hindex]
  refine push_busy.pre fun m hm => hm.take fun tags' _ => ⟨_, ha, .routine ?_⟩
  show W.routine ⟨ref.module, _⟩ sig
  rw [(hp.routines ref sig hsig).1]
  exact hsig

/-! ## Allocation -/

/-- On top of the operand stack lies a new array of elements of this shape. -/
def Tops (W : World) (s : Shape) (S : Referents) (m : Machine) : Prop :=
  ∃ k e, m.top? = some (.ref k) ∧ S.cell k e ∧ W.types.Stored e s

theorem push_tops {s : Shape} (ha : W.types.Refers a e) (he : W.types.Stored e s) (hv : v ≠ .nil) :
    Triple (Keeps W (Busy W p vars x ts) tags [] [a] [v]) (push v)
      (fun _ => Keeps W (fun S m => Busy W p vars x (a :: ts) S m ∧ Tops W s S m) tags [] [] [])
      Harmless := by
  refine push_top.post fun _ m hm => (hm.imp fun S hq hvs => ⟨hq.1, ?_⟩).drop
  obtain ⟨j, rfl⟩ := ha.exists_ref (List.forall₂_cons.mp hvs).1
  refine ⟨j, e, hq.2, ha.cell (List.forall₂_cons.mp hvs).1 ?_, he⟩
  rintro rfl
  exact hv rfl

theorem newArray_tops (hp : p.Typed W vars) {s : Shape}
    (hs : Listed x.unit.unit.pool.shapes.toList n s) (he : W.types.Stored e s)
    (ha : W.types.shape? a = some (.array e none)) :
    Triple (Keeps W (Busy W p vars x (integer :: ts)) tags [] [] [])
      (instr p x.unit ⟨.newArray, n, k, pos⟩)
      (fun _ => Keeps W (fun S m => Busy W p vars x (a :: ts) S m ∧ Tops W s S m) tags [] [] [])
      Harmless := by
  have hW := hp.plain
  change Triple _ (entry x.unit.unit.pool.shapes n >>= fun elem => peek >>= fun v => _) _ _
  rw [entry_of_listed hs, pure_bind]
  refine Triple.bind peek_busy fun v => Triple.fact (fun m hm => hm.has) fun ⟨_, _, hv⟩ => ?_
  obtain ⟨l, rfl⟩ := hW.has_integer.mp hv
  refine Triple.unless (fun _ m _ => harmless_raise rfl m m) fun _ => ?_
  refine Triple.bind Triple.get fun _ => Triple.unless (fun _ m _ => harmless_raise rfl m m) fun _ => ?_
  refine Triple.bind ((reserve_keeps lasting_busy _).pre fun m hm => hm.2.drop) fun _ => ?_
  refine Triple.bind (R := fun _ => Keeps W (Busy W p vars x ts) tags [] [] [])
    (Triple.discard (pop_busy.post fun _ m hm => hm.drop)) fun _ => ?_
  refine Triple.bind (zero_array_keeps lasting_busy he (.inl ⟨_, ha⟩) fun _ _ _ =>
    zero_keeps hW lasting_busy he) fun v => Triple.fact (fun m hm => hm.2) fun hv => ?_
  exact (push_tops (.inl ⟨_, ha⟩) he hv).pre fun m hm => hm.1

theorem newCell_tops (hp : p.Typed W vars) {s : Shape}
    (hs : Listed x.unit.unit.pool.shapes.toList n s) (he : W.types.Stored e s)
    (ha : W.types.shape? a = some (.pointer e)) :
    Triple (Keeps W (Busy W p vars x ts) tags [] [] []) (instr p x.unit ⟨.newCell, n, k, pos⟩)
      (fun _ => Keeps W (fun S m => Busy W p vars x (a :: ts) S m ∧ Tops W s S m) tags [] [] [])
      Harmless := by
  have hW := hp.plain
  change Triple _ (entry x.unit.unit.pool.shapes n >>= fun elem =>
    reserve (Shape.array 1 elem).words >>= fun _ => zero (.array 1 elem) >>= push) _ _
  rw [entry_of_listed hs, pure_bind]
  refine Triple.bind (reserve_keeps lasting_busy _) fun _ => ?_
  refine Triple.bind (zero_array_keeps lasting_busy he (.inr ha) fun _ _ _ =>
    zero_keeps hW lasting_busy he) fun v => Triple.fact (fun m hm => hm.2) fun hv => ?_
  exact (push_tops (.inr ha) he hv).pre fun m hm => hm.1

/-! ## Calls -/

theorem frameWords_keeps {P : Machine → Prop} (r : Routine) :
    Triple P (frameWords r) (fun _ => P) Harmless := by
  refine Triple.ite (fun _ => Triple.breakdown fun m _ => harmless_breakdown m) fun _ => ?_
  exact Triple.ite (fun _ => Triple.pure fun m hm => hm) fun _ => Triple.pure fun m hm => hm

theorem enter_keeps (hp : p.Typed W vars) {c : Callee} {args : List Value} (hc : c.Runs W p sig) :
    Triple (Keeps W (Calling W p vars sig) tags [] sig.params args) (enter p c args)
      (fun _ => Keeps W (Running W p vars) tags [] [] []) Harmless := by
  obtain ⟨u, hu, -, chart, stack, hcode⟩ := hc
  have hhere : stack 0 0 = [] := (hcode.covers.entry hcode.covers.start).1
  have hready := (hcode.covers.entry hcode.covers.start).2
  refine Triple.fact (p := sig.params.length = args.length)
    (fun m ⟨_, _, _, _, hvs⟩ => hvs.length_eq) fun hlength => ?_
  refine Triple.bind Triple.get fun m₁ => Triple.unless (fun _ m _ => harmless_raise rfl m m) fun _ => ?_
  have hcount : ¬(args.length : Int) ≠ c.routine.params := by
    rw [hcode.params, hlength]
    exact fun h => h rfl
  dsimp only
  rw [if_neg hcount]
  refine Triple.unlessBroken (fun _ m _ => harmless_breakdown m) fun _ => ?_
  have hown : List.Forall₂ W.types.Stored (chart.slots.drop args.length) (ownShapes c.routine) := by
    have hdrop := List.forall₂_drop args.length hcode.stored
    rwa [ownShapes, hcode.params, hlength, Int.toNat_natCast]
  refine Triple.bind ((zeroAll_keeps hp.plain lasting_calling hown).pre fun m hm => hm.2) fun own => ?_
  refine Triple.bind (R := fun _ => Keeps W (Running W p vars) tags [] [] []) (Triple.modify ?_)
    fun _ => log_keeps lasting_running _
  rintro m ⟨⟨tags', htags, hh, ⟨hst, hwaits⟩, hvs⟩, hownLength⟩
  obtain ⟨hown, hargs⟩ := (forall₂_append_iff hownLength).mp hvs
  refine ⟨tags', htags, hh, ⟨hst.same rfl rfl, ?_⟩, .nil⟩
  rintro f rest ⟨⟩
  refine ⟨⟨u, c.routine, sig, chart, stack, 0, 0⟩, ⟨hcode, hu, rfl, rfl, rfl, ?_, ?_⟩, hready, hwaits⟩
  · obtain ⟨more, hslots⟩ := hcode.slots
    have happend := List.rel_append hargs hown
    rw [hslots, List.append_assoc, ← hlength, List.drop_left] at happend
    rw [hslots, List.append_assoc]
    exact happend
  · show List.Forall₂ _ (stack 0 0) []
    rw [hhere]
    exact .nil

theorem call_keeps (hp : p.Typed W vars) {c : Callee} (hc : c.Runs W p sig) {args : List TypeId}
    (hargs : List.Forall₂ W.types.Fits args sig.params)
    (hhere : x.here = leftBy (Bound.Bind.callType sig) ++ ts) (hready : x.Ready) :
    Triple (Keeps W (Busy W p vars x (args.reverse ++ ts)) tags [] [] []) (call p c args.length)
      (fun _ => Keeps W (Running W p vars) tags [] [] []) Harmless := by
  unfold call
  refine Triple.bind Triple.get fun _ => Triple.unless (fun _ m _ => harmless_raise rfl m m) fun _ => ?_
  refine Triple.bind (top_busy.pre fun m hm => hm.2) fun f => ?_
  refine Triple.fact (p := args.length ≤ f.operands.length)
    (fun m ⟨_, _, _, hq, _⟩ => ?_) fun hlength => ?_
  · have hoperands := hq.2.operands.length_eq
    simp only [List.length_append, List.length_reverse] at hoperands
    omega
  rw [if_neg (by omega)]
  refine Triple.bind (frameWords_keeps _) fun words => ?_
  refine Triple.bind ((reserve_keeps lasting_busy words).pre fun m hm => hm.imp fun S hq _ => hq.1)
    fun _ => ?_
  refine Triple.bind (popMany_busy rfl) fun ws => ?_
  rw [List.append_nil, List.append_nil]
  refine Triple.bind ((setState_busy .suspended).pre fun m hm => hm.1) fun _ => ?_
  refine (enter_keeps hp hc).pre fun m hm => ?_
  refine (hm.hands fun S _ hvs => ?_).imp fun S hq _ => hq.calling hhere hready
  exact forall₂_join hargs hvs fun _ _ _ hfits hv => hv.fits hfits

theorem routineValue_keeps (hp : p.Typed W vars) {P : Machine → Prop} {tags' : List TypeId} {h : Heap}
    (ha : W.types.shape? a = some (.routine sig)) (hv : W.types.Has (h.referents W tags') a v)
    (hne : v ≠ .nil) :
    Triple P (routineValue p v) (fun c m => P m ∧ c.Runs W p sig) Harmless := by
  cases (has_iff ha).mp hv with
  | nil => exact absurd rfl hne
  | noRoutine sig i => exact Triple.raise fun m _ => harmless_raise rfl m m
  | @routine name i _ hsig =>
    by_cases hname : name = ""
    · subst hname
      exact Triple.raise fun m _ => harmless_raise rfl m m
    · obtain ⟨-, c, u, hu, hindex, hc⟩ := hp.routines _ _ hsig
      obtain ⟨lu, hlu, hroutine, hruns⟩ := hc
      rw [hindex] at hroutine
      obtain rfl : u = lu.unit := by
        obtain ⟨k, -, hk⟩ := Option.bind_eq_some_iff.mp hu
        obtain ⟨lu', hlu', heq⟩ := Option.map_eq_some_iff.mp hk
        cases heq
        exact congrArg (·.unit) (Option.some.inj (hlu'.symm.trans hlu))
      have hvalue : routineValue p (.routine name i) = pure ⟨c.unit, i.toInt, c.routine⟩ := by
        unfold routineValue
        split
        · rename_i heq
          cases heq
          exact absurd rfl hname
        · rename_i heq
          cases heq
          rw [hu]
          dsimp only
          rw [hroutine]
        · rename_i hnot
          exact absurd rfl (hnot _ _)
      rw [hvalue]
      exact Triple.pure fun m hm => ⟨hm, lu, hlu, hroutine, hruns⟩

theorem callIndirect_keeps (hp : p.Typed W vars) (ha : W.types.shape? a = some (.routine sig))
    {args : List TypeId} (hargs : List.Forall₂ W.types.Fits args sig.params)
    (hhere : x.here = leftBy (Bound.Bind.callType sig) ++ ts) (hready : x.Ready) :
    Triple (fun m => Keeps W (Busy W p vars x (args.reverse ++ a :: ts)) tags [] [] [] m ∧
        (m.frames.head?.bind (·.operands[args.length]?)) ≠ some .nil)
      (instr p x.unit ⟨.callIndirect, n, args.length, pos⟩)
      (fun _ => Keeps W (Running W p vars) tags [] [] []) Harmless := by
  rw [instr_eq_control p x.unit (by simp [Op.routineCalls])]
  unfold control
  dsimp only
  refine Triple.bind (Triple.top fun m _ => harmless_breakdown m) fun f => ?_
  refine Triple.fact (p := ∃ v tags' h, f.operands[args.length]? = some v ∧ v ≠ .nil ∧
    W.types.Has (Heap.referents W tags' h) a v) ?_ fun hfound => ?_
  · rintro m ⟨⟨⟨tags', -, -, ⟨-, g, rest, hframes, hg, -⟩, -⟩, hne⟩, hhead⟩
    rw [hframes] at hhead hne
    cases hhead
    have hrel := forall₂_getElem? hg.operands args.length
    rw [← List.length_reverse, List.getElem?_append_right (Nat.le_refl _), Nat.sub_self,
      List.length_reverse] at hrel
    generalize hw : f.operands[args.length]? = w at hrel
    cases hrel with
    | some hv =>
      refine ⟨_, tags', m.heap, rfl, ?_, hv⟩
      rintro rfl
      exact hne hw
  obtain ⟨v, tags', h, hf, hne, hv⟩ := hfound
  have hlt := (List.getElem?_eq_some_iff.mp hf).1
  rw [if_neg (by omega), if_neg (by omega), Int.toNat_natCast, List.getD_eq_getElem?_getD, hf]
  refine Triple.bind ((routineValue_keeps hp ha hv hne).pre fun m hm => hm.1.1) fun c => ?_
  refine Triple.fact (fun m hm => hm.2) fun hc => ?_
  refine Triple.bind (R := fun _ => Keeps W (Busy W p vars x (args.reverse ++ ts)) tags [] [] [])
    ((modifyTop_busy rfl fun S g hg _ => hg.operate ?_).pre fun m hm => hm.1) fun _ =>
      call_keeps hp hc hargs hhere hready
  have herase := forall₂_eraseIdx hg.operands args.length
  rwa [← List.length_reverse, List.eraseIdx_append_of_length_le (Nat.le_refl _), Nat.sub_self,
    List.eraseIdx_cons_zero, List.length_reverse] at herase

theorem push_running (hleft : leftBy (Bound.Bind.callType sig) = [a]) :
    Triple (Keeps W (Calling W p vars sig) tags [] [a] [v]) (push v)
      (fun _ => Keeps W (Running W p vars) tags [] [] []) Harmless := by
  refine Triple.modify ?_
  rintro m ⟨tags', htags, hh, ⟨hst, hwaits⟩, hvs⟩
  generalize hframes : m.frames = fs at hwaits
  cases hwaits with
  | nil =>
    dsimp only
    refine ⟨tags', htags, hh, ⟨hst, fun f rest h => ?_⟩, .nil⟩
    rw [hframes] at h
    cases h
  | @cons _ x ts g rest hg hhere hready hrest =>
    dsimp only
    refine ⟨tags', htags, hh, ⟨hst.same rfl rfl, ?_⟩, .nil⟩
    rintro f _ ⟨⟩
    refine ⟨x, hg.operate ?_, hready, hrest⟩
    rw [hhere, hleft]
    exact .cons (List.forall₂_cons.mp hvs).1 hg.operands

theorem drop_keeps (name : String) (result : Option Value) {next : Exec Unit} {as : List TypeId}
    {vs : List Value} (hnext : Triple (Keeps W (Calling W p vars x.sig) tags [] as vs) next
      (fun _ => Keeps W (Running W p vars) tags [] [] []) Harmless) :
    Triple (Keeps W (Busy W p vars x []) tags [] as vs) (do
        log fun m => .leave m.frames.length name result
        modify fun m => { m with frames := m.frames.tail }
        modifyTop ({ · with state := .running })
        next)
      (fun _ => Keeps W (Running W p vars) tags [] [] []) Harmless := by
  refine Triple.bind (log_keeps lasting_busy _) fun _ => ?_
  refine Triple.bind (R := fun _ => Keeps W (Calling W p vars x.sig) tags [] as vs)
    (Triple.modify ?_) fun _ => Triple.bind (Triple.modify ?_) fun _ => hnext
  · rintro m ⟨tags', htags, hh, ⟨hst, f, rest, hframes, hf, hrest⟩, hvs⟩
    refine ⟨tags', htags, hh, ⟨hst.same rfl rfl, ?_⟩, hvs⟩
    rw [hframes]
    exact hrest
  · rintro m ⟨tags', htags, hh, ⟨hst, hwaits⟩, hvs⟩
    generalize hframes : m.frames = fs at hwaits
    cases hwaits with
    | nil =>
      refine ⟨tags', htags, hh, ⟨hst, ?_⟩, hvs⟩
      rw [hframes]
      exact .nil
    | cons hg hhere hready hrest =>
      exact ⟨tags', htags, hh, ⟨hst.same rfl rfl, .cons ⟨hg.follows, hg.unit, hg.routine, hg.block,
        hg.ip, hg.locals, hg.operands⟩ hhere hready hrest⟩, hvs⟩

theorem leave_keeps (hW : W.types.Plain) {withResult : Bool} (hreturns : x.chart.returns = withResult) :
    Triple (Keeps W (Busy W p vars x []) tags [] [] []) (leave withResult)
      (fun _ => Keeps W (Running W p vars) tags [] [] []) Harmless := by
  unfold leave
  refine Triple.bind top_busy fun f => ?_
  refine Triple.fact (p := x.routine.Follows W x.unit.unit.pool x.sig x.chart x.stack ∧
    f.routine = x.routine) (fun m ⟨_, _, _, hq, _⟩ => ⟨hq.2.follows, hq.2.routine⟩)
    fun ⟨hcode, hroutine⟩ => ?_
  -- The slots are in hand while the frame is marked.
  refine Triple.bind ((setState_busy .returned).pre
    fun m hm => (hm.hands fun S hq _ => hq.2.locals).imp fun S hq _ => hq.1) fun _ => ?_
  rw [hcode.returns] at hreturns
  subst hreturns
  dsimp only
  by_cases hzero : x.sig.result = 0
  · have hleft : leftBy (Bound.Bind.callType x.sig) = [] := by
      rw [Bound.Bind.callType, if_pos hzero]
      exact leftBy_void
    rw [if_neg (by simp [hzero])]
    refine (drop_keeps f.name none (Triple.pure fun m hm => ?_)).pre fun m hm =>
      hm.hands fun _ _ _ => .nil
    exact hm.imp fun S hq _ => hq.running hleft
  · obtain ⟨more, hslots⟩ := hcode.slots
    rw [if_neg hzero] at hslots
    have hlisted : Listed x.chart.slots f.routine.result x.sig.result := by
      refine ⟨x.sig.params.length, ?_, by simp [hslots]⟩
      rw [hroutine, hcode.result, if_neg hzero]
    have hleft : leftBy (Bound.Bind.callType x.sig) = [x.sig.result] := by
      rw [Bound.Bind.callType, if_neg hzero]
      have hmem : x.sig.result ∈ x.chart.slots := by simp [hslots]
      obtain ⟨s, hs⟩ := forall₂_mem hcode.stored hmem
      exact leftBy_of_ne (hs.storable.ne_void hW.toSound)
    have hslot : ¬f.routine.result < 0 := by
      obtain ⟨k, hk, -⟩ := hlisted
      omega
    rw [if_pos (by simp [hzero]), if_neg hslot]
    refine Triple.bind (entry_hands hlisted) fun v => ?_
    exact drop_keeps f.name (some v) (push_running hleft)

theorem callNative_keeps (hW : W.types.Sound) {n : Native} {args : List TypeId}
    (hn : n.Accepts W.types args) (hhere : x.here = leftBy (n.resultType args) ++ ts)
    (hready : x.Ready) :
    Triple (Keeps W (Busy W p vars x (args.reverse ++ ts)) tags [] [] []) (callNative n args.length)
      (fun _ => Keeps W (Running W p vars) tags [] [] []) Harmless := by
  unfold callNative
  refine Triple.bind (popMany_busy rfl) fun ws => Triple.unlessBroken
    (fun _ m _ => harmless_breakdown m) fun _ => Triple.bind Triple.get fun m₁ => ?_
  rw [List.append_nil, List.append_nil]
  split
  · refine Triple.modify ?_
    rintro m ⟨-, ⟨tags', htags, hh, ⟨hst, -⟩, -⟩, -⟩
    exact ⟨tags', htags, hh, ⟨⟨hst.globals, by simp⟩, nofun⟩, .nil⟩
  · exact Triple.raise fun m _ => harmless_raise rfl m m
  · exact Triple.breakdown fun m _ => harmless_breakdown m
  · rename_i r hr
    refine Triple.bind (R := fun _ => Keeps W (Busy W p vars x ts) tags [] args ws)
      (Triple.modify fun m hm => hm.2.1.same lasting_busy rfl rfl rfl rfl) fun _ => ?_
    refine Triple.ite (fun hvoid => ?_) fun hvoid => Triple.pure fun m hm => ?_
    · rw [leftBy_of_ne ((hn.storable hW hvoid).ne_void hW)] at hhere
      refine (push_busy.pre fun m hm => ?_).post fun _ m hm => hm.imp fun S hq _ =>
        hq.running hhere hready
      exact hm.hands fun S _ hvs => .cons (Native.call_has hW hn hvs hr hvoid) .nil
    · rw [not_not] at hvoid
      have hresult : n.resultType args = void := by
        unfold Native.resultType
        rw [hvoid]
      rw [hresult, leftBy_void] at hhere
      exact (hm.hands fun _ _ _ => .nil).imp fun S hq _ => hq.running hhere hready

/-! ## The end of a block -/

theorem jump_keeps {target : Int} (htarget : Listed x.chart.labels target ts) :
    Triple (Keeps W (Busy W p vars x ts) tags [] [] []) (modifyTop ({ · with block := target, ip := 0 }))
      (fun _ => Keeps W (Running W p vars) tags [] [] []) Harmless := by
  refine Triple.fact (fun m hm => hm.stands) fun ⟨hcode, _⟩ => ?_
  obtain ⟨k, rfl, hk⟩ := htarget
  obtain ⟨hhere, hready⟩ := hcode.covers.entry hk
  let y : Stance := { x with block := k, ip := 0 }
  refine Triple.post (R := fun _ => Keeps W (Busy W p vars y ts) tags [] [] [])
    (modifyTop_busy rfl fun S f hf _ => ?_) fun _ m hm => hm.imp fun S hq _ => hq.running hhere hready
  exact ⟨hf.follows, hf.unit, hf.routine, rfl, rfl, hf.locals, hf.operands⟩

/-! ## All instructions -/

/-- An instruction of the unit is over, and if it has made an array, this lies on the stack. -/
def Leaves (W : World) (p : Program) (vars : List (List TypeId)) (u : LinkedUnit) (i : Instr)
    (S : Referents) (m : Machine) : Prop :=
  Running W p vars S m ∧ ∀ s, i.op = .newArray ∨ i.op = .newCell →
    Listed u.unit.pool.shapes.toList i.a s → Tops W s S m

theorem leaves_of_running {P : Machine → Prop} {i : Instr} {y : Exec Unit}
    (h : Triple P y (fun _ => Keeps W (Running W p vars) tags [] [] []) Harmless)
    (hop : ¬(i.op = .newArray ∨ i.op = .newCell)) :
    Triple P y (fun _ => Keeps W (Leaves W p vars x.unit i) tags [] [] []) Harmless :=
  h.post fun _ _ hm => hm.imp fun _ hq _ => ⟨hq, fun _ h => absurd h hop⟩

theorem Retypes.leaves {i : Instr} {us : List TypeId} (h : Retypes W p vars x tags i ts us)
    (hhere : x.here = us) (hready : x.Ready) (hop : ¬(i.op = .newArray ∨ i.op = .newCell)) :
    Triple (Keeps W (Busy W p vars x ts) tags [] [] []) (instr p x.unit i)
      (fun _ => Keeps W (Leaves W p vars x.unit i) tags [] [] []) Harmless :=
  leaves_of_running (Triple.post h fun _ _ hm => hm.imp fun _ hq _ => hq.running hhere hready) hop

/-- An instruction leaves the array that it makes on the stack. -/
theorem leaves_of_tops {i : Instr} {us : List TypeId} {s : Shape} (hi : Listed x.unit.unit.pool.shapes.toList i.a s)
    (h : Triple (Keeps W (Busy W p vars x ts) tags [] [] []) (instr p x.unit i)
      (fun _ => Keeps W (fun S m => Busy W p vars x us S m ∧ Tops W s S m) tags [] [] []) Harmless)
    (hhere : x.here = us) (hready : x.Ready) :
    Triple (Keeps W (Busy W p vars x ts) tags [] [] []) (instr p x.unit i)
      (fun _ => Keeps W (Leaves W p vars x.unit i) tags [] [] []) Harmless := by
  refine h.post fun _ m hm => hm.imp fun S hq _ => ⟨hq.1.running hhere hready, fun s' _ hs' => ?_⟩
  obtain ⟨k, hk, hs⟩ := hi
  obtain ⟨k', hk', hs'⟩ := hs'
  obtain rfl : k = k' := Int.ofNat_inj.mp (hk.symm.trans hk')
  cases hs.symm.trans hs'
  exact hq.2

/-- An indirect call finds no nil reference below its arguments. -/
def FindsRoutine (i : Instr) (m : Machine) : Prop :=
  i.op = .callIndirect → (m.frames.head?.bind (·.operands[i.b.toNat]?)) ≠ some .nil

/-- Typed code goes on with typed operands, or it fails as typed code may, unless it calls the nil
reference. -/
theorem instr_keeps (hp : p.Typed W vars) {i : Instr}
    (hi : i.Typed W x.chart ts x.here ∧ x.Ready ∨ i.Ends x.chart ts) :
    Triple (fun m => Keeps W (Busy W p vars x ts) tags [] [] [] m ∧ FindsRoutine i m)
      (instr p x.unit i) (fun _ => Keeps W (Leaves W p vars x.unit i) tags [] [] []) Harmless := by
  refine Triple.fact (fun m hm => hm.1.stands) fun ⟨hcode, hu⟩ => ?_
  have hW := hp.plain.toSound
  obtain ⟨op, n, k, pos⟩ := i
  rcases hi with ⟨hi, hready⟩ | hi
  · generalize hhere : x.here = us at hi
    have inside : Retypes W p vars x tags ⟨op, n, k, pos⟩ ts us → ¬(op = .newArray ∨ op = .newCell) →
        Triple (fun m => Keeps W (Busy W p vars x ts) tags [] [] [] m ∧ FindsRoutine ⟨op, n, k, pos⟩ m)
          (instr p x.unit ⟨op, n, k, pos⟩)
          (fun _ => Keeps W (Leaves W p vars x.unit ⟨op, n, k, pos⟩) tags [] [] []) Harmless :=
      fun h hop => (h.leaves hhere hready hop).pre fun m hm => hm.1
    cases hi with
    | const hop hv ha =>
      cases hop
      exact inside (retypes_const (hcode.pool ▸ hv) ha) (by decide)
    | pop hop =>
      cases hop
      exact inside retypes_pop (by decide)
    | dup hop =>
      cases hop
      exact inside retypes_dup (by decide)
    | loadLocal hop ha =>
      cases hop
      exact inside (retypes_loadLocal ha) (by decide)
    | storeLocal hop hb hfits =>
      cases hop
      exact inside (retypes_storeLocal hb hfits) (by decide)
    | loadGlobal hop href ha =>
      cases hop
      obtain ⟨place, hplace, ha⟩ := hp.globals _ hu _ _ _ (hcode.pool ▸ href) ha
      exact inside (retypes_loadGlobal hplace ha) (by decide)
    | storeGlobal hop href hb hfits =>
      cases hop
      obtain ⟨place, hplace, hb⟩ := hp.globals _ hu _ _ _ (hcode.pool ▸ href) hb
      exact inside (retypes_storeGlobal hplace hb hfits) (by decide)
    | loadElem hop ha =>
      cases hop
      exact inside (retypes_loadElem hW ha) (by decide)
    | storeElem hop ha hfits =>
      cases hop
      exact inside (retypes_storeElem hW ha hfits) (by decide)
    | loadChar hop =>
      cases hop
      exact inside (retypes_loadChar hW) (by decide)
    | @binary o _ _ _ _ hop ho =>
      cases hop
      exact inside (retypes_binary hW ho) (by cases o <;> decide)
    | neg hop ho =>
      cases hop
      exact inside (retypes_neg hW ho) (by decide)
    | not hop ho =>
      cases hop
      exact inside (retypes_not hW ho) (by decide)
    | count hop ha =>
      rcases hop with hop | hop
      · cases hop
        exact inside (retypes_succ hW ha) (by decide)
      · cases hop
        exact inside (retypes_pred hW ha) (by decide)
    | intToReal hop =>
      cases hop
      exact inside (retypes_intToReal hW) (by decide)
    | charToString hop =>
      cases hop
      exact inside (retypes_charToString hW) (by decide)
    | routine hop href hsig ha =>
      cases hop
      exact inside (retypes_routine hp hu (hcode.pool ▸ href) hsig ha) (by decide)
    | newArray hop hs he ha =>
      cases hop
      exact (leaves_of_tops (hcode.pool ▸ hs) (newArray_tops hp (hcode.pool ▸ hs) he ha) hhere
        hready).pre fun m hm => hm.1
    | newCell hop hs he ha =>
      cases hop
      exact (leaves_of_tops (hcode.pool ▸ hs) (newCell_tops hp (hcode.pool ▸ hs) he ha) hhere
        hready).pre fun m hm => hm.1
    | call hop href hb hsig hargs =>
      cases hop
      cases hb
      obtain ⟨c, hc, -, hruns, -⟩ := hp.calls _ hu _ _ _ (hcode.pool ▸ href) hsig
      refine leaves_of_running ?_ (by simp)
      rw [instr_eq_control p x.unit (by simp [Op.routineCalls])]
      change Triple _ (entry x.unit.calls n >>= fun c => call p c _) _ _
      rw [entry_of_listed hc, pure_bind]
      exact (call_keeps hp hruns hargs hhere hready).pre fun m hm => hm.1
    | callIndirect hop hb ha hargs =>
      cases hop
      cases hb
      refine leaves_of_running ((callIndirect_keeps hp ha hargs hhere hready).pre fun m hm => ?_)
        (by simp)
      exact ⟨hm.1, hm.2 rfl⟩
    | callNative hop hn hb hargs =>
      cases hop
      cases hb
      refine leaves_of_running ?_ (by simp)
      change Triple _ (entry x.unit.natives n >>= fun n => callNative n _) _ _
      rw [entry_of_listed (hp.natives _ hu _ _ (hcode.pool ▸ hn)), pure_bind]
      exact (callNative_keeps hW hargs hhere hready).pre fun m hm => hm.1
  · cases hi with
    | jump hop htarget =>
      cases hop
      exact leaves_of_running ((jump_keeps htarget).pre fun m hm => hm.1) (by simp)
    | branch hop hyes hno =>
      cases hop
      refine leaves_of_running ?_ (by simp)
      change Triple _ (pop >>= fun v => if v.isTrue then modifyTop ({ · with block := n, ip := 0 })
        else modifyTop ({ · with block := k, ip := 0 })) _ _
      refine Triple.bind (pop_busy.pre fun m hm => hm.1) fun v => Triple.ite
        (fun _ => (jump_keeps hyes).pre fun m hm => hm.drop)
        fun _ => (jump_keeps hno).pre fun m hm => hm.drop
    | ret hop ha =>
      cases hop
      refine leaves_of_running ?_ (by simp)
      rw [instr_eq_control p x.unit (by simp)]
      change Triple _ (leave (n = 1)) _ _
      refine (leave_keeps hp.plain ?_).pre fun m hm => hm.1
      cases hreturns : x.chart.returns <;> simp_all

end Exec

end Pascaline
