import Pascaline.Proofs.Lowering.Preservation
import Pascaline.Proofs.Lowering.Regions
import Pascaline.Proofs.Machine.Activation

/-!
# Counting loops count exactly

The code of a `for` loop comes to its body once for each value from the first to the last, in order,
and never steps past the last one, however the body is executed, as long as each round leads on to the
next test with the same value in the variable.
-/

namespace Pascaline

/-! ## Ordinals -/

/-- How the values of a kind that can be counted are made of numbers. -/
def Value.Ordinal (mk : Int64 → Value) : Prop := mk = .bool ∨ mk = .int ∨ mk = .char

/-- How many steps it is from one number to another one, in the direction of a loop. -/
def ahead (down : Bool) (a b : Int) : Int := if down then a - b else b - a

/-- The number that follows in the direction of a loop. -/
def beyond (down : Bool) (a : Int) : Int := if down then a - 1 else a + 1

/-- The numbers from one to another in the direction of a loop, both included. -/
def counted (down : Bool) (a b : Int) : List Int :=
  (List.range (ahead down a b + 1).toNat).map fun i : Nat => if down then a - i else a + i

section Ordinals

variable {down : Bool} {mk : Int64 → Value} {a b : Int64} {x y : Int}

theorem counted_eq_nil (h : ahead down x y < 0) : counted down x y = [] := by
  rw [counted, Int.toNat_of_nonpos (by omega)]
  rfl

theorem ahead_beyond (down : Bool) (x y : Int) : ahead down (beyond down x) y = ahead down x y - 1 := by
  cases down
  · simp only [ahead, beyond, Bool.false_eq_true, if_false]
    omega
  · simp only [ahead, beyond, if_true]
    omega

theorem counted_cons (h : 0 ≤ ahead down x y) :
    counted down x y = x :: counted down (beyond down x) y := by
  have hlength : (ahead down x y + 1).toNat = (ahead down (beyond down x) y + 1).toNat + 1 := by
    rw [ahead_beyond]
    omega
  rw [counted, hlength, List.range_succ_eq_map, List.map_cons, List.map_map, counted]
  congr 1
  · cases down <;> simp
  · refine List.map_congr_left fun i _ => ?_
    cases down
    · simp [beyond]
      omega
    · simp [beyond]
      omega

theorem counted_ne_nil (h : 0 ≤ ahead down x y) : counted down x y ≠ [] := by
  rw [counted_cons h]
  exact List.cons_ne_nil _ _

theorem equal_ordinal (hmk : Value.Ordinal mk) : (mk a).equal (mk b) = (a == b) := by
  rcases hmk with rfl | rfl | rfl <;> simp [Value.equal, Value.isNil, Value.kind, Value.number]

theorem compare_ordinal (hmk : Value.Ordinal mk) :
    (mk a).compare (mk b) = if a.toInt < b.toInt then .lt else if b.toInt < a.toInt then .gt else .eq := by
  rcases hmk with rfl | rfl | rfl <;>
    simp [Value.compare, Value.kind, Value.number, Int64.lt_iff_toInt_lt]

theorem forStarts_ordinal (hmk : Value.Ordinal mk) :
    Bound.forStarts down (mk a) (mk b) = decide (0 ≤ ahead down a.toInt b.toInt) := by
  rw [Bound.forStarts, compare_ordinal hmk, Bool.eq_iff_iff, decide_eq_true_iff]
  cases down
  · simp only [ahead, Bool.false_eq_true, if_false]
    split
    · simp
      omega
    · split
      · simp
        omega
      · simp
        omega
  · simp only [ahead, if_true]
    split
    · simp
      omega
    · split
      · simp
        omega
      · simp
        omega

/-- Before the last value there is another one, so nothing overflows. -/
theorem forStep_ordinal (hmk : Value.Ordinal mk) (h : 0 < ahead down a.toInt b.toInt) :
    ∃ c : Int64, Bound.forStep down (mk a) = .ok (mk c) ∧ c.toInt = beyond down a.toInt := by
  have hlow := Int64.le_toInt b
  have hhigh := Int64.toInt_lt b
  cases down with
  | true =>
    refine ⟨a - 1, by rcases hmk with rfl | rfl | rfl <;> rfl, ?_⟩
    have hlt : b.toInt < a.toInt := by simpa [ahead] using h
    have hhigh := Int64.toInt_lt a
    rw [Int64.toInt_sub, beyond, if_pos rfl]
    exact Int.bmod_eq_of_le (by simp; omega) (by simp; omega)
  | false =>
    refine ⟨a + 1, by rcases hmk with rfl | rfl | rfl <;> rfl, ?_⟩
    have hlt : a.toInt < b.toInt := by simpa [ahead] using h
    have hlow := Int64.le_toInt a
    rw [Int64.toInt_add, beyond, if_neg Bool.false_ne_true]
    exact Int.bmod_eq_of_le (by simp; omega) (by simp; omega)

end Ordinals

/-! ## Open blocks -/

namespace Lower

open Builder

variable {slots : Nat} {ctx : LowerContext} {x : Lower Unit} {b b' : Builder}

/-- Code that ends in a block that goes on. -/
def Opens (x : Lower Unit) : Prop :=
  ∀ ⦃b b' : Builder⦄, x b = .ok ((), b') → b.current < b.blocks.size → b'.Open

theorem opens_emit {o : Op} {a a' : Int} {sp : Span} (ho : o.isTerminator = false) :
    Opens (emit o a a' sp) := by
  intro b b' h hb
  rw [emit_eq] at h
  cases h
  unfold Builder.emit
  split
  · exact (Empty.addBlock b).goTo.1.append ho
  case isFalse hclosed => exact Open.append ⟨hb, Bool.not_eq_true _ ▸ hclosed⟩ ho

theorem Opens.after {α : Type} {y : Lower α} {f : α → Lower Unit} (hy : Adds 0 y)
    (hf : ∀ a, Opens (f a)) : Opens (y >>= f) := by
  intro b b' h hb
  obtain ⟨a, b₁, h₁, h⟩ := bind_ok.mp h
  exact hf a h (hy h₁ hb).inside

theorem opens_short {o : Bound.BinaryOp} {left right : Bound.Expr} {type : TypeId} {sp : Span}
    (hshort : isShort o (ctx.types.kind type) = true) :
    Opens (expr ctx (.binary o left right type sp)) := by
  intro b b' h hb
  obtain ⟨b₁, b₂, h₁, h₂, rfl⟩ := expr_short hshort h
  have hleft : Grown 0 _ b₁ := adds_expr ctx left h₁ ((Built.refl hb).addBlocks 2).inside
  have hbranch := (hleft.toBuilt.emit ⟨.dup, 0, 0, sp.start⟩).emit
    (shortBranch o b.blocks.size (b.blocks.size + 1) sp.start)
  have hrest := Empty.fresh (k := 2) hb hbranch (Nat.le_refl _) (by omega)
  have hdone := Empty.fresh (k := 2) hb hbranch (Nat.le_succ _) (by omega)
  have hpop := (Built.refl hrest.goTo.1.inside).emit ⟨.pop, 0, 0, sp.start⟩
  have hright : Grown 0 _ b₂ := adds_expr ctx right h₂ hpop.inside
  exact (hdone.aside ((hpop.trans hright.toBuilt).jump _ _) (Nat.succ_ne_self _)).goTo.1

theorem opens_pieces (ctx : LowerContext) :
    Pieces .any ctx (fun _ x => Adds 0 x) fun x => Adds 0 x ∧ Opens x :=
  { adds_pieces 0 ctx with
    part := fun h => h.1
    last := fun hx hf => ⟨hx.bind fun a => (hf a).1, .after hx fun a => (hf a).2⟩
    emit := fun ho a a' sp => ⟨(adds_pieces 0 ctx).emit ho a a' sp, opens_emit (Op.isQuiet_iff.mp ho).1⟩
    load := fun _ _ => ⟨adds_emit rfl, opens_emit rfl⟩
    short := fun hshort hleft hright => ⟨adds_short hshort hleft.1 hright.1, opens_short hshort⟩ }

theorem opens_expr (ctx : LowerContext) (e : Bound.Expr) : Opens (expr ctx e) :=
  ((opens_pieces ctx).expr e fun x _ => x.refers_any).2

end Lower

namespace Target

open Site Builder Lower

variable {t : Target} {b b' : Builder} {s : Spot} {v x : Value} {ops ops' : List Value} {i : Instr}
  {n : Nat} {var : Bound.Expr} {ctx : LowerContext}

/-! ## Passes of a loop -/

theorem ip_on_emit (hb : b.Open) (i : Instr) (ops : List Value) : (s.on (b.emit i) ops).ip ≠ 0 := by
  rw [hb.emit_eq]
  show (b.append i).block.size ≠ 0
  rw [block_append hb.inside, Array.size_push]
  exact Nat.succ_ne_zero _

theorem hop_emit (hb : b.Open) (ht : t.Holds (b.emit i))
    (hop : t.instrAt (s.on b ops) = some i → t.Hop (s.on b ops) (next (s.on b ops) ops')) :
    t.Hop (s.on b ops) (s.on (b.emit i) ops') := by
  rw [hb.emit_eq] at ht ⊢
  rw [← next_on hb.inside]
  exact hop (instrAt_on hb.inside ht)

theorem hop_var (ops : List Value) (hvar : var.isVar n) (h : expr ctx var b = .ok ((), b')) (hb : b.Open)
    (ht : t.Holds b') (hv : t.read s var = some v) :
    t.Hop (s.on b ops) (s.on b' (v :: ops)) ∧ (s.on b' (v :: ops)).ip ≠ 0 ∧ b'.Open := by
  obtain ⟨name, slot, type, sp, rfl, -⟩ | ⟨m, slot, type, sp, rfl⟩ := Bound.Expr.isVar_cases hvar
  · rw [expr, emit_eq] at h
    cases h
    exact ⟨hop_emit hb ht fun hi => hop_loadLocal hi hv, ip_on_emit hb _ _, hb.emit rfl⟩
  · rw [expr, bind_eq (addGlobal_eq _ _), emit_eq] at h
    cases h
    have hb' : (b.addGlobal ⟨m, slot⟩).Open := hb.of_eq rfl rfl
    obtain ⟨place, hplace, hat⟩ := global_place (ht.of_le (Le.emit _ _))
    obtain ⟨place', hat', hv⟩ := Option.bind_eq_some_iff.mp hv
    obtain rfl : place = place' := Option.some.inj (hat.symm.trans hat')
    have hhop : t.Hop (s.on _ ops) (s.on _ (v :: ops)) := hop_emit hb' ht fun hi =>
      hop_loadGlobal hi hplace hv
    exact ⟨hhop, ip_on_emit hb' _ _, hb'.emit rfl⟩

theorem hop_storeLocal_on (hb : b.Open) {slot pos : Nat} (hlt : slot < s.locals.size)
    (ht : t.Holds (b.emit ⟨.storeLocal, slot, 0, pos⟩)) :
    t.Hop (s.on b (v :: ops)) (Spot.on { s with locals := s.locals.set! slot v }
      (b.emit ⟨.storeLocal, slot, 0, pos⟩) ops) := by
  rw [hb.emit_eq] at ht ⊢
  have hi : t.instrAt (s.on b (v :: ops)) = some _ := instrAt_on hb.inside ht
  have hhop := hop_storeLocal hi rfl hlt
  rw [next_on hb.inside] at hhop
  exact hhop

theorem hop_storeVar (ops : List Value) (v : Value) (hvar : var.isVar n) (h : storeVar ctx var b = .ok ((), b')) (hb : b.Open)
    (ht : t.Holds b') (hx : t.read s var = some x) :
    t.Hop (s.on b (v :: ops)) ((t.write s v var).on b' ops) ∧
      ((t.write s v var).on b' ops).ip ≠ 0 ∧ b'.Open := by
  obtain ⟨name, slot, type, sp, rfl, -⟩ | ⟨m, slot, type, sp, rfl⟩ := Bound.Expr.isVar_cases hvar
  · rw [storeVar, emit_eq] at h
    cases h
    have hlt : slot < s.locals.size := (Array.getElem?_eq_some_iff.mp hx).1
    exact ⟨hop_storeLocal_on hb hlt ht, ip_on_emit hb _ _, hb.emit rfl⟩
  · rw [storeVar, bind_eq (addGlobal_eq _ _), emit_eq] at h
    cases h
    have hb' : (b.addGlobal ⟨m, slot⟩).Open := hb.of_eq rfl rfl
    refine ⟨?_, ip_on_emit hb' _ _, hb'.emit rfl⟩
    obtain ⟨⟨unit, place⟩, hplace, hat⟩ := global_place (ht.of_le (Le.emit _ _))
    rw [hb'.emit_eq] at ht ⊢
    have hi : t.instrAt (s.on _ (v :: ops)) = some _ := instrAt_on hb'.inside ht
    have hhop := hop_storeGlobal hi hplace rfl
    rw [next_on hb'.inside] at hhop
    have hat : t.program.globalAt? ⟨m, slot⟩ = some (unit, place) := hat
    rw [Site.write, hat]
    exact hhop

theorem passes_forControl {limit yes no : Nat} {op : Op} {rel : Value → Value → Bool} {sp : Span}
    {bound : Value} (ops : List Value) (hvar : var.isVar n) (hop : op.binary? = none) (hop' : op.unary? = none)
    (hrel : op.relation? = some rel) (hclose : op.isTerminator = false)
    (h : forControl ctx var limit op yes no sp b = .ok ((), b')) (hb : b.Open) (ht : t.Holds b')
    (hv : t.read s var = some v) (hbound : s.locals[limit]? = some bound) :
    t.Passes (s.on b ops) (start s (if rel v bound then yes else no) ops) := by
  unfold forControl at h
  obtain ⟨_, b₁, hb₁, h⟩ := bind_ok.mp h
  rw [bind_eq (emit_eq _ _ _ _ _), bind_eq (op_eq _ _ _), branch_eq] at h
  obtain rfl := ok_inj h
  have httest := ht.of_le (Le.emit _ _)
  have htlimit := httest.of_le (Le.emit _ _)
  obtain ⟨hload, hip, hopen⟩ := hop_var ops hvar hb₁ hb (htlimit.of_le (Le.emit _ _)) hv
  have hopen' : (b₁.emit ⟨.loadLocal, limit, 0, sp.start⟩).Open := hopen.emit rfl
  have hload' : t.Hop (s.on b₁ (v :: ops)) (s.on _ (bound :: v :: ops)) :=
    hop_emit hopen htlimit fun hi => hop_loadLocal hi hbound
  have htest : t.Hop (s.on _ (bound :: v :: ops)) (s.on _ (.ofBool (rel v bound) :: ops)) :=
    hop_emit hopen' httest fun hi => hop_relation hop hop' hrel hi rfl
  have hbranch : t.Hop (s.on _ (.ofBool (rel v bound) :: ops)) _ :=
    hop_branch_on (hopen'.emit hclose) ht
  rw [Value.isTrue_ofBool] at hbranch
  exact .hop hload hip (.hop hload' (ip_on_emit hopen _ _) (.hop htest (ip_on_emit hopen' _ _)
    hbranch.passes))

theorem passes_step {down : Bool} {start pos : Nat} {b₁ b₂ : Builder} (ops : List Value) (pos' : Nat)
    (hvar : var.isVar n)
    (hload : expr ctx var b = .ok ((), b₁))
    (hstore : storeVar ctx var (b₁.emit ⟨if down then .pred else .succ, 0, 0, pos⟩) = .ok ((), b₂))
    (hb : b.Open) (ht : t.Holds (b₂.jump start pos')) (hv : t.read s var = some v)
    (hstep : Bound.forStep down v = .ok x)
    (hle : Le (b₁.emit ⟨if down then .pred else .succ, 0, 0, pos⟩) b₂) :
    t.Passes (s.on b ops) (Site.start (t.write s x var) start ops) := by
  have htstore := ht.of_le (Le.jump _ _ _)
  have htstep := htstore.of_le hle
  obtain ⟨hhop, hip, hopen⟩ := hop_var ops hvar hload hb (htstep.of_le (Le.emit _ _)) hv
  have hhop' : t.Hop (s.on b₁ (v :: ops))
      (s.on (b₁.emit ⟨if down then .pred else .succ, 0, 0, pos⟩) (x :: ops)) := by
    refine hop_emit hopen htstep fun hi => ?_
    cases down with
    | true => exact hop_unary rfl rfl hi rfl hstep
    | false => exact hop_unary rfl rfl hi rfl hstep
  have hopen' : (b₁.emit ⟨if down then .pred else .succ, 0, 0, pos⟩).Open :=
    hopen.emit (by cases down <;> rfl)
  obtain ⟨hhop'', hip'', hopen''⟩ := hop_storeVar ops x hvar hstore hopen' htstore hv
  exact .hop hhop hip (.hop hhop' (ip_on_emit hopen _ _) (.hop hhop'' hip''
    (hop_jump_on hopen'' ht).passes))

end Target

namespace Lower.LoopCode

open Builder

variable {ctx : LowerContext} {var : Bound.Expr} {limit slots : Nat} {down : Bool}
  {body : List Bound.Stmt} {sp : Span} {b : Builder} {ss : List Bound.Stmt}
  {code : LoopCode ctx var limit down body sp b}

/-! ## The parts of a loop -/

theorem built_jump (hb : b.current < b.blocks.size) :
    Built (b.addBlocks 5) ((b.addBlocks 5).jump b.blocks.size sp.start) :=
  (Built.refl ((Built.refl hb).addBlocks 5).inside).jump _ _

theorem empty_test (sp : Span) (hb : b.current < b.blocks.size) :
    ((b.addBlocks 5).jump b.blocks.size sp.start).Empty b.blocks.size :=
  Empty.fresh hb (built_jump hb) (by omega) (by omega)

theorem empty_tested (h : code.Stages slots ss) (hb : b.current < b.blocks.size) {j : Nat} (hj : j < 5)
    (hne : j ≠ 0) : code.tested.Empty (b.blocks.size + j) :=
  (Empty.fresh hb (built_jump hb) (by omega) (by omega)).aside h.tested (by omega)

theorem empty_bodied (h : code.Stages slots ss) (hb : b.current < b.blocks.size) {j : Nat} (hj : j < 5)
    (hne : j ≠ 0 ∧ j ≠ 1) :
    (code.bodied.jump (b.blocks.size + 2) sp.start).Empty (b.blocks.size + j) :=
  (empty_tested h hb hj hne.1).aside (h.bodied.jump _ _) (by omega)

theorem empty_step (h : code.Stages slots ss) (hb : b.current < b.blocks.size) :
    code.compared.Empty (b.blocks.size + 3) :=
  (empty_bodied h hb (by omega) (by omega)).aside h.compared (by omega)

theorem le_compared (h : code.Stages slots ss) : Le code.compared code.behind :=
  ((Le.goTo _ _).trans (built_step h).le).trans (Le.goTo _ _)

theorem le_bodied (h : code.Stages slots ss) :
    Le (code.bodied.jump (b.blocks.size + 2) sp.start) code.behind :=
  ((Le.goTo _ _).trans h.compared.le).trans (le_compared h)

theorem le_tested (h : code.Stages slots ss) : Le code.tested code.behind :=
  ((Le.goTo _ _).trans (h.bodied.jump _ _).le).trans (le_bodied h)

theorem le_jump (h : code.Stages slots ss) :
    Le ((b.addBlocks 5).jump b.blocks.size sp.start) code.behind :=
  ((Le.goTo _ _).trans h.tested.le).trans (le_tested h)

/-- Where `break` and `continue` lead in the body. -/
def target (_ : LoopCode ctx var limit down body sp b) : LoopTarget :=
  ⟨b.blocks.size + 4, b.blocks.size + 2⟩

theorem instr?_of_jump {t pos k ip : Nat} {i : Instr} (h : (b.jump t pos).blocks.instr? k ip = some i) :
    b.blocks.instr? k ip = some i ∨ i = ⟨.jump, t, 0, pos⟩ := by
  unfold Builder.jump at h
  split at h
  · exact .inl h
  · exact instr?_of_emit h

theorem allows_body (h : code.Stages slots ss) (hb : b.current < b.blocks.size)
    (hbody : ∀ s ∈ Bound.Stmt.flattenAll body, Assigns slots s) {k ip : Nat} {i : Instr}
    (hk : code.Inside k)
    (hi : (code.bodied.jump (b.blocks.size + 2) sp.start).blocks.instr? k ip = some i) :
    Allows slots ((code.tested.goTo (b.blocks.size + 1)).withLoops (code.target :: code.tested.loops))
      code.bodied.blocks.size i := by
  rcases instr?_of_jump hi with hi | rfl
  · obtain ⟨b₁, h₁, hbodied⟩ := inLoop_ok.mp code.body_eq
    have hgrown := (lays_stmts ctx body hbody h₁ h.start.inside).toGrown
    rw [hbodied] at hi ⊢
    refine (hgrown.added hi).resolve_left fun hi => ?_
    -- before the body there was nothing in its blocks
    obtain ⟨is, his, hi⟩ := Option.bind_eq_some_iff.mp hi
    rcases hk.1 with rfl | hle
    · have hempty := empty_tested h hb (j := 1) (by omega) (by omega)
      obtain rfl : #[] = is := Option.some.inj (hempty.symm.trans his)
      simp at hi
    · exact absurd (Array.getElem?_eq_some_iff.mp his).1 (Nat.not_lt.mpr hle)
  · exact .jump ⟨_, rfl, .inr ⟨code.target, rfl, .inl rfl⟩⟩

theorem encloses_body (h : code.Stages slots ss) (hb : b.current < b.blocks.size)
    (hbody : ∀ s ∈ Bound.Stmt.flattenAll body, Assigns slots s) (hslots : slots ≤ limit)
    (hlimit : limit < b.locals.size) {ctx' : LowerContext} {sp' : Span} {c : Builder}
    (hc : Finished code.Inside (code.bodied.jump (b.blocks.size + 2) sp.start) c) :
    Site.Encloses (closeAll ctx' sp' c.blocks) code.Inside (b.blocks.size + 1) limit code.target := by
  have hinstr : ∀ {k ip : Nat} {i : Instr}, code.Inside k →
      (closeAll ctx' sp' c.blocks).instr? k ip = some i → i.op ≠ .ret → Allows slots ((code.tested.goTo (b.blocks.size + 1)).withLoops
        (code.target :: code.tested.loops)) code.bodied.blocks.size i := by
    intro k ip i hk hi hop
    have hi := (instr?_of_closeAll hi).resolve_right hop
    rw [Blocks.instr?, hc.kept k hk] at hi
    exact allows_body h hb hbody hk hi
  constructor
  · intro k ip i target hk hi hnames
    have hop : i.op ≠ .ret := by
      rcases hnames with ⟨hop, -⟩ | ⟨hop, -⟩ <;> rw [hop] <;> decide
    obtain ⟨j, hj, ⟨hle, hlt⟩ | ⟨l, hl, hplace⟩⟩ := (hinstr hk hi hop).leads hnames
    · refine ⟨j, hj, .inl ⟨⟨.inr hle, Nat.lt_of_lt_of_le hlt (Le.jump _ _ _).size_le⟩, ?_⟩⟩
      have hopened := h.start.opened
      have hle : code.tested.blocks.size ≤ j := hle
      simp only [Builder.goTo] at hopened
      omega
    · obtain rfl : code.target = l := by simpa [Builder.withLoops] using hl
      exact ⟨j, hj, .inr hplace⟩
  · intro k ip i hk hi hop
    have hlocals := h.start.le.locals
    have hstores := (hinstr hk hi (by rw [hop]; decide)).stores hop
    have hstores : i.a.toNat < slots ∨ code.tested.locals.size ≤ i.a.toNat := hstores
    have hlocals : b.locals.size ≤ code.tested.locals.size := hlocals
    omega

/-! ## The loop -/

/-- The loop in the finished code of a routine whose first `slots` slots are declared. -/
structure Installed (t : Target) (slots : Nat) (ss : List Bound.Stmt)
    (code : LoopCode ctx var limit down body sp b) : Prop where
  stages : code.Stages slots ss
  inside : b.current < b.blocks.size
  holds : t.Holds code.behind
  encloses : Site.Encloses t.routine.blocks code.Inside (b.blocks.size + 1) limit code.target
  var : var.isVar slots
  hidden : slots ≤ limit

section Installed

open Site

variable {t : Target} {mk : Int64 → Value} {x y : Int64} {m : Machine} {s : Spot}

theorem eq_start {k : Nat} (hblock : s.block = k) (hip : s.ip = 0) : s = start s k s.operands := by
  obtain ⟨block, ip, operands, locals, globals⟩ := s
  obtain rfl : block = k := hblock
  obtain rfl : ip = 0 := hip
  rfl

theorem Installed.passes_next (h : code.Installed t slots ss) (hmk : Value.Ordinal mk)
    (hblock : s.block = b.blocks.size + 2) (hip : s.ip = 0) (hread : t.read s var = some (mk x))
    (hlimit : s.locals[limit]? = some (mk y)) :
    t.Passes s (start s (if x == y then b.blocks.size + 4 else b.blocks.size + 3) s.operands) := by
  have hnext := empty_bodied h.stages h.inside (j := 2) (by omega) (by omega)
  have hpass := Target.passes_forControl (t := t) s.operands h.var rfl rfl rfl rfl code.next_eq
    hnext.goTo.1 (h.holds.of_le (le_compared h.stages)) hread hlimit
  rw [← Target.start_eq_on hnext, ← eq_start hblock hip, equal_ordinal hmk] at hpass
  exact hpass

theorem Installed.passes_step (h : code.Installed t slots ss) (hmk : Value.Ordinal mk)
    (hblock : s.block = b.blocks.size + 3) (hip : s.ip = 0) (hread : t.read s var = some (mk x))
    (hahead : 0 < ahead down x.toInt y.toInt) :
    ∃ z : Int64, z.toInt = beyond down x.toInt ∧
      t.Passes s (start (t.write s (mk z) var) (b.blocks.size + 1) s.operands) := by
  obtain ⟨z, hstep, hz⟩ := forStep_ordinal hmk hahead
  have hempty := empty_step h.stages h.inside
  have hpass := Target.passes_step (t := t) s.operands sp.start h.var code.load_eq
    code.store_eq hempty.goTo.1 (h.holds.of_le (Le.goTo _ _)) hread hstep h.stages.stepped.le
  rw [← Target.start_eq_on hempty, ← eq_start hblock hip] at hpass
  exact ⟨z, hz, hpass⟩

/-- What a variable holds at certain times. -/
def held (mk : Int64 → Value) (xs : List Int) : List (Option Value) :=
  xs.map fun x => some (mk (.ofInt x))

theorem Installed.round (h : code.Installed t slots ss) (hm : t.Stands s m)
    (hblock : s.block = b.blocks.size + 1) (hip : s.ip = 0)
    (hrounds : t.Rounds code.target (b.blocks.size + 1) var m) :
    ∃ n s', t.Stretch (b.blocks.size + 1) (b.blocks.size + 3) (b.blocks.size + 4) var m n
        [t.read s var] [] ∧ t.Stands s' (m.after t.program n) ∧ s'.block = b.blocks.size + 2 ∧
      s'.ip = 0 ∧ t.read s' var = t.read s var ∧ s'.locals[limit]? = s.locals[limit]? := by
  have hat : ∀ block, t.isAt block m = (s.block == block && s.ip == 0) := hm.isAt
  have hstart : t.isAt (b.blocks.size + 1) m = true := by simp [hat, hblock, hip]
  have hleave : t.isAt (b.blocks.size + 4) m = false := by simp [hat, hblock]
  obtain ⟨n, hround⟩ := hrounds 0 nofun
    (fun k hk => by rw [Nat.le_zero.mp hk]; exact ⟨hm.deep, hleave⟩) hstart
  have hround : t.RoundEnds code.target var m n := hround
  have hopened := Nat.le_trans h.stages.start.opened
    (h.stages.bodied.jump (b.blocks.size + 2) sp.start).origin.size
  have hinside : code.Inside (b.blocks.size + 1) := ⟨.inl rfl, by omega⟩
  obtain ⟨hstretch, s', hs', hblock', hip', hlimit⟩ := hround.stretch h.encloses hm hstart hinside
    (not_inside h.stages (j := 3) (by omega) (by omega)) (by simp [target])
  rw [hm.valueOf] at hstretch
  refine ⟨n, s', hstretch, hs', hblock', hip', ?_, hlimit⟩
  rw [← hs'.valueOf, ← hm.valueOf]
  exact hround.keeps

theorem held_cons (xs : List Int) : held mk (x.toInt :: xs) = some (mk x) :: held mk xs := by
  rw [held, List.map_cons, Int64.ofInt_toInt]
  rfl

theorem Installed.counts (h : code.Installed t slots ss) (hmk : Value.Ordinal mk) {k : Nat}
    (hk : ahead down x.toInt y.toInt = k) (hm : t.Stands s m) (hblock : s.block = b.blocks.size + 1)
    (hip : s.ip = 0) (hread : t.read s var = some (mk x)) (hlimit : s.locals[limit]? = some (mk y))
    (hrounds : t.Rounds code.target (b.blocks.size + 1) var m) :
    ∃ n, t.Stretch (b.blocks.size + 1) (b.blocks.size + 3) (b.blocks.size + 4) var m n
        (held mk (counted down x.toInt y.toInt)) (held mk (counted down x.toInt y.toInt).dropLast) ∧
      t.isAt (b.blocks.size + 4) (m.after t.program n) = true ∧
      t.valueOf var (m.after t.program n) = some (mk y) := by
  induction k generalizing x m s with
  | zero =>
    obtain rfl : x = y := Int64.toInt_inj.mp (by cases down <;> simp [ahead] at hk <;> omega)
    obtain ⟨n, s', hround, hs', hblock', hip', hread', hlimit'⟩ := h.round hm hblock hip hrounds
    rw [hread] at hround hread'
    rw [hlimit] at hlimit'
    have hpass := h.passes_next hmk hblock' hip' hread' hlimit'
    rw [beq_self_eq_true, if_pos rfl] at hpass
    obtain ⟨n', hs'', hlast⟩ := hpass.aside (b.blocks.size + 1) (b.blocks.size + 3)
      (b.blocks.size + 4) var hs' (by omega)
    have hall := hround.trans hlast
    rw [← Machine.after_add] at hs''
    refine ⟨n + n', ?_, ?_, ?_⟩
    · have hone : counted down x.toInt x.toInt = [x.toInt] := by
        rw [counted_cons (x := x.toInt) (y := x.toInt) (by omega),
          counted_eq_nil (by rw [ahead_beyond]; omega)]
      rw [hone, held_cons]
      exact hall
    · rw [hs''.isAt]
      simp [start]
    · rw [hs''.valueOf]
      exact hread'
  | succ k ih =>
    have hne : (x == y) = false := by
      refine beq_false_of_ne fun heq => ?_
      rw [heq] at hk
      cases down <;> simp [ahead] at hk <;> omega
    obtain ⟨n, s', hround, hs', hblock', hip', hread', hlimit'⟩ := h.round hm hblock hip hrounds
    rw [hread] at hround hread'
    rw [hlimit] at hlimit'
    have hpass := h.passes_next hmk hblock' hip' hread' hlimit'
    rw [hne, if_neg Bool.false_ne_true] at hpass
    obtain ⟨n₁, hs₁, hnext⟩ := hpass.aside (b.blocks.size + 1) (b.blocks.size + 3)
      (b.blocks.size + 4) var hs' (by omega)
    have hread₁ : t.read (start s' (b.blocks.size + 3) s'.operands) var = some (mk x) := hread'
    obtain ⟨z, hz, hpass⟩ := h.passes_step hmk (y := y) rfl rfl hread₁ (by omega)
    have hstart : t.isAt (b.blocks.size + 1) ((m.after t.program n).after t.program n₁) = false := by
      simp [hs₁.isAt, start]
    have hstep : t.isAt (b.blocks.size + 3) ((m.after t.program n).after t.program n₁) = true := by
      simp [hs₁.isAt, start]
    have hleave : t.isAt (b.blocks.size + 4) ((m.after t.program n).after t.program n₁) = false := by
      simp [hs₁.isAt, start]
    obtain ⟨n₂, hs₂, hstepped⟩ := hpass.stretch (b.blocks.size + 1) (b.blocks.size + 3) var
      hs₁ hleave
    rw [hs₁.valueOf, hread₁, if_neg (by rw [hstart]; exact Bool.false_ne_true), if_pos hstep] at hstepped
    rw [← Machine.after_add t.program m n n₁] at hs₂ hstepped
    rw [← Machine.after_add] at hs₂
    have hfront := (hround.trans hnext).trans hstepped
    -- the next round begins with the next value
    obtain ⟨n₃, hrest, hleave, hvalue⟩ := ih (x := z) (by rw [hz, ahead_beyond]; omega) hs₂ rfl rfl
      ((read_congr rfl rfl).trans (read_write hread'))
      ((locals_write h.var h.hidden).trans hlimit') (hrounds.after hfront)
    rw [← Machine.after_add] at hleave hvalue
    refine ⟨_, ?_, hleave, hvalue⟩
    have hall := hfront.trans hrest
    rw [hz] at hall
    rw [counted_cons (x := x.toInt) (by omega),
      List.dropLast_cons_of_ne_nil (counted_ne_nil (by rw [ahead_beyond]; omega)), held_cons, held_cons]
    exact hall

theorem Installed.passes_test (h : code.Installed t slots ss) (hmk : Value.Ordinal mk)
    (hblock : s.block = b.blocks.size) (hip : s.ip = 0) (hread : t.read s var = some (mk x))
    (hlimit : s.locals[limit]? = some (mk y)) :
    t.Passes s (start s (if 0 ≤ ahead down x.toInt y.toInt then b.blocks.size + 1
      else b.blocks.size + 4) s.operands) := by
  have htest := empty_test sp h.inside
  have hpass : ∀ rel, Op.relation? (if down then .ge else .le) = some rel →
      t.Passes s (start s (if rel (mk x) (mk y) then b.blocks.size + 1 else b.blocks.size + 4)
        s.operands) := by
    intro rel hrel
    have hpass := Target.passes_forControl (t := t) s.operands h.var
      (by cases down <;> rfl) (by cases down <;> rfl) hrel (by cases down <;> rfl) code.test_eq
      htest.goTo.1 (h.holds.of_le (le_tested h.stages)) hread hlimit
    rw [← Target.start_eq_on htest, ← eq_start hblock hip] at hpass
    exact hpass
  have hpass := hpass (Bound.forStarts down) (by cases down <;> rfl)
  rw [forStarts_ordinal hmk] at hpass
  simp only [decide_eq_true_eq] at hpass
  exact hpass

end Installed

end Lower.LoopCode

namespace Lower

open Builder Site

variable {ctx : LowerContext} {var first last : Bound.Expr} {slots : Nat} {down : Bool}
  {body : List Bound.Stmt} {sp : Span} {b b' : Builder}

/-- The parts of a `for` statement: behind its first value, the store of it, and its last value. -/
structure ForCode (ctx : LowerContext) (var first last : Bound.Expr) (down : Bool)
    (body : List Bound.Stmt) (sp : Span) (b : Builder) where
  evaluated : Builder
  stored : Builder
  bounded : Builder
  shape : Shape
  first_eq : expr ctx first b = .ok ((), evaluated)
  store_eq : storeVar ctx var evaluated = .ok ((), stored)
  last_eq : expr ctx last (stored.addLocal shape) = .ok ((), bounded)
  loop : LoopCode ctx var stored.locals.size down body sp
    (bounded.emit ⟨.storeLocal, stored.locals.size, 0, last.span.start⟩)

theorem forCode_of_stmt (h : stmt ctx (.forTo var first last down body sp) b = .ok ((), b')) :
    ∃ code : ForCode ctx var first last down body sp b, b' = code.loop.behind := by
  obtain ⟨b₁, b₂, b₃, shape, -, h₁, h₂, h₃, hrest⟩ := Target.stmt_forTo h
  obtain ⟨loop, hb'⟩ := loopCode_of_forRest hrest
  exact ⟨⟨b₁, b₂, b₃, shape, h₁, h₂, h₃, loop⟩, hb'⟩

theorem isVar_of_storeVar (h : storeVar ctx var b = .ok ((), b')) (hvar : Declared slots var) :
    var.isVar slots := by
  cases var with
  | frameVar symbol slot type sp => exact decide_eq_true hvar
  | unitVar m slot type sp => rfl
  | _ => cases h

namespace ForCode

/-- The builder behind the store of the last value into its hidden slot. -/
def limited (code : ForCode ctx var first last down body sp b) : Builder :=
  code.bounded.emit ⟨.storeLocal, code.stored.locals.size, 0, last.span.start⟩

/-- The first block of the body. -/
def start (code : ForCode ctx var first last down body sp b) : Nat := code.limited.blocks.size + 1

/-- The block that goes on to the next value. -/
def step (code : ForCode ctx var first last down body sp b) : Nat := code.limited.blocks.size + 3

/-- Where `break` and `continue` lead in the body, to the end of the loop and to its second test. -/
def target (code : ForCode ctx var first last down body sp b) : LoopTarget := code.loop.target

/-- What the code of the statement does in a routine that is being executed. Behind the code of the
first value one step stores that value. Behind the code of the last value that value is stored into a
hidden slot, and the loop is entered. From there on, as long as each round of the body ends, the loop
comes to its body once for each value from the first to the last, in order, and it goes on to the next
value after each of them but the last; then it is left. -/
structure Counts (w : Site) (code : ForCode ctx var first last down body sp b) : Prop where
  bounds : ∀ (s : Spot) (ops : List Value), w.instrAt (s.on code.bounded ops) =
    some ⟨.storeLocal, code.stored.locals.size, 0, last.span.start⟩
  enters : ∀ (s : Spot) (ops : List Value), w.instrAt (next (s.on code.bounded ops) ops) =
    some ⟨.jump, code.limited.blocks.size, 0, sp.start⟩
  begins : ∀ {s : Spot} {m : Machine} {ops : List Value} {v old : Value},
    w.Stands (s.on code.evaluated (v :: ops)) m → w.read s var = some old →
      m.Proceeds w.program 1 ∧ ∃ s', w.Stands (s'.on code.stored ops) (m.after w.program 1) ∧
        w.read s' var = some v ∧ s'.locals.size = s.locals.size
  counts : ∀ {mk : Int64 → Value} {s : Spot} {m : Machine} {ops : List Value} {x y : Int64},
    Value.Ordinal mk → s.locals.size = w.routine.locals.size →
      w.Stands (s.on code.bounded (mk y :: ops)) m → w.read s var = some (mk x) →
        w.Rounds code.target code.start var m →
          ∃ n, w.Stretch code.start code.step code.target.leave var m n
              ((counted down x.toInt y.toInt).map fun i => some (mk (.ofInt i)))
              ((counted down x.toInt y.toInt).dropLast.map fun i => some (mk (.ofInt i))) ∧
            w.isAt code.target.leave (m.after w.program n) = true ∧
            w.valueOf var (m.after w.program n) =
              some (mk (if counted down x.toInt y.toInt = [] then x else y))

/-- How the parts are built. -/
structure Stages (slots : Nat) (code : ForCode ctx var first last down body sp b) : Prop where
  evaluated : Grown slots b code.evaluated
  stored : Grown slots b code.stored
  bounded : Grown slots (code.stored.addLocal code.shape) code.bounded
  limited : Grown slots b code.limited

theorem stages (code : ForCode ctx var first last down body sp b) (hb : b.current < b.blocks.size)
    (hvar : Declared slots var) : code.Stages slots := by
  have hfirst : Grown slots b code.evaluated := adds_expr ctx first code.first_eq hb
  have hstored := hfirst.trans (adds_storeVar hvar code.store_eq hfirst.inside)
  have hlast : Grown slots _ code.bounded :=
    adds_expr ctx last code.last_eq (hstored.addLocal code.shape).inside
  exact ⟨hfirst, hstored, hlast,
    ((hstored.addLocal code.shape).trans hlast).emit (.store (.inr hstored.le.locals))⟩

end ForCode

end Lower

namespace Target

open Site Builder Lower

variable {t : Target} {ctx : LowerContext} {var first last : Bound.Expr} {slots : Nat} {down : Bool}
  {body : List Bound.Stmt} {sp : Span} {b : Builder} {ss : List Bound.Stmt}
  {code : ForCode ctx var first last down body sp b} {s : Spot} {m : Machine} {ops : List Value}

theorem for_begins (hb : b.current < b.blocks.size) (hvar : var.isVar slots)
    (hstored : t.Holds code.stored) {v old : Value}
    (hm : t.Stands (s.on code.evaluated (v :: ops)) m) (hread : t.read s var = some old) :
    m.Proceeds t.program 1 ∧ ∃ s', t.Stands (s'.on code.stored ops) (m.after t.program 1) ∧
      t.read s' var = some v ∧ s'.locals.size = s.locals.size := by
  obtain ⟨hhop, -⟩ := hop_storeVar ops v hvar code.store_eq
    (opens_expr ctx first code.first_eq hb) hstored hread
  obtain ⟨hgo, hm'⟩ := hhop.after hm
  exact ⟨hgo, _, hm', read_write hread, size_write⟩

theorem limit_at (s : Spot) (ops : List Value) (hcode : code.Stages slots)
    (h : code.loop.Installed t slots ss) :
    t.instrAt (s.on code.bounded ops) =
        some ⟨.storeLocal, code.stored.locals.size, 0, last.span.start⟩ ∧
      t.instrAt (next (s.on code.bounded ops) ops) =
        some ⟨.jump, code.limited.blocks.size, 0, sp.start⟩ := by
  have hopen := opens_expr ctx last code.last_eq (hcode.stored.addLocal code.shape).inside
  have hopen' : code.limited.Open := hopen.emit rfl
  have hstore : t.Holds code.limited := h.holds.of_le h.stages.done.le
  have hjump : t.Holds ((code.limited.addBlocks 5).jump code.limited.blocks.size sp.start) :=
    h.holds.of_le (LoopCode.le_jump h.stages)
  rw [ForCode.limited, hopen.emit_eq] at hstore
  rw [(hopen'.addBlocks 5).jump_eq] at hjump
  have hnext : next (s.on code.bounded ops) ops = s.on code.limited ops := by
    rw [next_on hopen.inside, ← hopen.emit_eq]
    rfl
  refine ⟨instrAt_on hopen.inside hstore, ?_⟩
  rw [hnext, ← on_addBlocks hopen' 5]
  exact instrAt_on (hopen'.addBlocks 5).inside hjump

theorem passes_limit (ops : List Value) (v : Value) (hcode : code.Stages slots)
    (h : code.loop.Installed t slots ss)
    (hslot : code.stored.locals.size < s.locals.size) :
    t.Passes (s.on code.bounded (v :: ops))
      (Site.start { s with locals := s.locals.set! code.stored.locals.size v }
        code.limited.blocks.size ops) := by
  have hopen := opens_expr ctx last code.last_eq (hcode.stored.addLocal code.shape).inside
  have hopen' : code.limited.Open := hopen.emit rfl
  have hjump := h.holds.of_le (LoopCode.le_jump h.stages)
  refine .hop (hop_storeLocal_on hopen hslot (h.holds.of_le h.stages.done.le)) (ip_on_emit hopen _ _) ?_
  let limited : Spot := { s with locals := s.locals.set! code.stored.locals.size v }
  have hjump : t.Hop (limited.on _ ops) (Site.start limited _ ops) :=
    hop_jump_on (hopen'.addBlocks 5) hjump
  rw [on_addBlocks hopen' 5] at hjump
  exact hjump.passes

theorem for_counts (hcode : code.Stages slots) (h : code.loop.Installed t slots ss)
    {mk : Int64 → Value} {x y : Int64} (hmk : Value.Ordinal mk)
    (hsize : s.locals.size = t.routine.locals.size)
    (hm : t.Stands (s.on code.bounded (mk y :: ops)) m) (hread : t.read s var = some (mk x))
    (hrounds : t.Rounds code.target code.start var m) :
    ∃ n, t.Stretch code.start code.step code.target.leave var m n
        (LoopCode.held mk (counted down x.toInt y.toInt))
        (LoopCode.held mk (counted down x.toInt y.toInt).dropLast) ∧
      t.isAt code.target.leave (m.after t.program n) = true ∧
      t.valueOf var (m.after t.program n) =
        some (mk (if counted down x.toInt y.toInt = [] then x else y)) := by
  have hslot : code.stored.locals.size < s.locals.size := by
    have hle := h.stages.done.le.locals
    have hbounded := hcode.bounded.le.locals
    have hroutine := h.holds.locals
    rw [Builder.addLocal, Array.size_push] at hbounded
    rw [locals_emit] at hle
    omega
  obtain ⟨n₀, hs₀, hlimit⟩ := (passes_limit ops (mk y) hcode h hslot).aside
    code.start code.step code.target.leave var hm fun _ => by
      have hlt := hcode.bounded.inside
      have hle := (Le.emit code.bounded
        ⟨.storeLocal, code.stored.locals.size, 0, last.span.start⟩).size_le
      simp only [Spot.on, ForCode.start, ForCode.step, ForCode.target, LoopCode.target, ForCode.limited]
      omega
  have hread₀ : t.read (Site.start { s with locals := s.locals.set! code.stored.locals.size (mk y) }
      code.limited.blocks.size ops) var = some (mk x) := (read_hidden h.var h.hidden _ _).trans hread
  have hpass := h.passes_test hmk rfl rfl hread₀ (y := y) (by simp [Site.start, hslot])
  obtain ⟨n₁, hs₁, htest⟩ := hpass.aside code.start code.step code.target.leave var
    hs₀ fun _ => by
      simp only [Site.start, ForCode.start, ForCode.step, ForCode.target, LoopCode.target,
        ForCode.limited]
      omega
  rw [← Machine.after_add] at hs₁
  have hfront := hlimit.trans htest
  by_cases hahead : 0 ≤ ahead down x.toInt y.toInt
  · rw [if_pos hahead] at hs₁
    obtain ⟨n, hrest, hleave, hvalue⟩ := h.counts hmk (Int.toNat_of_nonneg hahead).symm hs₁ rfl rfl
      hread₀ (by simp [Site.start, hslot]) (hrounds.after hfront)
    rw [← Machine.after_add] at hleave hvalue
    refine ⟨_, hfront.trans hrest, hleave, ?_⟩
    rw [if_neg (counted_ne_nil hahead)]
    exact hvalue
  · rw [if_neg hahead] at hs₁
    have hnil := counted_eq_nil (Int.lt_of_not_ge hahead)
    rw [hnil]
    refine ⟨_, hfront, ?_, ?_⟩
    · rw [hs₁.isAt]
      simp [Site.start, ForCode.target, LoopCode.target]
    · rw [hs₁.valueOf, if_pos rfl]
      exact hread₀

/-! ## Statements of a routine -/

theorem holds_of_closeAll {ctx : LowerContext} {sp : Span} (hpool : t.pool = b.pool)
    (hlocals : t.routine.locals = b.locals) (hblocks : t.routine.blocks = closeAll ctx sp b.blocks) :
    t.Holds b := by
  refine ⟨fun i is his => ?_, hpool ▸ List.prefix_refl _, hpool ▸ List.prefix_refl _,
    Nat.le_of_eq (congrArg Array.size hlocals.symm)⟩
  rw [hblocks]
  exact getElem?_closeAll his

theorem Holds.instr? (h : t.Holds b) {k ip : Nat} {i : Instr} (hi : b.blocks.instr? k ip = some i) :
    t.routine.blocks.instr? k ip = some i := by
  obtain ⟨is, his, hi⟩ := Option.bind_eq_some_iff.mp hi
  obtain ⟨is', his', hprefix⟩ := h.blocks k is his
  exact Option.bind_eq_some_iff.mpr ⟨is', his', getElem?_of_isPrefix hprefix hi⟩

theorem installed_of_placed {c : Builder} {ctx' : LowerContext} {sp' : Span}
    {code : ForCode ctx var first last down body sp c} (hc : c.current < c.blocks.size)
    (hvar : Declared slots var)
    (hbody : ∀ s ∈ Bound.Stmt.flattenAll body, Assigns slots s) (hslots : slots ≤ c.locals.size)
    (hholds : t.Holds b) (hblocks : t.routine.blocks = closeAll ctx' sp' b.blocks)
    (hle : Le code.loop.behind b)
    (hfinished : Finished (fun k => Range c code.loop.behind k ∧ k ≠ code.loop.behind.current)
      code.loop.behind b) :
    code.loop.Installed t slots (Bound.Stmt.flattenAll body) := by
  have hstages := code.stages hc hvar
  have hloop := code.loop.stages hstages.limited.inside hvar (lays_stmts ctx body hbody)
  have hhidden : slots ≤ code.stored.locals.size := Nat.le_trans hslots hstages.stored.le.locals
  have hlimit : code.stored.locals.size < code.limited.locals.size := by
    have hlocals := hstages.bounded.le.locals
    rw [Builder.addLocal, Array.size_push] at hlocals
    rw [ForCode.limited, locals_emit]
    exact hlocals
  have hinside : ∀ k, code.loop.Inside k →
      Range c code.loop.behind k ∧ k ≠ code.loop.behind.current := by
    intro k hk
    have hsize := hstages.limited.origin.size
    have hopened := hloop.start.opened
    have hlt := (LoopCode.finished_body hloop).lt hk
    have hne : k ≠ code.loop.behind.current := by
      rintro rfl
      exact LoopCode.not_inside hloop (j := 4) (by omega) (by omega) hk
    refine ⟨⟨.inr ?_, hlt⟩, hne⟩
    rcases hk.1 with rfl | hge
    · exact Nat.le_succ_of_le hsize
    · exact Nat.le_trans (Nat.le_trans hsize (Nat.le_of_add_right_le hopened)) hge
  refine ⟨hloop, hstages.limited.inside, hholds.of_le hle, ?_, isVar_of_storeVar code.store_eq hvar,
    hhidden⟩
  rw [hblocks]
  exact LoopCode.encloses_body hloop hstages.limited.inside hbody hhidden hlimit
    ((LoopCode.finished_body hloop).trans hfinished fun k hk _ => hinside k hk)

end Target

open Lower Builder in
/-- The code of each `for` statement of a routine, however deep it stands, is part of the code of the
routine and counts exactly. -/
theorem lowered_for_counts {units : List CompiledUnit} {p : Program} {k : Nat} {u : LinkedUnit}
    {types : TypeTable} {pool pool' : Pool} {r : Bound.Routine} {code : Routine}
    {var first last : Bound.Expr} {down : Bool} {body : List Bound.Stmt} {sp : Span}
    (callers : List Frame) (hlink : Program.link units = .ok p) (hu : p.units[k]? = some u)
    (hcode : CompiledUnit.lowerRoutine types pool r = .ok (code, pool'))
    (hconsts : pool'.consts.toList <+: u.unit.pool.consts.toList)
    (hglobals : pool'.globals.toList <+: u.unit.pool.globals.toList)
    (hassigns : ∀ s ∈ Bound.Stmt.flattenAll r.body, Assigns r.slots.length s)
    (hfor : .forTo var first last down body sp ∈ Bound.Stmt.flattenAll r.body) :
    ∃ b, ∃ part : ForCode ⟨types, r.name, r.result.isSome⟩ var first last down body sp b,
      (∀ {j ip : Nat} {i : Instr}, part.loop.behind.blocks.instr? j ip = some i →
        code.blocks.instr? j ip = some i) ∧
      part.Counts ⟨p, k, u, hu, code, callers⟩ := by
  obtain ⟨locals, b, hlocals, hstmts, hcodeLocals, rfl, hblocks⟩ := lowerRoutine_ok hcode
  let t : Target :=
    { program := p, unit := k, linked := u, found := hu, routine := code, callers,
      slots := r.slots.length, pool := b.pool, consts := hconsts,
      globals := fun i ref hi => (Program.links_of_link hlink).globals (Array.mem_of_getElem? hu)
        (getElem?_of_isPrefix hglobals hi) }
  have hholds : t.Holds b := Target.holds_of_closeAll rfl hcodeLocals hblocks
  have hlaid := lays_stmts _ r.body hassigns hstmts (opening_open pool locals).inside
  obtain ⟨c, c', hstmt, hfrom, hsize, hle, hfinished⟩ := hlaid.placed _ hfor
  obtain ⟨part, rfl⟩ := forCode_of_stmt hstmt
  have hvar : Declared r.slots.length var := hassigns _ hfor
  have hbody : ∀ s ∈ Bound.Stmt.flattenAll body, Assigns r.slots.length s := by
    intro s hs
    refine hassigns s (Bound.Stmt.flattenAll_trans _ _ hfor s ?_)
    rw [Bound.Stmt.flatten]
    exact List.mem_cons_of_mem _ hs
  have hslots : r.slots.length ≤ c.locals.size := by
    simpa [opening, hlocals] using hsize
  have hinstalled := Target.installed_of_placed (t := t) hfrom.inside hvar hbody hslots hholds hblocks
    hle hfinished
  have hstages := part.stages hfrom.inside hvar
  have hstored : t.Holds part.stored := hinstalled.holds.of_le
    (((Le.addLocal part.stored part.shape).trans (hstages.bounded.le.trans (Le.emit _ _))).trans
      hinstalled.stages.done.le)
  have hlimit := fun s ops => Target.limit_at s ops hstages hinstalled
  exact ⟨c, part, hinstalled.holds.instr?,
    ⟨fun s ops => (hlimit s ops).1, fun s ops => (hlimit s ops).2,
      Target.for_begins hfrom.inside hinstalled.var hstored, Target.for_counts hstages hinstalled⟩⟩

def greatestVar : Bound.Expr := .frameVar 0 0 TypeTable.integer {}

/-- Counts up to the greatest integer. In each round another loop counts down, and the rest of the
round is skipped. -/
def greatest : Bound.Routine :=
  { name := "greatest", symbol := 0, owner := 0, span := {},
    slots := [⟨"i", TypeTable.integer⟩, ⟨"c", TypeTable.char⟩],
    body := [
      .forTo greatestVar
        (.const (.int 9223372036854775806) TypeTable.integer {})
        (.const (.int 9223372036854775807) TypeTable.integer { start := 9 }) false
        [.forTo (.frameVar 1 1 TypeTable.char {}) (.const (.char 98) TypeTable.char {})
          (.const (.char 97) TypeTable.char {}) true [] {}, .continue {}] {}] }

@[irreducible] def greatestCode : Routine × Pool :=
  (CompiledUnit.lowerRoutine .empty {} greatest).toOption.getD default

def greatestUnit : CompiledUnit :=
  { name := "greatest", display := "greatest", pool := greatestCode.2, table := some #[greatestCode.1] }

@[irreducible] def greatestProgram : Program := (Program.link [greatestUnit]).toOption.getD {}

theorem greatest_found : (greatestProgram.units[0]?).isSome = true := by decide +kernel

def greatestSite : Site where
  program := greatestProgram
  unit := 0
  linked := (greatestProgram.units[0]?).get greatest_found
  found := (Option.some_get greatest_found).symm
  routine := greatestCode.1
  callers := []

/-- Both values are evaluated, and the first is stored. -/
def greatestFrame : Frame :=
  { unit := 0, name := "greatest", routine := greatestCode.1, ip := 3,
    locals := #[.int 9223372036854775806, .invalid, .invalid, .invalid],
    operands := [.int 9223372036854775807] }

def greatestMachine : Machine := { heap := .ofBudget 4, maxFrames := 1, frames := [greatestFrame] }

theorem Value.eq_int_of_number {v : Option Value} {n : Int64}
    (h : v.map (fun v => (v.kind, v.number)) = some (.int, n)) : v = some (.int n) := by
  obtain ⟨v, rfl, hv⟩ := Option.map_eq_some_iff.mp h
  obtain ⟨hkind, hnumber⟩ := Prod.mk.inj hv
  cases v with
  | int => exact congrArg (some ∘ Value.int) hnumber
  | _ => cases hkind

theorem greatest_limit_at {k ip : Nat} {i : Instr}
    (hi : (greatestCode.1.blocks[k]?).bind (·[ip]?) = some i) (hop : i.op = .storeLocal)
    (hpos : i.pos = 9) : k = 0 ∧ ip = 3 := by
  have hall : ∀ k < 11, ∀ ip < 5, ((greatestCode.1.blocks[k]?).bind (·[ip]?)).any
      (fun i => i.op == .storeLocal && i.pos == 9) = true → k = 0 ∧ ip = 3 := by decide +kernel
  have hsizes : greatestCode.1.blocks.size = 11 ∧ greatestCode.1.blocks.all (·.size ≤ 5) := by
    decide +kernel
  obtain ⟨is, his, hi'⟩ := Option.bind_eq_some_iff.mp hi
  have hk : k < 11 := hsizes.1 ▸ (Array.getElem?_eq_some_iff.mp his).1
  have hip : is.size ≤ 5 := by
    have hmem := Array.all_eq_true'.mp hsizes.2 is (Array.mem_of_getElem? his)
    exact of_decide_eq_true hmem
  exact hall k hk ip (Nat.lt_of_lt_of_le (Array.getElem?_eq_some_iff.mp hi').1 hip)
    (by rw [hi]; simp [hop, hpos])

/-- The loop is left after 66 steps, and each of its two rounds takes 24. -/
theorem greatest_rounds :
    greatestSite.Rounds ⟨5, 3⟩ 2 greatestVar greatestMachine := by
  have hleave : greatestSite.isAt 5 (greatestMachine.after greatestProgram 66) = true := by
    decide +kernel
  have hstarts : ∀ j < 66, greatestSite.isAt 2 (greatestMachine.after greatestProgram j) = true →
      j ∈ [6, 38] := by decide +kernel
  have hgoes : ∀ j ∈ [6, 38], (greatestMachine.after greatestProgram j).Proceeds greatestProgram 24 := by
    unfold Machine.Proceeds
    decide +kernel
  have hstays : ∀ j ∈ [6, 38], ∀ k < 24,
      greatestSite.Deep ((greatestMachine.after greatestProgram j).after greatestProgram k) ∧
      greatestSite.isAt 3 ((greatestMachine.after greatestProgram j).after greatestProgram k) = false ∧
      greatestSite.isAt 5 ((greatestMachine.after greatestProgram j).after greatestProgram k) = false := by
    unfold Site.Deep
    decide +kernel
  have hcomes : ∀ j ∈ [6, 38], greatestSite.isAt 3
      ((greatestMachine.after greatestProgram j).after greatestProgram 24) = true := by decide +kernel
  have hkeeps : ∀ j ∈ [6, 38], ∀ k ∈ [0, 24], (greatestSite.valueOf greatestVar
      ((greatestMachine.after greatestProgram j).after greatestProgram k)).map
        (fun v => (v.kind, v.number)) =
      some (.int, if j = 6 then 9223372036854775806 else 9223372036854775807) := by decide +kernel
  intro j _ hnotleft hat
  have hlt : j < 66 := by
    refine Nat.lt_of_not_le fun hle => ?_
    exact Bool.false_ne_true ((hnotleft 66 hle).2.symm.trans hleave)
  have hj := hstarts j hlt hat
  have hafter := Value.eq_int_of_number (hkeeps j hj 24 (by decide))
  have hbefore := Value.eq_int_of_number (hkeeps j hj 0 (by decide))
  exact ⟨24, hgoes j hj, hstays j hj, hcomes j hj, hafter.trans hbefore.symm⟩

theorem lowered_for_counts_greatest : ∃ n,
    greatestSite.Stretch 2 4 5 greatestVar greatestMachine n
      [some (.int 9223372036854775806), some (.int 9223372036854775807)]
      [some (.int 9223372036854775806)] ∧
    greatestSite.isAt 5 (greatestMachine.after greatestProgram n) = true ∧
    greatestSite.valueOf greatestVar (greatestMachine.after greatestProgram n) =
      some (.int 9223372036854775807) := by
  have hlink : Program.link [greatestUnit] = .ok greatestProgram := by
    unfold greatestProgram
    exact eq_ok_of_isSome (by decide +kernel)
  have hcode : CompiledUnit.lowerRoutine .empty {} greatest = .ok (greatestCode.1, greatestCode.2) := by
    rw [Prod.eta]
    unfold greatestCode
    exact eq_ok_of_isSome (by decide +kernel)
  have hpool : greatestSite.linked.unit.pool = greatestCode.2 := by
    have hmem := (Program.links_of_link hlink).mem_units (Array.mem_of_getElem? greatestSite.found)
    rw [List.mem_singleton.mp hmem, greatestUnit]
  have hassigns : ∀ s ∈ Bound.Stmt.flattenAll greatest.body, Lower.Assigns greatest.slots.length s := by
    simp [greatest, greatestVar, Bound.Stmt.flattenAll, Bound.Stmt.flatten, Lower.Assigns, Lower.Declared]
  obtain ⟨b, part, -, hcounts⟩ := lowered_for_counts [] hlink greatestSite.found hcode
    (hpool ▸ List.prefix_refl _) (hpool ▸ List.prefix_refl _) hassigns List.mem_cons_self
  let s : Spot := ⟨0, 0, [], greatestFrame.locals, #[]⟩
  obtain ⟨hblock, hip⟩ : part.bounded.current = 0 ∧ part.bounded.block.size = 3 :=
    greatest_limit_at (hcounts.bounds s []) rfl rfl
  have hplace : s.on part.bounded [.int 9223372036854775807] =
      ⟨0, 3, [.int 9223372036854775807], greatestFrame.locals, #[]⟩ := by
    rw [Spot.on, hblock, hip]
  have hloop : part.limited.blocks.size = 1 := by
    have hjump := hcounts.enters s [.int 9223372036854775807]
    rw [hplace] at hjump
    have hentry : (greatestSite.instrAt ⟨0, 4, [], #[], #[]⟩).map (·.a) = some 1 := by decide +kernel
    have heq := (congrArg (Option.map (·.a)) hjump).symm.trans hentry
    exact Int.ofNat_inj.mp (Option.some.inj heq)
  have hstart : part.start = 2 := congrArg (· + 1) hloop
  have hstep : part.step = 4 := congrArg (· + 3) hloop
  have htarget : part.target = ⟨5, 3⟩ := by
    have hleave : part.limited.blocks.size + 4 = 5 := congrArg (· + 4) hloop
    have hnext : part.limited.blocks.size + 2 = 3 := congrArg (· + 2) hloop
    exact congrArg₂ LoopTarget.mk hleave hnext
  have hstands : greatestSite.Stands (s.on part.bounded [.int 9223372036854775807]) greatestMachine := by
    rw [hplace]
    exact ⟨rfl, rfl, rfl, greatestFrame, rfl, rfl, rfl, rfl, rfl, rfl, rfl⟩
  obtain ⟨n, hstretch, hleave, hvalue⟩ := hcounts.counts (s := s) (x := 9223372036854775806)
    (.inr (.inl rfl)) (by decide +kernel) hstands rfl (by rw [hstart, htarget]; exact greatest_rounds)
  have hcounted : counted false (Int64.toInt 9223372036854775806) (Int64.toInt 9223372036854775807) =
      [9223372036854775806, 9223372036854775807] := by decide +kernel
  rw [hstart, hstep, htarget, hcounted] at hstretch
  rw [htarget] at hleave
  exact ⟨n, hstretch, hleave, hvalue⟩

end Pascaline
