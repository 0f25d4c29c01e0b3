import Pascaline.Proofs.Lowering.Preservation
import Pascaline.Proofs.Pool.Contents
import Pascaline.Proofs.Typing.Code

/-!
# Typed code under construction

A builder keeps a chart of what it has built. What the parts of the lowering add to the code, the
slots and the pool is added to the chart.
-/

namespace Pascaline

open TypeTable

/-- What a routine is lowered for: what its code may refer to, the types of the slots that its
expressions name, and whether it returns a result. -/
structure Scene where
  world : World
  slot : Nat → TypeId → Prop
  returns : Bool

/-- Entries are added, and no shape is without elements if none was before. -/
structure Pool.Widens (pool pool' : Pool) : Prop extends pool.Grows pool' where
  solid : (∀ s ∈ pool.shapes, s.Solid) → ∀ s ∈ pool'.shapes, s.Solid

namespace Scene

open Lower

variable {S : Scene} {b b' : Builder} {c c' : Chart} {waiting : List Nat}
  {out out' : Option (List TypeId)} {ts ts' : List TypeId} {i : Instr} {k : Nat}

/-! ## Builders -/

/-- The chart types what the builder has built: at the end of the current block the operands are
`out`, or it is closed. The blocks in `waiting` are still empty. All others are closed, or end
without operands. -/
structure Charts (S : Scene) (b : Builder) (c : Chart) (waiting : List Nat)
    (out : Option (List TypeId)) : Prop where
  pool : c.pool = b.pool
  solid : ∀ s ∈ b.pool.shapes, s.Solid
  returns : c.returns = S.returns
  slots : List.Forall₂ S.world.types.Stored c.slots b.locals.toList
  slot : ∀ n a, S.slot n a → c.slots[n]? = some a
  size : c.labels.length = b.blocks.size
  here : ∃ ts is, c.labels[b.current]? = some ts ∧ b.blocks[b.current]? = some is ∧
    c.Flows S.world ts is out
  nodup : (b.current :: waiting).Nodup
  vacant : ∀ k ∈ waiting, b.Empty k
  rest : ∀ (k : Nat) (ts : List TypeId) (is : Array Instr), k ≠ b.current → k ∉ waiting →
    c.labels[k]? = some ts → b.blocks[k]? = some is →
    ∃ out, out.getD [] = [] ∧ c.Flows S.world ts is out
  loops : ∀ l ∈ b.loops, c.labels[l.leave]? = some [] ∧ c.labels[l.next]? = some []

namespace Charts

theorem isClosed_eq (h : S.Charts b c waiting out) : Lower.isClosed b.block = out.isNone := by
  obtain ⟨ts, is, -, his, hflows⟩ := h.here
  have hblock : b.block = is := by simp [Builder.block, Array.getD_eq_getD_getElem?, his]
  rw [hblock, hflows.isClosed_eq]

theorem lt_size (h : S.Charts b c waiting out) (hk : k ∈ b.current :: waiting) :
    k < b.blocks.size := by
  rcases List.mem_cons.mp hk with rfl | hk
  · obtain ⟨ts, is, -, his, -⟩ := h.here
    exact (Array.getElem?_eq_some_iff.mp his).1
  · exact (h.vacant k hk).lt

theorem extend (h : S.Charts b c waiting out) (hc : c.Le c') (hlabels : c'.labels = c.labels)
    (hblocks : b'.blocks = b.blocks) (hcurrent : b'.current = b.current) (hpool : c'.pool = b'.pool)
    (hsolid : ∀ s ∈ b'.pool.shapes, s.Solid)
    (hslots : List.Forall₂ S.world.types.Stored c'.slots b'.locals.toList)
    (hloops : ∀ l ∈ b'.loops, c'.labels[l.leave]? = some [] ∧ c'.labels[l.next]? = some []) :
    S.Charts b' c' waiting out := by
  refine ⟨hpool, hsolid, hc.returns ▸ h.returns, hslots, ?_, by rw [hlabels, hblocks, h.size], ?_,
    hcurrent ▸ h.nodup, ?_, ?_, hloops⟩
  · exact fun n a ha => getElem?_of_listPrefix hc.slots (h.slot n a ha)
  · obtain ⟨ts, is, hts, his, hflows⟩ := h.here
    exact ⟨ts, is, hlabels ▸ hcurrent ▸ hts, hblocks ▸ hcurrent ▸ his, hflows.mono (.refl _) hc⟩
  · intro k hk
    rw [Builder.Empty, hblocks]
    exact h.vacant k hk
  · intro k ts is hk hwaiting hts his
    obtain ⟨out, hout, hflows⟩ := h.rest k ts is (hcurrent ▸ hk) hwaiting (hlabels ▸ hts) (hblocks ▸ his)
    exact ⟨out, hout, hflows.mono (.refl _) hc⟩

theorem withPool {pool : Pool} (h : S.Charts b c waiting out) (hpool : b.pool.Widens pool) :
    S.Charts { b with pool } { c with pool } waiting out :=
  h.extend ⟨h.pool ▸ hpool.toGrows, rfl, List.prefix_refl _, List.prefix_refl _⟩ rfl rfl rfl rfl
    (hpool.solid h.solid) h.slots h.loops

theorem addLocal {a : TypeId} {shape : Shape} (h : S.Charts b c waiting out)
    (ha : S.world.types.Stored a shape) :
    S.Charts (b.addLocal shape) { c with slots := c.slots ++ [a] } waiting out := by
  refine h.extend ⟨.refl _, rfl, List.prefix_append _ _, List.prefix_refl _⟩ rfl rfl rfl h.pool h.solid ?_ h.loops
  rw [Builder.addLocal, Array.toList_push]
  exact List.rel_append h.slots (.cons ha .nil)

theorem withLoops {loops : List LoopTarget} (h : S.Charts b c waiting out)
    (hloops : ∀ l ∈ loops, c.labels[l.leave]? = some [] ∧ c.labels[l.next]? = some []) :
    S.Charts (b.withLoops loops) c waiting out :=
  h.extend (.refl _) rfl rfl rfl h.pool h.solid h.slots hloops

theorem addBlock (h : S.Charts b c waiting out) (ts : List TypeId) :
    S.Charts b.addBlock { c with labels := c.labels ++ [ts] } (b.blocks.size :: waiting) out := by
  have hle : c.Le { c with labels := c.labels ++ [ts] } :=
    ⟨.refl _, rfl, List.prefix_refl _, List.prefix_append _ _⟩
  have hold : ∀ {k : Nat}, k ≠ b.blocks.size → b.addBlock.blocks[k]? = b.blocks[k]? := by
    intro k hk
    rw [Builder.addBlock, Array.getElem?_push, if_neg hk]
  have hnew : b.blocks.size ∉ b.current :: waiting := fun hmem => Nat.lt_irrefl _ (h.lt_size hmem)
  refine ⟨h.pool, h.solid, h.returns, h.slots, h.slot, by simp [h.size], ?_, ?_, ?_, ?_, ?_⟩
  · obtain ⟨us, is, hus, his, hflows⟩ := h.here
    have hlt := (Array.getElem?_eq_some_iff.mp his).1
    exact ⟨us, is, getElem?_of_listPrefix hle.labels hus, (hold (Nat.ne_of_lt hlt)).trans his,
      hflows.mono (.refl _) hle⟩
  · have hnodup := h.nodup
    simp only [List.nodup_cons, List.mem_cons, not_or] at hnodup hnew ⊢
    exact ⟨⟨Ne.symm hnew.1, hnodup.1⟩, hnew.2, hnodup.2⟩
  · intro k hk
    rcases List.mem_cons.mp hk with rfl | hk
    · exact Builder.Empty.addBlock b
    · exact (h.vacant k hk).more
  · intro k us is hne hk hus his
    rw [hold (List.ne_of_not_mem_cons hk)] at his
    have hlt := (Array.getElem?_eq_some_iff.mp his).1
    rw [List.getElem?_append_left (h.size ▸ hlt)] at hus
    obtain ⟨out, hout, hflows⟩ := h.rest k us is hne (List.not_mem_of_not_mem_cons hk) hus his
    exact ⟨out, hout, hflows.mono (.refl _) hle⟩
  · exact fun l hl => ⟨getElem?_of_listPrefix hle.labels (h.loops l hl).1,
      getElem?_of_listPrefix hle.labels (h.loops l hl).2⟩

theorem perm {waiting' : List Nat} (h : S.Charts b c waiting out) (hperm : waiting.Perm waiting') :
    S.Charts b c waiting' out :=
  { h with
    nodup := (hperm.cons _).nodup_iff.mp h.nodup
    vacant := fun k hk => h.vacant k (hperm.mem_iff.mpr hk)
    rest := fun k ts is hne hk => h.rest k ts is hne fun hmem => hk (hperm.mem_iff.mp hmem) }

theorem dismiss (h : S.Charts b c (k :: waiting) out) (hk : c.labels[k]? = some []) :
    S.Charts b c waiting out := by
  have hnodup := h.nodup
  simp only [List.nodup_cons, List.mem_cons, not_or] at hnodup
  refine ⟨h.pool, h.solid, h.returns, h.slots, h.slot, h.size, h.here, ?_, ?_, ?_, h.loops⟩
  · exact List.nodup_cons.mpr ⟨hnodup.1.2, hnodup.2.2⟩
  · exact fun j hj => h.vacant j (List.mem_cons_of_mem _ hj)
  · intro j ts is hne hj hts his
    by_cases hjk : j = k
    · subst hjk
      obtain rfl : [] = ts := Option.some.inj (hk.symm.trans hts)
      obtain rfl : #[] = is := Option.some.inj ((h.vacant j List.mem_cons_self).symm.trans his)
      exact ⟨some [], rfl, .nil⟩
    · exact h.rest j ts is hne (List.not_mem_cons_of_ne_of_not_mem hjk hj) hts his

theorem goTo (h : S.Charts b c (k :: waiting) out) (hout : out.getD [] = [])
    (hk : c.labels[k]? = some ts) : S.Charts (b.goTo k) c waiting (some ts) := by
  have hnodup := h.nodup
  simp only [List.nodup_cons, List.mem_cons, not_or] at hnodup
  refine ⟨h.pool, h.solid, h.returns, h.slots, h.slot, h.size, ⟨ts, #[], hk, h.vacant k (by simp), .nil⟩, ?_, ?_,
    ?_, h.loops⟩
  · exact List.nodup_cons.mpr hnodup.2
  · exact fun j hj => h.vacant j (List.mem_cons_of_mem _ hj)
  · intro j us is hne hj hus his
    by_cases hcurrent : j = b.current
    · subst hcurrent
      obtain ⟨us', is', hus', his', hflows⟩ := h.here
      obtain rfl : us' = us := Option.some.inj (hus'.symm.trans hus)
      obtain rfl : is' = is := Option.some.inj (his'.symm.trans his)
      exact ⟨out, hout, hflows⟩
    · exact h.rest j us is hcurrent (List.not_mem_cons_of_ne_of_not_mem hne hj) hus his

theorem append (h : S.Charts b c waiting out)
    (hflows : ∀ ts is, c.Flows S.world ts is out → c.Flows S.world ts (is.push i) out') :
    S.Charts (b.append i) c waiting out' := by
  have hother : ∀ {k : Nat}, k ≠ b.current → (b.append i).blocks[k]? = b.blocks[k]? := by
    intro k hk
    rw [Builder.append, Array.getElem?_modify, if_neg (Ne.symm hk)]
  refine ⟨h.pool, h.solid, h.returns, h.slots, h.slot, by simpa [Builder.append] using h.size, ?_, h.nodup, ?_, ?_,
    h.loops⟩
  · obtain ⟨ts, is, hts, his, hflow⟩ := h.here
    refine ⟨ts, is.push i, hts, ?_, hflows ts is hflow⟩
    show (b.append i).blocks[b.current]? = some (is.push i)
    rw [Builder.append, Array.getElem?_modify, if_pos rfl, his, Option.map_some]
  · intro k hk
    have hne : k ≠ b.current := fun heq => (List.nodup_cons.mp h.nodup).1 (heq ▸ hk)
    exact (hother hne).trans (h.vacant k hk)
  · intro k ts is hne hk hts his
    rw [hother hne] at his
    exact h.rest k ts is hne hk hts his

/-- An instruction is added to the current block, or, if that is closed, to a new one, which nothing
leads to. -/
theorem emit (h : S.Charts b c waiting out)
    (hflows : ∀ {c' us is}, c.Le c' → c'.Flows S.world us is (some (out.getD [])) →
      c'.Flows S.world us (is.push i) out') :
    ∃ c', c.Le c' ∧ S.Charts (b.emit i) c' waiting out' := by
  cases out with
  | some ts =>
    refine ⟨c, .refl c, ?_⟩
    rw [Builder.emit, h.isClosed_eq]
    exact h.append fun us is hflow => hflows (.refl c) hflow
  | none =>
    have hle : c.Le { c with labels := c.labels ++ [[]] } :=
      ⟨.refl _, rfl, List.prefix_refl _, List.prefix_append _ _⟩
    refine ⟨_, hle, ?_⟩
    rw [Builder.emit, h.isClosed_eq]
    have hnew : (c.labels ++ [[]])[b.blocks.size]? = some [] := by simp [← h.size]
    exact ((h.addBlock []).goTo rfl hnew).append fun us is hflow => hflows hle hflow

theorem jump {pos : Nat} (h : S.Charts b c waiting out) (hk : c.labels[k]? = some (out.getD [])) :
    S.Charts (b.jump k pos) c waiting none := by
  unfold Builder.jump
  cases out with
  | none =>
    rw [h.isClosed_eq]
    exact h
  | some ts =>
    rw [Builder.emit, h.isClosed_eq]
    exact h.append fun us is hflow => hflow.close (.jump rfl (listed_ofNat.mpr hk))

theorem branch {yes no pos : Nat} (h : S.Charts b c waiting out) (hout : out.getD [] = boolean :: ts)
    (hyes : c.labels[yes]? = some ts) (hno : c.labels[no]? = some ts) :
    S.Charts (b.branch yes no pos) c waiting none := by
  cases out with
  | none => cases hout
  | some us =>
    obtain rfl : us = boolean :: ts := hout
    rw [Builder.branch, Builder.emit, h.isClosed_eq]
    exact h.append fun us is hflow =>
      hflow.close (.branch rfl (listed_ofNat.mpr hyes) (listed_ofNat.mpr hno))

end Charts

/-! ## Operands -/

/-- The chart types what the builder has built, and there are these operands. If there are none the
current block may be closed. -/
def Stacked (S : Scene) (b : Builder) (c : Chart) (waiting : List Nat) (ts : List TypeId) : Prop :=
  ∃ out, out.getD [] = ts ∧ S.Charts b c waiting out

/-- There are no operands, as between statements. -/
def Settled (S : Scene) (b : Builder) (c : Chart) : Prop := S.Stacked b c [] []

theorem Stacked.emit (h : S.Stacked b c waiting ts) (hi : i.Typed S.world c ts ts') :
    ∃ c', c.Le c' ∧ S.Stacked (b.emit i) c' waiting ts' := by
  obtain ⟨out, rfl, hb⟩ := h
  obtain ⟨c', hle, hb'⟩ := hb.emit fun hle hflow => hflow.step (hi.mono (.refl _) hle)
  exact ⟨c', hle, some ts', rfl, hb'⟩

theorem Stacked.branch {yes no pos : Nat} (h : S.Stacked b c [] [boolean])
    (hyes : c.labels[yes]? = some []) (hno : c.labels[no]? = some []) :
    S.Settled (b.branch yes no pos) c := by
  obtain ⟨out, hout, hb⟩ := h
  exact ⟨none, rfl, hb.branch hout hyes hno⟩

theorem Settled.jump {pos : Nat} (h : S.Settled b c) (hk : c.labels[k]? = some []) :
    S.Settled (b.jump k pos) c := by
  obtain ⟨out, hout, hb⟩ := h
  exact ⟨none, rfl, hb.jump (by rw [hout]; exact hk)⟩

theorem Settled.goTo (h : S.Settled b c) (hk : c.labels[k]? = some []) : S.Settled (b.goTo k) c := by
  obtain ⟨out, hout, hb⟩ := h
  by_cases hcurrent : k = b.current
  · subst hcurrent
    exact ⟨out, hout, hb⟩
  have hlt : k < b.blocks.size := hb.size ▸ (List.getElem?_eq_some_iff.mp hk).1
  have hblock : b.blocks[k]? = some b.blocks[k] := Array.getElem?_eq_getElem hlt
  obtain ⟨out', hout', hflows⟩ := hb.rest k [] _ hcurrent (by simp) hk hblock
  refine ⟨out', hout', hb.pool, hb.solid, hb.returns, hb.slots, hb.slot, hb.size, ⟨[], _, hk, hblock, hflows⟩,
    by simp, by simp, ?_, hb.loops⟩
  intro j ts is hne _ hts his
  by_cases hj : j = b.current
  · subst hj
    obtain ⟨us, is', hus, his', hflows⟩ := hb.here
    obtain rfl : us = ts := Option.some.inj (hus.symm.trans hts)
    obtain rfl : is' = is := Option.some.inj (his'.symm.trans his)
    exact ⟨out, hout, hflows⟩
  · exact hb.rest j ts is hj (by simp) hts his

theorem Settled.addBlocks (h : S.Settled b c) (n : Nat) :
    ∃ c', c.Le c' ∧ S.Settled (b.addBlocks n) c' ∧
      ∀ j < n, c'.labels[b.blocks.size + j]? = some [] := by
  induction n with
  | zero => exact ⟨c, .refl c, h, by simp⟩
  | succ n ih =>
    obtain ⟨c₁, hle, ⟨out, hout, hb⟩, hlabels⟩ := ih
    have hsize := hb.size
    have hnew := hb.addBlock []
    rw [Builder.size_addBlocks] at hsize hnew
    have hle' : c₁.Le { c₁ with labels := c₁.labels ++ [[]] } :=
      ⟨.refl _, rfl, List.prefix_refl _, List.prefix_append _ _⟩
    have hlast : (c₁.labels ++ [[]])[b.blocks.size + n]? = some [] := by simp [← hsize]
    refine ⟨_, hle.trans hle', ⟨out, hout, hnew.dismiss hlast⟩, fun j hj => ?_⟩
    by_cases hlt : j < n
    · exact getElem?_of_listPrefix hle'.labels (hlabels j hlt)
    · obtain rfl : j = n := by omega
      exact hlast

/-! ## The pool -/

section Pools

variable {pool : Pool}

theorem widens_addConst (v : Value) : pool.Widens (pool.addConst v).2 :=
  ⟨{ Pool.Grows.refl pool with consts := Builder.enter_prefix _ _ _ }, id⟩

theorem widens_addCall (ref : RoutineRef) : pool.Widens (pool.addCall ref).2 :=
  ⟨{ Pool.Grows.refl pool with calls := Builder.enter_prefix _ _ _ }, id⟩

theorem widens_addGlobal (ref : GlobalRef) : pool.Widens (pool.addGlobal ref).2 :=
  ⟨{ Pool.Grows.refl pool with globals := Builder.enter_prefix _ _ _ }, id⟩

theorem widens_addNative (name : String) : pool.Widens (pool.addNative name).2 :=
  ⟨{ Pool.Grows.refl pool with natives := Builder.enter_prefix _ _ _ }, id⟩

theorem widens_addShape {s : Shape} (hs : s.Solid) : pool.Widens (pool.addShape s).2 := by
  have hle := Builder.enter_prefix (fun x y : Shape => x.render == y.render) pool.shapes s
  refine ⟨{ Pool.Grows.refl pool with shapes := hle }, fun hsolid s' hs' => ?_⟩
  change s' ∈ (Pool.enter (fun x y : Shape => x.render == y.render) pool.shapes s).2 at hs'
  unfold Pool.enter at hs'
  split at hs'
  · exact hsolid s' hs'
  · rcases Array.mem_push.mp hs' with hs' | rfl
    · exact hsolid s' hs'
    · exact hs

theorem listed_enter {α : Type} [BEq α] [LawfulBEq α] (xs : Array α) (x : α) :
    Listed (Pool.enter (· == ·) xs x).2.toList ((Pool.enter (· == ·) xs x).1 : Nat) x := by
  obtain ⟨y, hy, rfl | hyx⟩ := Target.enter_same (· == ·) xs x
  · exact listed_ofNat.mpr (by rwa [Array.getElem?_toList])
  · exact listed_ofNat.mpr (by rw [Array.getElem?_toList, hy, eq_of_beq hyx])

theorem listed_addCall (ref : RoutineRef) :
    Listed (pool.addCall ref).2.calls.toList ((pool.addCall ref).1 : Nat) ref :=
  listed_enter pool.calls ref

theorem listed_addGlobal (ref : GlobalRef) :
    Listed (pool.addGlobal ref).2.globals.toList ((pool.addGlobal ref).1 : Nat) ref :=
  listed_enter pool.globals ref

theorem listed_addNative (name : String) :
    Listed (pool.addNative name).2.natives.toList ((pool.addNative name).1 : Nat) name :=
  listed_enter pool.natives name

theorem has_sameConstant {t : TypeTable} {a : TypeId} {v w : Value} (h : w.sameConstant v = true)
    (hv : t.Has .none a v) : t.Has .none a w := by
  obtain ⟨s, hs, hv⟩ := hv
  refine ⟨s, hs, ?_⟩
  unfold Value.sameConstant at h
  split at h
  case h_5 =>
    cases hv
    exact .real _
  all_goals simp_all

theorem listed_addConst {t : TypeTable} {a : TypeId} {v : Value} (hv : t.Has .none a v) :
    ∃ w, Listed (pool.addConst v).2.consts.toList ((pool.addConst v).1 : Nat) w ∧ t.Has .none a w := by
  obtain ⟨w, hw, hwv⟩ := Target.enter_same Value.sameConstant pool.consts v
  refine ⟨w, listed_ofNat.mpr (by rwa [Array.getElem?_toList]), ?_⟩
  rcases hwv with rfl | hsame
  · exact hv
  · exact has_sameConstant hsame hv

theorem listed_addShape {s : Shape} (hsolid : ∀ s' ∈ pool.shapes, s'.Solid) (hs : s.Solid) :
    Listed (pool.addShape s).2.shapes.toList ((pool.addShape s).1 : Nat) s := by
  obtain ⟨s', hs', heq⟩ := Target.enter_same (fun x y : Shape => x.render == y.render) pool.shapes s
  refine listed_ofNat.mpr ?_
  rw [Array.getElem?_toList]
  rcases heq with rfl | hsame
  · exact hs'
  · have hsolid' : s'.Solid := (widens_addShape hs).solid hsolid s' (Array.mem_of_getElem? hs')
    rwa [(Shape.render_inj hsolid' hs).mp (eq_of_beq hsame)] at hs'

end Pools

/-! ## Code of expressions -/

/-- Code that finds operands of these types on top of the stack and leaves others in their place. -/
def Turns (S : Scene) (x : Lower Unit) (pre post : List TypeId) : Prop :=
  ∀ ⦃b b' : Builder⦄ ⦃c : Chart⦄ ⦃waiting : List Nat⦄ ⦃ts : List TypeId⦄, x b = .ok ((), b') →
    S.Stacked b c waiting (pre ++ ts) → ∃ c', c.Le c' ∧ S.Stacked b' c' waiting (post ++ ts)

variable {x y : Lower Unit} {pre mid post : List TypeId} {ctx : LowerContext}

theorem turns_pure : S.Turns (pure ()) pre pre := by
  intro b b' c waiting ts h hb
  obtain ⟨-, rfl⟩ := pure_ok.mp h
  exact ⟨c, .refl c, hb⟩

theorem Turns.seq (hx : S.Turns x pre mid) (hy : S.Turns y mid post) :
    S.Turns (x >>= fun _ => y) pre post := by
  intro b b' c waiting ts h hb
  obtain ⟨_, b₁, h₁, h⟩ := bind_ok.mp h
  obtain ⟨c₁, hle₁, hb₁⟩ := hx h₁ hb
  obtain ⟨c', hle, hb'⟩ := hy h hb₁
  exact ⟨c', hle₁.trans hle, hb'⟩

theorem Turns.above (hx : S.Turns x pre post) (us : List TypeId) :
    S.Turns x (pre ++ us) (post ++ us) := by
  intro b b' c waiting ts h hb
  rw [List.append_assoc] at hb ⊢
  exact hx h hb

theorem turns_of_emit (hx : ∀ {b b' : Builder}, x b = .ok ((), b') →
      (∀ s ∈ b.pool.shapes, s.Solid) → ∃ pool i, b.pool.Widens pool ∧
        b' = Builder.emit { b with pool } i ∧ ∀ (c : Chart) ts, c.pool = pool →
          (∀ n a, S.slot n a → c.slots[n]? = some a) → i.Typed S.world c (pre ++ ts) (post ++ ts)) :
    S.Turns x pre post := by
  intro b b' c waiting ts h hb
  obtain ⟨out, hout, hb⟩ := hb
  obtain ⟨pool, i, hpool, rfl, hi⟩ := hx h hb.solid
  have hb₁ := hb.withPool hpool
  obtain ⟨c', hle, hb'⟩ := Stacked.emit ⟨out, hout, hb₁⟩ (hi _ ts rfl hb₁.slot)
  have hle₁ : c.Le { c with pool } :=
    ⟨hb.pool ▸ hpool.toGrows, rfl, List.prefix_refl _, List.prefix_refl _⟩
  exact ⟨c', hle₁.trans hle, hb'⟩

theorem turns_emit {o : Op} {m n : Int} {sp : Span}
    (hi : ∀ (c : Chart) ts, (∀ n a, S.slot n a → c.slots[n]? = some a) →
      Instr.Typed S.world c ⟨o, m, n, sp.start⟩ (pre ++ ts) (post ++ ts)) :
    S.Turns (emit o m n sp) pre post := by
  refine turns_of_emit fun {b b'} h _ => ?_
  rw [emit_eq] at h
  cases h
  exact ⟨b.pool, _, ⟨.refl _, id⟩, rfl, fun c ts _ hslot => hi c ts hslot⟩

theorem turns_op {o : Op} {sp : Span}
    (hi : ∀ c ts, Instr.Typed S.world c ⟨o, 0, 0, sp.start⟩ (pre ++ ts) (post ++ ts)) :
    S.Turns (op o sp) pre post :=
  turns_emit fun c ts _ => hi c ts

theorem turns_pooled {f : Pool → Nat × Pool} {o : Op} {n : Int} {sp : Span}
    (hf : ∀ pool : Pool, pool.Widens (f pool).2)
    (hi : ∀ (pool : Pool) (c : Chart) ts, c.pool = (f pool).2 →
      Instr.Typed S.world c ⟨o, ((f pool).1 : Nat), n, sp.start⟩ (pre ++ ts) (post ++ ts)) :
    S.Turns (pooled f >>= fun k => emit o k n sp) pre post := by
  refine turns_of_emit fun {b b'} h _ => ?_
  obtain ⟨k, b₁, h₁, h⟩ := bind_ok.mp h
  cases h₁
  rw [emit_eq] at h
  cases h
  exact ⟨_, _, hf b.pool, rfl, fun c ts hpool _ => hi b.pool c ts hpool⟩

theorem turns_constant {v : Value} {a : TypeId} {sp : Span} (hv : S.world.types.Has .none a v) :
    S.Turns (constant v sp) [] [a] := by
  refine turns_pooled (fun pool => widens_addConst v) fun pool c ts hpool => ?_
  obtain ⟨w, hw, ha⟩ := @listed_addConst pool _ _ _ hv
  exact .const rfl (hpool ▸ hw) ha

theorem turns_loadGlobal {m : String} {k : Int} {a : TypeId} {sp : Span}
    (ha : S.world.global m k a) :
    S.Turns (pooled (·.addGlobal ⟨m, k⟩) >>= fun n => emit .loadGlobal n 0 sp) [] [a] :=
  turns_pooled (fun _ => widens_addGlobal _) fun _ _ _ hpool =>
    .loadGlobal rfl (hpool ▸ listed_addGlobal _) ha

theorem turns_storeGlobal {m : String} {k : Int} {a b : TypeId} {sp : Span}
    (hb : S.world.global m k b) (hfits : S.world.types.Fits a b) :
    S.Turns (pooled (·.addGlobal ⟨m, k⟩) >>= fun n => emit .storeGlobal n 0 sp) [a] [] :=
  turns_pooled (fun _ => widens_addGlobal _) fun _ _ _ hpool =>
    .storeGlobal rfl (hpool ▸ listed_addGlobal _) hb hfits

theorem turns_loadLocal {n : Nat} {a : TypeId} {sp : Span} (ha : S.slot n a) :
    S.Turns (emit .loadLocal n 0 sp) [] [a] :=
  turns_emit fun _ _ hslot => .loadLocal rfl (listed_ofNat.mpr (hslot n a ha))

theorem turns_storeLocal {n : Nat} {a b : TypeId} {sp : Span} (hb : S.slot n b)
    (hfits : S.world.types.Fits a b) : S.Turns (emit .storeLocal n 0 sp) [a] [] :=
  turns_emit fun _ _ hslot => .storeLocal rfl (listed_ofNat.mpr (hslot n b hb)) hfits

theorem turns_elementShape {o : Op} {e : TypeId} {sp : Span} (hctx : ctx.types = S.world.types)
    (he : S.world.types.Storable e)
    (hi : ∀ (s : Shape) (k : Int) (c : Chart) ts, Listed c.pool.shapes.toList k s →
      S.world.types.Stored e s → Instr.Typed S.world c ⟨o, k, 0, sp.start⟩ (pre ++ ts) (post ++ ts)) :
    S.Turns (elementShape ctx e >>= fun k => emit o k 0 sp) pre post := by
  refine turns_of_emit fun {b b'} h hsolid => ?_
  obtain ⟨k, b₁, h₁, h⟩ := bind_ok.mp h
  obtain ⟨s, b₂, hlift, hadd⟩ := bind_ok.mp h₁
  obtain ⟨hs, rfl⟩ := lift_ok.mp hlift
  cases hadd
  rw [emit_eq] at h
  cases h
  have hsolid' : s.Solid := Shape.OfSlot.solid ⟨_, _, hs⟩
  refine ⟨_, _, widens_addShape hsolid', rfl, fun c ts hpool _ => hi s _ c ts ?_ ?_⟩
  · exact hpool ▸ listed_addShape hsolid hsolid'
  · exact he.stored (hctx ▸ hs)

end Scene

end Pascaline
