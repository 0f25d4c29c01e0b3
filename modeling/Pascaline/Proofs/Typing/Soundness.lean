import Pascaline.Proofs.Machine.NilCalls
import Pascaline.Proofs.Typing.Instructions

/-!
# Type safety

A program whose units come from sources without classes keeps to its types as it runs: each slot
holds a value of its shape, no instruction lacks an operand, and the only operand of a wrong kind
that an instruction can meet is a nil that is called.
-/

namespace Pascaline

open TypeTable

/-! ## Steps -/

namespace Machine

/-- The next step executes this instruction. -/
structure Fetches (p : Program) (m : Machine) (f : Frame) (i : Instr) (u : LinkedUnit) : Prop where
  halted : m.halted = false
  frame : m.frames.head? = some f
  instr : f.instr? = some i
  unit : p.units[f.unit]? = some u

/-- An instruction that makes an array whose elements have this shape. -/
def MakesArray (p : Program) (m : Machine) (s : Shape) : Prop :=
  ∃ f i u, m.Fetches p f i u ∧ (i.op = .newArray ∨ i.op = .newCell) ∧
    Listed u.unit.pool.shapes.toList i.a s

end Machine

open Machine

variable {W : World} {p : Program} {vars : List (List TypeId)} {tags : List TypeId} {m m' : Machine}
  {S : Referents} {x : Stance} {ts ts' : List TypeId} {f : Frame} {i : Instr} {c : Chart}

theorem Instr.Typed.count_nonneg (h : i.Typed W c ts ts') (hop : i.op = .callIndirect) : 0 ≤ i.b := by
  cases h with
  | callIndirect _ hb => omega
  | @binary o _ _ _ _ hop' =>
    rw [hop] at hop'
    cases o <;> cases hop'
  | count hop' => rcases hop' with hop' | hop' <;> cases hop.symm.trans hop'
  | _ => simp_all

theorem Frame.At.instr?_eq (hf : f.At W p S x ts) : f.instr? = x.routine.blocks.instr? x.block x.ip := by
  have hblock : ¬(x.block : Int) < 0 := by omega
  rw [Frame.instr?, hf.block, hf.routine, hf.ip, if_neg hblock, Int.toNat_natCast]
  rfl

theorem Frame.At.exists_instr (hf : f.At W p S x x.here) (hready : x.Ready) :
    ∃ i, f.instr? = some i ∧ (i.Typed W x.chart x.here (x.stack x.block (x.ip + 1)) ∧
      Stance.Ready { x with ip := x.ip + 1 } ∨ i.Ends x.chart x.here) := by
  obtain ⟨i, hi⟩ := Option.isSome_iff_exists.mp hready
  exact ⟨i, hf.instr?_eq.trans hi, hf.follows.covers.place hi⟩

namespace Machine.MakesArray

variable {s : Shape}

theorem frames_ne_nil (h : m.MakesArray p s) : m.frames ≠ [] := by
  obtain ⟨f, i, u, h, -⟩ := h
  intro hframes
  have hhead := h.frame
  rw [hframes] at hhead
  cases hhead

theorem of_fetched {rest : List Frame} {u : LinkedUnit} (h : m.MakesArray p s)
    (hframes : m.frames = f :: rest) (hi : f.instr? = some i) (hu : p.units[f.unit]? = some u) :
    (i.op = .newArray ∨ i.op = .newCell) ∧ Listed u.unit.pool.shapes.toList i.a s := by
  obtain ⟨f', i', u', h, hmakes⟩ := h
  have hhead := h.frame
  rw [hframes] at hhead
  cases hhead
  cases h.instr.symm.trans hi
  cases h.unit.symm.trans hu
  exact hmakes

end Machine.MakesArray

namespace Exec

/-- What a step of a typed machine leaves. -/
def Steps (W : World) (p : Program) (vars : List (List TypeId)) (m : Machine) (S : Referents)
    (m' : Machine) : Prop :=
  Running W p vars S m' ∧ ∀ s, m.MakesArray p s → Tops W s S m'

theorem lasting_finds : Lasting W fun S m => Busy W p vars x ts S m ∧ FindsRoutine i m :=
  ⟨fun h hframes hglobals hpending => ⟨lasting_busy.same h.1 hframes hglobals hpending,
    fun hop => hframes ▸ h.2 hop⟩, fun h hS => ⟨lasting_busy.spares h.1 hS, h.2⟩⟩

theorem keeps_launching {e : Program.EntryPoint} {rest : List Program.EntryPoint}
    (hm : Keeps W (Running W p vars) tags [] [] [] m) (hframes : m.frames = [])
    (hpending : m.pending = e :: rest) :
    Keeps W (Calling W p vars ⟨[], 0⟩) tags [] [] [] { m with pending := rest } ∧ e ∈ p.entries := by
  obtain ⟨tags', htags, hh, ⟨hst, -⟩, -⟩ := hm
  have hall := hst.pending
  rw [hpending, List.forall_mem_cons] at hall
  refine ⟨⟨tags', htags, hh, ⟨⟨hst.globals, hall.2⟩, ?_⟩, .nil⟩, hall.1⟩
  show Waits W p _ _ m.frames
  rw [hframes]
  exact .nil

theorem keeps_fetching {rest : List Frame} (hm : Keeps W (Running W p vars) tags [] [] [] m)
    (hhalted : m.halted = false) (hstopping : m.stopping = false) (hframes : m.frames = f :: rest)
    (hnil : ∀ f rest i, ¬m.CallsValue p f rest i .nil) :
    ∃ (x : Stance) (i : Instr), f.instr? = some i ∧ p.units[f.unit]? = some x.unit ∧
      (i.Typed W x.chart x.here (x.stack x.block (x.ip + 1)) ∧ Stance.Ready { x with ip := x.ip + 1 } ∨
        i.Ends x.chart x.here) ∧
      ∀ span, Keeps W (fun S m => Busy W p vars { x with ip := x.ip + 1 } x.here S m ∧
        FindsRoutine i m) tags [] [] []
          { m with frames := { f with state := .running, span, ip := f.ip + 1 } :: rest } := by
  obtain ⟨tags', htags, hh, ⟨hst, hrunning⟩, -⟩ := hm
  obtain ⟨x, hf, hready, hrest⟩ := hrunning f rest hframes
  obtain ⟨i, hi, hplace⟩ := hf.exists_instr hready
  refine ⟨x, i, hi, hf.unit, hplace, fun span => ?_⟩
  refine ⟨tags', htags, hh, ⟨⟨hst.same rfl rfl, _, rest, rfl, ?_, hrest⟩, fun hop hcall => ?_⟩, .nil⟩
  · exact ⟨hf.follows, hf.unit, hf.routine, hf.block, congrArg (· + 1) hf.ip, hf.locals, hf.operands⟩
  · refine hnil f rest i ⟨hhalted, hstopping, hframes, hi, by simp [hf.unit], hop, ?_, hcall⟩
    rcases hplace with ⟨htyped, -⟩ | hends
    · exact htyped.count_nonneg hop
    · have hterm := hends.isTerminator
      rw [hop] at hterm
      cases hterm

theorem step_keeps (hp : p.Typed W vars) (hm : Keeps W (Running W p vars) tags [] [] [] m)
    (hnil : ∀ f rest i, ¬m.CallsValue p f rest i .nil) :
    Triple (fun m' => m' = m) (Exec.step p) (fun _ => Keeps W (Steps W p vars m) tags [] [] [])
      Harmless := by
  have hidle : ∀ {m'}, m' = m → (∀ s, ¬m.MakesArray p s) →
      Keeps W (Steps W p vars m) tags [] [] [] m' := by
    rintro _ rfl hnone
    exact hm.imp fun S hq _ => ⟨hq, fun s hs => absurd hs (hnone s)⟩
  refine Triple.bind Triple.get fun m₁ => Triple.fact (p := m₁ = m) (fun m' h => h.1.trans h.2) ?_
  rintro rfl
  refine Triple.ite (fun hhalted => Triple.pure fun m' h => hidle h.2 fun s hs => ?_) fun hhalted => ?_
  · obtain ⟨f, i, u, h, -⟩ := hs
    cases hhalted.symm.trans h.halted
  refine Triple.unless (fun _ m _ => harmless_raise rfl m m) fun hstopping => ?_
  rw [Bool.not_eq_true] at hhalted hstopping
  split
  case h_1 hframes _ =>
    exact Triple.pure fun m' h => hidle h.2 fun s hs => hs.frames_ne_nil hframes
  case h_2 e rest hframes hpending =>
    obtain ⟨hset, he⟩ := keeps_launching hm hframes hpending
    obtain ⟨c, hc, hruns⟩ := hp.entries e he
    refine Triple.bind (R := fun _ => Keeps W (Calling W p vars ⟨[], 0⟩) tags [] [] [])
      (Triple.set fun m' _ => hset) fun _ => ?_
    rw [hc]
    refine Triple.bind (frameWords_keeps _) fun words => ?_
    refine Triple.bind (reserve_keeps lasting_calling words) fun _ => ?_
    exact (enter_keeps hp hruns).post fun _ m' hm' => hm'.imp fun S hq _ =>
      ⟨hq, fun s hs => absurd hframes hs.frames_ne_nil⟩
  case h_3 f rest hframes =>
    obtain ⟨x, i, hi, hu, hplace, hset⟩ := keeps_fetching hm hhalted hstopping hframes hnil
    rw [hi, hu]
    dsimp only
    refine Triple.bind (R := fun _ => Keeps W (fun S m => Busy W p vars { x with ip := x.ip + 1 }
      x.here S m ∧ FindsRoutine i m) tags [] [] []) (Triple.set fun m' _ => hset _) fun _ => ?_
    refine Triple.bind (log_keeps lasting_finds _) fun _ => ?_
    refine Triple.post (R := fun _ => Keeps W (Leaves W p vars x.unit i) tags [] [] [])
      (Triple.marking (E := fun e => ∀ t, e = .fault t → t.cause.isMistyped = false)
        ((instr_keeps hp (x := { x with ip := x.ip + 1 }) hplace).pre fun m' hm' => ?_))
      fun _ m' hm' => hm'.imp fun S hq _ => ⟨hq.1, fun s hs => ?_⟩
    · obtain ⟨tags', htags, hh, hq, -⟩ := hm'
      exact ⟨⟨tags', htags, hh, hq.1, .nil⟩, hq.2⟩
    · obtain ⟨hop, hshape⟩ := hs.of_fetched hframes hi hu
      exact hq.2 s hop hshape

end Exec

/-! ## Runs -/

namespace Machine

/-- A machine whose heap, variables and frames are typed by these tags. -/
def Sane (W : World) (p : Program) (vars : List (List TypeId)) (tags : List TypeId) (m : Machine) :
    Prop :=
  m.heap.Typed W tags [] ∧ Running W p vars (m.heap.referents W tags) m

/-- A machine that has made the variables of some units. -/
def Preparing (W : World) (vars : List (List TypeId)) (S : Referents) (m : Machine) : Prop :=
  m.frames = [] ∧ m.pending = [] ∧ List.Forall₂
    (fun as (g : Array Value) => List.Forall₂ (W.types.Has S) as g.toList) vars m.globals.toList

theorem lasting_preparing : Lasting W (Preparing W vars) := by
  refine ⟨fun h hframes hglobals hpending => ?_, fun h hS => ⟨h.1, h.2.1, ?_⟩⟩
  · exact ⟨hframes.trans h.1, hpending.trans h.2.1, hglobals ▸ h.2.2⟩
  · refine (forall₂_mono_mem h.2.2.flip fun g hg as has => ?_).flip
    refine (forall₂_mono_mem has.flip fun v hv a ha => hS v ?_ a ha).flip
    exact mem_roots.mpr (.inl ⟨g, Array.mem_toList_iff.mp hg, Array.mem_toList_iff.mp hv⟩)

theorem makeGlobals_keeps (hW : W.types.Plain) {us : List LinkedUnit} {more : List (List TypeId)}
    (hus : List.Forall₂ (fun as (u : LinkedUnit) =>
      List.Forall₂ W.types.Stored as (u.unit.globals.map (·.shape))) more us) :
    Exec.Triple (Keeps W (Preparing W vars) tags [] [] []) (makeGlobals us)
      (fun _ => Keeps W (Preparing W (vars ++ more)) tags [] [] []) Exec.Harmless := by
  induction hus generalizing vars with
  | nil => exact Exec.Triple.pure fun m hm => by rwa [List.append_nil]
  | @cons as u more us has _ ih =>
    unfold makeGlobals
    refine Exec.Triple.bind (Exec.reserve_keeps lasting_preparing _) fun _ => ?_
    refine Exec.Triple.bind (Exec.zeroAll_keeps hW lasting_preparing has) fun vs => ?_
    rw [List.append_cons]
    refine Exec.Triple.bind (R := fun _ => Keeps W (Preparing W (vars ++ [as])) tags [] [] [])
      (Exec.Triple.modify ?_) fun _ => ih
    rintro m ⟨⟨tags', htags, hh, hq, hvs⟩, -⟩
    rw [List.append_nil, List.append_nil] at hvs
    refine ⟨tags', htags, hh, ⟨hq.1, hq.2.1, ?_⟩, .nil⟩
    rw [Array.toList_push]
    exact List.rel_append hq.2.2 (.cons hvs .nil)

theorem start_sane (hp : p.Typed W vars) {o : RunOptions} (h : start p o = .ok m) :
    ∃ tags, m.Sane W p vars tags := by
  have hblank : Keeps W (Preparing W []) [] [] [] [] (blank o) := by
    refine ⟨[], List.prefix_refl [], ⟨Heap.sound_ofBudget _, rfl, by simp, ?_, ?_⟩, ⟨rfl, rfl, .nil⟩, .nil⟩
    · intro k c hc
      simp [blank, Heap.get?_ofBudget] at hc
    · intro k c e hc
      simp [blank, Heap.get?_ofBudget] at hc
  have hmade := makeGlobals_keeps hp.plain hp.storage (blank o) hblank
  unfold start at h
  cases hx : makeGlobals p.units.toList (blank o) with
  | error e m' =>
    rw [hx] at h
    cases h
  | ok a m' =>
    rw [hx] at h hmade
    cases h
    obtain ⟨tags, -, hh, ⟨hframes, -, hglobals⟩, -⟩ := hmade
    refine ⟨tags, hh, ⟨hglobals, fun e he => he⟩, fun f rest hfs => ?_⟩
    cases hfs.symm.trans hframes

theorem step_of_stop (h : (m.step p).stop = none) : Exec.step p m = .ok () (m.step p).machine := by
  unfold step at h ⊢
  cases hx : Exec.step p m with
  | ok a m' => rfl
  | error e m' =>
    rw [hx] at h
    cases h

theorem Sane.keeps (h : m.Sane W p vars tags) : Keeps W (Running W p vars) tags [] [] [] m :=
  ⟨tags, List.prefix_refl _, h.1, h.2, .nil⟩

/-- Only a call of a nil raises a type mismatch, and nothing raises invalid code. -/
theorem Sane.fault (hp : p.Typed W vars) (h : m.Sane W p vars tags) {t : Fault}
    (hstop : (m.step p).stop = some (.fault t)) :
    (∀ bad, t.cause ≠ .invalidCode bad) ∧ ∀ mismatch, t.cause = .typeMismatch mismatch →
      ∃ f rest i v, m.CallsValue p f rest i v ∧ v.isNil = true := by
  by_cases hnil : ∃ f rest i, m.CallsValue p f rest i .nil
  · obtain ⟨f, rest, i, hcall⟩ := hnil
    obtain ⟨t', ht', hcause, -⟩ := (hcall.faults rfl).fault
    cases hstop.symm.trans ht'
    rw [hcause]
    exact ⟨nofun, fun _ _ => ⟨f, rest, i, .nil, hcall, rfl⟩⟩
  · have hstep := Exec.step_keeps hp h.keeps (fun f rest i hcall => hnil ⟨f, rest, i, hcall⟩) m rfl
    unfold step at hstop
    cases hx : Exec.step p m with
    | ok a m' =>
      rw [hx] at hstop
      cases hstop
    | error e m' =>
      rw [hx] at hstop hstep
      cases hstop
      have hharmless := hstep t rfl
      refine ⟨fun bad hbad => ?_, fun mismatch hbad => ?_⟩ <;>
        · rw [hbad] at hharmless
          cases hharmless

/-- A step that goes on leaves a typed machine, and the array that it makes is tagged. -/
theorem Sane.step (hp : p.Typed W vars) (h : m.Sane W p vars tags) (hstop : (m.step p).stop = none) :
    ∃ tags', tags <+: tags' ∧ (m.step p).machine.Sane W p vars tags' ∧
      ∀ s, m.MakesArray p s →
        Exec.Tops W s ((m.step p).machine.heap.referents W tags') (m.step p).machine := by
  have hnil : ∀ f rest i, ¬m.CallsValue p f rest i .nil := by
    intro f rest i hcall
    obtain ⟨t, ht, -⟩ := (hcall.faults rfl).fault
    cases hstop.symm.trans ht
  have hstep := Exec.step_keeps hp h.keeps hnil m rfl
  rw [step_of_stop hstop] at hstep
  obtain ⟨tags', htags, hh, hq, -⟩ := hstep
  exact ⟨tags', htags, ⟨hh, hq.1⟩, hq.2⟩

theorem Sane.after (hp : p.Typed W vars) (h : m.Sane W p vars tags) {n : Nat}
    (hrun : ∀ k < n, ((m.after p k).step p).stop = none) :
    ∃ last, (m.after p n).Sane W p vars last ∧ ∀ k ≤ n, ∃ tags', tags' <+: last ∧
      (m.after p k).Sane W p vars tags' ∧ ∀ j s, k = j + 1 → (m.after p j).MakesArray p s →
        Exec.Tops W s ((m.after p k).heap.referents W tags') (m.after p k) := by
  induction n with
  | zero =>
    refine ⟨tags, h, fun k hk => ⟨tags, List.prefix_refl _, Nat.le_zero.mp hk ▸ h, fun j s hj => ?_⟩⟩
    omega
  | succ n ih =>
    obtain ⟨last, hlast, hall⟩ := ih fun k hk => hrun k (Nat.lt_succ_of_lt hk)
    obtain ⟨tags', htags, hsane, hmade⟩ := hlast.step hp (hrun n (Nat.lt_succ_self n))
    refine ⟨tags', hsane, fun k hk => ?_⟩
    rcases Nat.lt_or_eq_of_le hk with hk | rfl
    · obtain ⟨tags₁, htags₁, hsane₁, hmade₁⟩ := hall k (Nat.le_of_lt_succ hk)
      exact ⟨tags₁, htags₁.trans htags, hsane₁, hmade₁⟩
    · refine ⟨tags', List.prefix_refl _, hsane, fun j s hj hmakes => ?_⟩
      cases hj
      exact hmade s hmakes

end Machine

/-! ## Values and shapes -/

/-- The value is one that a slot of this shape may hold; `elem` is the shape of the elements of the
cell with each serial number. -/
inductive Value.Suits (h : Heap) (elem : Nat → Shape) : Shape → Value → Prop
  | bool (n : Int64) : Suits h elem .bool (.bool n)
  | int (n : Int64) : Suits h elem .int (.int n)
  | real (x : Float) : Suits h elem .real (.real x)
  | char (n : Int64) : Suits h elem .char (.char n)
  | string (s : Bytes) : Suits h elem .string (.string s)
  | routine (u : String) (i : Int64) : Suits h elem .routine (.routine u i)
  | nilRoutine : Suits h elem .routine .nil
  | nil : Suits h elem .ref .nil
  | ref {k : Handle} {c : Cell} (hc : h.get? k = some c) (hkind : c.kind = .array) :
      Suits h elem .ref (.ref k)
  | nilArray (n : Int) (s : Shape) : Suits h elem (.array n s) .nil
  | array {k : Handle} {c : Cell} (n : Int) (hc : h.get? k = some c) (hkind : c.kind = .array) :
      Suits h elem (.array n (elem c.serial)) (.ref k)

theorem Heap.Typed.suits {h : Heap} {elem : Nat → Shape} {a : TypeId} {s : Shape} {v : Value}
    (hW : W.types.Plain) (hh : h.Typed W tags [])
    (helem : ∀ (j : Nat) e, tags[j]? = some e → W.types.Stored e (elem j)) (hs : W.types.Stored a s)
    (hv : W.types.Has (h.referents W tags) a v) : v.Suits h elem s := by
  obtain ⟨sh, hsh, hv⟩ := hv
  have hstores := hs.stores hW hsh
  cases hv with
  | boolean n => exact hstores ▸ .bool n
  | integer n => exact hstores ▸ .int n
  | real x => exact hstores ▸ .real x
  | char n => exact hstores ▸ .char n
  | string s => exact hstores ▸ .string s
  | noRoutine sig i => exact hstores ▸ .routine "" i
  | routine => exact hstores ▸ .routine _ _
  | nil hs =>
    match sh, hstores with
    | .nil, hstores | .pointer _, hstores | .array _ none, hstores => exact hstores ▸ .nil
    | .routine _, hstores => exact hstores ▸ .nilRoutine
    | .array _ (some n), ⟨se, hse, _⟩ => exact hse ▸ .nilArray n se
  | pointer hc =>
    obtain ⟨c, hc, -⟩ := hc
    exact hstores ▸ .ref hc (hh.array _ c hc)
  | @array k e n hc =>
    obtain ⟨c, hc, he⟩ := hc
    match n, hstores with
    | none, hstores => exact hstores ▸ .ref hc (hh.array _ c hc)
    | some n, ⟨se, hse, helems⟩ =>
      rw [hse, helems.unique (helem _ e he) hW]
      exact .array n hc (hh.array _ c hc)

theorem Frame.At.suits {elem : Nat → Shape} (hW : W.types.Plain) (hh : m.heap.Typed W tags [])
    (helem : ∀ (j : Nat) e, tags[j]? = some e → W.types.Stored e (elem j))
    (hf : f.At W p (m.heap.referents W tags) x ts) :
    List.Forall₂ (Value.Suits m.heap elem) f.routine.locals.toList f.locals.toList := by
  rw [hf.routine]
  exact forall₂_join hf.follows.stored hf.locals fun _ _ _ hs hv => hh.suits hW helem hs hv

theorem Waits.exists_at {sig : Signature} {fs : List Frame} (h : Waits W p S sig fs) :
    ∀ f ∈ fs, ∃ x ts, f.At W p S x ts := by
  induction h with
  | nil => simp
  | cons hf _ _ _ ih => exact List.forall_mem_cons.mpr ⟨⟨_, _, hf⟩, ih⟩

namespace Machine

/-- Every slot of a frame, every variable of a unit and every element of a cell holds a value that
suits its shape, and all cells are arrays. -/
structure Suited (p : Program) (elem : Nat → Shape) (m : Machine) : Prop where
  locals : ∀ f ∈ m.frames,
    List.Forall₂ (Value.Suits m.heap elem) f.routine.locals.toList f.locals.toList
  globals : List.Forall₂ (fun (u : LinkedUnit) (g : Array Value) =>
    List.Forall₂ (Value.Suits m.heap elem) (u.unit.globals.map (·.shape)) g.toList)
      p.units.toList m.globals.toList
  elems : ∀ k c, m.heap.get? k = some c →
    c.kind = .array ∧ ∀ v ∈ c.elems, Value.Suits m.heap elem (elem c.serial) v

/-- A reference to an array with elements of this shape lies on top of the operand stack. -/
def TopsArray (elem : Nat → Shape) (s : Shape) (m : Machine) : Prop :=
  ∃ k c, m.top? = some (.ref k) ∧ m.heap.get? k = some c ∧ c.kind = .array ∧ elem c.serial = s

theorem Running.exists_at (h : Running W p vars S m) : ∀ f ∈ m.frames, ∃ x ts, f.At W p S x ts := by
  intro f hf
  cases hframes : m.frames with
  | nil => simp [hframes] at hf
  | cons g rest =>
    obtain ⟨x, hg, -, hrest⟩ := h.2 g rest hframes
    rw [hframes] at hf
    rcases List.mem_cons.mp hf with rfl | hf
    · exact ⟨x, _, hg⟩
    · exact hrest.exists_at f hf

theorem Sane.suited (hp : p.Typed W vars) (h : m.Sane W p vars tags) {elem : Nat → Shape}
    (helem : ∀ (j : Nat) e, tags[j]? = some e → W.types.Stored e (elem j)) : m.Suited p elem := by
  have hW := hp.plain
  obtain ⟨hh, hrunning⟩ := h
  refine ⟨fun f hf => ?_, ?_, fun k c hc => ⟨hh.array k c hc, fun v hv => ?_⟩⟩
  · obtain ⟨x, ts, hf⟩ := hrunning.exists_at f hf
    exact hf.suits hW hh helem
  · refine forall₂_join hp.storage hrunning.1.globals fun as u g hs hvs => ?_
    exact forall₂_join hs hvs fun _ _ _ hs hv => hh.suits hW helem hs hv
  · obtain ⟨e, he⟩ := hh.exists_tag hc
    exact hh.suits hW helem (helem _ e he) (hh.elems k c e hc he (by simp) v hv)

end Machine

/-! ## Operands -/

/-- The place is one of so many. -/
def Indexes (i : Int) (size : Nat) : Prop := 0 ≤ i ∧ i < size

theorem Listed.indexes {α : Type} {xs : Array α} {i : Int} {y : α} (h : Listed xs.toList i y) :
    Indexes i xs.size := by
  obtain ⟨k, rfl, hk⟩ := h
  have hlt := (List.getElem?_eq_some_iff.mp hk).1
  rw [Array.length_toList] at hlt
  exact ⟨by omega, by omega⟩

namespace Instr

/-- The numbers that an instruction looks something up by lie within the slots of the frame, the
pool of the unit, or the blocks of the routine. -/
def InRange (u : LinkedUnit) (f : Frame) (i : Instr) : Prop :=
  match i.op with
  | .loadLocal | .storeLocal => Indexes i.a f.locals.size
  | .const => Indexes i.a u.unit.pool.consts.size
  | .loadGlobal | .storeGlobal => Indexes i.a u.unit.pool.globals.size
  | .call | .routine => Indexes i.a u.unit.pool.calls.size
  | .callNative => Indexes i.a u.unit.pool.natives.size
  | .newArray | .newCell => Indexes i.a u.unit.pool.shapes.size
  | .newObject => Indexes i.a u.unit.pool.classes.size
  | .jump => Indexes i.a f.routine.blocks.size
  | .branch => Indexes i.a f.routine.blocks.size ∧ Indexes i.b f.routine.blocks.size
  | _ => True

theorem Typed.pops_le (h : i.Typed W c ts ts') : i.pops ≤ ts.length := by
  cases h with
  | @binary o _ _ _ _ hop =>
    cases o <;> simp [pops, hop, Lower.binaryOp]
  | count hop => rcases hop with hop | hop <;> simp [pops, hop]
  | call hop _ hb | callNative hop _ hb | callIndirect hop hb => simp [pops, hop, hb]
  | _ => simp [pops, *]

theorem Ends.pops_le (h : i.Ends c ts) : i.pops ≤ ts.length := by
  cases h with
  | _ => simp [pops, *]

theorem Typed.inRange {u : LinkedUnit} (h : i.Typed W c ts ts') (hpool : c.pool = u.unit.pool)
    (hlocals : c.slots.length = f.locals.size) : i.InRange u f := by
  have hslot : ∀ {k : Int} {a : TypeId}, Listed c.slots k a → Indexes k f.locals.size := by
    rintro _ a ⟨k, rfl, hk⟩
    have hlt := (List.getElem?_eq_some_iff.mp hk).1
    exact ⟨by omega, by omega⟩
  cases h with
  | loadLocal hop ha => simpa only [InRange, hop] using hslot ha
  | storeLocal hop ha => simpa only [InRange, hop] using hslot ha
  | const hop h | loadGlobal hop h | storeGlobal hop h | call hop h | callNative hop h
  | newArray hop h | newCell hop h | routine hop h =>
    rw [hpool] at h
    simpa only [InRange, hop] using h.indexes
  | @binary o _ _ _ _ hop =>
    cases o <;> simp only [InRange, hop, Lower.binaryOp]
  | count hop => rcases hop with hop | hop <;> simp only [InRange, hop]
  | _ => simp only [InRange, *]

theorem Ends.inRange {u : LinkedUnit} (h : i.Ends c ts)
    (hentry : ∀ {k : Nat} {us : List TypeId}, c.labels[k]? = some us →
      (f.routine.blocks.instr? k 0).isSome = true) : i.InRange u f := by
  have hblock : ∀ {k : Int} {us : List TypeId}, Listed c.labels k us →
      Indexes k f.routine.blocks.size := by
    rintro _ us ⟨k, rfl, hk⟩
    obtain ⟨j, hj⟩ := Option.isSome_iff_exists.mp (hentry hk)
    obtain ⟨code, hcode, -⟩ := Option.bind_eq_some_iff.mp hj
    have hlt := (Array.getElem?_eq_some_iff.mp hcode).1
    exact ⟨by omega, by omega⟩
  cases h with
  | jump hop h => simpa only [InRange, hop] using hblock h
  | branch hop hyes hno => simpa only [InRange, hop] using ⟨hblock hyes, hblock hno⟩
  | ret hop => simp only [InRange, hop]

end Instr

namespace Machine

/-- The innermost frame stands before an instruction that finds its operands on the stack and looks
up nothing that is not there. -/
def Poised (p : Program) (m : Machine) : Prop :=
  ∀ f rest, m.frames = f :: rest → ∃ i u, f.instr? = some i ∧ p.units[f.unit]? = some u ∧
    i.pops ≤ f.operands.length ∧ i.InRange u f

theorem Sane.poised (h : m.Sane W p vars tags) : m.Poised p := by
  intro f rest hframes
  obtain ⟨x, hf, hready, -⟩ := h.2.2 f rest hframes
  obtain ⟨i, hi, hplace⟩ := hf.exists_instr hready
  have hcode := hf.follows
  refine ⟨i, x.unit, hi, hf.unit, ?_, ?_⟩
  · rw [← hf.operands.length_eq]
    exact hplace.elim (fun htyped => htyped.1.pops_le) fun hends => hends.pops_le
  · rcases hplace with ⟨htyped, -⟩ | hends
    · exact htyped.inRange hcode.pool (hf.locals.length_eq.trans Array.length_toList)
    · exact hends.inRange fun hk => hf.routine ▸ (hcode.covers.entry hk).2

theorem topsArray_of_tops (hW : W.types.Plain) (hh : m.heap.Typed W tags []) {elem : Nat → Shape}
    (helem : ∀ (j : Nat) e, tags[j]? = some e → W.types.Stored e (elem j)) {s : Shape}
    (h : Exec.Tops W s (m.heap.referents W tags) m) : m.TopsArray elem s := by
  obtain ⟨k, e, htop, ⟨c, hc, he⟩, hs⟩ := h
  exact ⟨k, c, htop, hc, hh.array k c hc, (helem _ e he).unique hs hW⟩

end Machine

/-! ## Programs without classes -/

/-- Programs without classes keep to their types. As long as no step fails, every slot, variable and
array element holds a value of its shape, where `elem` tells the shape of the elements of each array
by its serial number: it is the shape of the slot that refers to the array, or the shape that the
array was made with. The next instruction finds its operands on the stack, and what it looks up is
there. No step fails for invalid code, and if one fails for an operand of the wrong kind, then it
calls a nil. The index of a routine is a 64-bit number in a value, so units may not have more
routines than that. -/
theorem classless_programs_keep_types {sources : List (String × Bytes)} {c : Compilation}
    {us : List CompiledUnit} {p : Program} {o : RunOptions} {m₀ : Machine}
    (hrun : Compilation.ofSources sources = .ok c) (hcomplete : c.Complete) (hclassless : c.Classless)
    (hperm : us.Perm c.units) (hlink : Program.link us = .ok p)
    (hsize : ∀ u ∈ us, u.routines.size < 2 ^ 63) (hstart : Machine.start p o = .ok m₀) {n : Nat}
    (hsteps : ∀ k < n, ((m₀.after p k).step p).stop = none) :
    (∃ elem : Nat → Shape, (∀ k ≤ n, (m₀.after p k).Suited p elem) ∧
      ∀ k < n, ∀ s, (m₀.after p k).MakesArray p s → (m₀.after p (k + 1)).TopsArray elem s) ∧
    (m₀.after p n).Poised p ∧
    ∀ t, ((m₀.after p n).step p).stop = some (.fault t) →
      (∀ bad, t.cause ≠ .invalidCode bad) ∧ ∀ mismatch, t.cause = .typeMismatch mismatch →
        ∃ f rest i v, (m₀.after p n).CallsValue p f rest i v ∧ v.isNil = true := by
  obtain ⟨⟨w, hw⟩, htyped⟩ := c.ofSources_typed hrun hcomplete hclassless
    (Compilation.distinct_of_link hrun hcomplete hperm hlink)
  obtain ⟨vars, hp⟩ := htyped.program hw hperm (Program.links_of_link hlink) hsize
  obtain ⟨tags, hm₀⟩ := Machine.start_sane hp hstart
  obtain ⟨last, hlast, hall⟩ := hm₀.after hp hsteps
  have hshape : ∀ j : Nat, ∃ s, ∀ e, last[j]? = some e → c.world.types.Stored e s := by
    intro j
    cases hj : last[j]? with
    | none => exact ⟨.int, nofun⟩
    | some e =>
      obtain ⟨s, hs⟩ := hlast.1.stored e (List.mem_of_getElem? hj)
      exact ⟨s, by rintro _ ⟨⟩; exact hs⟩
  choose elem helem using hshape
  have hearly : ∀ {tags'}, tags' <+: last → ∀ (j : Nat) e, tags'[j]? = some e →
      c.world.types.Stored e (elem j) :=
    fun htags j e he => helem j e (getElem?_of_listPrefix htags he)
  refine ⟨⟨elem, fun k hk => ?_, fun k hk s hs => ?_⟩, hlast.poised, fun t ht => hlast.fault hp ht⟩
  · obtain ⟨tags', htags, hsane, -⟩ := hall k hk
    exact hsane.suited hp (hearly htags)
  · obtain ⟨tags', htags, hsane, hmade⟩ := hall (k + 1) hk
    exact Machine.topsArray_of_tops hp.plain hsane.1 (hearly htags) (hmade k s rfl hs)

/-- An array of routines is made, and its element, which is the literal `nil`, is called. -/
def callsElement : List (String × Bytes) :=
  [("m", utf8 ("program p; type t = procedure; var a: array of t; " ++
    "begin a := new t[1]; a[0] := nil; a[0]() end."))]

/-- The sources compile without classes, and after so many steps of a run one fails with a fault of
this code. -/
def Compilation.failsAfter (sources : List (String × Bytes)) (n code : Nat) : Bool :=
  match ofSources sources with
  | .error _ => false
  | .ok c =>
    match Program.link c.units with
    | .error _ => false
    | .ok p =>
      match Machine.start p {} with
      | .error _ => false
      | .ok m₀ =>
        c.outcomes.all (·.unit.isSome) && c.modules.all (·.classes.isEmpty) &&
          c.units.all (fun u => u.routines.size < 2 ^ 63) &&
          (List.range n).all (fun k => ((m₀.after p k).step p).stop.isNone) &&
          match ((m₀.after p n).step p).stop with
          | some (.fault t) => t.cause.code == code
          | _ => false

theorem classless_programs_keep_types_element :
    ∃ c p m₀, Compilation.ofSources callsElement = .ok c ∧ Program.link c.units = .ok p ∧
      Machine.start p {} = .ok m₀ ∧ (∃ elem, ∀ k ≤ 11, (m₀.after p k).Suited p elem) ∧
      (m₀.after p 11).Poised p ∧
      ∃ f rest i v, (m₀.after p 11).CallsValue p f rest i v ∧ v.isNil = true := by
  have hfails : Compilation.failsAfter callsElement 11 1008 = true := by decide +kernel
  unfold Compilation.failsAfter at hfails
  split at hfails
  · cases hfails
  rename_i c hrun
  split at hfails
  · cases hfails
  rename_i p hlink
  split at hfails
  · cases hfails
  rename_i m₀ hstart
  simp only [Bool.and_eq_true, List.all_eq_true, List.mem_range, Option.isNone_iff_eq_none,
    List.isEmpty_iff, decide_eq_true_eq] at hfails
  obtain ⟨⟨⟨⟨hcomplete, hclassless⟩, hsize⟩, hsteps⟩, hlast⟩ := hfails
  obtain ⟨⟨elem, hsuited, -⟩, hpoised, hfault⟩ := classless_programs_keep_types hrun hcomplete
    hclassless (.refl _) hlink hsize hstart hsteps
  refine ⟨c, p, m₀, hrun, hlink, hstart, ⟨elem, hsuited⟩, hpoised, ?_⟩
  split at hlast
  · rename_i t ht
    obtain ⟨-, hmismatch⟩ := hfault t ht
    cases hcause : t.cause with
    | typeMismatch mismatch => exact hmismatch mismatch hcause
    | _ => simp [hcause, FaultCause.code] at hlast
  · cases hlast

end Pascaline
