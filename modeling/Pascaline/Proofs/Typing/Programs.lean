import Pascaline.Proofs.Machine.Startup
import Pascaline.Proofs.Typing.Lowering
import Pascaline.Proofs.Typing.Modules
import Pascaline.Proofs.Workspace.Sources

/-!
# Typed units, sessions and programs

The code of a module that keeps to the types is typed, and so is that of all units that are compiled
in one session.

All units that are compiled in one session without classes are typed by the types, the routines and
the variables of the session.

The units of a typed session link to a program that is typed as a whole: what its code refers to is
there, and is what the types say.
-/

namespace Pascaline

open TypeTable Pascaline.Bound

variable {W W' : World} {pool pool' : Pool}

/-! ## Routines -/

namespace Scene

open Lower

variable {S : Scene} {b : Builder} {c : Chart} {ctx : LowerContext}

theorem covers_closeAll (hb : S.Settled b c) (hctx : ctx.hasResult = S.returns)
    (hstart : c.labels[0]? = some []) (sp : Span) :
    ∃ stack, c.Covers S.world (closeAll ctx sp b.blocks) stack := by
  obtain ⟨out, hout, hb⟩ := hb
  refine Chart.exists_covers (by rw [closeAll, Array.size_map, hb.size]) hstart fun k ts is hts his => ?_
  unfold closeAll at his
  rw [Array.getElem?_map] at his
  obtain ⟨is₀, his₀, his⟩ := Option.map_eq_some_iff.mp his
  obtain ⟨out₀, hout₀, hflows⟩ : ∃ out, out.getD [] = [] ∧ c.Flows S.world ts is₀ out := by
    by_cases hk : k = b.current
    · subst hk
      obtain ⟨ts', is', hts', his', hflows⟩ := hb.here
      obtain rfl : ts' = ts := Option.some.inj (hts'.symm.trans hts)
      obtain rfl : is' = is₀ := Option.some.inj (his'.symm.trans his₀)
      exact ⟨out, hout, hflows⟩
    · exact hb.rest k ts is₀ hk (by simp) hts his₀
  cases out₀ with
  | none =>
    rw [hflows.isClosed_eq, if_pos (by rfl)] at his
    exact his ▸ hflows
  | some us =>
    obtain rfl : us = [] := hout₀
    rw [hflows.isClosed_eq, if_neg (by simp)] at his
    exact his ▸ hflows.close (.ret rfl (by rw [hctx, hb.returns]))

theorem charts_opening {locals : List Shape} {slots : List TypeId}
    (hsolid : ∀ s ∈ pool.shapes, s.Solid) (hslots : List.Forall₂ S.world.types.Stored slots locals)
    (hslot : ∀ n a, S.slot n a → slots[n]? = some a) :
    S.Settled (opening pool locals) ⟨pool, S.returns, slots, [[]]⟩ := by
  refine ⟨some [], rfl, rfl, hsolid, rfl, hslots, hslot, rfl, ⟨[], #[], rfl, rfl, .nil⟩, by simp,
    nofun, ?_, nofun⟩
  intro k ts is hk _ hts _
  have hlt := (List.getElem?_eq_some_iff.mp hts).1
  simp only [List.length_singleton, Nat.lt_one_iff] at hlt
  exact absurd hlt hk

end Scene

theorem lowerRoutine_runs {r : Bound.Routine} {code : Routine} (ht : W.types.Plain) (hr : r.Typed W)
    (hsolid : ∀ s ∈ pool.shapes, s.Solid)
    (h : CompiledUnit.lowerRoutine W.types pool r = .ok (code, pool')) :
    pool.Widens pool' ∧ ∀ sig, r.Carries sig → code.Runs W pool' sig := by
  unfold CompiledUnit.lowerRoutine at h
  obtain ⟨locals, hlocals, h⟩ := except_bind_ok h
  obtain ⟨⟨_, b⟩, hbody, h⟩ := except_bind_ok h
  cases h
  have hstored : List.Forall₂ W.types.Stored (r.slots.map (·.type)) locals := by
    refine List.forall₂_map_left_iff.mpr (forall₂_mono_mem (mapM_eq_ok hlocals) ?_)
    exact fun sl hsl shape hshape => (hr.slots sl hsl).stored hshape
  let S : Scene := ⟨W, Bound.slotTypes r.slots, r.result.isSome⟩
  have hopening : S.Settled (Lower.opening pool locals) _ :=
    Scene.charts_opening hsolid hstored
      fun n a ⟨sl, hsl, ha⟩ => by simp [hsl, ha]
  obtain ⟨c, hle, hb⟩ := Scene.settles_stmts (S := S) rfl rfl ht r.body hr.body hbody hopening
  have hctx : (⟨W.types, r.name, r.result.isSome⟩ : LowerContext).hasResult = S.returns := rfl
  obtain ⟨stack, hcovers⟩ := Scene.covers_closeAll hb hctx
    (getElem?_of_listPrefix hle.labels rfl) r.span
  obtain ⟨more, hmore⟩ := hle.slots
  obtain ⟨out, -, hb⟩ := hb
  refine ⟨⟨hb.pool ▸ hle.pool, fun _ => hb.solid⟩, fun sig hsig => ⟨c, stack, ?_, ?_, hb.pool, ?_, ?_,
    hb.slots, hcovers⟩⟩
  · exact congrArg Int.ofNat hsig.params
  · show (r.result.map Int.ofNat).getD (-1) = _
    rw [hsig.result, hsig.params]
    by_cases hzero : sig.result = 0 <;> simp [hzero]
  · refine hb.returns.trans ?_
    show r.result.isSome = _
    rw [hsig.result]
    by_cases hzero : sig.result = 0 <;> simp [hzero]
  · obtain ⟨rest, hrest⟩ := hsig.slots
    refine ⟨rest ++ more, ?_⟩
    rw [← List.append_assoc, ← hrest, ← hmore]

theorem lowerRoutines_runs {unit : String} {rs : List Bound.Routine} {codes : List Routine}
    (ht : W.types.Plain) (hrs : ∀ r ∈ rs, r.Typed W) (hsolid : ∀ s ∈ pool.shapes, s.Solid)
    (h : CompiledUnit.lowerRoutines W.types unit pool rs = .ok (codes, pool')) :
    pool.Grows pool' ∧ ∀ (i : Nat) r sig, rs[i]? = some r → r.Carries sig →
      ∃ code, codes[i]? = some code ∧ code.Runs W pool' sig := by
  induction rs generalizing pool codes with
  | nil =>
    cases h
    exact ⟨.refl _, by simp⟩
  | cons r rs ih =>
    unfold CompiledUnit.lowerRoutines at h
    obtain ⟨⟨code, pool₁⟩, hcode, h⟩ := except_bind_ok h
    dsimp only at h
    split at h
    · cases h
    · obtain ⟨⟨codes', pool₂⟩, hrest, h⟩ := except_bind_ok h
      cases h
      obtain ⟨hwidens, hruns⟩ := lowerRoutine_runs ht (hrs r List.mem_cons_self) hsolid hcode
      obtain ⟨hgrows, hall⟩ :=
        ih (fun q hq => hrs q (List.mem_cons_of_mem _ hq)) (hwidens.solid hsolid) hrest
      refine ⟨hwidens.toGrows.trans hgrows, fun i q sig hq hsig => ?_⟩
      cases i with
      | zero =>
        cases hq
        exact ⟨code, rfl, (hruns sig hsig).mono (.refl W) hgrows⟩
      | succ i => exact hall i q sig hq hsig

/-! ## Units -/

/-- The variables of a unit have the shapes of their types, and the code of each routine of the
module is typed. -/
structure CompiledUnit.Typed (W : World) (m : Bound.Module) (u : CompiledUnit) : Prop where
  globals : List.Forall₂ (fun sl g => W.types.Stored sl.type g.shape) m.globals u.globals
  codes : ∀ x sym, m.scopes.symbol? x = some sym → sym.isOwn m.name → sym.kind.hasCode →
    ∃ code, u.routine? sym.routine = some code ∧ code.Runs W u.pool sym.sig
  starts : ∀ i, 0 ≤ i → u.init = i ∨ u.main = i →
    ∃ code, u.routine? i = some code ∧ code.Runs W u.pool ⟨[], 0⟩

theorem CompiledUnit.Typed.mono {m : Bound.Module} {u : CompiledUnit} (h : u.Typed W m)
    (hW : W.Le W') : u.Typed W' m := by
  refine ⟨h.globals.imp fun _ _ hg => hg.mono hW.types, fun x sym hsym hown hcode => ?_,
    fun i hi hstart => ?_⟩
  · obtain ⟨code, hget, hruns⟩ := h.codes x sym hsym hown hcode
    exact ⟨code, hget, hruns.mono hW (.refl _)⟩
  · obtain ⟨code, hget, hruns⟩ := h.starts i hi hstart
    exact ⟨code, hget, hruns.mono hW (.refl _)⟩

theorem CompiledUnit.routine?_ofNat {u : CompiledUnit} {i : Nat} {code : Routine}
    {codes : List Routine} (htable : u.table = some codes.toArray) (h : codes[i]? = some code) :
    u.routine? i = some code := by
  rw [routine?, if_neg (by omega), routines, htable]
  simpa using h

theorem Bound.Routine.Nameless.carries {r : Bound.Routine} (h : r.Nameless) : r.Carries ⟨[], 0⟩ :=
  ⟨⟨[], by simp [h.slots]⟩, h.params, h.result⟩

namespace Origin

theorem Makes.typed {o : Origin} {u : CompiledUnit} {R : Bound.Realm}
    {F : RoutineRef → Signature → Prop} (h : o.Makes u) (ht : o.module.Typed R F o.types) :
    u.Typed (o.module.world R F o.types) o.module := by
  obtain ⟨v, hv, source, file, deps, rfl⟩ := h
  unfold CompiledUnit.ofModule at hv
  obtain ⟨classes, -, hv⟩ := except_bind_ok hv
  obtain ⟨globals, hglobals, hv⟩ := except_bind_ok hv
  obtain ⟨⟨codes, pool⟩, hcodes, hv⟩ := except_bind_ok hv
  cases hv
  obtain ⟨-, hruns⟩ := lowerRoutines_runs (W := o.module.world R F o.types) ht.plain ht.routines
    (by simp) hcodes
  refine ⟨forall₂_mono_mem (mapM_eq_ok hglobals) fun sl hsl g hg => ?_,
    fun x sym hsym hown hcode => ?_, fun i hi hstart => ?_⟩
  · obtain ⟨shape, hshape, hg⟩ := except_bind_ok hg
    cases hg
    exact (ht.globals sl hsl).stored hshape
  · obtain ⟨i, r, hi, hr, hcarries⟩ := ht.codes x sym hsym hown hcode
    obtain ⟨code, hget, hcode⟩ := hruns i r _ hr hcarries
    exact ⟨code, hi ▸ CompiledUnit.routine?_ofNat rfl hget, hcode⟩
  · have hfound : ∃ n : Nat, i = n ∧ (o.module.init = some n ∨ o.module.main = some n) := by
      have hget : ∀ {x : Option Nat}, (x.map Int.ofNat).getD (-1) = i → ∃ n : Nat, i = n ∧ x = some n := by
        rintro (- | n) hx
        · simp at hx
          omega
        · exact ⟨n, hx.symm, rfl⟩
      rcases hstart with hstart | hstart
      · obtain ⟨n, hn, hx⟩ := hget hstart
        exact ⟨n, hn, .inl hx⟩
      · obtain ⟨n, hn, hx⟩ := hget hstart
        exact ⟨n, hn, .inr hx⟩
    obtain ⟨n, rfl, hn⟩ := hfound
    obtain ⟨r, hr, hnameless⟩ := ht.starts n hn
    obtain ⟨code, hget, hcode⟩ := hruns n r _ hr hnameless.carries
    exact ⟨code, CompiledUnit.routine?_ofNat rfl hget, hcode⟩

end Origin

/-! ## Types of a table that grew -/

variable {t t' : TypeTable} {F : RoutineRef → Signature → Prop}

/-- In a table that grew only the type itself is like a type of before. -/
theorem TypeTable.Alike.eq_of_grows {a b : TypeId} (h : t.Alike t' a b) (ht' : t'.Sound)
    (hle : t.Grows t') : a = b :=
  ((h.trans h.symm).mono (.refl t) hle).unique ht' h

theorem Signature.Alike.eq_of_grows {sig sig' : Signature} (h : sig.Alike t t' sig')
    (ht' : t'.Sound) (hle : t.Grows t') : sig = sig' := by
  obtain ⟨ps, r⟩ := sig
  obtain ⟨ps', r'⟩ := sig'
  have hparams : ps = ps' :=
    List.forall₂_eq_eq_eq ▸ h.params.imp fun _ _ hp => hp.eq_of_grows ht' hle
  rw [hparams, show r = r' from h.result.eq_of_grows ht' hle]

theorem Bound.SymbolTyped.alike {file : Nat} {sym sym' : Symbol} (h : SymbolTyped F t' sym)
    (halike : sym.Alike t t' file sym') (ht' : t'.Sound) (hle : t.Grows t') :
    SymbolTyped F t' sym' := by
  rw [halike.same, ← halike.type.eq_of_grows ht' hle, ← halike.sig.eq_of_grows ht' hle]
  exact h

/-! ## Sessions -/

namespace Compilation

variable {c c' : Compilation} {w : Workspace} {out : SourceOutcome} {path : String} {f : Tree.File}
  {r : BindResult} {u : CompiledUnit}

/-- The routine is one of a module of the session, with this signature. -/
def Signs (c : Compilation) (ref : RoutineRef) (sig : Signature) : Prop :=
  ∃ p ∈ c.compiled, p.1.Signs (fun _ _ => False) ref sig

/-- What the units of the session may refer to. -/
def world (c : Compilation) : World := ⟨c.types, c.Signs, fun m k a => ∃ p ∈ c.compiled, p.1.Holds m k a⟩

/-- The session keeps to its types. -/
structure Typed (c : Compilation) : Prop where
  plain : c.types.Plain
  symbols : ∀ p ∈ c.compiled, ∀ x sym, p.1.scopes.symbol? x = some sym → SymbolTyped c.Signs c.types sym
  units : ∀ p ∈ c.compiled, p.2.Typed c.world p.1

theorem Typed.start : Typed {} := by
  refine ⟨plain_empty, ?_, ?_⟩ <;> simp [compiled]

theorem Typed.shelve (h : c.Typed) (library : SourceLibrary) : Typed { c with library } :=
  ⟨h.plain, h.symbols, h.units⟩

theorem Hosts.origin_compiled (h : Hosts w c) {o : Origin} (ho : o ∈ w.origins) :
    ∃ p ∈ c.compiled, o.module = p.1 := by
  obtain ⟨p, hp, hmodule, -⟩ := forall₂_exists_mem h.compiled (List.mem_reverse.mpr ho)
  exact ⟨p, hp, hmodule⟩

theorem Hosts.grows_of_bound (h : Hosts w c) (hname : r.module.name ∉ c.modules.map (·.name))
    (hr : Module.ofFile c.types c.imports path f = .ok r) : c.types.Grows r.types := by
  rw [← h.types, ← h.imports] at hr
  rw [(Module.ofFile_gives hr).1, ← h.taken] at hname
  exact h.types ▸ (h.reachable.kept.bound (List.Subset.refl _) hname hr).1.grows

theorem Typed.imports (h : c.Typed) (hw : Hosts w c) {imp : Import} (himp : imp ∈ w.imports) :
    ∀ sym ∈ imp.symbols, SymbolTyped c.Signs c.types sym := by
  intro sym' hsym'
  obtain ⟨o, ho, -, -, file, hsyms⟩ := hw.reachable.kept.imports imp himp
  obtain ⟨sym, hsym, halike⟩ := forall₂_exists_mem hsyms.flip hsym'
  obtain ⟨x, -, hx⟩ := List.mem_filterMap.mp hsym
  obtain ⟨p, hp, hmodule⟩ := hw.origin_compiled ho
  have htyped := h.symbols p hp x sym (hmodule ▸ hx)
  rw [← hw.types] at htyped ⊢
  exact htyped.alike halike hw.reachable.kept.sound (hw.grows o ho)

theorem Typed.module (h : c.Typed) (hw : Hosts w c)
    (hr : Module.ofFile c.types c.imports path f = .ok r) (hplain : r.module.classes = [])
    (hnil : r.errors = []) :
    ∃ R : Realm, r.module.Typed R c.Signs r.types ∧
      ∀ m k a, R.holds m k a → ∃ p ∈ c.compiled, p.1.Holds m k a := by
  have hkept := hw.reachable.kept
  refine ⟨w.realm f, ?_, ?_⟩
  · rw [← hw.types, ← hw.imports] at hr
    exact Module.ofFile_typed (hw.types ▸ h.plain) (hkept.tableFits f) hkept.titled rfl
      hkept.importFits (fun v hv imp himp _ => hw.types ▸ h.imports hw himp) hr hplain hnil
  · rintro m k b ⟨o, ho, a, ha, halike⟩
    obtain ⟨p, hp, hmodule⟩ := hw.origin_compiled ho.mem
    rw [halike.eq_of_grows hkept.sound (hw.grows o ho.mem), hmodule] at ha
    exact ⟨p, hp, ha⟩

theorem Typed.succeeded (h : c.Typed) (hw : Hosts w c)
    (hname : r.module.name ∉ c.modules.map (·.name))
    (hr : Module.ofFile c.types c.imports path f = .ok r) (hplain : r.module.classes = [])
    (hnil : r.errors = []) (hu : Origin.Makes ⟨r.types, r.module⟩ u) (htypes : c'.types = r.types)
    (hcompiled : c'.compiled = c.compiled ++ [(r.module, u)]) : c'.Typed := by
  obtain ⟨R, htyped, hholds⟩ := h.module hw hr hplain hnil
  have hgrows := hw.grows_of_bound hname hr
  have hsigns : ∀ ref sig, r.module.Signs c.Signs ref sig → c'.Signs ref sig := by
    rintro ref sig (⟨p, hp, hsig⟩ | hown)
    · exact ⟨p, by simp [hcompiled, hp], hsig⟩
    · exact ⟨(r.module, u), by simp [hcompiled], .inr hown⟩
  have hworld : (r.module.world R c.Signs r.types).Le c'.world := by
    refine ⟨by rw [world, htypes]; exact .refl _, hsigns, ?_⟩
    rintro m k a (hm | hm)
    · obtain ⟨p, hp, hm⟩ := hholds m k a hm
      exact ⟨p, by simp [hcompiled, hp], hm⟩
    · exact ⟨(r.module, u), by simp [hcompiled], hm⟩
  have hold : c.world.Le c'.world := by
    refine ⟨by rw [world, world, htypes]; exact hgrows, fun ref sig hr => hsigns ref sig (.inl hr), ?_⟩
    rintro m k a ⟨p, hp, hm⟩
    exact ⟨p, by simp [hcompiled, hp], hm⟩
  refine ⟨htypes ▸ htyped.plain, fun p hp => ?_, fun p hp => ?_⟩
  · rw [hcompiled, List.mem_append, List.mem_singleton] at hp
    rcases hp with hp | rfl
    · exact fun x sym hx => (h.symbols p hp x sym hx).mono hold.types hold.routine
    · exact fun x sym hx => htypes ▸ (htyped.symbols x sym hx).mono (.refl _) hsigns
  · rw [hcompiled, List.mem_append, List.mem_singleton] at hp
    rcases hp with hp | rfl
    · exact (h.units p hp).mono hold
    · exact (hu.typed htyped).mono hworld

/-- Every source parsed, was bound without errors, and made a unit. -/
def Complete (c : Compilation) : Prop := ∀ out ∈ c.outcomes, out.unit.isSome

/-- No source declares a class. -/
def Classless (c : Compilation) : Prop := ∀ m ∈ c.modules, m.classes = []

theorem ofSources_typed {sources : List (String × Bytes)} (hrun : ofSources sources = .ok c)
    (hcomplete : c.Complete) (hplain : c.Classless) (hnames : c.Distinct) :
    (∃ w, Hosts w c) ∧ c.Typed := by
  refine ofSources_induction
    (P := fun c => c.Complete → c.Classless → c.Distinct → (∃ w, Hosts w c) ∧ c.Typed)
    (fun _ _ _ => ⟨⟨_, .start⟩, .start⟩) (fun c library h hcomplete hplain hnames => ?_)
    (fun {c c' out} h hnext hcomplete hplain hnames => ?_) hrun hcomplete hplain hnames
  · obtain ⟨⟨w, hw⟩, ht⟩ := h hcomplete hplain hnames
    exact ⟨⟨w, hw.shelve library⟩, ht.shelve library⟩
  · have hout := hnext.outcomes
    obtain ⟨hnames', hfresh⟩ := hnames.of_append hout
    obtain ⟨⟨w, hw⟩, ht⟩ := h (fun o ho => hcomplete o (by simp [hout, ho]))
      (fun m hm => hplain m (by
        obtain ⟨o, ho, hm⟩ := List.mem_filterMap.mp hm
        exact List.mem_filterMap.mpr ⟨o, by simp [hout, ho], hm⟩)) hnames'
    refine ⟨hw.becomes hnext hnames, ?_⟩
    have hunit : out.unit.isSome := hcomplete out (by simp [hout])
    cases hnext with
    | unparsed _ hnone => simp [hnone] at hunit
    | failed _ _ hnone => simp [hnone] at hunit
    | succeeded hr hnil hu hbound hsome =>
      have hclasses := hplain _ (List.mem_filterMap.mpr ⟨out, by simp, hbound⟩)
      obtain ⟨htypes, -⟩ := hw.succeeded (hfresh _ hbound) hr hnil hu hbound hsome
      refine ht.succeeded hw (hfresh _ hbound) hr hclasses hnil hu htypes ?_
      simp [compiled, hbound, hsome]

end Compilation

/-! ## Names of units -/

theorem Program.Links.nodup {us : List CompiledUnit} {p : Program} (h : Links us p) :
    (us.map (·.name)).Nodup := by
  refine List.pairwise_map.mpr (List.pairwise_iff_getElem.mpr fun i j hi hj hij heq => ?_)
  have := h.index_unique (List.getElem?_eq_getElem hi) (List.getElem?_eq_getElem hj) heq
  omega

namespace Compilation

variable {c : Compilation} {us : List CompiledUnit} {p : Program}

theorem ofSources_unit_name {sources : List (String × Bytes)} (hrun : ofSources sources = .ok c) :
    ∀ out ∈ c.outcomes, ∀ u, out.unit = some u → ∃ m, out.bound = some m ∧ m.name = u.name := by
  refine ofSources_induction
    (P := fun c => ∀ out ∈ c.outcomes, ∀ u, out.unit = some u → ∃ m, out.bound = some m ∧ m.name = u.name)
    (by simp) (fun _ _ h => h) (fun {c c' out} h hnext o ho u hu => ?_) hrun
  rw [hnext.outcomes, List.mem_append, List.mem_singleton] at ho
  rcases ho with ho | rfl
  · exact h o ho u hu
  · cases hnext with
    | unparsed _ hnone => simp [hnone] at hu
    | failed _ _ hnone => simp [hnone] at hu
    | succeeded hr hnil hmakes hbound hsome =>
      cases hsome.symm.trans hu
      exact ⟨_, hbound, hmakes.describes.name.symm⟩

theorem names_eq {outcomes : List SourceOutcome}
    (hunits : ∀ out ∈ outcomes, ∃ u m, out.unit = some u ∧ out.bound = some m ∧ m.name = u.name) :
    (outcomes.filterMap (·.bound)).map (·.name) = (outcomes.filterMap (·.unit)).map (·.name) := by
  induction outcomes with
  | nil => rfl
  | cons out outs ih =>
    obtain ⟨⟨u, m, hu, hm, hname⟩, houts⟩ := List.forall_mem_cons.mp hunits
    simp only [List.filterMap_cons, hu, hm, List.map_cons, hname, ih houts]

theorem distinct_of_link {sources : List (String × Bytes)} (hrun : ofSources sources = .ok c)
    (hcomplete : c.Complete) (hperm : us.Perm c.units) (hlink : Program.link us = .ok p) :
    c.Distinct := by
  have hlinks := Program.links_of_link hlink
  have hsame : c.modules.map (·.name) = c.units.map (·.name) := names_eq fun out hout => by
    obtain ⟨u, hu⟩ := Option.isSome_iff_exists.mp (hcomplete out hout)
    obtain ⟨m, hm, hname⟩ := ofSources_unit_name hrun out hout u hu
    exact ⟨u, m, hu, hm, hname⟩
  rw [Distinct, hsame, ← (hperm.map _).nodup_iff]
  exact hlinks.nodup

end Compilation

/-! ## Programs -/

/-- The routine is one of the program, and its code has this signature. -/
def Callee.Runs (W : World) (p : Program) (c : Callee) (sig : Signature) : Prop :=
  ∃ u : LinkedUnit, p.units[c.unit]? = some u ∧ u.unit.routine? c.index = some c.routine ∧
    c.routine.Runs W u.unit.pool sig

namespace Program

variable {W : World} {p : Program} {us : List CompiledUnit} {k : Nat} {u : CompiledUnit}

/-- What the code of a program refers to is there, and is what the types say; `vars` are the types of
the variables of each unit. -/
structure Typed (W : World) (vars : List (List TypeId)) (p : Program) : Prop where
  plain : W.types.Plain
  routines : ∀ ref sig, W.routine ref sig → (Int64.ofInt ref.index).toInt = ref.index ∧
    ∃ (c : Callee) (u : CompiledUnit), p.unit? ref.module = some (c.unit, u) ∧
      c.index = ref.index ∧ c.Runs W p sig
  calls : ∀ u ∈ p.units, ∀ i ref sig, Listed u.unit.pool.calls.toList i ref → W.routine ref sig →
    ∃ c, Listed u.calls.toList i c ∧ c.index = ref.index ∧ c.Runs W p sig ∧
      (p.units[c.unit]?).map (·.unit.name) = some ref.module
  natives : ∀ u ∈ p.units, ∀ i (n : Native), Listed u.unit.pool.natives.toList i n.name →
    Listed u.natives.toList i n
  globals : ∀ u ∈ p.units, ∀ i ref a, Listed u.unit.pool.globals.toList i ref →
    W.global ref.module ref.slot a →
      ∃ place, Listed u.globals.toList i place ∧ (vars[place.1]?).bind (·[place.2]?) = some a
  storage : List.Forall₂ (fun as (u : LinkedUnit) =>
    List.Forall₂ W.types.Stored as (u.unit.globals.map (·.shape))) vars p.units.toList
  entries : ∀ e ∈ p.entries, ∃ c, e.callee? p = some c ∧ c.Runs W p ⟨[], 0⟩

theorem Links.unit_eq (h : Links us p) {lu : LinkedUnit} (hlu : p.units[k]? = some lu) :
    us[k]? = some lu.unit := by
  rw [← h.units_eq, List.getElem?_map, Array.getElem?_toList, hlu]
  rfl

theorem Links.exists_unit (h : Links us p) (hu : us[k]? = some u) :
    ∃ lu, p.units[k]? = some lu ∧ lu.unit = u := by
  rwa [← h.units_eq, List.getElem?_map, Array.getElem?_toList, Option.map_eq_some_iff] at hu

theorem Links.unitIndex?_eq (h : Links us p) (hu : us[k]? = some u) :
    unitIndex? us u.name = some k := by
  obtain ⟨i, hi⟩ : ∃ i, unitIndex? us u.name = some i := by
    rw [← Option.isSome_iff_exists, unitIndex?, List.findIdx?_isSome, List.any_eq_true]
    exact ⟨u, List.mem_of_getElem? hu, beq_self_eq_true _⟩
  obtain ⟨hlt, hname, -⟩ := List.findIdx?_eq_some_iff_getElem.mp hi
  rw [hi, h.index_unique (List.getElem?_eq_getElem hlt) hu (beq_iff_eq.mp hname)]

theorem Links.unit?_eq (h : Links us p) (hu : us[k]? = some u) : p.unit? u.name = some (k, u) := by
  obtain ⟨lu, hlu, rfl⟩ := h.exists_unit hu
  have hindex := h.unitIndex?_eq hu
  rw [unitIndex?, ← h.units_eq, List.findIdx?_map] at hindex
  have hfound : p.units.findIdx? (·.unit.name == lu.unit.name) = some k := by
    rw [← List.findIdx?_toArray, Array.toArray_toList] at hindex
    exact hindex
  rw [unit?, hfound, Option.bind_some, hlu]
  rfl

theorem mem_startOrder {e : EntryPoint} (he : e ∈ startOrder us) :
    ∃ u, us[e.unit]? = some u ∧ 0 ≤ e.index ∧ (u.init = e.index ∨ u.main = e.index) := by
  rcases List.mem_append.mp he with he | he
  · obtain ⟨⟨u, i⟩, hu, he⟩ := List.mem_filterMap.mp he
    obtain ⟨hpos, he⟩ := Option.ite_none_right_eq_some.mp he
    cases he
    exact ⟨u, List.mem_zipIdx_iff_getElem?.mp hu, hpos, .inl rfl⟩
  · obtain ⟨⟨u, i⟩, hlast, he⟩ := Option.bind_eq_some_iff.mp (Option.mem_toList.mp he)
    obtain ⟨hpos, he⟩ := Option.ite_none_right_eq_some.mp he
    cases he
    have hu := (List.mem_filter.mp (List.mem_of_getLast? hlast)).1
    exact ⟨u, List.mem_zipIdx_iff_getElem?.mp hu, hpos, .inr rfl⟩

end Program

/-! ## Sessions that are linked -/

namespace Compilation

open Program

variable {c : Compilation} {w : Workspace} {us : List CompiledUnit} {p : Program}

namespace Hosts

theorem exists_place (hw : Hosts w c) (hperm : us.Perm c.units) {q : Bound.Module × CompiledUnit}
    (hq : q ∈ c.compiled) : (∃ k : Nat, us[k]? = some q.2) ∧ q.2.name = q.1.name := by
  obtain ⟨o, -, hmodule, hmakes⟩ := forall₂_exists_mem hw.compiled.flip hq
  refine ⟨List.mem_iff_getElem?.mp (hperm.mem_iff.mpr ?_), hmodule ▸ hmakes.describes.name⟩
  exact hw.units ▸ List.mem_map_of_mem hq

theorem exists_module (hw : Hosts w c) (hperm : us.Perm c.units) {u : CompiledUnit} (hu : u ∈ us) :
    ∃ m, (m, u) ∈ c.compiled := by
  have hmem := hperm.mem_iff.mp hu
  rw [hw.units] at hmem
  obtain ⟨⟨m, v⟩, hq, rfl⟩ := List.mem_map.mp hmem
  exact ⟨m, hq⟩

theorem eq_of_name (hw : Hosts w c) {q q' : Bound.Module × CompiledUnit} (hq : q ∈ c.compiled)
    (hq' : q' ∈ c.compiled) (hname : q.2.name = q'.2.name) : q = q' := by
  have hnames := hw.names
  rw [hw.units, List.map_map] at hnames
  exact List.inj_on_of_nodup_map hnames hq hq' hname

end Hosts

theorem Typed.exists_callee (ht : c.Typed) (hw : Hosts w c) (hperm : us.Perm c.units)
    (hlinks : Links us p) {ref : RoutineRef} {sig : Signature} (href : c.Signs ref sig) :
    ∃ (e : Callee) (u : CompiledUnit), us[e.unit]? = some u ∧ u.name = ref.module ∧
      e.index = ref.index ∧ e.Runs c.world p sig := by
  obtain ⟨q, hq, hnone | ⟨x, sym, hsym, hown, hcode, rfl, rfl⟩⟩ := href
  · exact hnone.elim
  obtain ⟨⟨k, hk⟩, hname⟩ := hw.exists_place hperm hq
  obtain ⟨code, hget, hruns⟩ := (ht.units q hq).codes x sym hsym hown hcode
  obtain ⟨u, hu, hsame⟩ := hlinks.exists_unit hk
  exact ⟨⟨k, sym.routine, code⟩, q.2, hk, hname, rfl, u, hu, hsame.symm ▸ hget, hsame.symm ▸ hruns⟩

theorem Typed.calls (ht : c.Typed) (hw : Hosts w c) (hperm : us.Perm c.units) (hlinks : Links us p)
    {u : LinkedUnit} (hu : u ∈ p.units) {i : Int} {ref : RoutineRef} {sig : Signature}
    (hi : Listed u.unit.pool.calls.toList i ref) (href : c.Signs ref sig) :
    ∃ e, Listed u.calls.toList i e ∧ e.index = ref.index ∧ e.Runs c.world p sig ∧
      (p.units[e.unit]?).map (·.unit.name) = some ref.module := by
  obtain ⟨v, hv⟩ := forall₂_mem_right hlinks.units (Array.mem_toList_iff.mpr hu)
  obtain ⟨n, rfl, hn⟩ := hi
  have hrel := forall₂_getElem? (linkUnit_pool hv).1 n
  rw [← linkUnit_unit hv, hn] at hrel
  generalize he : u.calls.toList[n]? = e at hrel
  cases hrel with
  | @some _ e hresolve =>
  obtain ⟨e', v', hv', hname, hindex', hruns⟩ := ht.exists_callee hw hperm hlinks href
  -- The name of the unit and the index tell the routine.
  obtain rfl : e = e' := by
    obtain ⟨hunit, hindex⟩ := resolve_place hresolve
    rw [← hname, hlinks.unitIndex?_eq hv', Option.some.injEq] at hunit
    obtain ⟨v₁, hv₁, hroutine⟩ := resolve_ok hresolve
    obtain ⟨u', hu', hroutine', -⟩ := hruns
    rw [← hunit, hlinks.unit_eq hu'] at hv₁
    cases hv₁
    rw [hindex, ← hindex', hroutine'] at hroutine
    obtain ⟨_, _, _⟩ := e
    obtain ⟨_, _, _⟩ := e'
    cases hunit
    cases hindex.trans hindex'.symm
    cases hroutine
    rfl
  obtain ⟨u', hu', -⟩ := id hruns
  refine ⟨e, ⟨n, rfl, he⟩, hindex', hruns, ?_⟩
  rw [hu', ← hname, Option.map_some, Option.some.inj ((hlinks.unit_eq hu').symm.trans hv')]

theorem Hosts.exists_vars (hw : Hosts w c) (hperm : us.Perm c.units) (hlinks : Links us p) :
    ∃ vars : List (List TypeId), List.Forall₂ (fun as (u : LinkedUnit) =>
      ∃ m : Bound.Module, (m, u.unit) ∈ c.compiled ∧ as = m.globals.map (·.type)) vars
        p.units.toList := by
  have hall : ∀ lus : List LinkedUnit, (∀ u ∈ lus, u.unit ∈ us) →
      ∃ vars : List (List TypeId), List.Forall₂ (fun as (u : LinkedUnit) =>
        ∃ m : Bound.Module, (m, u.unit) ∈ c.compiled ∧ as = m.globals.map (·.type)) vars lus := by
    intro lus hlus
    induction lus with
    | nil => exact ⟨[], .nil⟩
    | cons u lus ih =>
      obtain ⟨hu, hlus⟩ := List.forall_mem_cons.mp hlus
      obtain ⟨vars, hvars⟩ := ih hlus
      obtain ⟨m, hm⟩ := hw.exists_module hperm hu
      exact ⟨_ :: vars, .cons ⟨m, hm, rfl⟩ hvars⟩
  exact hall _ fun u hu => hlinks.mem_units (Array.mem_toList_iff.mp hu)

theorem Typed.program (ht : c.Typed) (hw : Hosts w c) (hperm : us.Perm c.units) (hlinks : Links us p)
    (hsize : ∀ u ∈ us, u.routines.size < 2 ^ 63) : ∃ vars, p.Typed c.world vars := by
  obtain ⟨vars, hvars⟩ := hw.exists_vars hperm hlinks
  refine ⟨vars, ht.plain, fun ref sig href => ?_, fun u hu i ref sig hi href =>
    ht.calls hw hperm hlinks hu hi href, fun u hu i n hi => ?_, fun u hu i ref a hi ha => ?_, ?_,
    fun e he => ?_⟩
  · obtain ⟨e, u, hu, hname, hindex, hruns⟩ := ht.exists_callee hw hperm hlinks href
    refine ⟨?_, e, u, hname ▸ hlinks.unit?_eq hu, hindex, hruns⟩
    obtain ⟨lu, hlu, hroutine, -⟩ := hruns
    have hlt := hsize lu.unit (List.mem_of_getElem? (hlinks.unit_eq hlu))
    rw [hindex] at hroutine
    unfold CompiledUnit.routine? at hroutine
    split at hroutine
    · cases hroutine
    · have hbound := (Array.getElem?_eq_some_iff.mp hroutine).1
      exact Int64.toInt_ofInt_of_le (by omega) (by omega)
  · obtain ⟨v, hv⟩ := forall₂_mem_right hlinks.units (Array.mem_toList_iff.mpr hu)
    obtain ⟨k, rfl, hk⟩ := hi
    have hrel := forall₂_getElem? (linkUnit_pool hv).2 k
    rw [← linkUnit_unit hv, hk] at hrel
    generalize hn : u.natives.toList[k]? = x at hrel
    cases hrel with
    | some hname =>
      rw [Native.ofName?_name] at hname
      exact ⟨k, rfl, hn.trans hname.symm⟩
  · obtain ⟨k, rfl, hk⟩ := hi
    rw [Array.getElem?_toList] at hk
    obtain ⟨place, hplace, hat⟩ := hlinks.globals hu hk
    refine ⟨place, ⟨k, rfl, by rw [Array.getElem?_toList, hplace]⟩, ?_⟩
    obtain ⟨hname, hslot⟩ := globalAt?_eq hat
    obtain ⟨lu, hlu, hmodule⟩ := Option.map_eq_some_iff.mp hname
    obtain ⟨q, hq, hsame, n, sl, hn, hsl, rfl⟩ := ha
    have hrel := forall₂_getElem? hvars place.1
    rw [← Array.getElem?_toList] at hlu
    rw [hlu] at hrel
    generalize vars[place.1]? = as at hrel ⊢
    cases hrel with
    | some has =>
      obtain ⟨m, hm, rfl⟩ := has
      obtain rfl := hw.eq_of_name hm hq
        (hmodule.trans (hsame.trans (hw.exists_place hperm hq).2.symm))
      obtain rfl : n = place.2 := Int.ofNat_inj.mp (hn.symm.trans hslot)
      rw [Option.bind_some, List.getElem?_map, hsl]
      rfl
  · refine hvars.imp fun as u ⟨m, hm, has⟩ => ?_
    rw [has]
    exact List.forall₂_map_left_iff.mpr (List.forall₂_map_right_iff.mpr (ht.units _ hm).globals)
  · rw [hlinks.entries_eq] at he
    obtain ⟨u, hu, hpos, hstart⟩ := mem_startOrder he
    obtain ⟨lu, hlu, rfl⟩ := hlinks.exists_unit hu
    obtain ⟨m, hm⟩ := hw.exists_module hperm (List.mem_of_getElem? hu)
    obtain ⟨code, hget, hruns⟩ := (ht.units _ hm).starts e.index hpos hstart
    have hhas : p.Has ⟨e.unit, e.index, code⟩ := Program.has_iff.mpr ⟨lu, hlu, hget⟩
    exact ⟨_, hhas, lu, hlu, hget, hruns⟩

end Compilation

end Pascaline
