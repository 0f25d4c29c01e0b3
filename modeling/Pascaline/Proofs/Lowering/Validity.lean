import Pascaline.Compilation
import Pascaline.Proofs.Binding.Frames
import Pascaline.Proofs.Lowering.Pools

/-!
# Compiled units are in order

While a routine is lowered its frame only gains hidden slots, so the parameters and the result that
binding placed among the slots are among the locals of the code. With the check that every routine
passes, each unit that a session compiles passes the check that stored units must pass.
-/

namespace Pascaline

/-- The locals begin with those given. -/
structure Builder.Begins (locals : Array Shape) (s : Builder) : Prop where
  starts : locals.toList <+: s.locals.toList

/-- Nothing takes a slot away, whatever the expressions refer to. -/
theorem Builder.stable_begins (R : References) (locals : Array Shape) :
    Stable R locals.size (Builder.Begins locals) where
  frame h := h.starts.length_le
  block h := ⟨h.starts⟩
  goTo _ h := ⟨h.starts⟩
  loops _ h := ⟨h.starts⟩
  emit _ h := ⟨by simpa using h.starts⟩
  slot shape h := ⟨h.starts.trans (by simp [addLocal])⟩
  const _ h := ⟨h.starts⟩
  shape _ h := ⟨h.starts⟩
  native _ h := ⟨h.starts⟩
  call _ h := ⟨h.starts⟩
  global _ h := ⟨h.starts⟩
  object _ h := ⟨h.starts⟩

namespace CompiledUnit

/-! ## Units -/

/-- The places of the parameters and of the result are among the locals. -/
structure FitsFrame (r : Routine) : Prop where
  params : r.params ≤ r.locals.size
  result : r.result < r.locals.size

theorem place_lt {place : Option Nat} {n : Nat} (h : ∀ i, place = some i → i < n) :
    (place.map Int.ofNat).getD (-1) < n := by
  cases place with
  | none =>
    simp only [Option.map_none, Option.getD_none]
    omega
  | some i => simpa using h i rfl

theorem fitsFrame_of_lowerRoutine {types : TypeTable} {pool pool' : Pool} {r : Bound.Routine}
    {code : Routine} (h : lowerRoutine types pool r = .ok (code, pool')) (hr : r.Framed) :
    FitsFrame code := by
  unfold lowerRoutine at h
  obtain ⟨shapes, hshapes, h⟩ := except_bind_ok h
  obtain ⟨⟨⟨⟩, s⟩, hs, h⟩ := except_bind_ok h
  cases h
  have hbegins : s.Begins shapes.toArray := by
    refine Lower.maintains_stmts (Builder.stable_begins .any _) _ r.body (fun s _ e _ x _ => ?_) _ _ _
      hs ⟨List.prefix_rfl⟩
    exact x.refers_any
  have hlength : r.slots.length ≤ s.locals.size := by
    have hslots := (mapM_eq_ok hshapes).length_eq
    have hprefix := hbegins.starts.length_le
    simp only [Array.length_toList] at hprefix
    omega
  constructor
  · have := hr.params
    simp only
    omega
  · exact place_lt fun i hi => (hr.result i hi).trans_le hlength

theorem checkRoutine_eq_ok (u : CompiledUnit) {r : Routine} (hblocks : r.blocks.validate = .ok ())
    (hframe : FitsFrame r) : u.checkRoutine r = .ok () := by
  have hparams := hframe.params
  have hresult := hframe.result
  unfold checkRoutine
  rw [hblocks]
  simp only [Bool.or_eq_true, decide_eq_true_eq]
  rw [if_neg (by omega)]

theorem checkRoutine_of_lowerRoutines (u : CompiledUnit) {types : TypeTable} {unit : String}
    {pool pool' : Pool} {rs : List Bound.Routine} {codes : List Routine}
    (h : lowerRoutines types unit pool rs = .ok (codes, pool')) (hrs : ∀ r ∈ rs, r.Framed) :
    codes.length = rs.length ∧ ∀ code ∈ codes, u.checkRoutine code = .ok () := by
  induction rs generalizing pool codes with
  | nil =>
    cases h
    simp
  | cons r rs ih =>
    obtain ⟨⟨code, pool₁⟩, hcode, h⟩ := except_bind_ok h
    dsimp only at h
    split at h
    · cases h
    · rename_i hblocks
      obtain ⟨⟨codes', pool₂⟩, hcodes, h⟩ := except_bind_ok h
      cases h
      obtain ⟨hlength, hchecked⟩ := ih hcodes fun q hq => hrs q (List.mem_cons_of_mem _ hq)
      refine ⟨by simp [hlength], ?_⟩
      intro c hc
      rcases List.mem_cons.mp hc with rfl | hc
      · exact checkRoutine_eq_ok u hblocks
          (fitsFrame_of_lowerRoutine hcode (hrs r List.mem_cons_self))
      · exact hchecked c hc

theorem validate_eq_ok {u : CompiledUnit} (hmagic : u.magic = magicWord)
    (hschema : u.schema = currentSchema)
    (hroutines : ∀ r ∈ u.routines.toList, u.checkRoutine r = .ok ())
    (hinit : u.init < u.routines.size) (hmain : u.main < u.routines.size) :
    u.validate = .ok () := by
  have hall : u.routines.toList.forM u.checkRoutine = .ok () := forM_eq_ok_iff.mpr hroutines
  unfold validate
  rw [if_neg (by simp [hmagic, hschema])]
  simp only [bind, Except.bind, pure, Except.pure, hall]
  rw [if_neg (by simp; omega)]

theorem validate_of_ofModule {types : TypeTable} {m : Bound.Module} {u : CompiledUnit}
    (h : ofModule types m = .ok u) (hm : m.Framed) : u.validate = .ok () := by
  unfold ofModule at h
  obtain ⟨classes, -, h⟩ := except_bind_ok h
  obtain ⟨globals, -, h⟩ := except_bind_ok h
  obtain ⟨⟨routines, pool⟩, hroutines, h⟩ := except_bind_ok h
  cases h
  obtain ⟨hlength, hchecked⟩ := checkRoutine_of_lowerRoutines _ hroutines hm.routines
  apply validate_eq_ok rfl rfl
  · simpa [CompiledUnit.routines] using hchecked
  · simpa [CompiledUnit.routines, hlength] using place_lt hm.init
  · simpa [CompiledUnit.routines, hlength] using place_lt hm.main

end CompiledUnit

/-! ## Sessions -/

namespace Compilation

/-- All units that a session has compiled pass the check. -/
def Checked (c : Compilation) : Prop := ∀ u ∈ c.units, u.validate = .ok ()

theorem Checked.done {c : Compilation} (hc : c.Checked) {o : SourceOutcome}
    (ho : ∀ u, o.unit = some u → u.validate = .ok ()) :
    Checked { c with outcomes := c.outcomes ++ [o] } := by
  intro u hu
  simp only [units, List.filterMap_append, List.mem_append] at hu
  rcases hu with hu | hu
  · exact hc u hu
  · obtain ⟨o', ho', hunit⟩ := List.mem_filterMap.mp hu
    obtain rfl := List.mem_singleton.mp ho'
    exact ho u hunit

theorem Checked.publish {c : Compilation} (hc : c.Checked) (u : CompiledUnit) :
    (c.publish u).Checked := by
  unfold Compilation.publish
  split
  · exact hc
  · exact hc

theorem Checked.compile {c c' : Compilation} (hc : c.Checked) {name : String} {source : SourceFile}
    (h : c.compile name source = .ok c') : c'.Checked := by
  unfold Compilation.compile at h
  dsimp only at h
  split at h
  · cases h
    exact hc.done (by simp)
  · obtain ⟨r, hr, h⟩ := except_bind_ok h
    have hframed := Bound.Module.framed_ofFile hr
    have htypes : Checked { c with types := r.types } := hc
    split at h
    · cases h
      exact htypes.done (by simp)
    · split at h
      · cases h
        exact htypes.done (by simp)
      · rename_i u hu
        have hvalid := CompiledUnit.validate_of_ofModule hu hframed
        cases h
        refine (htypes.publish _).done ?_
        rintro _ ⟨⟩
        exact hvalid

theorem Checked.add {c c' : Compilation} (hc : c.Checked) {name : String} {content : Bytes}
    (h : c.add name content = .ok c') : c'.Checked := by
  unfold Compilation.add at h
  dsimp only at h
  split at h
  · rename_i source hsource
    have hlibrary : Checked { c with library := (c.library.addText name content).2 } := hc
    exact hlibrary.compile h
  · cases h
    exact hc

theorem checked_of_ofSources {sources : List (String × Bytes)} {c : Compilation}
    (h : ofSources sources = .ok c) : c.Checked := by
  have hfold : ∀ (sources : List (String × Bytes)) (c c' : Compilation), c.Checked →
      sources.foldlM (fun c source => c.add source.1 source.2) c = .ok c' → c'.Checked := by
    intro sources
    induction sources with
    | nil =>
      intro c c' hc h
      cases h
      exact hc
    | cons source sources ih =>
      intro c c' hc h
      obtain ⟨c₁, h₁, h⟩ := except_bind_ok h
      exact ih c₁ c' (hc.add h₁) h
  exact hfold sources {} c (by simp [Checked, units]) h

end Compilation

end Pascaline
