import Pascaline.Proofs.Build.Clean

/-!
# What a build results in

Either a build has errors, or its units are those of all sources in the order of initialization, and
none is missing.
-/

namespace Pascaline

/-- Units in an order of initialization: one for each source that was found, behind those of the
sources that it uses, and that of the target at the end. -/
structure Build.Complete (target : String) (found : List FoundSource) (units : List CompiledUnit) :
    Prop where
  nodup : (units.map (·.name)).Nodup
  names : ∀ name, name ∈ units.map (·.name) ↔ name ∈ found.map (·.summary.name)
  made : ∀ u ∈ units, ∃ src ∈ found, u.name = src.summary.name ∧ u.source = src.summary.content
  behind : ∀ before u after, units = before ++ u :: after → ∀ src ∈ found,
    src.summary.name = u.name → ∀ use ∈ src.summary.uses, ∃ v ∈ before, v.name = use.name
  last : ∃ entry u, found.getLast? = some entry ∧ entry.summary.path = Path.clean target ∧
    units.getLast? = some u ∧ u.name = entry.summary.name

/-- The discovery that a build begins with. -/
def BuildRequest.discovery (r : BuildRequest) : Discovery :=
  { search := r.search, limit := if 0 < r.limit then r.limit else 100 }

namespace BuildM

open Build

variable {b : Build} {disk₀ : Disk} {s s' : Build × Disk} {src : FoundSource}

-- Unifiers would run the binding of a file.
attribute [local irreducible] Bound.Module.ofFile

/-! ## All passes -/

theorem discover_result {note : String} (h : Yields discover s note s') :
    ∃ d, (s.1.request.discovery.discover s.1.request.target : StateM Disk _).run s.2 = (.ok d, s.2) ∧
      s'.2 = s.2 ∧ s'.1.sources = d.found ∧ s'.1.broken = s.1.broken := by
  simp only [discover, yields_bind, yields_get, yields_lift] at h
  obtain ⟨_, _, ⟨rfl, rfl⟩, r, t, ⟨ht, hrun⟩, h⟩ := h
  split at h
  · exact absurd h yields_throw
  case h_2 d =>
    simp only [yields_bind, yields_modify, yields_pure] at h
    obtain ⟨_, _, rfl, -, rfl⟩ := h
    have hdisk := (Discovery.discover_reads _ _ _).symm.trans (congrArg Prod.snd hrun)
    have hquiet := quiet_foldl
      (fun b (src : FoundSource) => quiet_ends b src.summary.path .parse (src.report.firstError?.map .report) 0)
      d.found { t.1 with library := d.library, sources := d.found }
    refine ⟨d, ?_, hdisk.symm, hquiet.sources, ?_⟩
    · rw [← hdisk] at hrun
      exact hrun
    · rw [hquiet.broken, ← ht]

/-- Between the passes and the end: the sources `b` has found were dealt with, and there is a unit
for each number unless there are errors. -/
structure Ended (b c : Build) : Prop where
  summaries : c.sources.map (·.summary) = b.sources.map (·.summary)
  units : c.units = []
  layering : c.layering = b.layOut.layering
  errors : b.Erring → c.Erring
  outcome : c.Erring ∨ b.layOut.layering.isCyclic = false ∧
    (∀ i, Present b i → ∃ u, c.unitAt? i = some u) ∧
    ∀ i u, c.unitAt? i = some u → u.name = b.layOut.graph.nameOf i ∧
      ∃ src ∈ b.sources, u.name = src.summary.name ∧ u.source = src.summary.content

theorem Ended.quiet {c c' : Build} (h : Ended b c) (hc : Quiet c c') : Ended b c' where
  summaries := by rw [hc.sources, h.summaries]
  units := hc.units.trans h.units
  layering := hc.layering.trans h.layering
  errors herring := (h.errors herring).congr hc.sources
  outcome := by
    have hunit : c'.unitAt? = c.unitAt? := by
      funext i
      rw [unitAt?, unitAt?, hc.compiled, hc.graph]
    rw [hunit]
    exact h.outcome.imp_left (·.congr hc.sources)

theorem Clean.units {t : Build × Disk} (hacyclic : b.layOut.layering.isCyclic = false)
    (h : Clean b.layOut disk₀ (b.layOut.layering.initOrder.map b.layOut.graph.nameOf) t) :
    (∀ i, Present b i → ∃ u, t.1.reportBroken.unitAt? i = some u) ∧
    ∀ i u, t.1.reportBroken.unitAt? i = some u → u.name = b.layOut.graph.nameOf i ∧
      ∃ src ∈ b.sources, u.name = src.summary.name ∧ u.source = src.summary.content := by
  have hunit (i : Nat) : t.1.reportBroken.unitAt? i =
      t.1.compiled.find? (·.name == b.layOut.graph.nameOf i) := by
    rw [← h.graph]
    rfl
  simp only [hunit]
  refine ⟨fun i hi => ?_, fun i u hu => ?_⟩
  · obtain ⟨u, hu, hname⟩ := h.dealt _ (List.mem_map_of_mem ((mem_initOrder hacyclic).mpr hi))
    rw [← Option.isSome_iff_exists, List.find?_isSome]
    exact ⟨u, hu, beq_iff_eq.mpr hname⟩
  · have hname : u.name = b.layOut.graph.nameOf i := by simpa using List.find?_some hu
    obtain ⟨src, hsrc, hcontent⟩ := h.made u (List.mem_of_find?_eq_some hu)
    have hlaid : b.sources.map (·.summary) = b.layOut.sources.map (·.summary) :=
      (sources_addReports _ _).1.symm
    obtain ⟨src', hsrc', hsummary⟩ := source?_of_summaries hlaid hsrc
    refine ⟨hname, src', List.mem_of_find?_eq_some hsrc', ?_, hsummary ▸ hcontent⟩
    rw [hsummary, name_of_source? hsrc]

/-- A build that has not begun. -/
structure Fresh (b : Build) : Prop where
  units : b.units = []
  compiled : b.compiled = []
  broken : b.broken = []

theorem phases_spec {root : Nat} {u₁ u₂ u₃ : PUnit} {t₁ t₂ t₃ : Build × Disk} (hfresh : Fresh s.1)
    (hcache : s.1.request.cache = "" ∨ UnitCache.HoldsNamed s.1.request.cache s.2)
    (hparse : Yields (inPhase root "parse" discover) s u₁ t₁)
    (hgraph : Yields (inPhase root "graph" do
      modify Build.layOut
      return decimal (← get).layering.batches.length ++ " waves") t₁ u₂ t₂)
    (hcompile : Yields (inPhase root "compile" (compileAll root)) t₂ u₃ t₃) :
    ∃ d b, (s.1.request.discovery.discover s.1.request.target : StateM Disk _).run s.2 =
        (.ok d, s.2) ∧ d.Finds s.1.request.target ∧ b.sources = d.found ∧ Ended b t₃.1 := by
  obtain ⟨p, _, p', hp, hdiscover, hp'⟩ := yields_inPhase hparse
  obtain ⟨q, _, q', hq, hlayOut, hq'⟩ := yields_inPhase hgraph
  obtain ⟨c, _, c', hc, hall, hc'⟩ := yields_inPhase hcompile
  simp only [yields_bind, yields_modify, yields_get, yields_pure] at hlayOut
  obtain ⟨_, _, rfl, _, _, ⟨-, rfl⟩, -, rfl⟩ := hlayOut
  obtain ⟨hrequest, hcompiled, hunits, hfaithful⟩ := discover_spec hdiscover
  obtain ⟨d, hrun, hdisk, hsources, hbroken⟩ := discover_result hdiscover
  have hafter := hp'.trans hq
  rw [hp.quiet.request, hp.disk] at hrun
  have hfinds : d.Finds s.1.request.target :=
    Discovery.discover_finds rfl rfl rfl s.1.request.target s.2 d (congrArg Prod.fst hrun)
  have hfound : q.1.sources = d.found := hafter.quiet.sources.trans hsources
  refine ⟨d, q.1, hrun, hfinds, hfound, Ended.quiet ?_ hc'.quiet⟩
  have hlaid : Silent (q.1.layOut, q.2) c := hq'.trans hc
  have htracks : Tracks q.1.layOut c.1 := by
    refine (tracks_layOut ?_ ?_ ?_).quiet hlaid.quiet
    · rw [hafter.quiet.units, hunits, hp.quiet.units, hfresh.units]
    · rw [hafter.quiet.compiled, hcompiled, hp.quiet.compiled, hfresh.compiled]
    · rw [hafter.quiet.sources]
      exact hfaithful
  obtain ⟨b', htracks', heq⟩ := tracks_compileAll htracks hall
  have hlaid_errors (hreports : q.1.layOut.Erring) : c'.1.Erring :=
    erring_compileAll (hreports.congr hlaid.quiet.sources) hall
  refine ⟨?_, ?_, ?_, fun herring => hlaid_errors herring.layOut, ?_⟩
  · rw [heq]
    refine (sources_addReports _ _).1.trans ?_
    exact htracks'.summaries.trans (sources_addReports _ _).1
  · rw [heq]
    exact htracks'.units
  · rw [heq]
    exact htracks'.layering
  · by_cases hreports : q.1.layOut.Erring
    · exact .inl (hlaid_errors hreports)
    have hsound : ∀ src ∈ q.1.sources, src.Sound := hfound ▸ hfinds.sound
    have hacyclic : q.1.layOut.layering.isCyclic = false :=
      Bool.eq_false_iff.mpr fun hcyclic => hreports (erring_of_cyclic hsound hcyclic)
    have hq_disk : q.2 = s.2 := hafter.disk.trans (hdisk.trans hp.disk)
    have hq_request : q.1.layOut.request = s.1.request :=
      hafter.quiet.request.trans (hrequest.trans hp.quiet.request)
    have hnamed : Named q.1.layOut q.2 := by rwa [Named, hq_request, hq_disk]
    have hclean : Clean q.1.layOut q.2 [] (q.1.layOut, q.2) := by
      have hcompiled₀ : q.1.layOut.compiled = [] :=
        hafter.quiet.compiled.trans (hcompiled.trans (hp.quiet.compiled.trans hfresh.compiled))
      refine ⟨rfl, rfl, rfl, rfl, ?_, ?_, by simp, rfl, fun _ _ _ _ => id⟩
      · exact hafter.quiet.broken.trans (hbroken.trans (hp.quiet.broken.trans hfresh.broken))
      · rw [hcompiled₀]
        simp
    refine (clean_compileAll hnamed hsound hreports hacyclic (hclean.silent hlaid) hall).imp_right ?_
    rintro ⟨t, ht, hreported⟩
    rw [hreported]
    exact ⟨hacyclic, ht.units hacyclic⟩

/-! ## The order of initialization -/

section Order

variable {c : Build} {d : Discovery} {target : String} {units : List CompiledUnit}

theorem source?_of_mem (hfinds : d.Finds target) (hfound : b.sources = d.found)
    (hsrc : src ∈ d.found) : b.source? src.summary.name = some src := by
  have hsome : (b.source? src.summary.name).isSome := by
    rw [source?, List.find?_isSome]
    exact ⟨src, hfound ▸ hsrc, beq_self_eq_true _⟩
  obtain ⟨src', hsrc'⟩ := Option.isSome_iff_exists.mp hsome
  have hmem : src' ∈ d.found := hfound ▸ List.mem_of_find?_eq_some hsrc'
  rw [hsrc', List.inj_on_of_nodup_map hfinds.nodup hmem hsrc (name_of_source? hsrc')]

theorem exists_present (hfinds : d.Finds target) (hfound : b.sources = d.found) (hb : ¬ b.Erring)
    (hsrc : src ∈ d.found) : ∃ i, Present b i ∧ b.layOut.graph.nameOf i = src.summary.name := by
  have hmem : src ∈ b.sources := hfound ▸ hsrc
  have hname := ((hfinds.sound src hsrc).named.resolve_right fun h => hb ⟨src, hmem, h⟩).ne_empty
  exact (exists_present_iff _).mpr ⟨hname, src, source?_of_mem hfinds hfound hsrc⟩

theorem names_of_units (hfinds : d.Finds target) (hfound : b.sources = d.found) (hb : ¬ b.Erring)
    (hacyclic : b.layOut.layering.isCyclic = false)
    (hnames : units.map (·.name) = b.layOut.layering.initOrder.map b.layOut.graph.nameOf)
    (name : String) : name ∈ units.map (·.name) ↔ name ∈ d.found.map (·.summary.name) := by
  rw [hnames, List.mem_map]
  constructor
  · rintro ⟨i, hi, rfl⟩
    obtain ⟨-, src, hsrc⟩ := (exists_present_iff _).mp ⟨i, (mem_initOrder hacyclic).mp hi, rfl⟩
    rw [← hfound]
    exact List.mem_map.mpr ⟨src, List.mem_of_find?_eq_some hsrc, name_of_source? hsrc⟩
  · intro hmem
    obtain ⟨src, hsrc, rfl⟩ := List.mem_map.mp hmem
    obtain ⟨i, hi, hname⟩ := exists_present hfinds hfound hb hsrc
    exact ⟨i, (mem_initOrder hacyclic).mpr hi, hname⟩

theorem used_before (hfinds : d.Finds target) (hfound : b.sources = d.found) (hb : ¬ b.Erring)
    (hacyclic : b.layOut.layering.isCyclic = false)
    (hnames : units.map (·.name) = b.layOut.layering.initOrder.map b.layOut.graph.nameOf)
    {before after : List CompiledUnit} {u : CompiledUnit} (hunits : units = before ++ u :: after)
    (hsrc : src ∈ d.found) (hu : src.summary.name = u.name) {use : UseRef}
    (huse : use ∈ src.summary.uses) : ∃ v ∈ before, v.name = use.name := by
  obtain ⟨hne, hmem⟩ := ((hfinds.settled src hsrc).resolve_left fun h => hb ⟨src, hfound ▸ hsrc, h⟩)
    use.name (List.mem_map_of_mem huse)
  obtain ⟨used, hused, hused_name⟩ := List.mem_map.mp hmem
  obtain ⟨k, hk, hk_name⟩ := exists_present hfinds hfound hb hused
  rw [hunits, List.map_append, List.map_cons] at hnames
  obtain ⟨is, is', horder, his, his'⟩ := List.map_eq_append_iff.mp hnames.symm
  obtain ⟨i, is'', rfl, hi_name, -⟩ := List.map_eq_cons_iff.mp his'
  have hi : Present b i := (mem_initOrder hacyclic).mp (by simp [horder])
  have hg := UnitGraph.numbered_ofNodes b.nodes
  have hindex (i : Nat) (hi : Present b i) : (UnitGraph.ofNodes b.nodes).1.indexOf?
      (b.layOut.graph.nameOf i) = some i := hg.indexOf?_nameOf (UnitGraph.lt_of_isPresent hi)
  have hnode {src : FoundSource} (hsrc : src ∈ d.found) :
      UnitGraph.sourceOf? b.nodes src.summary.name =
        some ⟨src.summary, src.failed, src.report.firstError?⟩ := by
    have hname := ((hfinds.sound src hsrc).named.resolve_right fun h => hb ⟨src, hfound ▸ hsrc, h⟩)
    rw [sourceOf?_nodes, if_neg hname.ne_empty, source?_of_mem hfinds hfound hsrc]
    rfl
  have hdep : k ∈ (UnitGraph.ofNodes b.nodes).1.deps i := by
    refine (UnitGraph.mem_deps_iff (hindex i hi) (hindex k hk)).mpr ⟨?_, ?_, ?_⟩
    · rw [hk_name, hi_name, ← hu, hused_name]
      exact hne
    · rw [hi_name, ← hu, hk_name, hused_name]
      exact ⟨_, hnode hsrc, use, huse, rfl⟩
    · rw [hk_name, hnode hused]
      rfl
  have hbefore := UnitGraph.deps_before (UnitGraph.bounded_ofNodes b.nodes) hacyclic horder k hdep
  have hname : use.name ∈ before.map (·.name) := by
    rw [← his, ← hused_name, ← hk_name]
    exact List.mem_map_of_mem hbefore
  exact List.mem_map.mp hname

theorem last_of_units (hfinds : d.Finds target)
    (hnames : ∀ name, name ∈ units.map (·.name) ↔ name ∈ d.found.map (·.summary.name))
    (hnodup : (units.map (·.name)).Nodup)
    (hbehind : ∀ before u after, units = before ++ u :: after → ∀ src ∈ d.found,
      src.summary.name = u.name → ∀ use ∈ src.summary.uses, ∃ v ∈ before, v.name = use.name) :
    ∃ entry u, d.found.getLast? = some entry ∧ entry.summary.path = Path.clean target ∧
      units.getLast? = some u ∧ u.name = entry.summary.name := by
  obtain ⟨new, entry, hfound, -, hpath, hused⟩ := hfinds.last
  have hentry : entry.summary.name ∈ units.map (·.name) :=
    (hnames _).mpr (List.mem_map_of_mem (by simp [hfound]))
  have hne : units ≠ [] := by
    rintro rfl
    cases hentry
  obtain ⟨front, u, rfl⟩ : ∃ front u, units = front ++ [u] :=
    ⟨_, _, (List.dropLast_append_getLast hne).symm⟩
  refine ⟨entry, u, by simp [hfound], hpath, by simp, ?_⟩
  obtain ⟨src, hsrc, hname⟩ := List.mem_map.mp ((hnames u.name).mp (by simp))
  rw [hfound, List.mem_append, List.mem_singleton] at hsrc
  obtain hsrc | rfl := hsrc
  case inr => exact hname.symm
  -- any other source is used by one whose unit stands behind the last
  obtain ⟨user, huser, huser_name, huse⟩ := hused src hsrc
  obtain ⟨t, ht, rfl⟩ : ∃ t ∈ d.found, t.summary = user := by
    obtain rfl | huser := List.mem_cons.mp huser
    · exact ⟨entry, by simp [hfound], rfl⟩
    · obtain ⟨t, ht, rfl⟩ := List.mem_map.mp huser
      exact ⟨t, by simp [hfound, ht], rfl⟩
  obtain ⟨use, huse, huse_name⟩ := List.mem_map.mp huse
  obtain ⟨w, hw, hw_name⟩ := List.mem_map.mp ((hnames t.summary.name).mpr (List.mem_map_of_mem ht))
  have hw : w ∈ front := by
    obtain hw | hw := List.mem_append.mp hw
    · exact hw
    · rw [List.mem_singleton.mp hw, ← hname] at hw_name
      exact absurd hw_name.symm huser_name
  obtain ⟨before, after, rfl⟩ := List.append_of_mem hw
  obtain ⟨v, hv, hv_name⟩ := hbehind before w (after ++ [u]) (by simp) t ht hw_name.symm use huse
  rw [List.map_append, List.nodup_append] at hnodup
  refine absurd (hv_name.trans (huse_name.trans hname)) (hnodup.2.2 v.name ?_ u.name (by simp))
  exact List.mem_map_of_mem (List.mem_append_left _ hv)

theorem complete_of_units (hfinds : d.Finds target) (hfound : b.sources = d.found)
    (hended : Ended b c) (hc : ¬ c.Erring)
    (hunits : List.Forall₂ (fun i u => c.unitAt? i = some u) c.layering.initOrder units) :
    Complete target d.found units := by
  have hb : ¬ b.Erring := fun h => hc (hended.errors h)
  obtain ⟨hacyclic, -, hmade⟩ := hended.outcome.resolve_left hc
  rw [hended.layering] at hunits
  have hnames : units.map (·.name) = b.layOut.layering.initOrder.map b.layOut.graph.nameOf := by
    have hpairs : List.Forall₂ (· = ·) (units.map (·.name))
        (b.layOut.layering.initOrder.map b.layOut.graph.nameOf) := by
      rw [List.forall₂_map_left_iff, List.forall₂_map_right_iff]
      exact (hunits.imp fun i u hu => (hmade i u hu).1).flip
    rwa [List.forall₂_eq_eq_eq] at hpairs
  have hnodup : (units.map (·.name)).Nodup := by
    rw [hnames]
    refine (List.nodup_map_iff_inj_on (initOrder_nodup b)).mpr fun i hi k hk => ?_
    exact nameOf_inj ((mem_initOrder hacyclic).mp hi) ((mem_initOrder hacyclic).mp hk)
  have hall := names_of_units hfinds hfound hb hacyclic hnames
  have hbehind : ∀ before u after, units = before ++ u :: after → ∀ src ∈ d.found,
      src.summary.name = u.name → ∀ use ∈ src.summary.uses, ∃ v ∈ before, v.name = use.name :=
    fun before u after hsplit src hsrc hname use huse =>
      used_before hfinds hfound hb hacyclic hnames hsplit hsrc hname huse
  refine ⟨hnodup, hall, fun u hu => ?_, hbehind, last_of_units hfinds hall hnodup hbehind⟩
  obtain ⟨i, hi⟩ := forall₂_mem_right hunits hu
  obtain ⟨-, src, hsrc, hname, hcontent⟩ := hmade i u hi
  exact ⟨src, hfound ▸ hsrc, hname, hcontent⟩

end Order

/-! ## Failures -/

/-- The sources have no errors, and no unit is missing: something else went wrong. -/
def IsOutward (e : BuildError) : Prop := e ≠ .diagnostics ∧ ∀ name, e ≠ .notCompiled name

variable {e : BuildError}

theorem outward_persist {path : String} {v : CompiledUnit} (h : Fails (persist path v) s e s') :
    IsOutward e := by
  simp only [persist, fails_bind, fails_get, yields_get, false_or] at h
  obtain ⟨_, _, ⟨rfl, rfl⟩, h⟩ := h
  split at h
  · exact absurd h fails_pure
  · simp only [fails_bind, fails_modify, fails_now, fails_lift, false_or] at h
    obtain ⟨_, _, -, _, _, -, r, _, -, _, _, -, h⟩ := h
    split at h
    · exact absurd h fails_modify
    · simp only [fails_bind, fails_modify, fails_throw, false_or] at h
      obtain ⟨_, _, -, rfl, -⟩ := h
      simp [IsOutward]

theorem outward_compileSource {tree : Tree.File} (h : Fails (compileSource src tree) s e s') :
    IsOutward e := by
  simp only [compileSource, fails_bind, fails_modify, fails_now, false_or] at h
  obtain ⟨_, _, -, _, _, -, h⟩ := h
  obtain hbind | ⟨r, _, -, _, _, -, h⟩ := h
  · have hstep := fails_step hbind
    unfold bindSource at hstep
    dsimp only at hstep
    split at hstep
    · cases hstep
    · cases hstep
      simp [IsOutward]
  split at h
  · exact absurd h fails_modify
  simp only [fails_bind, fails_modify, fails_now, fails_modifyGet, false_or] at h
  obtain ⟨_, _, -, h⟩ := h
  obtain hlower | ⟨v, _, -, _, _, -, _, _, -, _, _, -, h⟩ := h
  · have hstep := fails_step hlower
    rw [lowerSource] at hstep
    split at hstep
    · cases hstep
      simp [IsOutward]
    · cases hstep
  split at h
  · obtain ⟨rfl, -⟩ := fails_throw.mp h
    simp [IsOutward]
  · simp only [fails_bind, fails_modify, false_or] at h
    obtain ⟨_, _, -, h⟩ := h
    exact outward_persist h

theorem outward_reuse {span : Journal.OpenSpan} (h : Fails (reuse src span) s e s') :
    IsOutward e := by
  simp only [reuse, fails_bind, fails_now, fails_get, fails_lift, false_or] at h
  obtain ⟨_, _, -, _, _, -, r, _, -, h⟩ := h
  split at h
  · obtain ⟨rfl, -⟩ := fails_throw.mp h
    simp [IsOutward]
  split at h
  · simp only [fails_bind, fails_now, fails_modify, fails_pure, and_false, exists_false, or_self] at h
  · exact absurd h fails_pure
  · simp only [fails_bind, fails_modify, fails_modifyGet, false_or] at h
    obtain ⟨_, _, -, _, _, -, h⟩ := h
    split at h
    · exact absurd h fails_pure
    · simp only [fails_bind, fails_now, fails_modify, fails_pure, and_false, exists_false, or_self] at h

theorem outward_compileUnit {root : Nat} {slot : GraphSlot}
    (h : Fails (compileUnit root slot src) s e s') : IsOutward e := by
  obtain ⟨span, t, t', -, h⟩ := fails_inSpan h
  simp only [fails_bind, fails_get, false_or] at h
  obtain ⟨_, _, -, h⟩ := h
  split at h
  case h_2 => simp only [fails_bind, fails_set, fails_pure, and_false, exists_false, or_self] at h
  split at h
  · simp only [fails_bind, fails_set, fails_pure, and_false, exists_false, or_self] at h
  split at h
  · simp only [fails_bind, fails_set, fails_pure, and_false, exists_false, or_self] at h
  simp only [fails_bind] at h
  obtain hreuse | ⟨r, _, -, h⟩ := h
  · exact outward_reuse hreuse
  split at h
  · simp only [fails_bind, fails_pure, and_false, exists_false, or_false] at h
    exact outward_compileSource h
  · exact absurd h fails_pure

theorem outward_compileAll {root : Nat} (h : Fails (compileAll root) s e s') : IsOutward e := by
  simp only [compileAll, fails_bind, fails_get, false_or] at h
  obtain ⟨_, _, -, h⟩ := h
  split at h
  case isFalse => simp only [fails_bind, fails_modify, fails_pure, and_false, exists_false, or_self] at h
  simp only [fails_bind, fails_modify, fails_pure, and_false, exists_false, or_false] at h
  obtain ⟨i, -, t, h⟩ := fails_forM h
  simp only [fails_bind, fails_get, false_or] at h
  obtain ⟨_, _, -, h⟩ := h
  split at h
  · exact absurd h fails_pure
  split at h
  · exact absurd h fails_pure
  split at h
  · simp only [fails_bind, fails_throw, yields_throw, false_and, exists_false, or_false] at h
    obtain ⟨rfl, -⟩ := h
    simp [IsOutward]
  · exact outward_compileUnit h

theorem outward_discover (h : Fails discover s e s') : IsOutward e := by
  simp only [discover, fails_bind, fails_get, fails_lift, false_or] at h
  obtain ⟨_, _, -, _, _, -, h⟩ := h
  split at h
  · obtain ⟨rfl, -⟩ := fails_throw.mp h
    simp [IsOutward]
  · simp only [fails_bind, fails_modify, fails_pure, and_false, exists_false, or_self] at h

/-! ## The whole build -/

theorem Ended.finish {c : Build} (hended : Ended b c) {c' : Build} {d : Discovery} {target : String}
    (hfinds : d.Finds target) (hfound : b.sources = d.found) (h : c.finish = .ok c') :
    c'.sources.map (·.summary) = d.found.map (·.summary) ∧
      if c'.report.hasErrors then c'.units = [] else Complete target d.found c'.units := by
  obtain ⟨hsources, hreport, hunits⟩ := finish_ok h
  refine ⟨by rw [hsources, hended.summaries, hfound], ?_⟩
  by_cases hc : c.Erring
  · rw [if_pos (hreport.mpr hc)]
    obtain ⟨-, hnone⟩ | ⟨hc', -⟩ := hunits
    · exact hnone.trans hended.units
    · exact absurd hc hc'
  · rw [if_neg (mt hreport.mp hc)]
    obtain ⟨hor, -⟩ | ⟨-, hunits⟩ := hunits
    · have hacyclic := (hended.outcome.resolve_left hc).1
      rw [← hended.layering] at hacyclic
      rw [hacyclic] at hor
      exact absurd hor (by simp [hc])
    · exact complete_of_units hfinds hfound hended hc hunits

/-- No unit is missing at the end. -/
theorem Ended.finish_ne_error {c : Build} (hended : Ended b c) : c.finish ≠ .error e := by
  intro h
  obtain ⟨hc, -, i, hi, hnone⟩ := finish_error h
  obtain ⟨hacyclic, hall, -⟩ := hended.outcome.resolve_left hc
  rw [hended.layering] at hi
  obtain ⟨u, hu⟩ := hall i ((mem_initOrder hacyclic).mp hi)
  rw [hnone] at hu
  cases hu

theorem Fresh.quiet (h : Fresh b) {b' : Build} (hb : Quiet b b') : Fresh b' :=
  ⟨hb.units.trans h.units, hb.compiled.trans h.compiled, hb.broken.trans h.broken⟩

theorem passes_result {u : PUnit} (hfresh : Fresh s.1)
    (hcache : s.1.request.cache = "" ∨ UnitCache.HoldsNamed s.1.request.cache s.2)
    (h : Yields passes s u s') :
    ∃ d, (s.1.request.discovery.discover s.1.request.target : StateM Disk _).run s.2 = (.ok d, s.2) ∧
      s'.1.sources.map (·.summary) = d.found.map (·.summary) ∧
      if s'.1.report.hasErrors then s'.1.units = []
      else Complete s.1.request.target d.found s'.1.units := by
  simp only [passes, yields_bind, yields_get] at h
  obtain ⟨_, _, ⟨rfl, rfl⟩, h⟩ := h
  obtain ⟨span, t, r, t', hopen, hbody, -, hclose⟩ := yields_inSpan h
  simp only [yields_bind, yields_step, yields_pure] at hbody
  obtain ⟨_, t₁, hparse, _, t₂, hgraph, _, t₃, hcompile, _, t₄, ⟨hfinish, -⟩, -, rfl⟩ := hbody
  rw [← hopen.quiet.request, ← hopen.disk] at hcache ⊢
  obtain ⟨d, b, hrun, hfinds, hfound, hended⟩ := phases_spec (hfresh.quiet hopen.quiet) hcache
    hparse (by simpa only [yields_bind] using hgraph) hcompile
  refine ⟨d, hrun, ?_⟩
  rw [hclose.quiet.sources, hclose.quiet.report, hclose.quiet.units]
  refine hended.finish hfinds hfound ?_
  cases hf : t₃.1.finish with
  | error e =>
    rw [hf] at hfinish
    cases hfinish
  | ok b =>
    rw [hf] at hfinish
    cases hfinish
    rfl

theorem outward_passes (hfresh : Fresh s.1)
    (hcache : s.1.request.cache = "" ∨ UnitCache.HoldsNamed s.1.request.cache s.2)
    (h : Fails passes s e s') : IsOutward e := by
  simp only [passes, fails_bind, fails_get, yields_get, false_or] at h
  obtain ⟨_, _, ⟨rfl, rfl⟩, h⟩ := h
  obtain ⟨span, t, t', hopen, h⟩ := fails_inSpan h
  rw [← hopen.quiet.request, ← hopen.disk] at hcache
  simp only [fails_bind, fails_pure, and_false, exists_false, or_false] at h
  obtain hparse | ⟨_, t₁, hparse, hgraph | ⟨_, t₂, hgraph, hcompile | ⟨_, t₃, hcompile, hfinish⟩⟩⟩ := h
  · obtain ⟨_, _, -, hdiscover⟩ := fails_inPhase hparse
    exact outward_discover hdiscover
  · obtain ⟨_, _, -, hlayOut⟩ := fails_inPhase hgraph
    simp only [fails_bind, fails_modify, fails_get, fails_pure, and_false, exists_false, or_self] at hlayOut
  · obtain ⟨_, _, -, hall⟩ := fails_inPhase hcompile
    exact outward_compileAll hall
  · obtain ⟨d, b, -, -, -, hended⟩ := phases_spec (hfresh.quiet hopen.quiet) hcache hparse hgraph hcompile
    have hstep := fails_step hfinish
    cases hf : t₃.1.finish with
    | error e' => exact absurd hf hended.finish_ne_error
    | ok c' =>
      rw [hf] at hstep
      cases hstep

theorem fails_compile (h : Fails compile s e s') :
    e = .noTarget ∨ (∃ t, Fails passes s e t) ∨
      e = .diagnostics ∧ ∃ t, Yields passes s () t ∧ Quiet t.1 s'.1 := by
  simp only [compile, fails_bind, fails_get, yields_get, false_or] at h
  obtain ⟨_, _, ⟨rfl, rfl⟩, h⟩ := h
  split at h
  · simp only [fails_bind, fails_throw, yields_throw, false_and, exists_false, or_false] at h
    exact .inl h.1
  simp only [fails_bind, fails_observe, false_or] at h
  obtain ⟨r, t, hobserve, h⟩ := h
  split at h
  case h_1 e' =>
    simp only [fails_bind, fails_modify, fails_throw, false_or] at h
    obtain ⟨_, _, -, rfl, -⟩ := h
    exact .inr (.inl ⟨t, fails_of_observe hobserve⟩)
  case h_2 =>
    simp only [fails_bind, fails_get, yields_get, false_or] at h
    obtain ⟨_, _, ⟨rfl, rfl⟩, h⟩ := h
    split at h
    · simp only [fails_bind, fails_modify, fails_throw, yields_modify, false_or] at h
      obtain ⟨_, _, rfl, rfl, rfl⟩ := h
      exact .inr (.inr ⟨rfl, _, yields_observe hobserve () rfl, quiet_emit _ _⟩)
    · exact absurd h fails_pure

/-- A build never misses a unit. It fails for outward reasons, or it has found its sources: then it
has errors and no units, or a unit for every source, each from its source and behind all units that
the source uses, with that of the target at the end. The cache may be anything that holds under the
name of a unit no unit of another name, such as what builds have stored (`holdsNamed_compile`). -/
theorem build_is_complete {disk disk' : Disk} {r : BuildRequest} {res : Except BuildError Unit}
    {b : Build} (hcache : r.cache = "" ∨ UnitCache.HoldsNamed r.cache disk)
    (h : (perform r compile : StateM Disk _).run disk = ((res, b), disk')) :
    (∀ name, res ≠ .error (.notCompiled name)) ∧
    (res = .ok () ∨ res = .error .diagnostics →
      ∃ d, (r.discovery.discover r.target : StateM Disk _).run disk = (.ok d, disk) ∧
        b.sources.map (·.summary) = d.found.map (·.summary) ∧
        if b.report.hasErrors then b.units = [] else Complete r.target d.found b.units) := by
  let s₀ : Build × Disk := (((BuildRequest.start r : StateM Disk _).run disk).1, disk)
  have hfresh : Fresh s₀.1 := ⟨rfl, rfl, rfl⟩
  have hcache₀ : s₀.1.request.cache = "" ∨ UnitCache.HoldsNamed s₀.1.request.cache s₀.2 := hcache
  cases res with
  | ok u =>
    have hrun : Yields compile s₀ u (b, disk') := h
    exact ⟨nofun, fun _ => passes_result hfresh hcache₀ (passes_of_compile hrun)⟩
  | error e =>
    have hrun : Fails compile s₀ e (b, disk') := h
    obtain rfl | ⟨t, hpasses⟩ | ⟨rfl, t, hpasses, hquiet⟩ := fails_compile hrun
    · exact ⟨nofun, by rintro (h | h) <;> cases h⟩
    · obtain ⟨hdiagnostics, hmissing⟩ := outward_passes hfresh hcache₀ hpasses
      refine ⟨fun name h => hmissing name (Except.error.inj h), ?_⟩
      rintro (h | h)
      · cases h
      · exact absurd (Except.error.inj h) hdiagnostics
    · refine ⟨nofun, fun _ => ?_⟩
      obtain ⟨d, hd, hsummaries, hunits⟩ := passes_result hfresh hcache₀ hpasses
      rw [← hquiet.sources, ← hquiet.report, ← hquiet.units] at *
      exact ⟨d, hd, hsummaries, hunits⟩

set_option maxRecDepth 100000 in
theorem build_is_complete_ordered :
    ∃ b disk', ∃ d : Discovery,
      (perform { target := "/main.pas" } compile : StateM Disk _).run (projectDisk "a, b") =
        ((.ok (), b), disk') ∧
      b.units.map (·.name) = ["b", "a", "m", "main"] ∧ Complete "/main.pas" d.found b.units := by
  let b := (projectRun "a, b").1.2
  have hproject : (projectRun "a, b").1.1.toOption.isSome = true ∧ b.report.hasErrors = false ∧
      b.units.map (·.name) = ["b", "a", "m", "main"] := by
    decide +kernel
  obtain ⟨hok, hreport, hnames⟩ := hproject
  obtain ⟨d, -, -, hcomplete⟩ :=
    (build_is_complete (.inl rfl) (projectRun_eq hok)).2 (.inl rfl)
  rw [if_neg (by rw [hreport]; decide)] at hcomplete
  exact ⟨b, _, d, projectRun_eq hok, hnames, hcomplete⟩

end BuildM

end Pascaline
