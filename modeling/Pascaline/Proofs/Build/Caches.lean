import Pascaline.Proofs.Build.Digests
import Pascaline.Proofs.Build.Discovery
import Pascaline.Proofs.Lowering.Validity

/-!
# What builds store

A build, whether it succeeds or fails, stores a unit under its own name only. So a directory that
only builds have written to holds every unit under its name.
-/

namespace Pascaline.BuildM

variable {α β : Type} {s t : Build × Disk} {P : Build × Disk → Prop}

-- Unifiers would run the binding of a file.
attribute [local irreducible] Bound.Module.ofFile

theorem except_map_ok {ε : Type} {x : Except ε α} {f : α → β} {b : β} (h : x.map f = .ok b) :
    ∃ a, x = .ok a ∧ f a = b := by
  cases x with
  | error e => cases h
  | ok a => exact ⟨a, rfl, Except.ok.inj h⟩

/-! ## How steps end -/

/-- Where a step leads, whether it succeeds or fails. -/
def after (x : BuildM (StateM Disk) α) (s : Build × Disk) : Build × Disk :=
  let p := ((ExceptT.run x).run s.1).run s.2
  (p.1.2, p.2)

/-- A step ends in a state with the property. -/
def Ends (x : BuildM (StateM Disk) α) (s : Build × Disk) (P : Build × Disk → Prop) : Prop :=
  P (after x s)

theorem Ends.pure (a : α) (h : P s) : Ends (pure a) s P := h

theorem Ends.throw (e : BuildError) (h : P s) : Ends (throw e : BuildM (StateM Disk) α) s P := h

theorem Ends.get (h : P s) : Ends get s P := h

theorem Ends.modifyGet {f : Build → α × Build} (h : P ((f s.1).2, s.2)) : Ends (modifyGet f) s P := h

theorem Ends.modify {f : Build → Build} (h : P (f s.1, s.2)) : Ends (modify f) s P := h

theorem Ends.set {b : Build} (h : P (b, s.2)) : Ends (set b) s P := h

theorem Ends.lift {x : StateM Disk α} (h : P (s.1, (x.run s.2).2)) : Ends (liftM x) s P := h

theorem Ends.bind {x : BuildM (StateM Disk) α} {f : α → BuildM (StateM Disk) β} (hx : Ends x s P)
    (hf : ∀ a t, Yields x s a t → P t → Ends (f a) t P) : Ends (x >>= f) s P := by
  simp only [Ends, after, ExceptT.run_bind, StateT.run_bind] at hx ⊢
  cases hp : ((ExceptT.run x).run s.1).run s.2 with
  | mk p disk =>
    rw [hp] at hx
    obtain ⟨r, b⟩ := p
    cases r with
    | error e => exact hx
    | ok a => exact hf a (b, disk) hp hx

theorem Ends.observe {x : BuildM (StateM Disk) α} (h : Ends x s P) : Ends (observe x) s P := h

theorem Ends.forM {f : α → BuildM (StateM Disk) PUnit} (hf : ∀ a s, P s → Ends (f a) s P)
    (xs : List α) (h : P s) : Ends (xs.forM f) s P := by
  induction xs generalizing s with
  | nil => exact h
  | cons x xs ih => exact .bind (hf x s h) fun _ t _ ht => ih ht

theorem Ends.step {f : Build → Except BuildError (α × Build)} (h : P s)
    (hf : ∀ a b, f s.1 = .ok (a, b) → P (b, s.2)) : Ends (step f) s P := by
  refine .bind (.get h) fun b t hb _ => ?_
  obtain ⟨rfl, rfl⟩ := yields_get.mp hb
  split
  case h_1 a b hok => exact .bind (.set (hf a b hok)) fun _ t _ ht => .pure a ht
  case h_2 e he => exact .throw e h

/-! ## The store -/

/-- If the units so far can be stored, the directory holds units under their names. -/
structure Files (dir : String) (s : Build × Disk) : Prop where
  cache : s.1.request.cache = dir
  named : (∀ u ∈ s.1.compiled, u.Storable) → UnitCache.HoldsNamed dir s.2

variable {dir : String}

theorem Files.grow (h : Files dir s) {b : Build} (hrequest : b.request = s.1.request)
    (hcompiled : ∀ u ∈ s.1.compiled, u ∈ b.compiled) : Files dir (b, s.2) :=
  ⟨hrequest ▸ h.cache, fun hb => h.named fun u hu => hb u (hcompiled u hu)⟩

theorem Files.quiet (h : Files dir s) {b : Build} (hb : Quiet s.1 b) : Files dir (b, s.2) :=
  h.grow hb.request fun _ hu => hb.compiled ▸ hu

theorem ends_modify (h : Files dir s) {f : Build → Build} (hf : Quiet s.1 (f s.1)) :
    Ends (modify f) s (Files dir) := .modify (h.quiet hf)

theorem ends_now (h : Files dir s) : Ends now s (Files dir) := by
  refine .bind (.lift h) fun n t ht hfiles => .bind (ends_modify hfiles ?_) fun _ t _ ht => .pure _ ht
  exact ⟨rfl, rfl, rfl, rfl, rfl, rfl, rfl, rfl⟩

theorem ends_openSpan (h : Files dir s) (scope : Journal.Scope) (name : String) (parent : Nat) :
    Ends (openSpan scope name parent) s (Files dir) :=
  .bind (ends_now h) fun _ _ _ ht => .modifyGet (ht.quiet ⟨rfl, rfl, rfl, rfl, rfl, rfl, rfl, rfl⟩)

theorem ends_closeSpan (h : Files dir s) (sp : Journal.OpenSpan) (detail : String) :
    Ends (closeSpan sp detail) s (Files dir) :=
  .bind (ends_now h) fun _ _ _ ht => ends_modify ht ⟨rfl, rfl, rfl, rfl, rfl, rfl, rfl, rfl⟩

theorem ends_inSpan {scope : Journal.Scope} {name failDetail : String} {parent : Nat}
    {body : Journal.OpenSpan → BuildM (StateM Disk) (α × Journal.OpenSpan × String)}
    (hbody : ∀ sp t, Files dir t → Ends (body sp) t (Files dir)) (h : Files dir s) :
    Ends (inSpan scope name parent failDetail body) s (Files dir) := by
  refine .bind (ends_openSpan h ..) fun sp t _ ht => ?_
  refine .bind (.observe (hbody sp t ht)) fun r t _ ht => ?_
  split
  · exact .bind (ends_closeSpan ht ..) fun _ t _ ht => .pure _ ht
  · exact .bind (ends_closeSpan ht ..) fun _ t _ ht => .throw _ ht

theorem ends_inPhase {root : Nat} {name : String} {body : BuildM (StateM Disk) String}
    (hbody : ∀ t, Files dir t → Ends body t (Files dir)) (h : Files dir s) :
    Ends (inPhase root name body) s (Files dir) := by
  by_cases hname : name = "parse"
  · simp only [inPhase, hname, if_true]
    refine .bind (ends_modify h (quiet_emit ..)) fun _ t _ ht => .bind (ends_now ht) fun _ t _ ht => ?_
    refine .bind (ends_openSpan ht ..) fun sp t _ ht => .bind (.observe (hbody t ht)) fun r t _ ht => ?_
    cases r with
    | ok note =>
      refine .bind (ends_closeSpan ht ..) fun _ t _ ht => .bind (ends_now ht) fun _ t _ ht => ?_
      refine .bind (ends_modify ht ?_) fun _ t _ ht => ends_modify ht ?_
      all_goals exact ⟨rfl, rfl, rfl, rfl, rfl, rfl, rfl, rfl⟩
    | error e =>
      refine .bind (ends_closeSpan ht ..) fun _ t _ ht => .bind ?_ fun _ t _ ht => .throw e ht
      refine .bind (ends_now ht) fun _ t _ ht => .bind (ends_modify ht ?_) fun _ t _ ht => ends_modify ht ?_
      all_goals exact ⟨rfl, rfl, rfl, rfl, rfl, rfl, rfl, rfl⟩
  · simp only [inPhase, hname, if_false]
    refine .bind (ends_now h) fun _ t _ ht => .bind (ends_openSpan ht ..) fun sp t _ ht => ?_
    refine .bind (.observe (hbody t ht)) fun r t _ ht => ?_
    cases r with
    | ok note =>
      refine .bind (ends_closeSpan ht ..) fun _ t _ ht => .bind (ends_now ht) fun _ t _ ht => ?_
      refine .bind (ends_modify ht ?_) fun _ t _ ht => .pure _ ht
      exact ⟨rfl, rfl, rfl, rfl, rfl, rfl, rfl, rfl⟩
    | error e =>
      refine .bind (ends_closeSpan ht ..) fun _ t _ ht => .bind ?_ fun _ t _ ht => .throw e ht
      refine .bind (ends_now ht) fun _ t _ ht => .bind (ends_modify ht ?_) fun _ t _ ht => .pure _ ht
      exact ⟨rfl, rfl, rfl, rfl, rfl, rfl, rfl, rfl⟩

theorem ends_persist (h : Files dir s) {path : String} {v : CompiledUnit}
    (hv : v ∈ s.1.compiled) (hname : IsName v.name) (hvalid : v.validate = .ok ()) :
    Ends (persist path v) s (Files dir) := by
  refine .bind (.get h) fun b t hb ht => ?_
  obtain ⟨rfl, rfl⟩ := yields_get.mp hb
  extract_lets cache
  split
  · exact .pure _ h
  refine .bind (ends_modify h (quiet_begins ..)) fun _ t₁ h₁ ht₁ => ?_
  refine .bind (ends_now ht₁) fun start t₂ h₂ ht₂ => ?_
  have hcompiled : v ∈ t₂.1.compiled := by
    rw [(quiet_now h₂).compiled, yields_modify.mp h₁, (quiet_begins ..).compiled]
    exact hv
  have hcache : t.1.request.cache = dir := h.cache
  refine .bind (.lift ?_) fun outcome t₃ _ ht₃ => .bind (ends_now ht₃) fun stop t₄ _ ht₄ => ?_
  · refine ⟨ht₂.cache, fun hstorable => ?_⟩
    change UnitCache.HoldsNamed dir ((UnitCache.save t.1.request.cache v : StateM Disk _).run t₂.2).2
    rw [hcache]
    exact UnitCache.holdsNamed_save (ht₂.named hstorable) hname hvalid (hstorable v hcompiled) rfl
  · extract_lets elapsed
    split
    · exact ends_modify ht₄ (quiet_ends ..)
    · exact .bind (ends_modify ht₄ (quiet_ends ..)) fun _ t _ ht => .throw _ ht

/-! ## Units -/

theorem lowered_valid {b b' b₁ : Build} {src : FoundSource} {tree : Tree.File}
    {r : Bound.BindResult} {u : CompiledUnit} (hbind : b.bindSource src tree = .ok (r, b'))
    (hlower : b₁.lowerSource src r.module = .ok u) : IsName u.name ∧ u.validate = .ok () := by
  unfold Build.bindSource at hbind
  dsimp only at hbind
  split at hbind
  case h_2 => cases hbind
  case h_1 r' hr =>
  cases hbind
  unfold Build.lowerSource at hlower
  split at hlower
  case h_1 => cases hlower
  case h_2 v hv =>
  cases hlower
  have hname : v.name = tree.name.name :=
    (Build.names_of_ofModule hv).1.trans (Bound.Module.ofFile_gives hr).1
  have hvalid := CompiledUnit.validate_of_ofModule hv (Bound.Module.framed_ofFile hr)
  exact ⟨hname ▸ tree.name.named, hvalid⟩

theorem ends_compileSource (h : Files dir s) (src : FoundSource) (tree : Tree.File) :
    Ends (compileSource src tree) s (Files dir) := by
  refine .bind (ends_modify h (quiet_begins ..)) fun _ t _ ht => ?_
  refine .bind (ends_now ht) fun start t₁ _ ht₁ => ?_
  refine .bind (.step ht₁ fun r b hbind => ?_) fun r t₂ hr ht₂ => ?_
  · unfold Build.bindSource at hbind
    dsimp only at hbind
    split at hbind
    · cases hbind
      exact ht₁.grow rfl fun _ => id
    · cases hbind
  refine .bind (ends_now ht₂) fun bound t₃ _ ht₃ => ?_
  have hbind := (yields_step.mp hr).1
  split
  · exact .modify ((ht₃.quiet (quiet_ends ..)).grow rfl fun _ => id)
  refine .bind (ends_modify ht₃ (quiet_begins ..)) fun _ t₄ _ ht₄ => ?_
  refine .bind (.step ht₄ fun u b hlower => ?_) fun u t₅ hu ht₅ => ?_
  · obtain ⟨v, -, hv⟩ := except_map_ok hlower
    cases hv
    exact ht₄
  refine .bind (ends_now ht₅) fun lowered t₆ _ ht₆ => ?_
  refine .bind (ends_modify ht₆ (quiet_ends ..)) fun _ t₇ _ ht₇ => ?_
  refine .bind (.modifyGet (ht₇.quiet (quiet_publish _ u))) fun r t₈ _ ht₈ => ?_
  split
  · exact .throw _ ht₈
  refine .bind (.modify (ht₈.grow rfl fun _ => List.mem_cons_of_mem u)) fun _ t₉ hrecord ht₉ => ?_
  obtain ⟨v, hlower, hv⟩ := except_map_ok (yields_step.mp hu).1
  obtain rfl : v = u := congrArg Prod.fst hv
  obtain ⟨hname, hvalid⟩ := lowered_valid hbind hlower
  refine ends_persist ht₉ ?_ hname hvalid
  rw [yields_modify.mp hrecord]
  exact List.mem_cons_self

theorem ends_reuse (h : Files dir s) (src : FoundSource) (span : Journal.OpenSpan) :
    Ends (reuse src span) s (Files dir) := by
  refine .bind (ends_now h) fun start t _ ht => .bind (.get ht) fun b t _ ht => ?_
  refine .bind (.lift ?_) fun r t _ ht => ?_
  · have hdisk := (UnitCache.load_run (Prod.mk.eta
      (p := (UnitCache.load b.request.cache src.summary.name : StateM Disk _).run t.2)).symm).1
    exact hdisk.symm ▸ ht
  split
  · exact .throw _ ht
  split
  · refine .bind (ends_now ht) fun _ t _ ht => .bind (ends_modify ht ?_) fun _ t _ ht => .pure _ ht
    exact ⟨rfl, rfl, rfl, rfl, rfl, rfl, rfl, rfl⟩
  · exact .pure _ ht
  · refine .bind (.modify (ht.grow rfl fun _ => List.mem_cons_of_mem _)) fun _ t _ ht => ?_
    refine .bind (.modifyGet (ht.quiet (quiet_publish ..))) fun r t _ ht => ?_
    split
    · exact .pure _ ht
    · refine .bind (ends_now ht) fun _ t _ ht => .bind (ends_modify ht ?_) fun _ t _ ht => .pure _ ht
      refine Quiet.trans ?_ (quiet_ends ..)
      exact ⟨rfl, rfl, rfl, rfl, rfl, rfl, rfl, rfl⟩

theorem ends_compileUnit (root : Nat) (slot : GraphSlot) (src : FoundSource) (h : Files dir s) :
    Ends (compileUnit root slot src) s (Files dir) := by
  refine ends_inSpan (fun span t ht => .bind (.get ht) fun b t hb ht => ?_) h
  obtain ⟨rfl, rfl⟩ := yields_get.mp hb
  have hset (first : Option Diagnostic) : Ends (set (t.1.markBroken src.summary.name first)) t
      (Files dir) := .set (ht.grow rfl fun _ => id)
  split
  case h_2 => exact .bind (hset _) fun _ t _ ht => .pure _ ht
  split
  · exact .bind (hset _) fun _ t _ ht => .pure _ ht
  split
  · exact .bind (hset _) fun _ t _ ht => .pure _ ht
  refine .bind (ends_reuse ht src span) fun r t _ ht => ?_
  obtain ⟨reused, span⟩ := r
  dsimp only
  split
  · exact .bind (ends_compileSource ht ..) fun _ t _ ht => .pure _ ht
  · exact .pure _ ht

/-! ## Whole builds -/

theorem ends_discover (h : Files dir s) : Ends discover s (Files dir) := by
  refine .bind (.get h) fun b t _ ht => .bind (.lift ?_) fun r t _ ht => ?_
  · rw [Discovery.discover_reads]
    exact ht
  split
  · exact .throw _ ht
  case h_2 d _ =>
    refine .bind (.modify ?_) fun _ t _ ht => .pure _ ht
    have hquiet := quiet_foldl
      (fun b (src : FoundSource) => quiet_ends b src.summary.path .parse (src.report.firstError?.map .report) 0)
      d.found { t.1 with library := d.library, sources := d.found }
    refine ht.grow hquiet.request fun u hu => ?_
    rw [hquiet.compiled]
    exact hu

theorem ends_compileAll (root : Nat) (h : Files dir s) : Ends (compileAll root) s (Files dir) := by
  refine .bind (.get h) fun b t hb ht => ?_
  extract_lets rest
  have hrest (t : Build × Disk) (ht : Files dir t) : Ends (rest ()) t (Files dir) :=
    .bind (.modify (ht.grow rfl fun _ => id)) fun _ t _ ht => .pure _ ht
  split
  case isFalse => exact hrest t ht
  refine .bind (.forM (fun i s hs => .bind (.get hs) fun b s _ hs => ?_) _ ht) fun _ t _ ht => hrest t ht
  split
  · exact .pure _ hs
  split
  · exact .pure _ hs
  split
  · exact .bind (.throw _ hs) fun _ s _ hs => ends_compileUnit root _ _ hs
  · exact ends_compileUnit root _ _ hs

theorem ends_passes (h : Files dir s) : Ends passes s (Files dir) := by
  refine .bind (.get h) fun b t _ ht => ends_inSpan (fun span t ht => ?_) ht
  refine .bind (ends_inPhase (fun _ => ends_discover) ht) fun _ t _ ht => ?_
  refine .bind (ends_inPhase (fun t ht => ?_) ht) fun _ t _ ht => ?_
  · refine .bind (.modify (ht.grow rfl fun _ => id)) fun _ t _ ht => ?_
    exact .bind (.get ht) fun _ t _ ht => .pure _ ht
  refine .bind (ends_inPhase (fun _ => ends_compileAll span.id) ht) fun _ t _ ht => ?_
  refine .bind (.step ht fun _ c hfinish => ?_) fun _ t _ ht => .pure _ ht
  obtain ⟨c, hc, heq⟩ := except_map_ok hfinish
  cases heq
  unfold Build.finish at hc
  dsimp only at hc
  split at hc
  · cases hc
    exact ht.grow rfl fun _ => id
  · obtain ⟨units, -, hc⟩ := except_bind_ok hc
    cases hc
    exact ht.grow rfl fun _ => id

theorem ends_compile (h : Files dir s) : Ends compile s (Files dir) := by
  refine .bind (.get h) fun b t _ ht => ?_
  extract_lets rest
  have hrest (t : Build × Disk) (ht : Files dir t) : Ends (rest ()) t (Files dir) := by
    refine .bind (.observe (ends_passes ht)) fun r t _ ht => ?_
    split
    · exact .bind (ends_modify ht (quiet_emit ..)) fun _ t _ ht => .throw _ ht
    · refine .bind (.get ht) fun b t _ ht => ?_
      split
      · exact .bind (ends_modify ht (quiet_emit ..)) fun _ t _ ht => .throw _ ht
      · exact .pure _ ht
  split
  · exact .bind (.throw _ ht) fun _ t _ ht => hrest t ht
  · exact hrest t ht

/-- A build leaves a directory with units under their names as such a one, whatever it comes to. -/
theorem holdsNamed_compile {disk disk' : Disk} {r : BuildRequest} {res : Except BuildError Unit}
    {b : Build} (hdisk : UnitCache.HoldsNamed r.cache disk)
    (h : (perform r compile : StateM Disk _).run disk = ((res, b), disk'))
    (hstorable : ∀ u ∈ b.compiled, u.Storable) : UnitCache.HoldsNamed r.cache disk' := by
  let s₀ : Build × Disk := (((BuildRequest.start r : StateM Disk _).run disk).1, disk)
  have hfiles : Files r.cache s₀ := ⟨rfl, fun _ => hdisk⟩
  have hends := ends_compile hfiles
  have hafter : after compile s₀ = (b, disk') := congrArg (fun p => (p.1.2, p.2)) h
  rw [Ends, hafter] at hends
  exact hends.named hstorable

end Pascaline.BuildM
