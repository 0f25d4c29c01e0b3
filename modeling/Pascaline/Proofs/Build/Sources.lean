import Mathlib.Tactic.Common
import Pascaline.Build.Run

/-!
# Sources and what they use

A source that was found says of itself what its tree says, and a bound file imports the units that it
mentions, each where it is first mentioned.
-/

namespace Pascaline

/-! ## What a bound file imports -/

namespace Bound.Bind

variable {α β : Type} {P : α → Prop} {Q : β → Prop}

/-- Whenever an action comes to an end, its result has the property. -/
def Gives (x : Bind α) (P : α → Prop) : Prop := ∀ s a s', x.run s = .ok (a, s') → P a

theorem Gives.pure {a : α} (h : P a) : Gives (pure a) P := by
  intro s b s' hrun
  cases hrun
  exact h

theorem Gives.bind {x : Bind β} {f : β → Bind α} (hx : Gives x Q) (hf : ∀ b, Q b → Gives (f b) P) :
    Gives (x >>= f) P := by
  intro s a s' hrun
  rw [StateT.run_bind] at hrun
  cases hp : x.run s with
  | error e =>
    rw [hp] at hrun
    cases hrun
  | ok p =>
    rw [hp] at hrun
    exact hf p.1 (hx s p.1 p.2 hp) p.2 a s' hrun

theorem Gives.after {x : Bind β} {f : β → Bind α} (hf : ∀ b, Gives (f b) P) : Gives (x >>= f) P :=
  Gives.bind (Q := fun _ => True) (fun _ _ _ _ => trivial) fun b _ => hf b

theorem distinctUses_gives (seen uses : List Tree.Ident) :
    Gives (distinctUses seen uses) fun us =>
      us.map (·.name) = ((uses.map (·.name)).filter (· ∉ seen.map (·.name))).eraseDups := by
  induction uses generalizing seen with
  | nil => exact Gives.pure rfl
  | cons u uses ih =>
    rw [distinctUses]
    split
    case h_1 first hfirst =>
      have hmem : u.name ∈ seen.map (·.name) := by
        refine List.mem_map.mpr ⟨first, List.mem_of_find?_eq_some hfirst, ?_⟩
        simpa using List.find?_some hfirst
      refine Gives.after fun _ => ?_
      rw [List.map_cons, List.filter_cons_of_neg (by simpa using hmem)]
      exact ih seen
    case h_2 hnone =>
      have hmem : u.name ∉ seen.map (·.name) := by
        rw [List.find?_eq_none] at hnone
        simpa using hnone
      refine Gives.bind (ih (u :: seen)) fun vs hvs => Gives.pure ?_
      rw [List.map_cons, List.map_cons, List.filter_cons_of_pos (by simpa using hmem),
        List.eraseDups_cons, hvs, List.filter_filter]
      refine congrArg (_ :: List.eraseDups ·) (List.filter_congr fun name _ => ?_)
      by_cases hname : name = u.name <;> simp [hname]

theorem openScopes_gives (imports : List Import) (f : Tree.File) :
    Gives (openScopes imports f) (· = (f.allUses.map (·.name)).eraseDups) := by
  refine Gives.after fun _ => Gives.after fun _ => ?_
  refine Gives.bind (distinctUses_gives [] f.allUses) fun uses huses => ?_
  iterate 6 refine Gives.after fun _ => ?_
  refine Gives.pure ?_
  rw [huses, List.filter_eq_self.mpr (by simp)]

theorem file_gives (imports : List Import) (path : String) (f : Tree.File) :
    Gives (file imports path f) fun m =>
      m.name = f.name.name ∧ m.uses = (f.allUses.map (·.name)).eraseDups := by
  refine Gives.bind (openScopes_gives imports f) fun uses huses => ?_
  refine Gives.after fun _ => Gives.after fun _ => Gives.after fun s => ?_
  exact Gives.pure ⟨rfl, huses⟩

end Bound.Bind

theorem Bound.Module.ofFile_gives {types : TypeTable} {imports : List Bound.Import} {path : String}
    {f : Tree.File} {r : Bound.BindResult} (h : Bound.Module.ofFile types imports path f = .ok r) :
    r.module.name = f.name.name ∧ r.module.uses = (f.allUses.map (·.name)).eraseDups := by
  rw [ofFile] at h
  cases hrun : (Bind.file imports path f).run { types, unit := f.name.name } with
  | error e =>
    rw [hrun] at h
    cases h
  | ok p =>
    rw [hrun] at h
    obtain ⟨m, s⟩ := p
    cases h
    exact Bind.file_gives imports path f _ _ _ hrun

/-! ## Sources -/

namespace FoundSource

theorem hasErrors_of_add {r : Report} {d : Diagnostic} (h : r.hasErrors) : (r.add d).hasErrors := by
  rw [Report.add]
  split
  · simp only [Report.hasErrors, List.any_append, Bool.or_eq_true] at h ⊢
    exact .inl h
  · exact h

theorem hasErrors_add_error {r : Report} {d : Diagnostic} (h : d.isError) : (r.add d).hasErrors := by
  simp [Report.add, Report.accepts, Report.hasErrors, h]

/-- A source that was parsed says what its tree says, unless it has errors. -/
structure Faithful (s : FoundSource) : Prop where
  uses : ∀ t, s.tree = some t → s.summary.uses.map (·.name) = t.allUses.map (·.name)
  name : ∀ t, s.tree = some t → s.summary.name = t.name.name ∨ s.report.hasErrors

theorem Faithful.add {s : FoundSource} (h : s.Faithful) (d : Diagnostic) : (s.add d).Faithful :=
  ⟨h.uses, fun t ht => (h.name t ht).imp_right hasErrors_of_add⟩

theorem faithful_ofFile (limit : Int) (path : String) (f : SourceFile) :
    (ofFile limit path f).Faithful := by
  unfold ofFile
  dsimp only
  split
  · refine ⟨fun t ht => ?_, fun t ht => ?_⟩ <;> cases ht
  · refine ⟨fun t ht => ?_, fun t ht => ?_⟩
    · obtain rfl := Option.some.inj ht
      simp
    · obtain rfl := Option.some.inj ht
      exact .inl rfl

end FoundSource

namespace Discovery

theorem checkUse_faithful {src dep : FoundSource} (hsrc : src.Faithful) (hdep : dep.Faithful)
    (path : String) (u : Tree.Ident) :
    (checkUse src dep path u).1.Faithful ∧ (checkUse src dep path u).2.Faithful := by
  have hnoted (dep : FoundSource) :
      (if dep.summary.kind = .program then src.add (notUsable u) else src).Faithful := by
    split
    · exact hsrc.add _
    · exact hsrc
  refine ⟨hnoted _, ?_⟩
  · simp only [checkUse]
    split
    case isTrue h =>
      exact ⟨hdep.uses, fun t ht => .inr (FoundSource.hasErrors_add_error rfl)⟩
    case isFalse h =>
      refine ⟨hdep.uses, fun t ht => (hdep.name t ht).imp_left fun hname => ?_⟩
      have ht : dep.tree = some t := ht
      simp only [ht, Option.isSome_some, Bool.true_and, decide_eq_true_eq, not_not] at h
      exact h.symm.trans hname

/-- Whatever the disk, the result has the property. -/
def Ensures {α : Type} (x : StateM Disk α) (P : α → Prop) : Prop := ∀ disk, P (x.run disk).1

variable {α β : Type} {P : α → Prop} {Q : β → Prop}

theorem Ensures.pure {a : α} (h : P a) : Ensures (pure a) P := fun _ => h

theorem Ensures.bind {x : StateM Disk β} {f : β → StateM Disk α} (hx : Ensures x Q)
    (hf : ∀ b, Q b → Ensures (f b) P) : Ensures (x >>= f) P :=
  fun disk => hf _ (hx disk) _

theorem Ensures.after {x : StateM Disk β} {f : β → StateM Disk α} (hf : ∀ b, Ensures (f b) P) :
    Ensures (x >>= f) P :=
  fun _ => hf _ _

theorem Ensures.foldlM {f : α → β → StateM Disk α} (hf : ∀ a b, P a → Ensures (f a b) P)
    (bs : List β) {a : α} (ha : P a) : Ensures (bs.foldlM f a) P := by
  induction bs generalizing a with
  | nil => exact .pure ha
  | cons b bs ih => exact .bind (hf a b ha) fun _ => ih

/-- All sources found are faithful. -/
def Sincere (d : Discovery) : Prop := ∀ s ∈ d.found, s.Faithful

theorem load_ensures (d : Discovery) (path : String) :
    Ensures (d.load path) fun r => ∀ src d', r = .ok (src, d') → src.Faithful ∧ d'.found = d.found := by
  refine .after fun r => ?_
  split
  · exact .pure fun _ _ h => by cases h
  · dsimp only
    split
    · refine .pure fun _ _ h => ?_
      cases h
      exact ⟨FoundSource.faithful_ofFile .., rfl⟩
    · exact .pure fun _ _ h => by cases h

theorem visit_ensures (depth : Nat) {src : FoundSource} {d : Discovery} (hsrc : src.Faithful)
    (hd : d.Sincere) : Ensures (visit depth src d) Sincere := by
  induction depth generalizing src d with
  | zero =>
    refine .pure fun s hs => ?_
    obtain hs | hs := List.mem_append.mp hs
    · exact hd s hs
    · exact List.mem_singleton.mp hs ▸ hsrc.add _
  | succ depth ih =>
    refine .bind (Q := fun p => p.1.Faithful ∧ p.2.Sincere) (.foldlM ?_ _ ⟨hsrc, hd⟩) ?_
    · rintro ⟨src, d⟩ u ⟨hsrc, hd⟩
      rw [follow]
      split
      · exact .pure ⟨hsrc.add _, hd⟩
      split
      · refine .pure ⟨?_, hd⟩
        split
        · exact hsrc.add _
        · exact hsrc
      refine .after fun path => ?_
      split
      case h_2 => exact .pure ⟨hsrc.add _, hd⟩
      case h_1 path =>
      refine .bind (load_ensures d path) fun r hr => ?_
      split
      case h_1 => exact .pure ⟨hsrc.add _, hd⟩
      case h_2 dep d' =>
      obtain ⟨hdep, hfound⟩ := hr dep d' rfl
      obtain ⟨hsrc', hdep'⟩ := checkUse_faithful hsrc hdep path u
      refine .bind (ih hdep' ?_) fun d'' hd'' => .pure ⟨hsrc', hd''⟩
      intro s hs
      exact hd s (hfound ▸ hs)
    · rintro ⟨src, d⟩ ⟨hsrc, hd⟩
      refine .pure fun s hs => ?_
      obtain hs | hs := List.mem_append.mp hs
      · exact hd s hs
      · exact List.mem_singleton.mp hs ▸ hsrc

theorem discover_ensures {d : Discovery} (hd : d.Sincere) (entry : String) :
    Ensures (d.discover entry) fun r => ∀ d', r = .ok d' → d'.Sincere := by
  refine .bind (load_ensures d entry) fun r hr => ?_
  split
  · exact .pure fun _ h => by cases h
  case h_2 src d' =>
  obtain ⟨hsrc, hfound⟩ := hr src d' rfl
  split
  · refine .pure fun _ h => ?_
    cases h
    exact fun s hs => List.mem_singleton.mp hs ▸ hsrc
  · refine .after fun bound => .bind (visit_ensures _ hsrc ?_) fun d'' hd'' => .pure fun _ h => ?_
    · exact fun s hs => hd s (hfound ▸ hs)
    · cases h
      exact hd''

end Discovery

end Pascaline
