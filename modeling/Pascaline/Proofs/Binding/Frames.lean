import Pascaline.Proofs.Binding.Steady

/-!
# The frames of bound routines

Every routine of a bound module has its parameters and its result among its slots, and the body of
the file is one of the routines. While a body is bound its frame only gains slots.
-/

set_option mvcgen.warning false

namespace Pascaline.Bound

open Std.Do

/-- The parameters and the result have their places among the slots. -/
structure Routine.Framed (r : Routine) : Prop where
  params : r.params ≤ r.slots.length
  result : ∀ i, r.result = some i → i < r.slots.length

structure Module.Framed (m : Module) : Prop where
  routines : ∀ r ∈ m.routines, r.Framed
  init : ∀ i, m.init = some i → i < m.routines.length
  main : ∀ i, m.main = some i → i < m.routines.length

/-- How far binding has come: the number of routines, and that of the slots of the routine at hand
if there is one. -/
structure Extent where
  routines : Nat
  slots : Option Nat

/-- All routines are framed, and there are at least as many of them, and as many slots, as `e`
says. -/
structure Framing (e : Extent) (s : Session) : Prop where
  framed : ∀ r ∈ s.routines, r.Framed
  routines : e.routines ≤ s.routines.size
  slots : ∀ n, e.slots = some n → ∃ f, s.frame = some f ∧ n ≤ f.slots.length

theorem Framing.steady {e : Extent} : Steady (Framing e) where
  errors _ h := ⟨h.framed, h.routines, h.slots⟩
  types _ h := ⟨h.framed, h.routines, h.slots⟩
  inConst _ h := ⟨h.framed, h.routines, h.slots⟩
  loops g h := by
    refine ⟨h.framed, h.routines, ?_⟩
    intro n hn
    obtain ⟨f, hf, hlen⟩ := h.slots n hn
    exact ⟨{ f with loops := g f.loops }, by simp [hf], hlen⟩

namespace Steadily

variable {e : Extent} {s s' : Session}

theorem aside (h : Steadily (Framing e) s) (hroutines : s'.routines = s.routines)
    (hframe : s'.frame = s.frame) : Steadily (Framing e) s' := by
  refine ⟨h.steady, ?_, ?_, ?_⟩
  · rw [hroutines]
    exact h.holds.framed
  · rw [hroutines]
    exact h.holds.routines
  · rw [hframe]
    exact h.holds.slots

theorem slot (h : Steadily (Framing e) s) (slot : Slot) :
    Steadily (Framing { e with slots := e.slots.map (· + 1) }) { s with
      frame := s.frame.map fun f => { f with slots := f.slots ++ [slot] } } := by
  refine ⟨Framing.steady, h.holds.framed, h.holds.routines, ?_⟩
  intro n hn
  obtain ⟨k, hk, rfl⟩ := Option.map_eq_some_iff.mp hn
  obtain ⟨f, hf, hlen⟩ := h.holds.slots k hk
  exact ⟨{ f with slots := f.slots ++ [slot] }, by simp [hf], by simpa using hlen⟩

theorem result (h : Steadily (Framing e) s) (result : Option Nat) :
    Steadily (Framing e) { s with frame := s.frame.map ({ · with result }) } := by
  refine ⟨h.steady, h.holds.framed, h.holds.routines, ?_⟩
  intro n hn
  obtain ⟨f, hf, hlen⟩ := h.holds.slots n hn
  exact ⟨{ f with result }, by simp [hf], hlen⟩

theorem routine (h : Steadily (Framing e) s) (r : Routine) (hr : r.Framed) :
    Steadily (Framing e) { s with routines := s.routines.push r } := by
  refine ⟨h.steady, ?_, ?_, h.holds.slots⟩
  · intro q hq
    rcases Array.mem_push.mp hq with hq | rfl
    · exact h.holds.framed q hq
    · exact hr
  · have := h.holds.routines
    simp only [Array.size_push]
    omega

theorem amend (h : Steadily (Framing e) s) (i : Nat) (g : Routine → Routine)
    (hg : ∀ r, r.Framed → (g r).Framed) :
    Steadily (Framing e) { s with routines := s.routines.modify i g } := by
  refine ⟨h.steady, ?_, by simpa using h.holds.routines, h.holds.slots⟩
  intro q hq
  obtain ⟨j, hj, rfl⟩ := Array.mem_iff_getElem.mp hq
  have hj' : j < s.routines.size := by simpa using hj
  have hframed := h.holds.framed _ (Array.getElem_mem hj')
  simp only [Array.getElem_modify]
  split
  · exact hg _ hframed
  · exact hframed

theorem fewer {d : Extent} (h : Steadily (Framing e) s) (hroutines : d.routines ≤ e.routines)
    (hslots : ∀ k, d.slots = some k → ∃ n, e.slots = some n ∧ k ≤ n) :
    Steadily (Framing d) s := by
  refine ⟨Framing.steady, h.holds.framed, hroutines.trans h.holds.routines, ?_⟩
  intro k hk
  obtain ⟨n, hn, hle⟩ := hslots k hk
  obtain ⟨f, hf, hlen⟩ := h.holds.slots n hn
  exact ⟨f, hf, hle.trans hlen⟩

end Steadily

-- Unifiers would run the declarations of all built-in names.
attribute [local irreducible] Bind.declareBuiltins

namespace Bind

variable {e : Extent}

/-! ## Declarations -/

@[spec] theorem newScope_frames (kind : ScopeKind) (parent : ScopeId) :
    Keeps (Framing e) (newScope kind parent) := by
  mvcgen [newScope]
  rename_i hs _
  exact hs.aside rfl rfl

@[spec] theorem tryDeclare_frames (scope : ScopeId) (sym : Symbol) (overload : Bool) :
    Keeps (Framing e) (tryDeclare scope sym overload) := by
  mvcgen [tryDeclare]
  rename_i s hs t
  have ht : t.2.routines = s.routines ∧ t.2.frame = s.frame := by
    simp only [t]
    split <;> exact ⟨rfl, rfl⟩
  exact hs.aside ht.1 ht.2

@[spec] theorem declare_frames (scope : ScopeId) (sym : Symbol) (overload : Bool) :
    Keeps (Framing e) (declare scope sym overload) := by
  mvcgen [declare]

@[spec] theorem named_frames (name : Tree.Ident) (kind : SymbolKind) (flags : SymbolFlags) :
    Keeps (Framing e) (named name kind flags) := by
  mvcgen [named]

@[spec] theorem declareType_frames (scope : ScopeId) (name : Tree.Ident) (type : TypeId)
    (exported : Bool) : Keeps (Framing e) (declareType scope name type exported) := by
  mvcgen [declareType]

@[spec] theorem declareVar_frames (scope : ScopeId) (name : Tree.Ident) (type : TypeId)
    (exported : Bool) : Keeps (Framing e) (declareVar scope name type exported) := by
  mvcgen [declareVar]
  · rename_i hs _
    exact hs.aside rfl rfl
  · rename_i hs _
    refine (hs.slot _).fewer le_rfl ?_
    intro n hn
    exact ⟨n + 1, by simp [hn], n.le_succ⟩

@[spec] theorem declareVars_frames (scope : ScopeId) (d : Tree.VarDecl) (exported : Bool) :
    Keeps (Framing e) (declareVars scope d exported) := by
  mvcgen [declareVars]

@[spec] theorem declareConst_frames (scope : ScopeId) (d : Tree.ConstDecl) (exported : Bool) :
    Keeps (Framing e) (declareConst scope d exported) := by
  mvcgen [declareConst]

@[spec] theorem newRoutine_frames (name : String) (sym : SymbolId) (owner : TypeId) (span : Span) :
    Keeps (Framing e) (newRoutine name sym owner span) := by
  mvcgen [newRoutine]
  rename_i hs _
  exact hs.routine _ ⟨Nat.zero_le _, by simp⟩

@[spec] theorem queueBody_frames (decl : Tree.RoutineDecl) (body : Tree.Block) (id : SymbolId)
    (owner : TypeId) (sig : Signature) : Keeps (Framing e) (queueBody decl body id owner sig) := by
  mvcgen [queueBody]
  rename_i routine s hs _
  have hamend := hs.amend routine (fun r => { r with hasBody := true, span := decl.span })
    fun r hr => ⟨hr.params, hr.result⟩
  exact hamend.aside rfl rfl

@[spec] theorem settle_frames (id : SymbolId) (sym : Symbol) :
    Keeps (Framing e) (settle id sym) := by
  mvcgen [settle]
  rename_i hs _
  exact hs.aside rfl rfl

@[spec] theorem declareRoutine_frames (d : Tree.RoutineDecl) (exported : Bool) :
    Keeps (Framing e) (declareRoutine d exported) := by
  mvcgen [declareRoutine]

@[spec] theorem newClass_frames (key : ClassKey) :
    Keeps (Framing e) (intern (·.newClass key)) := by
  mvcgen [intern]
  rename_i hs _
  exact hs.aside rfl rfl

@[spec] theorem registerClasses_frames (decls : List Tree.Decl) (exported : Bool) :
    Keeps (Framing e) (registerClasses decls exported) := by
  mvcgen [registerClasses]
  rename_i hs _
  exact hs.aside rfl rfl

@[spec] theorem declareMethod_frames (c : ClassHead) (h : Tree.Header) (sig : Signature) :
    Keeps (Framing e) (declareMethod c h sig) := by
  mvcgen [declareMethod]

@[spec] theorem fieldSpecs_frames (c : ClassHead) (d : Tree.VarDecl) :
    Keeps (Framing e) (fieldSpecs c d) := by
  mvcgen [fieldSpecs]

@[spec] theorem methodSpec_frames (c : ClassHead) (h : Tree.Header) :
    Keeps (Framing e) (methodSpec c h) := by
  mvcgen [methodSpec]

@[spec] theorem classDecl_frames (c : ClassHead) : Keeps (Framing e) (classDecl c) := by
  mvcgen [classDecl, -Spec.foldlM_list]

@[spec] theorem layoutClasses_frames : Keeps (Framing e) layoutClasses := by
  have hclasses : ∀ cs, Keeps (Framing e) (List.mapM classDecl cs) := mapM_keeps classDecl_frames
  mvcgen [layoutClasses, hclasses, -mapM_keeps]
  rename_i hs _
  exact hs.aside rfl rfl

@[spec] theorem attachMethod_frames (d : Tree.RoutineDecl) (owner : Tree.Ident) :
    Keeps (Framing e) (attachMethod d owner) := by
  mvcgen [attachMethod]

@[spec] theorem declareAll_frames (decls : List Tree.Decl) (exported : Bool) :
    Keeps (Framing e) (declareAll decls exported) := by
  mvcgen [declareAll]
  rename_i hs _ _ _ _ _
  exact hs.aside rfl rfl

@[spec] theorem declareLocals_frames (decls : List Tree.LocalDecl) :
    Keeps (Framing e) (declareLocals decls) := by
  mvcgen [declareLocals]

@[spec] theorem checkBodies_frames : Keeps (Framing e) checkBodies := by
  mvcgen [checkBodies] invariants
  · ⇓? _ s => ⌜Steadily (Framing e) s⌝

/-! ## Bodies -/

theorem declareSlot_adds (sym : Symbol) :
    ⦃fun s => ⌜Steadily (Framing e) s⌝⦄ declareSlot sym
    ⦃⇓? _ s => ⌜Steadily (Framing { e with slots := e.slots.map (· + 1) }) s⌝⦄ := by
  mvcgen [declareSlot]
  exact Steadily.slot ‹_› _

@[spec] theorem declareSlot_frames (sym : Symbol) : Keeps (Framing e) (declareSlot sym) := by
  mvcgen [declareSlot]
  exact (Steadily.slot ‹_› _).fewer le_rfl fun n hn => ⟨n + 1, by simp [hn], n.le_succ⟩

@[spec] theorem declareParams_frames {k : Nat} (p : PendingBody) :
    ⦃fun s => ⌜Steadily (Framing ⟨k, some 0⟩) s⌝⦄ declareParams p
    ⦃⇓? params s => ⌜Steadily (Framing ⟨k, some params⟩) s⌝⦄ := by
  -- The slots counted at the end are those of the frame.
  have hcount : ∀ s, Steadily (Framing ⟨k, some 0⟩) s →
      Steadily (Framing ⟨k, some ((s.frame.map (·.slots)).getD []).length⟩) s := by
    intro s hs
    obtain ⟨f, hf, -⟩ := hs.holds.slots 0 rfl
    refine ⟨Framing.steady, hs.holds.framed, hs.holds.routines, ?_⟩
    rintro n ⟨⟩
    exact ⟨f, hf, by simp [hf]⟩
  have hslot := fun sym => declareSlot_frames (e := ⟨k, some 0⟩) sym
  mvcgen [declareParams, hslot, -declareSlot_frames]
  · exact id
  · exact hcount _ ‹_›
  · exact id
  · exact hcount _ ‹_›

theorem declareResult_frames {k : Nat} (p : PendingBody) (params : Nat) :
    ⦃fun s => ⌜Steadily (Framing ⟨k, some params⟩) s⌝⦄ declareResult p params
    ⦃⇓? result s => ⌜Steadily (Framing ⟨k, some (params + result.toList.length)⟩) s ∧
      ∀ i, result = some i → i = params⌝⦄ := by
  have hslot := fun sym => declareSlot_adds (e := ⟨k, some params⟩) sym
  mvcgen [declareResult, hslot, -declareSlot_frames]
  · exact Steadily.result ‹_› _
  · rename_i result _ _ _ _ hresult _ _ hs
    have hsome : result = some params := if_neg hresult
    simpa [hsome] using hs
  · rename_i result s hs _ _ hresult
    have hnone : result = none := if_pos (not_not.mp hresult)
    have hlen : params + result.toList.length = params := by simp [hnone]
    rw [hlen]
    exact ⟨hs.result result, by simp [hnone]⟩

theorem inFrame_frames {k : Nat} (routine : Nat) (frame : Frame) {x : Bind Routine}
    (hbody : ⦃fun s => ⌜Steadily (Framing ⟨k, some frame.slots.length⟩) s⌝⦄ x
      ⦃⇓? r s => ⌜Steadily (Framing ⟨k, none⟩) s ∧ r.Framed⌝⦄) :
    Keeps (Framing ⟨k, none⟩) (inFrame routine frame x) := by
  mvcgen [inFrame, hbody]
  · rename_i hs _
    refine ⟨Framing.steady, hs.holds.framed, hs.holds.routines, ?_⟩
    rintro n ⟨⟩
    exact ⟨frame, rfl, le_rfl⟩
  · rename_i r s hs t
    refine ⟨Framing.steady, ?_, ?_, by simp⟩
    · intro q hq
      rcases Array.mem_or_eq_of_mem_setIfInBounds hq with hq | rfl
      · exact hs.1.holds.framed q hq
      · exact hs.2
    · simpa [t] using hs.1.holds.routines

theorem boundRoutine_frames {k : Nat} (p : PendingBody) :
    ⦃fun s => ⌜Steadily (Framing ⟨k, some 0⟩) s⌝⦄ boundRoutine p
    ⦃⇓? r s => ⌜Steadily (Framing ⟨k, none⟩) s ∧ r.Framed⌝⦄ := by
  unfold boundRoutine
  refine Triple.bind _ _ (declareParams_frames p) ?_
  intro params
  refine Triple.bind _ _ (declareResult_frames p params) ?_
  intro result
  have hlocals := declareLocals_frames (e := ⟨k, some (params + result.toList.length)⟩)
    p.decl.locals
  have hbody := stmts_keeps (I := Framing ⟨k, some (params + result.toList.length)⟩)
    p.body.body
  mvcgen [hlocals, hbody, -declareLocals_frames, -stmts_keeps]
  · rename_i hs
    exact hs.1
  · rename_i s₁ hs₁ _ _ _ body s hs
    obtain ⟨f, hf, hlen⟩ := hs.holds.slots _ rfl
    refine ⟨hs.fewer le_rfl (by simp), ?_, ?_⟩
    · simp only [hf, Option.map_some, Option.getD_some]
      omega
    · intro i (hi : result = some i)
      obtain rfl := hs₁.2 i hi
      simp only [hi, Option.toList_some, List.length_singleton] at hlen
      simp only [hf, Option.map_some, Option.getD_some]
      omega

@[spec] theorem routineBody_frames {k : Nat} (p : PendingBody) :
    Keeps (Framing ⟨k, none⟩) (routineBody p) := by
  have hbody := fun scope => inFrame_frames (k := k) p.routine
    { scope, owner := p.owner, function := p.symbol } (boundRoutine_frames p)
  mvcgen [routineBody, hbody]

theorem newRoutine_adds {k : Nat} (name : String) (sym : SymbolId) (owner : TypeId)
    (span : Span) :
    ⦃fun s => ⌜Steadily (Framing ⟨k, none⟩) s⌝⦄ newRoutine name sym owner span
    ⦃⇓? i s => ⌜Steadily (Framing ⟨i + 1, none⟩) s⌝⦄ := by
  mvcgen [newRoutine, -newRoutine_frames]
  rename_i s hs _
  have hpush := hs.routine { name, symbol := sym, owner, span } ⟨Nat.zero_le _, by simp⟩
  refine ⟨Framing.steady, hpush.holds.framed, ?_, by simp⟩
  exact (Array.size_push _).ge

@[spec] theorem fileBody_frames {k : Nat} (name : String) (block : Tree.Block) :
    ⦃fun s => ⌜Steadily (Framing ⟨k, none⟩) s⌝⦄ fileBody name block
    ⦃⇓? i s => ⌜Steadily (Framing ⟨i + 1, none⟩) s⌝⦄ := by
  unfold fileBody
  refine Triple.bind _ _ (newRoutine_adds name 0 0 block.span) ?_
  intro i
  have hframe := fun scope x => inFrame_frames (k := i + 1) i { scope } (x := x)
  mvcgen [hframe]
  rename_i s hs
  refine ⟨hs.fewer le_rfl (by simp), ?_⟩
  have hframed : (s.routines.getD i default).Framed := by
    rw [Array.getD_eq_getD_getElem?]
    cases hr : s.routines[i]? with
    | none => exact ⟨Nat.zero_le _, fun i hi => by cases hi⟩
    | some r => exact hs.holds.framed r (Array.mem_of_getElem? hr)
  exact ⟨hframed.params, hframed.result⟩

/-! ## Files -/

@[spec] theorem distinctUses_frames (seen uses : List Tree.Ident) :
    Keeps (Framing e) (distinctUses seen uses) := by
  induction uses generalizing seen with
  | nil => mvcgen [distinctUses]
  | cons u us ih => mvcgen [distinctUses, ih]

@[spec] theorem openUnit_frames (imports : List Import) (parent : ScopeId) (u : Tree.Ident) :
    Keeps (Framing e) (openUnit imports parent u) := by
  mvcgen [openUnit]
  rename_i hs _
  exact hs.aside rfl rfl


@[spec] theorem declareBuiltins_frames (scope : ScopeId) :
    Keeps (Framing e) (declareBuiltins scope) := by
  unfold declareBuiltins
  generalize Native.all = natives
  extract_lets types
  clear_value types
  mvcgen

@[spec] theorem openScopes_frames (imports : List Import) (file : Tree.File) :
    Keeps (Framing e) (openScopes imports file) := by
  have hopen : ∀ uses scope, Keeps (Framing e) (List.foldlM (openUnit imports) scope uses) :=
    fun uses scope => foldlM_keeps (openUnit_frames imports) scope uses
  mvcgen [openScopes, hopen, -foldlM_keeps, -Spec.foldlM_list]
  rename_i hs _
  exact hs.aside rfl rfl

theorem file_frames (imports : List Import) (path : String) (f : Tree.File) :
    ⦃fun s => ⌜Steadily (Framing ⟨0, none⟩) s⌝⦄ file imports path f ⦃⇓? m _ => ⌜m.Framed⌝⦄ := by
  have hattach := fun d owner => attachMethod_frames (e := ⟨0, none⟩) d owner
  have hbody := fun p => routineBody_frames (k := 0) p
  mvcgen [file, declarations, allBodies, hattach, hbody, -attachMethod_frames, -routineBody_frames]
  · exact id
  · exact id
  · rename_i i s hs own isExported
    have hlt : i < s.routines.toList.length := by simpa using hs.holds.routines
    refine ⟨fun r hr => hs.holds.framed r (Array.mem_toList_iff.mp hr), ?_, ?_⟩
    all_goals
      intro j hj
      dsimp only at hj
      split at hj
      all_goals
        cases hj
        try exact hlt
  · rename_i s hs own isExported
    refine ⟨fun r hr => hs.holds.framed r (Array.mem_toList_iff.mp hr), ?_, ?_⟩
    all_goals
      intro j hj
      simp at hj

end Bind

theorem Module.framed_ofFile {types : TypeTable} {imports : List Import} {path : String}
    {f : Tree.File} {r : BindResult} (h : Module.ofFile types imports path f = .ok r) :
    r.module.Framed := by
  unfold Module.ofFile at h
  cases hrun : (Bind.file imports path f).run { types, unit := f.name.name } with
  | error e => 
    rw [hrun] at h
    cases h
  | ok ms =>
    rw [hrun] at h
    cases h
    exact Bind.of_run (Bind.file_frames imports path f)
      ⟨Framing.steady, by simp, by simp, by simp⟩ hrun

end Pascaline.Bound
