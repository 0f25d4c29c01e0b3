import Pascaline.Proofs.Build.Sources

/-!
# What discovery finds

Every source is found once. Its uses are found too, or it has errors, and every source but the one
that discovery started from was found because another one uses it.
-/

namespace Pascaline

/-! ## Reports of errors -/

theorem Lexer.step_errors (l : Lexer) : ∀ e ∈ l.step.errors, e.isError := by
  have hdiagnostic (start stop : Nat) (error : LexError) :
      (Lexer.diagnostic l.file start stop error).isError := rfl
  unfold step
  dsimp only
  split
  · simp [hdiagnostic]
  · intro e he
    obtain he | he := List.mem_append.mp he
    · obtain ⟨_, -, rfl⟩ := List.mem_map.mp he
      exact hdiagnostic ..
    · obtain ⟨_, -, rfl⟩ := List.mem_map.mp he
      exact hdiagnostic ..

theorem Lexer.tokens_errors (l : Lexer) : ∀ e ∈ l.tokens.2, e.isError := by
  induction l using tokens.induct with
  | case1 l s hend =>
    rw [tokens, dif_pos hend]
    exact l.step_errors
  | case2 l s hword words errors htokens ih =>
    rw [tokens, dif_neg hword]
    intro e he
    obtain he | he := List.mem_append.mp he
    · exact l.step_errors e he
    · exact ih e he

/-- A text without a tree has errors, and what is said about any text are errors. -/
theorem Tree.File.parse_errors (f : SourceFile) :
    (∀ e ∈ (parse f).errors, e.isError) ∧ ((parse f).file = none → (parse f).errors ≠ []) := by
  unfold parse
  dsimp only
  split
  case isTrue =>
    split
    · exact ⟨by simp, fun h => by cases h⟩
    case h_2 e _ =>
      refine ⟨fun d hd => ?_, by simp⟩
      rw [List.mem_singleton.mp hd]
      rfl
  case isFalse hsome => exact ⟨Lexer.tokens_errors _, fun _ => by simpa using hsome⟩

theorem Report.items_foldl_add {ds : List Diagnostic} (h : ∀ d ∈ ds, d.isError) (r : Report) :
    (ds.foldl Report.add r).items = r.items ++ ds := by
  induction ds generalizing r with
  | nil => simp
  | cons d ds ih =>
    rw [List.forall_mem_cons] at h
    rw [List.foldl_cons, ih h.2, add, accepts, h.1, Bool.true_or, if_pos rfl, List.append_assoc]
    rfl

/-! ## Sources -/

namespace FoundSource

/-- What holds of every source: all its reports are errors, it has one if it could not be parsed or
its name is no name, and it says of itself what its tree says. -/
structure Sound (s : FoundSource) : Prop where
  errors : ∀ d ∈ s.report.items, d.isError
  parsed : s.tree = none → s.report.hasErrors
  named : IsName s.summary.name ∨ s.report.hasErrors
  faithful : s.Faithful

theorem Sound.add {s : FoundSource} (h : s.Sound) {d : Diagnostic} (hd : d.isError) :
    (s.add d).Sound where
  errors e he := by
    have hitems : (s.add d).report.items = s.report.items ++ [d] := by
      rw [FoundSource.add, Report.add, Report.accepts, hd, Bool.true_or, if_pos rfl]
    rw [hitems, List.mem_append, List.mem_singleton] at he
    obtain he | rfl := he
    · exact h.errors e he
    · exact hd
  parsed htree := hasErrors_of_add (h.parsed htree)
  named := h.named.imp_right hasErrors_of_add
  faithful := h.faithful.add d

theorem hasErrors_of_mem {r : Report} {d : Diagnostic} (hd : d ∈ r.items) (herror : d.isError) :
    r.hasErrors := List.any_eq_true.mpr ⟨d, hd, herror⟩

theorem sound_ofFile (limit : Int) (path : String) (f : SourceFile) : (ofFile limit path f).Sound := by
  obtain ⟨herrors, hnone⟩ := Tree.File.parse_errors f
  have hreport : (ofFile limit path f).report.items = (Tree.File.parse f).errors := by
    have hitems := Report.items_foldl_add herrors (Report.withLimit limit)
    unfold ofFile
    dsimp only
    split <;> exact hitems
  have htree : (ofFile limit path f).tree = (Tree.File.parse f).file := by
    unfold ofFile
    dsimp only
    split
    case h_1 h => exact h.symm
    case h_2 h => exact h.symm
  have hparsed : (ofFile limit path f).tree = none → (ofFile limit path f).report.hasErrors := by
    intro h
    obtain ⟨e, he⟩ := List.exists_mem_of_ne_nil _ (hnone (htree ▸ h))
    exact hasErrors_of_mem (hreport ▸ he) (herrors e he)
  refine ⟨hreport ▸ herrors, hparsed, ?_, faithful_ofFile limit path f⟩
  cases hfile : (Tree.File.parse f).file with
  | none => exact .inr (hparsed (htree.trans hfile))
  | some t =>
    have hname : (ofFile limit path f).summary.name = t.name.name := by
      unfold ofFile
      dsimp only
      rw [hfile]
    exact .inl (hname ▸ t.name.named)

/-- Reports were added to a source. -/
structure Extends (s s' : FoundSource) : Prop where
  summary : s'.summary = s.summary
  tree : s'.tree = s.tree
  file : s'.file = s.file
  errors : s.report.hasErrors → s'.report.hasErrors

theorem Extends.refl (s : FoundSource) : Extends s s := ⟨rfl, rfl, rfl, id⟩

theorem Extends.trans {s s' s'' : FoundSource} (h : Extends s s') (h' : Extends s' s'') :
    Extends s s'' :=
  ⟨h'.summary.trans h.summary, h'.tree.trans h.tree, h'.file.trans h.file, h'.errors ∘ h.errors⟩

theorem extends_add (s : FoundSource) (d : Diagnostic) : Extends s (s.add d) :=
  ⟨rfl, rfl, rfl, hasErrors_of_add⟩

/-- The names that a source uses. -/
def used (s : SourceSummary) : List String := s.uses.map (·.name)

/-- A source uses other sources that were found, unless it has errors. -/
def Settled (found : List FoundSource) (s : FoundSource) : Prop :=
  s.report.hasErrors ∨
    ∀ name ∈ used s.summary, name ≠ s.summary.name ∧ name ∈ found.map (·.summary.name)

theorem Settled.mono {found found' : List FoundSource} {s : FoundSource} (h : s.Settled found)
    (hsub : found ⊆ found') : s.Settled found' :=
  h.imp_right fun huses name hname =>
    ⟨(huses name hname).1, List.map_subset _ hsub (huses name hname).2⟩

end FoundSource

namespace Discovery

open FoundSource

variable {src dep : FoundSource} {d d' : Discovery} {u : Tree.Ident}

/-! ## Following one use -/

theorem checkUse_spec (hsrc : src.Sound) (hdep : dep.Sound) (path : String) (u : Tree.Ident) :
    let (src', dep') := checkUse src dep path u
    src'.Sound ∧ Extends src src' ∧ dep'.Sound ∧ dep'.summary.name = u.name := by
  obtain ⟨-, hfaithful⟩ := checkUse_faithful hsrc.faithful hdep.faithful path u
  have hreported : (if dep.tree.isSome && dep.summary.name ≠ u.name then dep.add (mismatch path dep u)
      else dep).Sound := by
    split
    · exact hdep.add rfl
    · exact hdep
  have hnoted (dep : FoundSource) :
      let src' := if dep.summary.kind = .program then src.add (notUsable u) else src
      src'.Sound ∧ Extends src src' := by
    dsimp only
    split
    · exact ⟨hsrc.add rfl, extends_add src _⟩
    · exact ⟨hsrc, .refl src⟩
  exact ⟨(hnoted _).1, (hnoted _).2,
    ⟨hreported.errors, hreported.parsed, .inl u.named, hfaithful⟩, rfl⟩

theorem load_finds (d : Discovery) (path : String) :
    Ensures (d.load path) fun r => ∀ src d', r = .ok (src, d') → ∃ f library,
      src = .ofFile d.limit path f ∧ d' = { d with library } ∧
      f.path = Path.clean path ∧ f.id = d.library.files.size := by
  refine .after fun r => ?_
  split
  · exact .pure fun _ _ h => by cases h
  case h_2 content =>
    dsimp only
    split
    case h_2 => exact .pure fun _ _ h => by cases h
    case h_1 f hf =>
      refine .pure fun src d' h => ?_
      cases h
      refine ⟨f, _, rfl, rfl, ?_⟩
      simp only [SourceLibrary.load, SourceLibrary.add, SourceLibrary.get?] at hf
      rw [Array.getElem?_push_size] at hf
      cases hf
      exact ⟨rfl, rfl⟩

/-- What holds while discovery is under way: every name is met once, and the sources that are done
are settled. -/
structure Orderly (d : Discovery) : Prop where
  nodup : (d.chain.map (·.name) ++ d.found.map (·.summary.name)).Nodup
  sound : ∀ s ∈ d.found, s.Sound
  settled : ∀ s ∈ d.found, s.Settled d.found

/-- The name was not met yet. -/
def IsNew (d : Discovery) (name : String) : Prop :=
  name ∉ d.chain.map (·.name) ∧ name ∉ d.found.map (·.summary.name)

/-- Each source is used by `user` or by one of the others. -/
def UsedWithin (user : SourceSummary) (found : List FoundSource) : Prop :=
  ∀ s ∈ found, ∃ t ∈ user :: found.map (·.summary),
    t.name ≠ s.summary.name ∧ s.summary.name ∈ used t

theorem UsedWithin.append {user : SourceSummary} {xs ys : List FoundSource} (hx : UsedWithin user xs)
    (hy : UsedWithin user ys) : UsedWithin user (xs ++ ys) := by
  intro s hs
  obtain hs | hs := List.mem_append.mp hs
  · obtain ⟨t, ht, huse⟩ := hx s hs
    exact ⟨t, by grind, huse⟩
  · obtain ⟨t, ht, huse⟩ := hy s hs
    exact ⟨t, by grind, huse⟩

/-- A source that `user` uses comes after those that were found because of it. -/
theorem UsedWithin.snoc {user : SourceSummary} {xs : List FoundSource} {s : FoundSource}
    (hx : UsedWithin s.summary xs) (hne : user.name ≠ s.summary.name)
    (huse : s.summary.name ∈ used user) : UsedWithin user (xs ++ [s]) := by
  intro x hx'
  obtain hx' | hx' := List.mem_append.mp hx'
  · obtain ⟨t, ht, huse⟩ := hx x hx'
    exact ⟨t, by grind, huse⟩
  · rw [List.mem_singleton.mp hx']
    exact ⟨user, List.mem_cons_self, hne, huse⟩

/-- What taking in a source leads to. -/
structure TakesIn (src : FoundSource) (d d' : Discovery) : Prop where
  orderly : d'.Orderly
  chain : d'.chain = d.chain
  found : ∃ new last, d'.found = d.found ++ new ++ [last] ∧ Extends src last ∧
    UsedWithin src.summary new

/-- What following some of the uses of a source leads to. -/
structure Follows (src : FoundSource) (d : Discovery) (done : List Tree.Ident)
    (p : FoundSource × Discovery) : Prop where
  sound : p.1.Sound
  extension : Extends src p.1
  orderly : p.2.Orderly
  chain : p.2.chain = src.summary :: d.chain
  found : ∃ new, p.2.found = d.found ++ new ∧ UsedWithin src.summary new
  done : p.1.report.hasErrors ∨
    ∀ u ∈ done, u.name ≠ src.summary.name ∧ u.name ∈ p.2.found.map (·.summary.name)

variable {done : List Tree.Ident} {p : FoundSource × Discovery}

theorem Follows.report (h : Follows src d done p) {e : Diagnostic} (he : e.isError) :
    Follows src d (done ++ [u]) (p.1.add e, p.2) :=
  { h with
    sound := h.sound.add he
    extension := h.extension.trans (extends_add _ _)
    done := .inl (hasErrors_add_error he) }

theorem Follows.again (h : Follows src d done p) (hu : u.name ≠ src.summary.name)
    (hfound : u.name ∈ p.2.found.map (·.summary.name)) : Follows src d (done ++ [u]) p := by
  refine { h with done := h.done.imp_right fun hdone v hv => ?_ }
  obtain hv | hv := List.mem_append.mp hv
  · exact hdone v hv
  · rw [List.mem_singleton.mp hv]
    exact ⟨hu, hfound⟩

theorem Follows.visit (h : Follows src d done p) (hsound : p.1.Sound)
    (hne : u.name ≠ src.summary.name) (huse : u.name ∈ used src.summary)
    (hdep : dep.summary.name = u.name) (hd' : TakesIn dep p.2 d') :
    Follows src d (done ++ [u]) (p.1, d') := by
  obtain ⟨new, hfound, hnew⟩ := h.found
  obtain ⟨new', last, hfound', hlast, hnew'⟩ := hd'.found
  have hname : last.summary.name = u.name := hlast.summary ▸ hdep
  refine ⟨hsound, h.extension, hd'.orderly, hd'.chain.trans h.chain,
    ⟨new ++ (new' ++ [last]), by rw [hfound', hfound]; simp, hnew.append ?_⟩,
    h.done.imp_right fun hdone v hv => ?_⟩
  · exact (hlast.summary ▸ hnew').snoc (hname ▸ hne.symm) (hname ▸ huse)
  · rw [hfound']
    obtain hv | hv := List.mem_append.mp hv
    · obtain ⟨hne, hmem⟩ := hdone v hv
      exact ⟨hne, by grind⟩
    · rw [List.mem_singleton.mp hv]
      exact ⟨hne, by simp [hname]⟩

theorem follow_ensures {visit : FoundSource → Discovery → StateM Disk Discovery}
    (hvisit : ∀ dep d, dep.Sound → d.Orderly → d.IsNew dep.summary.name →
      Ensures (visit dep d) (TakesIn dep d))
    (h : Follows src d done p) (huse : u.name ∈ used src.summary) :
    Ensures (follow visit p u) (Follows src d (done ++ [u])) := by
  obtain ⟨src', d'⟩ := p
  have hchain : d'.chain = src.summary :: d.chain := h.chain
  rw [follow]
  split
  · exact .pure (h.report rfl)
  case isFalse hopen =>
  have hclosed : u.name ∉ d'.chain.map (·.name) := by simpa using hopen
  have hne : u.name ≠ src.summary.name := by
    rw [hchain, List.map_cons, List.mem_cons, not_or] at hclosed
    exact hclosed.1
  split
  case h_1 dep hdep =>
    refine .pure ?_
    split
    · exact h.report rfl
    · refine h.again hne (List.mem_map.mpr ⟨dep, List.mem_of_find?_eq_some hdep, ?_⟩)
      simpa using List.find?_some hdep
  case h_2 hnone =>
  have hnew : d'.IsNew u.name := ⟨hclosed, by simpa using hnone⟩
  refine .after fun path => ?_
  split
  case h_2 => exact .pure (h.report rfl)
  case h_1 path =>
  refine .bind (load_finds d' path) fun r hr => ?_
  split
  case h_1 => exact .pure (h.report rfl)
  case h_2 dep d'' =>
  obtain ⟨f, library, rfl, rfl, -⟩ := hr dep d'' rfl
  obtain ⟨hsound, hext, hdep, hname⟩ :=
    checkUse_spec h.sound (sound_ofFile d'.limit path f) path u
  have hread : Follows src d done ((checkUse src' (.ofFile d'.limit path f) path u).1,
      { d' with library }) :=
    { h with
      sound := hsound
      extension := h.extension.trans hext
      orderly := ⟨h.orderly.nodup, h.orderly.sound, h.orderly.settled⟩
      done := h.done.imp_left hext.errors }
  refine .bind (hvisit _ _ hdep hread.orderly (hname ▸ hnew)) fun d'' hd'' => .pure ?_
  exact hread.visit hsound hne huse hname hd''

/-! ## Whole discoveries -/

theorem mem_firstMentions {seen : List String} {us : List Tree.Ident} :
    (∀ u ∈ firstMentions seen us, u ∈ us) ∧
      ∀ u ∈ us, u.name ∈ seen ∨ ∃ v ∈ firstMentions seen us, v.name = u.name := by
  fun_induction firstMentions seen us with
  | case1 => simp
  | case2 seen u us hseen ih =>
    refine ⟨fun v hv => List.mem_cons_of_mem _ (ih.1 v hv), fun v hv => ?_⟩
    obtain rfl | hv := List.mem_cons.mp hv
    · exact .inl (by simpa using hseen)
    · exact ih.2 v hv
  | case3 seen u us hseen ih => grind

theorem Ensures.foldlM_done {α β : Type} {f : α → β → StateM Disk α} {I : List β → α → Prop}
    {bs : List β} (hf : ∀ done b a, b ∈ bs → I done a → Ensures (f a b) (I (done ++ [b]))) {a : α}
    (ha : I [] a) : Ensures (bs.foldlM f a) (I bs) := by
  have hrest : ∀ (rest done : List β) (a : α), (∀ b ∈ rest, b ∈ bs) → I done a →
      Ensures (rest.foldlM f a) (I (done ++ rest)) := by
    intro rest
    induction rest with
    | nil =>
      intro done a _ ha
      rw [List.append_nil]
      exact .pure ha
    | cons b rest ih =>
      intro done a hmem ha
      rw [List.forall_mem_cons] at hmem
      refine .bind (hf done b a hmem.1 ha) fun a' ha' => ?_
      have := ih (done ++ [b]) a' hmem.2 ha'
      rwa [List.append_assoc] at this
  exact hrest bs [] a (fun _ => id) ha

theorem Orderly.snoc (hd : d.Orderly) (hsrc : src.Sound) (hnew : d.IsNew src.summary.name)
    (hsettled : src.Settled (d.found ++ [src])) :
    Orderly { d with found := d.found ++ [src] } where
  nodup := by
    have hnodup := hd.nodup
    rw [IsNew] at hnew
    rw [List.map_append, ← List.append_assoc, List.map_singleton]
    exact List.nodup_append.mpr ⟨hnodup, by simp, by grind⟩
  sound s hs := by
    obtain hs | hs := List.mem_append.mp hs
    · exact hd.sound s hs
    · exact List.mem_singleton.mp hs ▸ hsrc
  settled s hs := by
    obtain hs | hs := List.mem_append.mp hs
    · exact (hd.settled s hs).mono (List.subset_append_left _ _)
    · exact List.mem_singleton.mp hs ▸ hsettled

theorem visit_takesIn (depth : Nat) (hsrc : src.Sound) (hd : d.Orderly)
    (hnew : d.IsNew src.summary.name) : Ensures (visit depth src d) (TakesIn src d) := by
  induction depth generalizing src d with
  | zero =>
    refine .pure ⟨hd.snoc (hsrc.add rfl) hnew (.inl (hasErrors_add_error rfl)), rfl,
      [], _, by rw [List.append_nil], extends_add src _, ?_⟩
    exact fun s hs => by cases hs
  | succ depth ih =>
    rw [visit]
    refine .bind (Ensures.foldlM_done (I := Follows src d) ?_ ?_) ?_
    · intro done u p hu h
      refine follow_ensures (fun dep d hdep hd hnew => ih hdep hd hnew) h ?_
      cases htree : src.tree with
      | none => simp [htree] at hu
      | some t =>
        rw [used, hsrc.faithful.uses t htree]
        simp only [htree, Option.map_some, Option.getD_some] at hu
        exact List.mem_map_of_mem (mem_firstMentions.1 u hu)
    · refine ⟨hsrc, .refl src, ⟨?_, hd.sound, hd.settled⟩, rfl, ⟨[], by simp, fun s hs => by cases hs⟩,
        .inr (by simp)⟩
      have hnodup := hd.nodup
      rw [IsNew] at hnew
      simp only [List.map_cons, List.cons_append, List.nodup_cons, List.mem_append]
      exact ⟨by tauto, hnodup⟩
    · rintro ⟨src', d'⟩ h
      obtain ⟨new, hfound, hused⟩ := h.found
      have hchain : d'.chain = src.summary :: d.chain := h.chain
      refine .pure ⟨?_, by rw [hchain]; rfl, new, src', by rw [hfound], h.extension, hused⟩
      have hnodup := h.orderly.nodup
      dsimp only at hnodup hfound
      rw [hchain, List.map_cons, List.cons_append, List.nodup_cons, List.mem_append, not_or] at hnodup
      have hclosed : Orderly { d' with chain := d'.chain.tail } :=
        ⟨by rw [hchain]; exact hnodup.2, h.orderly.sound, h.orderly.settled⟩
      have hname : src'.summary.name = src.summary.name := congrArg _ h.extension.summary
      refine hclosed.snoc h.sound ?_ ?_
      · rw [IsNew, hname, hchain]
        exact hnodup.1
      · cases htree : src.tree with
        | none => exact .inl (h.extension.errors (hsrc.parsed htree))
        | some t =>
          refine h.done.imp_right fun hdone name huse => ?_
          rw [h.extension.summary, used, hsrc.faithful.uses t htree] at huse
          obtain ⟨u, hu, rfl⟩ := List.mem_map.mp huse
          obtain ⟨v, hv, heq⟩ := (mem_firstMentions.2 u hu).resolve_left List.not_mem_nil
          obtain ⟨hne, hmem⟩ := hdone v (by rw [htree]; exact hv)
          rw [h.extension.summary, ← heq]
          exact ⟨hne, List.map_subset _ (List.subset_append_left _ _) hmem⟩

/-- What a discovery finds, started from `entry`. -/
structure Finds (entry : String) (d : Discovery) : Prop where
  nodup : (d.found.map (·.summary.name)).Nodup
  sound : ∀ s ∈ d.found, s.Sound
  settled : ∀ s ∈ d.found, s.Settled d.found
  /-- The file that discovery started from is the last, and each other source is used. -/
  last : ∃ new last, d.found = new ++ [last] ∧ last.file = 0 ∧
    last.summary.path = Path.clean entry ∧ UsedWithin last.summary new

theorem discover_finds {d : Discovery} (hempty : d.found = []) (hchain : d.chain = [])
    (hfiles : d.library.files = #[]) (entry : String) :
    Ensures (d.discover entry) fun r => ∀ d', r = .ok d' → d'.Finds entry := by
  have horderly (library : SourceLibrary) : Orderly { d with library } := by
    constructor <;> simp [hempty, hchain]
  refine .bind (load_finds d entry) fun r hr => ?_
  split
  case h_1 => exact .pure fun _ h => by cases h
  case h_2 src d' =>
  obtain ⟨f, library, hsrc, rfl, hpath, hid⟩ := hr src d' rfl
  have hsound : src.Sound := hsrc ▸ sound_ofFile _ _ _
  have hfile : src.file = 0 ∧ src.summary.path = Path.clean entry := by
    rw [hsrc, ← hpath, ofFile]
    dsimp only
    rw [hid, hfiles]
    split <;> exact ⟨rfl, rfl⟩
  split
  case isTrue hnone =>
    refine .pure fun _ h => ?_
    cases h
    have herrors := hsound.parsed (by simpa using hnone)
    refine ⟨by simp, by simpa using hsound, by simpa using .inl herrors, [], src, rfl, hfile.1,
      hfile.2, fun s hs => by cases hs⟩
  case isFalse =>
    refine .after fun bound => ?_
    refine .bind (visit_takesIn _ hsound (horderly library) ?_) fun d'' hd'' => .pure fun _ h => ?_
    · simp [IsNew, hempty, hchain]
    · cases h
      obtain ⟨new, last, hfound, hlast, hused⟩ := hd''.found
      rw [show Discovery.found { d with library } = [] from hempty, List.nil_append] at hfound
      have hnodup := hd''.orderly.nodup
      rw [hd''.chain, show Discovery.chain { d with library } = [] from hchain] at hnodup
      refine ⟨hnodup, hd''.orderly.sound, hd''.orderly.settled, new, last, hfound, ?_, ?_,
        hlast.summary ▸ hused⟩
      · rw [hlast.file, hfile.1]
      · rw [hlast.summary, hfile.2]

/-! ## The disk -/

/-- The disk is only read. -/
def Reads {α : Type} (x : StateM Disk α) : Prop := ∀ disk, (x.run disk).2 = disk

variable {α β : Type}

theorem Reads.pure (a : α) : Reads (pure a) := fun _ => rfl

theorem Reads.bind {x : StateM Disk β} {f : β → StateM Disk α} (hx : Reads x)
    (hf : ∀ b, Reads (f b)) : Reads (x >>= f) :=
  fun disk => (hf _ _).trans (hx disk)

theorem Reads.foldlM {f : α → β → StateM Disk α} (hf : ∀ a b, Reads (f a b)) (bs : List β) (a : α) :
    Reads (bs.foldlM f a) := by
  induction bs generalizing a with
  | nil => exact .pure a
  | cons b bs ih => exact .bind (hf a b) fun _ => ih _

theorem firstFile_reads (paths : List String) : Reads (firstFile paths) := by
  induction paths with
  | nil => exact .pure none
  | cons p ps ih =>
    refine .bind (.bind (fun _ => rfl) fun r => ?_) fun found => ?_
    · split <;> exact .pure _
    · split
      · exact .pure _
      · exact ih

theorem load_reads (d : Discovery) (path : String) : Reads (d.load path) := by
  refine .bind (fun _ => rfl) fun r => ?_
  split
  · exact .pure _
  · dsimp only
    split <;> exact .pure _

theorem visit_reads (depth : Nat) (src : FoundSource) (d : Discovery) : Reads (visit depth src d) := by
  induction depth generalizing src d with
  | zero => exact .pure _
  | succ depth ih =>
    refine .bind (.foldlM (fun p u => ?_) _ _) fun _ => .pure _
    obtain ⟨src, d⟩ := p
    rw [follow]
    split
    · exact .pure _
    split
    · exact .pure _
    refine .bind (firstFile_reads _) fun path => ?_
    split
    case h_2 => exact .pure _
    refine .bind (load_reads _ _) fun r => ?_
    split
    · exact .pure _
    · exact .bind (ih _ _) fun _ => .pure _

theorem discover_reads (d : Discovery) (entry : String) : Reads (d.discover entry) := by
  refine .bind (load_reads d entry) fun r => ?_
  split
  · exact .pure _
  split
  · exact .pure _
  · exact .bind (fun _ => rfl) fun _ => .bind (visit_reads _ _ _) fun _ => .pure _

end Discovery

end Pascaline
