import Mathlib.Data.List.Basic
import Mathlib.Tactic.Common
import Pascaline.Token.Name
import Pascaline.Proofs.Storage.Units
import Pascaline.UnitCache

/-!
# Stored units and their places

Units of different names are stored at different places, so storing one leaves all others as they
were.
-/

namespace Pascaline

/-! ## The last step of a path -/

namespace Path

/-- A step that stays when a path is cleaned. -/
structure Plain (s : String) : Prop where
  noSlash : '/' ∉ s.toList
  ne_empty : s ≠ ""
  ne_here : s ≠ "."
  ne_up : s ≠ ".."

theorem steps_eq (p : String) : steps p = (p.toList.splitOn '/').map String.ofList := by
  rw [steps, List.splitOn_eq_splitOnP]
  congr 2

theorem noSlash_of_mem_splitOn {cs w : List Char} (h : w ∈ cs.splitOn '/') : '/' ∉ w := by
  induction cs generalizing w with
  | nil =>
    rw [List.splitOn_nil, List.mem_singleton] at h
    simp [h]
  | cons c cs ih =>
    rw [List.splitOn_cons_eq_if_modifyHead] at h
    split at h
    · obtain rfl | h := List.mem_cons.mp h
      · simp
      · exact ih h
    case isFalse hc =>
      obtain ⟨v, vs, hv⟩ := List.exists_cons_of_ne_nil (List.splitOn_ne_nil '/' cs)
      rw [hv] at h ih
      rw [List.modifyHead_cons] at h
      obtain rfl | h := List.mem_cons.mp h
      · have hne : '/' ≠ c := fun heq => hc (beq_iff_eq.mpr heq.symm)
        simpa [hne] using ih List.mem_cons_self
      · exact ih (List.mem_cons_of_mem v h)

theorem noSlash_of_mem_steps {p s : String} (h : s ∈ steps p) : '/' ∉ s.toList := by
  rw [steps_eq] at h
  obtain ⟨w, hw, rfl⟩ := List.mem_map.mp h
  rw [String.toList_ofList]
  exact noSlash_of_mem_splitOn hw

theorem steps_plain {s : String} (h : '/' ∉ s.toList) : steps s = [s] := by
  rw [steps_eq, List.splitOn_eq_singleton h]
  simp

theorem steps_append (a b : String) : steps (a ++ "/" ++ b) = steps a ++ steps b := by
  simp only [steps_eq, String.toList_append]
  have hsplit := List.splitOn_append_cons_self (a := '/') a.toList b.toList
  rw [← List.map_append, ← hsplit]
  simp

theorem steps_intercalate {ss : List String} (hne : ss ≠ []) (h : ∀ s ∈ ss, '/' ∉ s.toList) :
    steps ("/".intercalate ss) = ss := by
  have hsplit : (['/'].intercalate (ss.map String.toList)).splitOn '/' = ss.map String.toList := by
    refine List.splitOn_intercalate '/' (fun l hl => ?_) (by simpa using hne)
    obtain ⟨s, hs, rfl⟩ := List.mem_map.mp hl
    exact h s hs
  rw [steps_eq, String.toList_intercalate]
  change (List.splitOn '/' (['/'].intercalate (ss.map String.toList))).map String.ofList = ss
  rw [hsplit, List.map_map]
  simp [Function.comp_def]

theorem noSlash_foldl_step (rooted : Bool) {ss done : List String} (hss : ∀ s ∈ ss, '/' ∉ s.toList)
    (hdone : ∀ s ∈ done, '/' ∉ s.toList) : ∀ s ∈ ss.foldl (step rooted) done, '/' ∉ s.toList := by
  induction ss generalizing done with
  | nil => exact hdone
  | cons s ss ih =>
    rw [List.forall_mem_cons] at hss
    refine ih hss.2 ?_
    unfold step
    split
    · exact hdone
    split
    case isTrue h =>
      split
      case h_1 d rest =>
        rw [List.forall_mem_cons] at hdone
        split
        · exact List.forall_mem_cons.mpr ⟨hss.1, List.forall_mem_cons.mpr hdone⟩
        · exact hdone.2
      case h_2 =>
        split
        · simp
        · simpa using hss.1
    · exact List.forall_mem_cons.mpr ⟨hss.1, hdone⟩

theorem step_plain {s : String} (h : Plain s) (rooted : Bool) (done : List String) :
    step rooted done s = s :: done := by
  simp [step, h.ne_empty, h.ne_here, h.ne_up]

theorem steps_clean {p s : String} {ss : List String} (hp : steps p = ss ++ [s]) (h : Plain s) :
    ∃ front, steps (clean p) = front ++ [s] := by
  let done := ((ss.foldl (step (isAbsolute p)) []).reverse)
  have hss : ∀ t ∈ ss, '/' ∉ t.toList := fun t ht =>
    noSlash_of_mem_steps (p := p) (by rw [hp]; exact List.mem_append_left _ ht)
  have hbody : ((steps p).foldl (step (isAbsolute p)) []).reverse = done ++ [s] := by
    rw [hp, List.foldl_append, List.foldl_cons, List.foldl_nil, step_plain h, List.reverse_cons]
  have hsteps : steps ("/".intercalate (done ++ [s])) = done ++ [s] := by
    refine steps_intercalate (by simp) fun t ht => ?_
    obtain ht | ht := List.mem_append.mp ht
    · exact noSlash_foldl_step _ hss (by simp) t (List.mem_reverse.mp ht)
    · exact List.mem_singleton.mp ht ▸ h.noSlash
  have hne : "/".intercalate (done ++ [s]) ≠ "" := by
    intro hempty
    rw [hempty] at hsteps
    have hlast := congrArg List.getLast? hsteps
    rw [List.getLast?_concat] at hlast
    exact h.ne_empty (Option.some.inj hlast).symm
  unfold clean
  dsimp only
  rw [hbody, if_neg hne]
  split
  · refine ⟨"" :: done, ?_⟩
    have happend := steps_append "" ("/".intercalate (done ++ [s]))
    rw [String.empty_append, hsteps] at happend
    exact happend
  · exact ⟨done, hsteps⟩

theorem steps_join (a : String) {s : String} (h : Plain s) :
    ∃ front, steps (join a s) = front ++ [s] := by
  have hs := steps_plain h.noSlash
  unfold join
  split
  · rw [if_neg h.ne_empty]
    exact steps_clean (hs.trans (List.nil_append [s]).symm) h
  · rw [if_neg h.ne_empty]
    exact steps_clean ((steps_append a s).trans (congrArg (steps a ++ ·) hs)) h

end Path

/-! ## Places -/

namespace Disk

/-- Goes along the steps of a path whatever is there. -/
def follow (here : String) (ss : List String) : String :=
  ss.foldl (fun here s => if s = "" || s = "." then here else if s = ".." then Path.dir here
    else Path.join here s) here

/-- The place that a path leads to if nothing stands in the way. -/
def place (d : Disk) (path : String) : String :=
  follow (if Path.isAbsolute path then "/" else d.workingDir) (Path.steps path)

theorem walk_ok {d : Disk} {here p : String} {ss : List String} (h : d.walk here ss = .ok p) :
    p = follow here ss := by
  induction ss generalizing here with
  | nil => exact (Except.ok.inj h).symm
  | cons s ss ih =>
    rw [walk] at h
    split at h
    · cases h
    · cases h
    · exact ih h

theorem locate_ok {d : Disk} {path p : String} (h : d.locate path = .ok p) : p = d.place path := by
  unfold locate at h
  split at h
  · cases h
  split at h
  case isTrue habs => exact (walk_ok h).trans (by rw [place, if_pos habs])
  case isFalse habs => exact (walk_ok h).trans (by rw [place, if_neg habs])

theorem place_join (d : Disk) (a : String) {s : String} (h : Path.Plain s) :
    ∃ front, Path.steps (d.place (Path.join a s)) = front ++ [s] := by
  obtain ⟨front, hfront⟩ := Path.steps_join a h
  rw [place, hfront, follow, List.foldl_append, List.foldl_cons, List.foldl_nil]
  simp only [h.ne_empty, h.ne_here, h.ne_up, decide_false, Bool.or_self, Bool.false_eq_true, if_false]
  exact Path.steps_join _ h

/-- The content of the file at a place. -/
def fileAt? (d : Disk) (p : String) : Option Bytes :=
  match d.entry? p with
  | some (.file content) => some content
  | _ => none

theorem fileAt?_of_read {d : Disk} {path : String} {content : Bytes} (h : d.read path = .ok content) :
    d.fileAt? (d.place path) = some content := by
  unfold read at h
  split at h
  case h_1 hfind =>
    cases h
    unfold find at hfind
    cases hlocate : d.locate path with
    | error c =>
      rw [hlocate] at hfind
      cases hfind
    | ok p =>
      rw [hlocate] at hfind
      simp only [bind, Except.bind] at hfind
      split at hfind
      case h_1 e he =>
        cases hfind
        rw [← locate_ok hlocate, fileAt?, he]
      case h_2 => cases hfind
  case h_2 => cases h
  case h_3 => cases h

theorem lookup_filter_ne {p q : String} (h : q ≠ p) (entries : List (String × DiskEntry)) :
    (entries.filter (·.1 ≠ p)).lookup q = entries.lookup q := by
  induction entries with
  | nil => rfl
  | cons x xs ih =>
    obtain ⟨k, v⟩ := x
    by_cases hk : k = p
    · have hne : (q == k) = false := beq_eq_false_iff_ne.mpr (hk ▸ h)
      rw [List.filter_cons_of_neg (by simpa using hk), List.lookup_cons, hne, ih]
    · rw [List.filter_cons_of_pos (by simpa using hk), List.lookup_cons, List.lookup_cons, ih]

theorem entry?_put (d : Disk) (p q : String) (e : DiskEntry) :
    Disk.entry? (d.put p e) q = if q = "/" then some .directory else if q = p then some e
      else d.entry? q := by
  unfold entry? put
  split
  · rfl
  · rw [List.lookup_cons]
    by_cases h : q = p
    · simp [h]
    · rw [beq_eq_false_iff_ne.mpr h, if_neg h]
      exact lookup_filter_ne h d.entries

/-- Paths lead to the same places, and each file of the second disk is on the first or is one of
those named. -/
structure Enters (d d' : Disk) (named : String → Bytes → Prop) : Prop where
  workingDir : d'.workingDir = d.workingDir
  files : ∀ p content, d'.fileAt? p = some content → d.fileAt? p = some content ∨ named p content

theorem makeDirsFrom_ok {d d' : Disk} {done rest : List String} (h : d.makeDirsFrom done rest = .ok d') :
    Enters d d' fun _ _ => False := by
  induction rest generalizing d done with
  | nil =>
    cases h
    exact ⟨rfl, fun _ _ => .inl⟩
  | cons s rest ih =>
    unfold makeDirsFrom at h
    dsimp only at h
    split at h
    · exact ih h
    split at h
    · exact ih h
    · cases h
    split at h
    case h_2 => cases h
    case h_1 p hp =>
    obtain ⟨hdir, hfiles⟩ := ih h
    refine ⟨hdir, fun q content hq => .inl ?_⟩
    have hput := (hfiles q content hq).resolve_right id
    rw [fileAt?, entry?_put] at hput
    split at hput
    case h_2 => cases hput
    case h_1 c hc =>
      split at hc
      · cases hc
      split at hc
      · cases hc
      · rw [fileAt?, hc]
        exact hput

theorem write_ok {d d' : Disk} {path : String} {content : Bytes} (h : d.write path content = .ok d') :
    Enters d d' fun p c => p = d.place path ∧ c = content := by
  unfold write at h
  split at h
  · cases h
  case h_2 p hp =>
  split at h
  · cases h
  · cases h
    refine ⟨rfl, fun q c hq => ?_⟩
    rw [fileAt?, entry?_put] at hq
    split at hq
    case h_2 => cases hq
    case h_1 c' hc =>
      split at hc
      · cases hc
      split at hc
      case isTrue heq =>
        cases hc
        exact .inr ⟨heq ▸ locate_ok hp, (Option.some.inj hq).symm⟩
      case isFalse =>
        rw [fileAt?, hc]
        exact .inl hq

end Disk

/-! ## Units in a directory -/

namespace UnitCache

theorem plain_fileName {name : String} (h : IsName name) : Path.Plain (fileName name) := by
  have hlength : 4 ≤ (fileName name).toList.length := by simp [fileName]
  refine ⟨?_, ?_, ?_, ?_⟩
  · simp only [fileName, String.toList_append, List.mem_append, not_or]
    refine ⟨fun hslash => ?_, by decide⟩
    exact absurd (h.codes '/' hslash) (by decide)
  all_goals
    intro heq
    rw [heq] at hlength
    revert hlength
    decide

theorem fileName_injective {a b : String} (h : fileName a = fileName b) : a = b := by
  have hlist := congrArg String.toList h
  simp only [fileName, String.toList_append] at hlist
  exact String.toList_inj.mp (List.append_cancel_right hlist)

/-- The place of the unit of a name. -/
def unitPlace (disk : Disk) (dir name : String) : String := disk.place (Path.join dir (fileName name))

theorem unitPlace_injective (disk : Disk) (dir : String) {a b : String} (ha : IsName a) (hb : IsName b)
    (h : unitPlace disk dir a = unitPlace disk dir b) : a = b := by
  obtain ⟨front, hfront⟩ := disk.place_join dir (plain_fileName ha)
  obtain ⟨front', hfront'⟩ := disk.place_join dir (plain_fileName hb)
  rw [unitPlace] at h
  have hlast := congrArg List.getLast? (hfront.symm.trans ((congrArg Path.steps h).trans hfront'))
  rw [List.getLast?_concat, List.getLast?_concat] at hlast
  exact fileName_injective (Option.some.inj hlast)

theorem load_run {dir name : String} {disk disk' : Disk} {r : Except FileError StoredUnit}
    (h : (load dir name : StateM Disk _).run disk = (r, disk')) :
    disk' = disk ∧ ∀ u, r = .ok (.found u) → ∃ content,
      disk.fileAt? (unitPlace disk dir name) = some content ∧ CompiledUnit.decode content = .ok u := by
  unfold load at h
  split at h
  · cases h
    exact ⟨rfl, fun u hu => by cases hu⟩
  · have hread : (FileStore.read (Path.join dir (fileName name)) : StateM Disk _).run disk =
        (disk.read (Path.join dir (fileName name)), disk) := rfl
    rw [loadFile, StateT.run_bind, hread] at h
    cases hcontent : disk.read (Path.join dir (fileName name)) with
    | ok content =>
      rw [hcontent] at h
      cases h
      refine ⟨rfl, fun u hu => ⟨content, Disk.fileAt?_of_read hcontent, ?_⟩⟩
      cases hdecode : CompiledUnit.decode content with
      | ok v =>
        rw [hdecode] at hu
        cases hu
        rfl
      | error e =>
        rw [hdecode] at hu
        cases hu
    | error e =>
      rw [hcontent] at h
      change (if e.cause = .notFound then _ else _ : StateM Disk _).run disk = _ at h
      split at h
      · cases h
        exact ⟨rfl, fun u hu => by cases hu⟩
      · split at h
        · cases h
          exact ⟨rfl, fun u hu => by cases hu⟩
        · cases h
          exact ⟨rfl, fun u hu => by cases hu⟩

theorem run_makeDirs {dir : String} {disk : Disk} :
    (FileStore.makeDirs dir : StateM Disk _).run disk =
      (Disk.change (·.makeDirs dir)).run disk := rfl

theorem run_write {path : String} {content : Bytes} {disk : Disk} :
    (FileStore.write path content : StateM Disk _).run disk =
      (Disk.change (·.write path content)).run disk := rfl

theorem run_change_ok {f : Disk → Except FileError Disk} {disk disk' : Disk}
    (h : f disk = .ok disk') : (Disk.change f).run disk = (.ok (), disk') := by
  unfold Disk.change
  simp only [StateT.run, h]

theorem run_change_error {f : Disk → Except FileError Disk} {disk : Disk} {e : FileError}
    (h : f disk = .error e) : (Disk.change f).run disk = (.error e, disk) := by
  unfold Disk.change
  simp only [StateT.run, h]

theorem save_files {dir : String} {u : CompiledUnit} {disk disk' : Disk} {r : Except FileError Unit}
    (h : (save dir u : StateM Disk _).run disk = (r, disk')) :
    Disk.Enters disk disk' fun p c => p = unitPlace disk dir u.name ∧ c = u.encode := by
  rw [save, StateT.run_bind, run_makeDirs] at h
  cases hmake : disk.makeDirs dir with
  | error e =>
    rw [run_change_error hmake] at h
    cases h
    exact ⟨rfl, fun _ _ => .inl⟩
  | ok disk₁ =>
    rw [run_change_ok hmake] at h
    change (FileStore.write (Path.join dir (fileName u.name)) u.encode : StateM Disk _).run disk₁ = _
      at h
    rw [run_write] at h
    have hdirs : Disk.Enters disk disk₁ fun _ _ => False := by
      unfold Disk.makeDirs at hmake
      split at hmake
      · cases hmake
      · exact Disk.makeDirsFrom_ok hmake
    cases hwrite : disk₁.write (Path.join dir (fileName u.name)) u.encode with
    | error e =>
      rw [run_change_error hwrite] at h
      cases h
      exact ⟨hdirs.workingDir, fun p content hp => .inl ((hdirs.files p content hp).resolve_right id)⟩
    | ok disk₂ =>
      rw [run_change_ok hwrite] at h
      cases h
      obtain ⟨hdir, hfiles⟩ := Disk.write_ok hwrite
      refine ⟨hdir.trans hdirs.workingDir, fun p content hp => ?_⟩
      obtain hp | ⟨rfl, rfl⟩ := hfiles p content hp
      · exact .inl ((hdirs.files p content hp).resolve_right id)
      · exact .inr ⟨by rw [unitPlace, Disk.place, Disk.place, hdirs.workingDir], rfl⟩

/-- Every unit that is stored in a directory under a name has this name. -/
def HoldsNamed (dir : String) (disk : Disk) : Prop :=
  ∀ name, IsName name → ∀ content u, disk.fileAt? (unitPlace disk dir name) = some content →
    CompiledUnit.decode content = .ok u → u.name = name

theorem holdsNamed_save {dir : String} {u : CompiledUnit} {disk disk' : Disk}
    {r : Except FileError Unit} (hdisk : HoldsNamed dir disk) (hname : IsName u.name)
    (hvalid : u.validate = .ok ()) (hstorable : u.Storable)
    (h : (save dir u : StateM Disk _).run disk = (r, disk')) : HoldsNamed dir disk' := by
  obtain ⟨hdir, hfiles⟩ := save_files h
  intro name hn content v hcontent hdecode
  have hplace : unitPlace disk' dir name = unitPlace disk dir name := by
    rw [unitPlace, unitPlace, Disk.place, Disk.place, hdir]
  obtain hold | ⟨hsame, rfl⟩ := hfiles _ content hcontent
  · exact hdisk name hn content v (hplace ▸ hold) hdecode
  · rw [CompiledUnit.decode_encode hvalid hstorable] at hdecode
    cases hdecode
    exact unitPlace_injective disk dir hname hn (hsame.symm.trans hplace)

end UnitCache

end Pascaline
