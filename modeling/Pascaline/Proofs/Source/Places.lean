import Mathlib.Data.List.GetD
import Mathlib.Data.List.Induction
import Mathlib.Data.List.TakeWhile
import Pascaline.Source.File

/-!
# Lines and columns

A file finds the place of an offset among the offsets of its newlines. Main statement: the line
counts the newlines before the offset, the column counts the bytes behind the start of the line,
and the text of that line is what stands between two newlines, whatever the bytes of the file.
-/

namespace Pascaline

/-! ## Search by halving -/

theorem bisect_eq {test : Nat → Bool} {lo hi k : Nat} (hlo : lo ≤ k) (hhi : k ≤ hi)
    (hbelow : ∀ i, lo ≤ i → i < k → test i = false)
    (habove : ∀ i, k ≤ i → i < hi → test i = true) : bisect test lo hi = k := by
  fun_induction bisect test lo hi with
  | case1 lo hi hlt mid hmid ih =>
    -- the middle passes, so the bound is not above it
    have hk : k ≤ mid := by
      by_contra hk
      rw [hbelow mid (by omega) (by omega)] at hmid
      cases hmid
    exact ih hlo hk hbelow fun i hki hi => habove i hki (by omega)
  | case2 lo hi hlt mid hmid ih =>
    have hk : mid < k := by
      by_contra hk
      exact hmid (habove mid (by omega) (by omega))
    exact ih hk hhi (fun i hi hik => hbelow i (by omega) hik) habove
  | case3 lo hi hge => omega

/-! ## The offsets of the newlines -/

theorem newlineOffsets_append {i : Nat} {s t : Bytes} (h : i + s.length ≤ 0x100000000) :
    newlineOffsets i (s ++ t) = newlineOffsets i s ++ newlineOffsets (i + s.length) t := by
  induction s generalizing i with
  | nil => rfl
  | cons b s ih =>
    rw [List.length_cons] at h
    have ih := ih (i := i + 1) (by omega)
    rw [Nat.add_right_comm, Nat.add_assoc] at ih
    have hi : i < 0x100000000 := by omega
    by_cases hb : b = 10 <;> simp [newlineOffsets, hb, hi, ih]

theorem newlineOffsets_unbroken {i : Nat} {s : Bytes} (h : 10 ∉ s) : newlineOffsets i s = [] := by
  induction s generalizing i with
  | nil => rfl
  | cons b s ih =>
    rw [List.mem_cons, not_or] at h
    rw [newlineOffsets, if_neg (Ne.symm h.1), ih h.2]

theorem mem_newlineOffsets {i n : Nat} {s : Bytes} (h : n ∈ newlineOffsets i s) :
    i ≤ n ∧ n < i + s.length := by
  induction s generalizing i with
  | nil => simp [newlineOffsets] at h
  | cons b s ih =>
    have hrest (h : n ∈ newlineOffsets (i + 1) s) : i ≤ n ∧ n < i + (b :: s).length := by
      have := ih h
      rw [List.length_cons]
      omega
    unfold newlineOffsets at h
    split at h
    · split at h
      · rcases List.mem_cons.mp h with rfl | h
        · simp
        · exact hrest h
      · cases h
    · exact hrest h

theorem length_newlineOffsets {i : Nat} {s : Bytes} (h : i + s.length ≤ 0x100000000) :
    (newlineOffsets i s).length = s.count 10 := by
  induction s generalizing i with
  | nil => rfl
  | cons b s ih =>
    rw [List.length_cons] at h
    have ih := ih (i := i + 1) (by omega)
    have hi : i < 0x100000000 := by omega
    by_cases hb : b = 10 <;> simp [newlineOffsets, hb, hi, ih]

/-! ## One line of a text -/

/-- A text, cut into a line and what stands before and behind it. -/
structure CutsLine (content before line after : Bytes) : Prop where
  whole : content = before ++ line ++ after
  /-- The line stands at the start of the text or behind a newline. -/
  opens : ∀ b ∈ before.getLast?, b = 10
  unbroken : 10 ∉ line
  /-- Behind it the text ends, or a newline stands there. -/
  closes : ∀ b ∈ after.head?, b = 10

theorem exists_lastLine (s : Bytes) : ∃ before line, CutsLine s before line [] := by
  induction s using List.reverseRecOn with
  | nil => exact ⟨[], [], rfl, by simp, by simp, by simp⟩
  | append_singleton s b ih =>
    obtain ⟨before, line, h⟩ := ih
    by_cases hb : b = 10
    · exact ⟨s ++ [b], [], by simp, by simp [hb], by simp, by simp⟩
    · refine ⟨before, line ++ [b], ?_, h.opens, ?_, by simp⟩
      · rw [h.whole]
        simp
      · simp [h.unbroken, Ne.symm hb]

theorem exists_cutsLine {content : Bytes} {offset : Nat} (h : offset ≤ content.length) :
    ∃ before line after, CutsLine content before line after ∧ before.length ≤ offset ∧
      offset ≤ before.length + line.length ∧ before.count 10 = (content.take offset).count 10 := by
  obtain ⟨before, front, hfront⟩ := exists_lastLine (content.take offset)
  have hwhole : content.take offset = before ++ front := by
    rw [hfront.whole, List.append_nil]
  have hlength : offset = before.length + front.length := by
    rw [← List.length_append, ← hwhole, List.length_take]
    omega
  let back := (content.drop offset).takeWhile (· ≠ 10)
  let after := (content.drop offset).dropWhile (· ≠ 10)
  refine ⟨before, front ++ back, after, ?_, by omega, ?_, ?_⟩
  · constructor
    case whole =>
      have hback : back ++ after = content.drop offset := List.takeWhile_append_dropWhile
      rw [← List.append_assoc, ← hwhole, List.append_assoc, hback, List.take_append_drop]
    case opens => exact hfront.opens
    case unbroken =>
      have hback : 10 ∉ back := fun hin => by simpa using List.mem_takeWhile_imp hin
      simp [hfront.unbroken, hback]
    case closes =>
      intro b hb
      have := List.head?_dropWhile_not (· ≠ 10) (content.drop offset)
      rw [Option.mem_def.mp hb] at this
      simpa using this
  · rw [List.length_append]
    omega
  · rw [hwhole, List.count_append, List.count_eq_zero_of_not_mem hfront.unbroken, Nat.add_zero]

namespace CutsLine

variable {content before line after : Bytes} (h : CutsLine content before line after)

include h

theorem length_eq : content.length = before.length + line.length + after.length := by
  rw [h.whole, List.length_append, List.length_append]

variable (hsize : content.length ≤ 0x100000000)

include hsize

theorem newlineOffsets_eq : newlineOffsets 0 content =
    newlineOffsets 0 before ++ newlineOffsets (before.length + line.length) after := by
  have := h.length_eq
  rw [h.whole, newlineOffsets_append (by rw [List.length_append]; omega),
    newlineOffsets_append (by omega), newlineOffsets_unbroken (i := 0 + before.length) h.unbroken,
    List.append_nil, List.length_append, Nat.zero_add]

theorem length_newlines : (newlineOffsets 0 before).length = before.count 10 := by
  have := h.length_eq
  exact length_newlineOffsets (by omega)

theorem start_eq : (if before.count 10 = 0 then 0
    else (newlineOffsets 0 content).getD (before.count 10 - 1) 0 + 1) = before.length := by
  have hlength := h.length_eq
  have hcount := h.length_newlines hsize
  rw [h.newlineOffsets_eq hsize]
  rcases List.eq_nil_or_concat before with rfl | ⟨front, b, hbefore⟩
  · rfl
  · rw [List.concat_eq_append] at hbefore
    subst hbefore
    obtain rfl : b = 10 := h.opens b (by simp)
    have hfront : newlineOffsets 0 (front ++ [10]) = newlineOffsets 0 front ++ [front.length] := by
      rw [List.length_append] at hlength
      rw [newlineOffsets_append (by omega)]
      have : front.length < 0x100000000 := by simp at hlength; omega
      simp [newlineOffsets, this]
    rw [← hcount, hfront]
    simp

theorem stop_eq : (newlineOffsets 0 content).getD (before.count 10) content.length =
    before.length + line.length := by
  have hlength := h.length_eq
  have hcount := h.length_newlines hsize
  rw [h.newlineOffsets_eq hsize, List.getD_append_right _ _ _ _ (by omega), ← hcount,
    Nat.sub_self]
  cases after with
  | nil => simpa [newlineOffsets] using hlength
  | cons b after =>
    obtain rfl : b = 10 := h.closes b (by simp)
    have : before.length + line.length < 0x100000000 := by simp at hlength; omega
    simp [newlineOffsets, this]

/-- The newlines before an offset of the line are those before the line. -/
theorem bisect_newlines {offset : Nat} (hlo : before.length ≤ offset)
    (hhi : offset ≤ before.length + line.length) :
    bisect (fun i => offset ≤ (newlineOffsets 0 content).getD i 0) 0
      (newlineOffsets 0 content).length = before.count 10 := by
  have hcount := h.length_newlines hsize
  rw [h.newlineOffsets_eq hsize]
  apply bisect_eq (Nat.zero_le _)
  · rw [List.length_append]
    omega
  · intro i _ hi
    rw [← hcount] at hi
    have := mem_newlineOffsets (List.getElem_mem hi)
    rw [List.getD_append _ _ _ _ hi, List.getD_eq_getElem _ _ hi, decide_eq_false_iff_not]
    omega
  · intro i hi hlt
    rw [← hcount] at hi
    rw [List.length_append] at hlt
    have hin : i - (newlineOffsets 0 before).length <
        (newlineOffsets (before.length + line.length) after).length := by omega
    have := mem_newlineOffsets (List.getElem_mem hin)
    rw [List.getD_append_right _ _ _ _ hi, List.getD_eq_getElem _ _ hin, decide_eq_true_iff]
    omega

omit hsize

theorem ofOffset_eq (hsize : content.length < 0xffffffff) {offset : Nat}
    (hlo : before.length ≤ offset) (hhi : offset ≤ before.length + line.length) :
    LineCol.ofOffset (newlineOffsets 0 content) offset =
      ⟨before.count 10 + 1, offset - before.length + 1⟩ := by
  have hlength := h.length_eq
  have hle : content.length ≤ 0x100000000 := by omega
  have hcount : before.count 10 ≤ before.length := List.count_le_length
  unfold LineCol.ofOffset
  rw [h.bisect_newlines hle hlo hhi]
  simp only [h.start_eq hle, LineCol.mk.injEq]
  constructor
  · omega
  · apply Nat.mod_eq_of_lt
    omega

end CutsLine

/-! ## Places in a file -/

namespace SourceFile

/-- The file knows its newlines. -/
def Indexed (f : SourceFile) : Prop := f.newlines = newlineOffsets 0 f.content

/-- `p` tells in which line of a file an offset stands, and how far into the line. -/
structure IsPlace (f : SourceFile) (offset : Nat) (p : LineCol) : Prop where
  /-- The newlines before the offset count the lines. -/
  line_eq : p.line = (f.content.take offset).count 10 + 1
  /-- The file gives the bytes of that line, and the column counts from its start. -/
  col_eq : ∃ before after, CutsLine f.content before (f.line p.line) after ∧
    before.length ≤ offset ∧ p.col = offset - before.length + 1
  col_le : p.col - 1 ≤ (f.line p.line).length

variable {f : SourceFile} (hf : f.Indexed)

include hf

theorem lineBounds_of_cut {before line after : Bytes} (h : CutsLine f.content before line after)
    (hsize : f.content.length ≤ 0x100000000) :
    f.lineBounds (before.count 10 + 1) = (before.length, before.length + line.length) := by
  have hstart := h.start_eq hsize
  have hstop := h.stop_eq hsize
  rw [← hf] at hstart hstop
  unfold lineBounds
  rw [Nat.add_sub_cancel, hstop, ← hstart]
  simp

theorem line_of_cut {before line after : Bytes} (h : CutsLine f.content before line after)
    (hsize : f.content.length ≤ 0x100000000) : f.line (before.count 10 + 1) = line := by
  have hcount := h.length_newlines hsize
  have hbefore : before.count 10 ≤ f.newlines.length := by
    rw [hf, h.newlineOffsets_eq hsize, List.length_append]
    omega
  unfold SourceFile.line
  rw [if_neg (by simpa using hbefore), lineBounds_of_cut hf h hsize]
  simp only [h.whole, Nat.add_sub_cancel_left, List.append_assoc, List.drop_left, List.take_left]

theorem isPlace_ofOffset (hsize : f.content.length < 0xffffffff) {offset : Nat}
    (h : offset ≤ f.content.length) : f.IsPlace offset (LineCol.ofOffset f.newlines offset) := by
  obtain ⟨before, line, after, hcut, hlo, hhi, hcount⟩ := exists_cutsLine h
  have hline := line_of_cut hf hcut (by omega)
  rw [hf, hcut.ofOffset_eq hsize hlo hhi]
  constructor
  case line_eq => rw [hcount]
  case col_eq =>
    rw [← hline] at hcut
    exact ⟨before, after, hcut, hlo, rfl⟩
  case col_le =>
    rw [hline]
    simp only [Nat.add_sub_cancel]
    omega

/-- Two offsets never share a place. -/
theorem ofOffset_inj (hsize : f.content.length < 0xffffffff) {i j : Nat}
    (hi : i ≤ f.content.length) (hj : j ≤ f.content.length)
    (h : LineCol.ofOffset f.newlines i = LineCol.ofOffset f.newlines j) : i = j := by
  obtain ⟨before, line, after, hcut, hlo, hhi, -⟩ := exists_cutsLine hi
  obtain ⟨before', line', after', hcut', hlo', hhi', -⟩ := exists_cutsLine hj
  rw [hf, hcut.ofOffset_eq hsize hlo hhi, hcut'.ofOffset_eq hsize hlo' hhi'] at h
  obtain ⟨hline, hcol⟩ := LineCol.mk.inj h
  -- the number of the line tells where it starts
  have hstart := hcut.start_eq (by omega)
  rw [Nat.succ_inj.mp hline, hcut'.start_eq (by omega)] at hstart
  omega

end SourceFile

/-! ## Files of a library -/

namespace SourceLibrary

/-- Adds files one after the other. -/
def addAll (lib : SourceLibrary) (files : List (String × Bytes × FileOrigin)) : SourceLibrary :=
  files.foldl (fun lib file => (lib.add file.1 file.2.1 file.2.2).2) lib

theorem get?_add_self (lib : SourceLibrary) (path : String) (content : Bytes) (origin : FileOrigin) :
    ∃ f, (lib.add path content origin).2.get? (lib.add path content origin).1 = some f ∧
      f.content = content ∧ f.Indexed := by
  refine ⟨⟨lib.files.size, Path.clean path, content, newlineOffsets 0 content,
    Digest.ofBytes content, origin⟩, ?_, rfl, rfl⟩
  simp [add, get?]

theorem get?_add {lib : SourceLibrary} {id : Nat} {f : SourceFile} (h : lib.get? id = some f)
    (path : String) (content : Bytes) (origin : FileOrigin) :
    (lib.add path content origin).2.get? id = some f := by
  unfold get? at h ⊢
  obtain ⟨hlt, -⟩ := Array.getElem?_eq_some_iff.mp h
  simp only [add]
  rw [Array.getElem?_push_lt hlt, ← h, Array.getElem?_eq_getElem hlt]

theorem get?_addAll {lib : SourceLibrary} {id : Nat} {f : SourceFile} (h : lib.get? id = some f)
    (files : List (String × Bytes × FileOrigin)) : (lib.addAll files).get? id = some f := by
  unfold addAll
  induction files generalizing lib with
  | nil => exact h
  | cons file files ih => exact ih (get?_add h file.1 file.2.1 file.2.2)

theorem resolve_of_get? {lib : SourceLibrary} {id : Nat} {f : SourceFile}
    (h : lib.get? id = some f) (start stop : Nat) :
    lib.resolve ⟨id, start, stop⟩ =
      (LineCol.ofOffset f.newlines start, LineCol.ofOffset f.newlines stop) := by
  simp only [resolve, h]

/-- Lines and columns of a file are exact, whatever files were added before and behind it. -/
theorem places_are_exact (lib : SourceLibrary) (path : String) (content : Bytes)
    (origin : FileOrigin) (later : List (String × Bytes × FileOrigin))
    (hsize : content.length < 0xffffffff) :
    let added := lib.add path content origin
    let grown := added.2.addAll later
    ∃ f, grown.get? added.1 = some f ∧ f.content = content ∧
      (∀ start stop, start ≤ content.length → stop ≤ content.length →
        f.IsPlace start (grown.resolve ⟨added.1, start, stop⟩).1 ∧
        f.IsPlace stop (grown.resolve ⟨added.1, start, stop⟩).2) ∧
      ∀ i j, i ≤ content.length → j ≤ content.length →
        (grown.resolve ⟨added.1, i, i⟩).1 = (grown.resolve ⟨added.1, j, j⟩).1 → i = j := by
  intro added grown
  obtain ⟨f, hget, rfl, hindexed⟩ := get?_add_self lib path content origin
  have hgrown : grown.get? added.1 = some f := get?_addAll hget later
  refine ⟨f, hgrown, rfl, ?_, ?_⟩
  · intro start stop hstart hstop
    rw [resolve_of_get? hgrown]
    exact ⟨f.isPlace_ofOffset hindexed hsize hstart, f.isPlace_ofOffset hindexed hsize hstop⟩
  · intro i j hi hj h
    rw [resolve_of_get? hgrown, resolve_of_get? hgrown] at h
    exact f.ofOffset_inj hindexed hsize hi hj h

/-- One file of three lines: the second is empty, and no newline stands behind the third. -/
def threeLines : SourceLibrary := (({} : SourceLibrary).add "m.pas" (utf8 "a\n\nbc") {}).2

theorem places_are_exact_threeLines :
    (utf8 "a\n\nbc").length < 0xffffffff ∧
      ∃ f, threeLines.get? 0 = some f ∧ f.content = utf8 "a\n\nbc" ∧
        f.IsPlace 2 (threeLines.resolve ⟨0, 2, 5⟩).1 ∧
        f.IsPlace 5 (threeLines.resolve ⟨0, 2, 5⟩).2 ∧
        (threeLines.resolve ⟨0, 2, 5⟩).1.line = 2 ∧ (threeLines.resolve ⟨0, 2, 5⟩).2.line = 3 := by
  have hsize : (utf8 "a\n\nbc").length < 0xffffffff := by decide
  obtain ⟨f, hget, hcontent, hplaces, -⟩ :=
    places_are_exact {} "m.pas" (utf8 "a\n\nbc") {} [] hsize
  obtain ⟨hstart, hstop⟩ := hplaces 2 5 (by decide) (by decide)
  refine ⟨hsize, f, hget, hcontent, hstart, hstop, ?_, ?_⟩
  · refine hstart.line_eq.trans ?_
    rw [hcontent]
    decide
  · refine hstop.line_eq.trans ?_
    rw [hcontent]
    decide

end SourceLibrary

end Pascaline
