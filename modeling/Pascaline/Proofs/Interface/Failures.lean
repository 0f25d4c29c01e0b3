import Pascaline.Proofs.Interface.Imports

/-!
# Imports that fail

Two tables match if they have the same classes, each like its counterpart. Whatever is entered into
both then comes to the same: it succeeds with results that are alike or fails with one error, and
the tables match again. So a failed import that entered no class is not noticed by any later one.
-/

namespace Pascaline

open TypeTable

variable {t t' t₁ t₁' : TypeTable} {n : Nat}

namespace TypeTable

/-- All that the classes refer to is there. -/
def Closed (t : TypeTable) : Prop := ∀ c ∈ t.classes, c.Alike t t c

/-- The same classes, each like its counterpart. -/
structure Matches (t t' : TypeTable) : Prop where
  left : t.Sound
  right : t'.Sound
  alike : ∀ c ∈ t.classes, ∃ c' ∈ t'.classes, c.Alike t t' c'
  keys : ∀ c' ∈ t'.classes, ∃ c ∈ t.classes, c.key = c'.key

/-- The table grows, and the classes up to the handle `n` stay as they are. -/
structure Keeps (n : Nat) (t t' : TypeTable) : Prop where
  grows : t.Grows t'
  classes : ∀ k ≤ n, t'.classInfo? k = t.classInfo? k

def Knows (t : TypeTable) (key : ClassKey) : Prop := ∃ id, t.keyOf? id = some key

theorem Grows.size_le (h : t.Grows t') : t.shapes.size ≤ t'.shapes.size := by
  simpa using h.shapes.length_le

theorem Grows.knows {key : ClassKey} (h : t.Grows t') (hkey : t.Knows key) : t'.Knows key := by
  obtain ⟨id, hid⟩ := hkey
  exact ⟨id, h.keyOf? hid⟩

theorem Sound.knows_iff (ht : t.Sound) {key : ClassKey} :
    t.Knows key ↔ t.classByKey? key ≠ none := by
  rw [Option.ne_none_iff_exists']
  exact exists_congr fun _ => ht.classByKey?_eq_some.symm

theorem Sound.knows_mem (ht : t.Sound) {c : ClassInfo} (hc : c ∈ t.classes) : t.Knows c.key :=
  ⟨c.type, keyOf?_eq_some.mpr ⟨c, ht.classInfo?_type hc, rfl⟩⟩

theorem Sound.newClass_of_unknown (ht : t.Sound) {key : ClassKey} (hkey : ¬t.Knows key) :
    (t.newClass key).2.Sound ∧ t.Grows (t.newClass key).2 :=
  ht.newClass fun _ hc hsame => hkey (hsame ▸ ht.knows_mem hc)

namespace Keeps

theorem refl (n : Nat) (t : TypeTable) : t.Keeps n t := ⟨.refl t, fun _ _ => rfl⟩

theorem trans (h : t.Keeps n t₁) (h' : t₁.Keeps n t') : t.Keeps n t' := by
  refine ⟨h.grows.trans h'.grows, ?_⟩
  intro k hk
  rw [h'.classes k hk, h.classes k hk]

end Keeps

theorem Interns.keeps {s : TypeShape} {id : TypeId} (ht : t.Sound) (h : Interns t s id t') :
    t.Keeps n t' := by
  refine ⟨h.grows, ?_⟩
  intro k _
  cases hc : t'.classInfo? k with
  | some c =>
    obtain ⟨i, -, hget⟩ := classInfo?_eq_some.mp hc
    have htype : c.type = k := h.formed.type_eq hc
    rw [← htype]
    rw [h.classes] at hget
    exact (ht.classInfo?_type (Array.mem_of_getElem? hget)).symm
  | none =>
    cases hc' : t.classInfo? k with
    | none => rfl
    | some c =>
      obtain ⟨i, hi, hget⟩ := classInfo?_eq_some.mp hc'
      rw [classInfo?_eq_some.mpr ⟨i, h.grows.shape? hi, by rw [h.classes, hget]⟩] at hc
      cases hc

theorem classes_eq_of_keeps (ht' : t'.Sound) (h : ∀ n, t.Keeps n t') :
    t'.classes = t.classes := by
  have hinfo : ∀ k, t'.classInfo? k = t.classInfo? k := fun k => (h k).classes k (Nat.le_refl k)
  have hclass : ∀ (i : Nat) c, t'.classes[i]? = some c → t.classes[i]? = some c := by
    intro i c hc
    have hmine := hinfo c.type
    rw [ht'.classInfo?_type (Array.mem_of_getElem? hc)] at hmine
    obtain ⟨j, hj, hget⟩ := classInfo?_eq_some.mp hmine.symm
    have hshape := (h 0).grows.shape? hj
    rw [ht'.owned i c hc, Option.some.injEq, TypeShape.classRef.injEq] at hshape
    rw [hshape, hget]
  refine Array.ext_getElem? ?_
  intro i
  cases hc : t'.classes[i]? with
  | some c => exact (hclass i c hc).symm
  | none =>
    cases hc' : t.classes[i]? with
    | none => rfl
    | some c =>
      obtain ⟨c', hget, -⟩ := (h 0).grows.classes i c hc'
      rw [hget] at hc
      cases hc

namespace Matches

theorem refl (ht : t.Sound) (hclosed : t.Closed) : t.Matches t :=
  ⟨ht, ht, fun c hc => ⟨c, hc, hclosed c hc⟩, fun c hc => ⟨c, hc, rfl⟩⟩

theorem closed (h : t.Matches t) : t.Closed := by
  intro c hc
  obtain ⟨c', hc', halike⟩ := h.alike c hc
  have hinfo := h.left.classInfo?_type hc
  have hinfo' := h.left.classInfo?_type hc'
  have htype : c.type = c'.type := h.left.eq_of_key hinfo hinfo' halike.key.symm
  rw [← htype, hinfo, Option.some.injEq] at hinfo'
  rwa [← hinfo'] at halike

theorem grow (h : t.Matches t') (ht : t₁.Sound) (ht' : t₁'.Sound) (hle : t.Grows t₁)
    (hle' : t'.Grows t₁') (hc : t₁.classes = t.classes) (hc' : t₁'.classes = t'.classes) :
    t₁.Matches t₁' := by
  refine ⟨ht, ht', ?_, by simpa [hc, hc'] using h.keys⟩
  intro c hmem
  obtain ⟨c', hmem', halike⟩ := h.alike c (hc ▸ hmem)
  exact ⟨c', hc' ▸ hmem', halike.mono hle hle'⟩

variable (h : t.Matches t')
include h

theorem knows_iff {key : ClassKey} : t.Knows key ↔ t'.Knows key := by
  constructor
  · rintro ⟨id, hid⟩
    obtain ⟨c, hc, rfl⟩ := keyOf?_eq_some.mp hid
    obtain ⟨c', hc', halike⟩ := h.alike c (h.left.mem_classes hc)
    exact halike.key ▸ h.right.knows_mem hc'
  · rintro ⟨id, hid⟩
    obtain ⟨c', hc', rfl⟩ := keyOf?_eq_some.mp hid
    obtain ⟨c, hc, hkey⟩ := h.keys c' (h.right.mem_classes hc')
    exact hkey ▸ h.left.knows_mem hc

theorem classInfo? {id id' : TypeId} {key : ClassKey} (hid : t.keyOf? id = some key)
    (hid' : t'.keyOf? id' = some key) :
    ∃ c c', t.classInfo? id = some c ∧ t'.classInfo? id' = some c' ∧ c.Alike t t' c' := by
  obtain ⟨c, hc, rfl⟩ := keyOf?_eq_some.mp hid
  obtain ⟨c', hc', hkey⟩ := keyOf?_eq_some.mp hid'
  obtain ⟨d, hd, halike⟩ := h.alike c (h.left.mem_classes hc)
  have hinfo := h.right.classInfo?_type hd
  have htype : d.type = id' := h.right.eq_of_key hinfo hc' (halike.key.trans hkey.symm)
  rw [htype, hc', Option.some.injEq] at hinfo
  exact ⟨c, c', hc, hc', hinfo ▸ halike⟩

theorem newClass {key : ClassKey} (hkey : ¬t.Knows key) :
    (t.newClass key).2.Matches (t'.newClass key).2 := by
  have hkey' : ¬t'.Knows key := fun hk => hkey (h.knows_iff.mpr hk)
  obtain ⟨ht₁, hle⟩ := h.left.newClass_of_unknown hkey
  obtain ⟨ht₁', hle'⟩ := h.right.newClass_of_unknown hkey'
  have hnew : (t.newClass key).2.classInfo? (t.newClass key).1 =
      some { key, type := (t.newClass key).1 } := by
    rw [h.left.classInfo?_newClass, if_pos rfl]
  have hnew' : (t'.newClass key).2.classInfo? (t'.newClass key).1 =
      some { key, type := (t'.newClass key).1 } := by
    rw [h.right.classInfo?_newClass, if_pos rfl]
  have hmem : ∀ {c}, c ∈ (t.newClass key).2.classes →
      c = { key, type := (t.newClass key).1 } ∨ c ∈ t.classes := by
    intro c hc
    simpa [TypeTable.newClass, or_comm] using hc
  have hmem' : ∀ {c}, c ∈ (t'.newClass key).2.classes →
      c = { key, type := (t'.newClass key).1 } ∨ c ∈ t'.classes := by
    intro c hc
    simpa [TypeTable.newClass, or_comm] using hc
  refine ⟨ht₁, ht₁', ?_, ?_⟩
  · intro c hc
    rcases hmem hc with rfl | hc
    · exact ⟨_, ht₁'.mem_classes hnew', rfl, .classRef hnew hnew' rfl, .none, .nil, .nil, .nil⟩
    · obtain ⟨c', hc', halike⟩ := h.alike c hc
      exact ⟨c', by simp [TypeTable.newClass, hc'], halike.mono hle hle'⟩
  · intro c' hc'
    rcases hmem' hc' with rfl | hc'
    · exact ⟨_, ht₁.mem_classes hnew, rfl⟩
    · obtain ⟨c, hc, hsame⟩ := h.keys c' hc'
      exact ⟨c, by simp [TypeTable.newClass, hc], hsame⟩

theorem setClass {id id' : TypeId} {c c' d d' : ClassInfo} (hc : t.classInfo? id = some c)
    (hc' : t'.classInfo? id' = some c') (hsame : c.key = c'.key) (halike : d.Alike t t' d')
    (hkey : d.key = c.key) (htype : d.type = c.type) (htype' : d'.type = c'.type) :
    (t.setClass id d).Matches (t'.setClass id' d') := by
  have hkey' : d'.key = c'.key := by rw [halike.key, hkey, hsame]
  obtain ⟨ht₁, hle⟩ := h.left.setClass hc hkey htype
  obtain ⟨ht₁', hle'⟩ := h.right.setClass hc' hkey' htype'
  have hnew : (t.setClass id d).classInfo? id = some d := by
    rw [h.left.classInfo?_setClass hc, if_pos rfl]
  have hnew' : (t'.setClass id' d').classInfo? id' = some d' := by
    rw [h.right.classInfo?_setClass hc', if_pos rfl]
  refine ⟨ht₁, ht₁', ?_, ?_⟩
  · intro e he
    have hinfo := ht₁.classInfo?_type he
    rw [h.left.classInfo?_setClass hc] at hinfo
    split at hinfo
    · cases hinfo
      exact ⟨d', ht₁'.mem_classes hnew', halike.mono hle hle'⟩
    · rename_i hne
      obtain ⟨e', he', hlike⟩ := h.alike e (h.left.mem_classes hinfo)
      have hinfo' := h.right.classInfo?_type he'
      suffices hclass : (t'.setClass id' d').classInfo? e'.type = some e' from
        ⟨e', ht₁'.mem_classes hclass, hlike.mono hle hle'⟩
      rw [h.right.classInfo?_setClass hc', if_neg, hinfo']
      intro htype
      rw [htype, hc', Option.some.injEq] at hinfo'
      rw [← hinfo'] at hlike
      exact hne (h.left.eq_of_key hinfo hc (hlike.key.symm.trans hsame.symm))
  · intro e' he'
    have hinfo := ht₁'.classInfo?_type he'
    rw [h.right.classInfo?_setClass hc'] at hinfo
    split at hinfo
    · cases hinfo
      exact ⟨d, ht₁.mem_classes hnew, halike.key.symm⟩
    · obtain ⟨e, he, hkey₁⟩ := h.keys e' (h.right.mem_classes hinfo)
      obtain ⟨e₁, he₁, hkey₂, -⟩ := hle.classInfo? (h.left.classInfo?_type he)
      exact ⟨e₁, ht₁.mem_classes he₁, hkey₂.trans hkey₁⟩

end Matches

/-! ## Outcomes -/

section Agree

variable {α β γ δ : Type} {Q : TypeTable → TypeTable → α → β → Prop}
  {R : TypeTable → TypeTable → γ → δ → Prop}

/-- Outcomes of entering into `t` and into `t'`: results of which `Q` holds, or one error. The tables
match, and in the first one all classes up to `n` are kept. -/
inductive Agree (n : Nat) (t t' : TypeTable) (Q : TypeTable → TypeTable → α → β → Prop) :
    EStateM.Result UnitError TypeTable α → EStateM.Result UnitError TypeTable β → Prop
  | ok {a : α} {b : β} {t₁ t₁' : TypeTable} (hmatch : t₁.Matches t₁') (hkeeps : t.Keeps n t₁)
      (hgrows : t'.Grows t₁') (h : Q t₁ t₁' a b) : Agree n t t' Q (.ok a t₁) (.ok b t₁')
  | error {e : UnitError} {t₁ t₁' : TypeTable} (hmatch : t₁.Matches t₁') (hkeeps : t.Keeps n t₁)
      (hgrows : t'.Grows t₁') : Agree n t t' Q (.error e t₁) (.error e t₁')

namespace Agree

theorem pure {a : α} {b : β} (h : t.Matches t') (hQ : Q t t' a b) :
    Agree n t t' Q ((Pure.pure a : Entry α).run t) ((Pure.pure b : Entry β).run t') :=
  .ok h (.refl n t) (.refl t') hQ

theorem throw {e : UnitError} (h : t.Matches t') :
    Agree n t t' Q ((MonadExcept.throw e : Entry α).run t) ((MonadExcept.throw e : Entry β).run t') :=
  .error h (.refl n t) (.refl t')

theorem after {r : EStateM.Result UnitError TypeTable α} {r' : EStateM.Result UnitError TypeTable β}
    (hkeeps : t.Keeps n t₁) (hgrows : t'.Grows t₁') (h : Agree n t₁ t₁' Q r r') :
    Agree n t t' Q r r' := by
  cases h with
  | ok hmatch hkeeps' hgrows' h =>
    exact .ok hmatch (hkeeps.trans hkeeps') (hgrows.trans hgrows') h
  | error hmatch hkeeps' hgrows' =>
    exact .error hmatch (hkeeps.trans hkeeps') (hgrows.trans hgrows')

theorem imp {Q' : TypeTable → TypeTable → α → β → Prop} {r : EStateM.Result UnitError TypeTable α}
    {r' : EStateM.Result UnitError TypeTable β} (h : Agree n t t' Q r r')
    (hQ : ∀ t₁ t₁' a b, t.Grows t₁ → t'.Grows t₁' → Q t₁ t₁' a b → Q' t₁ t₁' a b) :
    Agree n t t' Q' r r' := by
  cases h with
  | ok hmatch hkeeps hgrows h =>
    exact .ok hmatch hkeeps hgrows (hQ _ _ _ _ hkeeps.grows hgrows h)
  | error hmatch hkeeps hgrows => exact .error hmatch hkeeps hgrows

theorem bind {x : Entry α} {y : Entry β} {f : α → Entry γ} {g : β → Entry δ}
    (hx : Agree n t t' Q (x.run t) (y.run t'))
    (hf : ∀ a b t₁ t₁', t₁.Matches t₁' → t.Keeps n t₁ → t'.Grows t₁' → Q t₁ t₁' a b →
      Agree n t₁ t₁' R ((f a).run t₁) ((g b).run t₁')) :
    Agree n t t' R ((x >>= f).run t) ((y >>= g).run t') := by
  change Agree n t t' R (EStateM.bind x f t) (EStateM.bind y g t')
  unfold EStateM.bind
  change Agree n t t' Q (x t) (y t') at hx
  generalize x t = r at hx ⊢
  generalize y t' = r' at hx ⊢
  cases hx with
  | ok hmatch hkeeps hgrows hQ => exact (hf _ _ _ _ hmatch hkeeps hgrows hQ).after hkeeps hgrows
  | error hmatch hkeeps hgrows => exact .error hmatch hkeeps hgrows

theorem within {x : Entry α} {y : Entry β} (h : Agree n t t' Q (x.run t) (y.run t'))
    (place : UnitError → UnitError) :
    Agree n t t' Q ((TypeTable.within place x).run t) ((TypeTable.within place y).run t') := by
  change Agree n t t' Q (TypeTable.within place x t) (TypeTable.within place y t')
  unfold TypeTable.within
  change Agree n t t' Q (x t) (y t') at h
  generalize x t = r at h ⊢
  generalize y t' = r' at h ⊢
  cases h with
  | ok hmatch hkeeps hgrows hQ => exact .ok hmatch hkeeps hgrows hQ
  | error hmatch hkeeps hgrows => exact .error hmatch hkeeps hgrows

end Agree

end Agree

/-! ## Types -/

theorem classOfKey_agree (h : t.Matches t') (key : ClassKey) :
    Agree n t t' (fun t₁ t₁' id id' => t₁.keyOf? id = some key ∧ t₁'.keyOf? id' = some key)
      ((classOfKey key).run t) ((classOfKey key).run t') := by
  have hrun : ∀ (t : TypeTable), (classOfKey key).run t =
      (t.classByKey? key).elim (.error (.classNotLoaded key) t) fun id => .ok id t := by
    intro t
    unfold classOfKey
    rw [run_bind_ok (show (get : Entry TypeTable).run t = .ok t t from rfl)]
    cases t.classByKey? key <;> rfl
  rw [hrun, hrun]
  cases hid : t.classByKey? key with
  | none =>
    have hnone : t'.classByKey? key = none := by
      by_contra hsome
      exact h.left.knows_iff.mp (h.knows_iff.mpr (h.right.knows_iff.mpr hsome)) hid
    rw [hnone]
    exact .error h (.refl n t) (.refl t')
  | some id =>
    have hkey := h.left.classByKey?_eq_some.mp hid
    obtain ⟨id', hid'⟩ := h.knows_iff.mp ⟨id, hkey⟩
    rw [h.right.classByKey?_eq_some.mpr hid']
    exact .ok h (.refl n t) (.refl t') ⟨hkey, hid'⟩

theorem intern_agree {s s' : TypeShape} (h : t.Matches t')
    (hparts : ∀ p ∈ s.parts, p ≤ t.shapes.size) (hparts' : ∀ p ∈ s'.parts, p ≤ t'.shapes.size)
    (hclass : ∀ i, s ≠ .classRef i) (hclass' : ∀ i, s' ≠ .classRef i)
    (halike : ∀ t₁ t₁' a b, t.Grows t₁ → t'.Grows t₁' → t₁.shape? a = some s →
      t₁'.shape? b = some s' → t₁.Alike t₁' a b) :
    Agree n t t' Alike ((modifyGet (·.intern s) : Entry TypeId).run t)
      ((modifyGet (·.intern s') : Entry TypeId).run t') := by
  have hs := h.left.intern hparts hclass
  have hs' := h.right.intern hparts' hclass'
  exact .ok (h.grow (hs.sound h.left) (hs'.sound h.right) hs.grows hs'.grows hs.classes hs'.classes)
    (hs.keeps h.left) hs'.grows (halike _ _ _ _ hs.grows hs'.grows hs.shape hs'.shape)

theorem internBasic_agree (h : t.Matches t') (k : TypeKind) :
    Agree n t t' Alike ((internBasic k).run t) ((internBasic k).run t') := by
  have hbasic : ∀ {i : Nat} {s : TypeShape}, empty.shapes[i]? = some s → s.isBasic →
      t.Alike t' (i + 1) (i + 1) := fun hi hs =>
    .basic (h.left.shape?_basic hi) (h.right.shape?_basic hi) hs
  cases k with
  | void => exact .pure h (hbasic (i := 0) rfl rfl)
  | nil => exact .pure h (hbasic (i := 1) rfl rfl)
  | boolean => exact .pure h (hbasic (i := 2) rfl rfl)
  | integer => exact .pure h (hbasic (i := 3) rfl rfl)
  | real => exact .pure h (hbasic (i := 4) rfl rfl)
  | char => exact .pure h (hbasic (i := 5) rfl rfl)
  | string => exact .pure h (hbasic (i := 6) rfl rfl)
  | _ => exact .throw h

mutual

theorem enterType_agree {t t' : TypeTable} (h : t.Matches t') (d : TypeDesc) :
    Agree n t t' Alike ((enterType d).run t) ((enterType d).run t') := by
  cases d with
  | basic k =>
    rw [enterType]
    exact internBasic_agree h k
  | pointer e =>
    rw [enterType]
    refine (enterOption_agree h e).bind ?_
    intro f f' t₁ t₁' h₁ _ _ hf
    refine intern_agree h₁ ?_ ?_ (by simp) (by simp) ?_
    · simpa [TypeShape.parts] using hf.symm.le_size
    · simpa [TypeShape.parts] using hf.le_size
    · exact fun t₂ t₂' a b hle hle' ha hb => .pointer ha hb (hf.mono hle hle')
  | array e k =>
    rw [enterType]
    refine (enterOption_agree h e).bind ?_
    intro f f' t₁ t₁' h₁ _ _ hf
    refine intern_agree h₁ ?_ ?_ (by simp) (by simp) ?_
    · simpa [TypeShape.parts] using hf.symm.le_size
    · simpa [TypeShape.parts] using hf.le_size
    · exact fun t₂ t₂' a b hle hle' ha hb => .array ha hb (hf.mono hle hle')
  | classRef key =>
    cases key with
    | none =>
      rw [enterType]
      exact .throw h
    | some key =>
      rw [enterType]
      exact (classOfKey_agree h key).imp fun _ _ _ _ _ _ hkeys => alike_of_keyOf? hkeys.1 hkeys.2
  | routine hasResult params result =>
    rw [enterType]
    refine (enterTypes_agree h params).bind ?_
    intro ps ps' t₁ t₁' h₁ _ _ hps
    refine (enterOption_agree h₁ result).bind ?_
    intro r r' t₂ t₂' h₂ hkeeps hgrows hr
    have hps₂ : List.Forall₂ (t₂.Alike t₂') ps ps' :=
      hps.imp fun _ _ hp => hp.mono hkeeps.grows hgrows
    refine intern_agree h₂ ?_ ?_ (by simp) (by simp) ?_
    · intro p hp
      rcases List.mem_cons.mp hp with rfl | hp
      · exact hr.symm.le_size
      · obtain ⟨q, -, hq⟩ := forall₂_exists_mem hps₂ hp
        exact hq.symm.le_size
    · intro q hq
      rcases List.mem_cons.mp hq with rfl | hq
      · exact hr.le_size
      · obtain ⟨p, hp⟩ := forall₂_mem_right hps₂ hq
        exact hp.le_size
    · exact fun t₃ t₃' a b hle hle' ha hb => .of_signature ha hb
        (hps₂.imp fun _ _ hp => hp.mono hle hle') (hr.mono hle hle')
  | unknown k =>
    rw [enterType]
    exact .throw h

theorem enterOption_agree {t t' : TypeTable} (h : t.Matches t') (d : Option TypeDesc) :
    Agree n t t' Alike ((enterOption d).run t) ((enterOption d).run t') := by
  cases d with
  | none =>
    rw [enterOption]
    exact .pure h .none
  | some d =>
    rw [enterOption]
    exact enterType_agree h d

theorem enterTypes_agree {t t' : TypeTable} (h : t.Matches t') (ds : List TypeDesc) :
    Agree n t t' (fun t₁ t₁' => List.Forall₂ (t₁.Alike t₁')) ((enterTypes ds).run t)
      ((enterTypes ds).run t') := by
  cases ds with
  | nil =>
    rw [enterTypes]
    exact .pure h .nil
  | cons d ds =>
    rw [enterTypes]
    refine (enterType_agree h d).bind ?_
    intro p p' t₁ t₁' h₁ _ _ hp
    refine (enterTypes_agree h₁ ds).bind ?_
    intro ps ps' t₂ t₂' h₂ hkeeps hgrows hps
    exact .pure h₂ (.cons (hp.mono hkeeps.grows hgrows) hps)

end

theorem enterSignature_agree (h : t.Matches t') (params : List TypeDesc)
    (result : Option TypeDesc) :
    Agree n t t' (fun t₁ t₁' => Signature.Alike t₁ t₁') ((enterSignature params result).run t)
      ((enterSignature params result).run t') := by
  unfold enterSignature
  refine (enterTypes_agree h params).bind ?_
  intro ps ps' t₁ t₁' h₁ _ _ hps
  refine (enterOption_agree h₁ result).bind ?_
  intro r r' t₂ t₂' h₂ hkeeps hgrows hr
  exact .pure h₂ ⟨hps.imp fun _ _ hp => hp.mono hkeeps.grows hgrows, hr⟩

end TypeTable

namespace CompiledUnit

/-! ## Symbols -/

theorem enterOwner_agree (h : t.Matches t') (u : CompiledUnit) (d : SymbolDesc) :
    Agree n t t' Alike ((u.enterOwner d).run t) ((u.enterOwner d).run t') := by
  unfold enterOwner
  cases d.owner with
  | none => exact .pure h .none
  | some key =>
    refine Agree.within ?_ _
    exact (classOfKey_agree h key).imp fun _ _ _ _ _ _ hkeys => alike_of_keyOf? hkeys.1 hkeys.2

theorem enterSymbolSignature_agree (h : t.Matches t') (u : CompiledUnit) (d : SymbolDesc) :
    Agree n t t' (fun t₁ t₁' => Signature.Alike t₁ t₁') ((u.enterSymbolSignature d).run t)
      ((u.enterSymbolSignature d).run t') := by
  unfold enterSymbolSignature
  split
  · exact (enterSignature_agree h d.params d.result).within _
  · exact .pure h ⟨.nil, .none⟩

theorem enterSymbol_agree (h : t.Matches t') (u : CompiledUnit) (d : SymbolDesc) :
    Agree n t t' (fun t₁ t₁' => Symbol.Alike t₁ t₁' u.file) ((u.enterSymbol d).run t)
      ((u.enterSymbol d).run t') := by
  rw [enterSymbol_eq]
  refine ((enterOption_agree h d.type).within _).bind ?_
  intro type type' t₁ t₁' h₁ _ _ htype
  refine (enterOwner_agree h₁ u d).bind ?_
  intro owner owner' t₂ t₂' h₂ hkeeps₂ hgrows₂ howner
  refine (enterSymbolSignature_agree h₂ u d).bind ?_
  intro sig sig' t₃ t₃' h₃ hkeeps₃ hgrows₃ hsig
  exact .pure h₃ ⟨rfl, htype.mono (hkeeps₂.grows.trans hkeeps₃.grows) (hgrows₂.trans hgrows₃),
    howner.mono hkeeps₃.grows hgrows₃, hsig⟩

theorem enterSymbols_agree (h : t.Matches t') (u : CompiledUnit) (ds : List SymbolDesc) :
    Agree n t t' (fun t₁ t₁' => List.Forall₂ (Symbol.Alike t₁ t₁' u.file))
      ((ds.mapM u.enterSymbol).run t) ((ds.mapM u.enterSymbol).run t') := by
  induction ds generalizing t t' with
  | nil =>
    rw [List.mapM_nil]
    exact .pure h .nil
  | cons d ds ih =>
    rw [List.mapM_cons]
    refine (enterSymbol_agree h u d).bind ?_
    intro sym sym' t₁ t₁' h₁ _ _ hsym
    refine (ih h₁).bind ?_
    intro syms syms' t₂ t₂' h₂ hkeeps hgrows hsyms
    exact .pure h₂ (.cons (hsym.mono hkeeps.grows hgrows) hsyms)

/-! ## Classes -/

section Classes

variable {id id' : TypeId} {key : ClassKey}

theorem changeClass_agree {f f' : ClassInfo → ClassInfo} (h : t.Matches t') (hn : n < id)
    (hid : t.keyOf? id = some key) (hid' : t'.keyOf? id' = some key)
    (hf : ∀ c, (f c).key = c.key ∧ (f c).type = c.type) (hf' : ∀ c, (f' c).type = c.type)
    (halike : ∀ c c', c.Alike t t' c' → (f c).Alike t t' (f' c')) :
    Agree n t t' (fun _ _ _ _ => True) ((changeClass id f).run t) ((changeClass id' f').run t') := by
  obtain ⟨c, c', hc, hc', hcc'⟩ := h.classInfo? hid hid'
  have hrun : ∀ {t : TypeTable} {id c} {f : ClassInfo → ClassInfo}, t.classInfo? id = some c →
      (changeClass id f).run t = .ok () (t.setClass id (f c)) := by
    intro t id c f hc
    change EStateM.Result.ok () _ = _
    simp only [hc]
  have hkey' : (f' c').key = c'.key := by
    rw [(halike c c' hcc').key, (hf c).1, hcc'.key]
  rw [hrun hc, hrun hc']
  refine .ok ?_ ⟨(h.left.setClass hc (hf c).1 (hf c).2).2, ?_⟩
    (h.right.setClass hc' hkey' (hf' c')).2 trivial
  · exact h.setClass hc hc' hcc'.key.symm (halike c c' hcc') (hf c).1 (hf c).2 (hf' c')
  · intro k hk
    rw [h.left.classInfo?_setClass hc, if_neg (Nat.ne_of_lt (Nat.lt_of_le_of_lt hk hn))]

theorem enterBase_agree (h : t.Matches t') (hn : n < id) (hid : t.keyOf? id = some key)
    (hid' : t'.keyOf? id' = some key) (base : Option ClassKey) :
    Agree n t t' (fun _ _ _ _ => True) ((enterBase id base).run t) ((enterBase id' base).run t') := by
  unfold enterBase
  cases base with
  | none => exact .pure h trivial
  | some k =>
    refine (classOfKey_agree h k).bind ?_
    rintro b b' t₁ t₁' h₁ hkeeps hgrows ⟨hb, hb'⟩
    refine changeClass_agree h₁ hn (hkeeps.grows.keyOf? hid) (hgrows.keyOf? hid')
      (fun _ => ⟨rfl, rfl⟩) (fun _ => rfl) ?_
    intro c c' hc
    exact ⟨by rw [hc.same], hc.type, alike_of_keyOf? hb hb', hc.fields, hc.methods, hc.vmt⟩

theorem enterMembers_agree {β δ : Type} {add : List β → ClassInfo → ClassInfo}
    {enter enter' : δ → Entry β} {R : TypeTable → TypeTable → β → β → Prop} (h : t.Matches t')
    (hn : n < id) (hid : t.keyOf? id = some key) (hid' : t'.keyOf? id' = some key)
    (hadd : ∀ bs c, (add bs c).key = c.key ∧ (add bs c).type = c.type)
    (halike : ∀ t t' b b' c c', R t t' b b' → c.Alike t t' c' →
      (add [b] c).Alike t t' (add [b'] c'))
    (henter : ∀ d t₁ t₁', t₁.Matches t₁' → t₁.keyOf? id = some key → t₁'.keyOf? id' = some key →
      Agree n t₁ t₁' R ((enter d).run t₁) ((enter' d).run t₁'))
    (ds : List δ) :
    Agree n t t' (fun _ _ _ _ => True) ((enterMembers id add enter ds).run t)
      ((enterMembers id' add enter' ds).run t') := by
  unfold enterMembers
  induction ds generalizing t t' with
  | nil => exact .pure h trivial
  | cons d ds ih =>
    rw [List.forM, List.forM]
    refine Agree.bind (Q := fun _ _ _ _ => True) ?_ ?_
    · refine (henter d t t' h hid hid').bind ?_
      intro b b' t₁ t₁' h₁ hkeeps hgrows hb
      exact changeClass_agree h₁ hn (hkeeps.grows.keyOf? hid) (hgrows.keyOf? hid')
        (hadd [b]) (fun c => (hadd [b'] c).2) fun c c' => halike _ _ b b' c c' hb
    · intro _ _ t₁ t₁' h₁ hkeeps hgrows _
      exact ih h₁ (hkeeps.grows.keyOf? hid) (hgrows.keyOf? hid')

theorem enterFields_agree (h : t.Matches t') (hn : n < id) (hid : t.keyOf? id = some key)
    (hid' : t'.keyOf? id' = some key) (ds : List FieldDesc) :
    Agree n t t' (fun _ _ _ _ => True) ((enterMembers id addFields (enterField id) ds).run t)
      ((enterMembers id' addFields (enterField id') ds).run t') := by
  refine enterMembers_agree (R := Field.Alike) h hn hid hid' ?_ ?_ ?_ ds
  · exact fun _ _ => ⟨rfl, rfl⟩
  · intro t t' f f' c c' hf hc
    refine ⟨?_, hc.type, hc.base, ?_, hc.methods, hc.vmt⟩
    · rw [hc.same]
      rfl
    · exact List.rel_append hc.fields (.cons hf .nil)
  · intro d t₁ t₁' h₁ hid₁ hid₁'
    unfold enterField
    refine (enterType_agree h₁ d.type).bind ?_
    intro type type' t₂ t₂' h₂ hkeeps hgrows htype
    exact .pure h₂ ⟨rfl, htype, alike_of_keyOf? (hkeeps.grows.keyOf? hid₁) (hgrows.keyOf? hid₁')⟩

theorem enterMethods_agree (h : t.Matches t') (hn : n < id) (hid : t.keyOf? id = some key)
    (hid' : t'.keyOf? id' = some key) (ds : List MethodDesc) :
    Agree n t t' (fun _ _ _ _ => True) ((enterMembers id addMethods (enterMethod id) ds).run t)
      ((enterMembers id' addMethods (enterMethod id') ds).run t') := by
  refine enterMembers_agree (R := Method.Alike) h hn hid hid' ?_ ?_ ?_ ds
  · exact fun _ _ => ⟨rfl, rfl⟩
  · intro t t' m m' c c' hm hc
    refine ⟨?_, hc.type, hc.base, hc.fields, ?_, hc.vmt⟩
    · rw [hc.same]
      rfl
    · exact List.rel_append hc.methods (.cons hm .nil)
  · intro d t₁ t₁' h₁ hid₁ hid₁'
    unfold enterMethod
    refine (enterSignature_agree h₁ d.params d.result).bind ?_
    intro sig sig' t₂ t₂' h₂ hkeeps hgrows hsig
    exact .pure h₂ ⟨rfl, hsig, alike_of_keyOf? (hkeeps.grows.keyOf? hid₁) (hgrows.keyOf? hid₁')⟩

theorem enterVmt_agree (h : t.Matches t') (hn : n < id) (hid : t.keyOf? id = some key)
    (hid' : t'.keyOf? id' = some key) (ds : List VmtDesc) :
    Agree n t t' (fun _ _ _ _ => True) ((enterMembers id addVmt enterVmt ds).run t)
      ((enterMembers id' addVmt enterVmt ds).run t') := by
  refine enterMembers_agree (R := VmtEntry.Alike) h hn hid hid' ?_ ?_ ?_ ds
  · exact fun _ _ => ⟨rfl, rfl⟩
  · intro t t' e e' c c' he hc
    refine ⟨?_, hc.type, hc.base, hc.fields, hc.methods, ?_⟩
    · rw [hc.same]
      rfl
    · exact List.rel_append hc.vmt (.cons he .nil)
  · intro d t₁ t₁' h₁ _ _
    unfold enterVmt
    refine (classOfKey_agree h₁ d.owner).bind ?_
    rintro owner owner' t₂ t₂' h₂ _ _ ⟨howner, howner'⟩
    exact .pure h₂ ⟨rfl, alike_of_keyOf? howner howner'⟩

theorem enterClass_agree (h : t.Matches t') (hn : n < id) (hid : t.keyOf? id = some key)
    (hid' : t'.keyOf? id' = some key) (d : ClassDesc) :
    Agree n t t' (fun _ _ _ _ => True) ((enterClass id d).run t) ((enterClass id' d).run t') := by
  rw [enterClass_eq, enterClass_eq]
  refine (enterBase_agree h hn hid hid' d.base).bind ?_
  intro _ _ t₁ t₁' h₁ hkeeps₁ hgrows₁ _
  have hid₁ := hkeeps₁.grows.keyOf? hid
  have hid₁' := hgrows₁.keyOf? hid'
  refine (enterFields_agree h₁ hn hid₁ hid₁' d.fields).bind ?_
  intro _ _ t₂ t₂' h₂ hkeeps₂ hgrows₂ _
  have hid₂ := hkeeps₂.grows.keyOf? hid₁
  have hid₂' := hgrows₂.keyOf? hid₁'
  refine (enterMethods_agree h₂ hn hid₂ hid₂' d.methods).bind ?_
  intro _ _ t₃ t₃' h₃ hkeeps₃ hgrows₃ _
  have hid₃ := hkeeps₃.grows.keyOf? hid₂
  have hid₃' := hgrows₃.keyOf? hid₂'
  refine (enterVmt_agree h₃ hn hid₃ hid₃' d.vmt).bind ?_
  intro _ _ t₄ t₄' h₄ hkeeps₄ hgrows₄ _
  refine changeClass_agree h₄ hn (hkeeps₄.grows.keyOf? hid₃) (hgrows₄.keyOf? hid₃')
    (fun _ => ⟨rfl, rfl⟩) (fun _ => rfl) ?_
  intro c c' hc
  exact ⟨by rw [hc.same], hc.type, hc.base, hc.fields, hc.methods, hc.vmt⟩

/-- Handles of one class, which stands behind all classes that were there. -/
structure Fresh (u : CompiledUnit) (n : Nat) (t t' : TypeTable) (p p' : ClassDesc × TypeId) :
    Prop where
  desc : p'.1 = p.1
  lt : n < p.2
  left : t.keyOf? p.2 = some ⟨u.name, p.1.name⟩
  right : t'.keyOf? p'.2 = some ⟨u.name, p.1.name⟩

theorem Fresh.mono {u : CompiledUnit} {p p' : ClassDesc × TypeId} (h : u.Fresh n t t' p p')
    (hle : t.Grows t₁) (hle' : t'.Grows t₁') : u.Fresh n t₁ t₁' p p' :=
  ⟨h.desc, h.lt, hle.keyOf? h.left, hle'.keyOf? h.right⟩

theorem enterName_run (t : TypeTable) (u : CompiledUnit) (d : ClassDesc) :
    (u.enterName d).run t =
      match t.classByKey? ⟨u.name, d.name⟩ with
      | some _ => .ok none t
      | none => .ok (some (d, (t.newClass ⟨u.name, d.name⟩).1)) (t.newClass ⟨u.name, d.name⟩).2 := by
  unfold enterName
  rw [run_bind_ok (show (get : Entry TypeTable).run t = .ok t t from rfl)]
  cases t.classByKey? ⟨u.name, d.name⟩ <;> rfl

theorem enterName_agree (h : t.Matches t') (hn : n ≤ t.shapes.size) (u : CompiledUnit)
    (d : ClassDesc) :
    Agree n t t' (fun t₁ t₁' r r' => Option.Rel (u.Fresh n t₁ t₁') r r' ∧ t₁.Knows ⟨u.name, d.name⟩)
      ((u.enterName d).run t) ((u.enterName d).run t') := by
  rw [enterName_run, enterName_run]
  by_cases hknown : t.Knows ⟨u.name, d.name⟩
  · obtain ⟨id, hid⟩ := hknown
    obtain ⟨id', hid'⟩ := h.knows_iff.mp ⟨id, hid⟩
    rw [h.left.classByKey?_eq_some.mpr hid, h.right.classByKey?_eq_some.mpr hid']
    exact .ok h (.refl n t) (.refl t') ⟨.none, id, hid⟩
  · have hnone : t.classByKey? ⟨u.name, d.name⟩ = none := by
      simpa [h.left.knows_iff] using hknown
    have hnone' : t'.classByKey? ⟨u.name, d.name⟩ = none := by
      simpa [h.knows_iff, h.right.knows_iff] using hknown
    rw [hnone, hnone']
    obtain ⟨-, hle⟩ := h.left.newClass_of_unknown hknown
    obtain ⟨-, hle'⟩ := h.right.newClass_of_unknown fun hk => hknown (h.knows_iff.mpr hk)
    have hkey : (t.newClass ⟨u.name, d.name⟩).2.keyOf? (t.newClass ⟨u.name, d.name⟩).1 =
        some ⟨u.name, d.name⟩ :=
      keyOf?_eq_some.mpr ⟨_, by rw [h.left.classInfo?_newClass, if_pos rfl], rfl⟩
    have hkey' : (t'.newClass ⟨u.name, d.name⟩).2.keyOf? (t'.newClass ⟨u.name, d.name⟩).1 =
        some ⟨u.name, d.name⟩ :=
      keyOf?_eq_some.mpr ⟨_, by rw [h.right.classInfo?_newClass, if_pos rfl], rfl⟩
    refine .ok (h.newClass hknown) ⟨hle, ?_⟩ hle' ⟨.some ⟨rfl, ?_, hkey, hkey'⟩, _, hkey⟩
    · intro k hk
      rw [h.left.classInfo?_newClass, if_neg]
      exact Nat.ne_of_lt (Nat.lt_succ_of_le (Nat.le_trans hk hn))
    · exact Nat.lt_succ_of_le hn

theorem enterNames_agree (h : t.Matches t') (hn : n ≤ t.shapes.size) (u : CompiledUnit)
    (ds : List ClassDesc) :
    Agree n t t' (fun t₁ t₁' ps ps' => List.Forall₂ (u.Fresh n t₁ t₁') ps ps' ∧
        ∀ d ∈ ds, t₁.Knows ⟨u.name, d.name⟩)
      ((ds.filterMapM u.enterName).run t) ((ds.filterMapM u.enterName).run t') := by
  induction ds generalizing t t' with
  | nil => exact .pure h ⟨.nil, by simp⟩
  | cons d ds ih =>
    rw [List.filterMapM_cons]
    refine (enterName_agree h hn u d).bind ?_
    rintro r r' t₁ t₁' h₁ hkeeps₁ hgrows₁ ⟨hr, hd⟩
    have hn₁ := Nat.le_trans hn hkeeps₁.grows.size_le
    cases hr with
    | none =>
      refine (ih h₁ hn₁).imp ?_
      rintro t₂ t₂' ps ps' hle hle' ⟨hps, hds⟩
      exact ⟨hps, List.forall_mem_cons.mpr ⟨hle.knows hd, hds⟩⟩
    | some hr =>
      refine (ih h₁ hn₁).bind ?_
      rintro ps ps' t₂ t₂' h₂ hkeeps₂ hgrows₂ ⟨hps, hds⟩
      refine .pure h₂ ⟨.cons (hr.mono hkeeps₂.grows hgrows₂) hps, ?_⟩
      exact List.forall_mem_cons.mpr ⟨hkeeps₂.grows.knows hd, hds⟩

theorem enterNamed_agree {u : CompiledUnit} {ps ps' : List (ClassDesc × TypeId)}
    (h : t.Matches t') (hps : List.Forall₂ (u.Fresh n t t') ps ps') :
    Agree n t t' (fun _ _ _ _ => True) ((ps.forM u.enterNamed).run t)
      ((ps'.forM u.enterNamed).run t') := by
  induction ps generalizing t t' ps' with
  | nil =>
    cases hps
    exact .pure h trivial
  | cons p ps ih =>
    cases hps with
    | @cons _ p' _ ps' hp hps =>
    rw [List.forM, List.forM]
    refine Agree.bind (Q := fun _ _ _ _ => True) ?_ ?_
    · unfold enterNamed
      rw [hp.desc]
      exact (enterClass_agree h hp.lt hp.left hp.right p.1).within _
    · intro _ _ t₁ t₁' h₁ hkeeps hgrows _
      exact ih h₁ (hps.imp fun _ _ hq => hq.mono hkeeps.grows hgrows)

end Classes

/-! ## Units -/

theorem enterClasses_agree (h : t.Matches t') (hn : n ≤ t.shapes.size) (u : CompiledUnit) :
    Agree n t t' (fun _ _ _ _ => True) (u.enterClasses.run t) (u.enterClasses.run t') := by
  rw [enterClasses_eq]
  refine (enterNames_agree h hn u u.classes).bind ?_
  rintro ps ps' t₁ t₁' h₁ _ _ ⟨hps, -⟩
  exact enterNamed_agree h₁ hps

/-- Two views of a unit, with symbols that are alike one by one. -/
def SameView (u : CompiledUnit) (t t' : TypeTable) (i i' : Bound.Import) : Prop :=
  ∃ syms syms', i = ⟨u.name, u.kind, syms⟩ ∧ i' = ⟨u.name, u.kind, syms'⟩ ∧
    List.Forall₂ (Symbol.Alike t t' u.file) syms syms'

theorem enterExports_agree (h : t.Matches t') (u : CompiledUnit) :
    Agree n t t' u.SameView
      ((do return ⟨u.name, u.kind, ← u.exports.mapM u.enterSymbol⟩ : Entry Bound.Import).run t)
      ((do return ⟨u.name, u.kind, ← u.exports.mapM u.enterSymbol⟩ : Entry Bound.Import).run t') := by
  refine (enterSymbols_agree h u u.exports).bind ?_
  intro syms syms' t₁ t₁' h₁ _ _ hsyms
  exact .pure h₁ ⟨syms, syms', rfl, rfl, hsyms⟩

theorem interface_agree (h : t.Matches t') (hn : n ≤ t.shapes.size) (u : CompiledUnit) :
    Agree n t t' u.SameView (u.interface.run t) (u.interface.run t') := by
  unfold interface
  refine (enterClasses_agree h hn u).bind ?_
  intro _ _ t₁ t₁' h₁ _ _ _
  exact enterExports_agree h₁ u

theorem enterClasses_known (ht : t.Sound) {u : CompiledUnit}
    (hknown : ∀ d ∈ u.classes, t.Knows ⟨u.name, d.name⟩) : u.enterClasses.run t = .ok () t := by
  have hnames : ∀ ds : List ClassDesc, (∀ d ∈ ds, t.Knows ⟨u.name, d.name⟩) →
      (ds.filterMapM u.enterName).run t = .ok [] t := by
    intro ds hds
    induction ds with
    | nil => rfl
    | cons d ds ih =>
      obtain ⟨id, hid⟩ := hds d List.mem_cons_self
      have hrun : (u.enterName d).run t = .ok none t := by
        rw [enterName_run, ht.classByKey?_eq_some.mpr hid]
      rw [List.filterMapM_cons, run_bind_ok hrun]
      exact ih fun d hd => hds d (List.mem_cons_of_mem _ hd)
  rw [enterClasses_eq, run_bind_ok (hnames u.classes hknown)]
  rfl

theorem enterNames_run (t : TypeTable) (u : CompiledUnit) (ds : List ClassDesc) :
    ∃ ps t₁, (ds.filterMapM u.enterName).run t = .ok ps t₁ := by
  induction ds generalizing t with
  | nil => exact ⟨[], t, rfl⟩
  | cons d ds ih =>
    have hname : ∃ r t₁, (u.enterName d).run t = .ok r t₁ := by
      rw [enterName_run]
      split <;> exact ⟨_, _, rfl⟩
    obtain ⟨r, t₁, hr⟩ := hname
    obtain ⟨ps, t₂, hps⟩ := ih t₁
    rw [List.filterMapM_cons, run_bind_ok hr]
    cases r with
    | none => exact ⟨ps, t₂, hps⟩
    | some p => exact ⟨p :: ps, t₂, by rw [run_bind_ok hps]; rfl⟩

/-- A failed import knows all classes of the unit, although it did not come to fill them in. -/
theorem interface_knows {u : CompiledUnit} {e : UnitError} (h : t.Matches t)
    (hrun : u.interface.run t = .error e t') : ∀ d ∈ u.classes, t'.Knows ⟨u.name, d.name⟩ := by
  obtain ⟨ps, t₁, hnames⟩ := enterNames_run t u u.classes
  have hagree := enterNames_agree h (Nat.le_refl _) u u.classes
  rw [hnames] at hagree
  cases hagree with
  | ok h₁ _ _ hps =>
    have hrest : Agree t.shapes.size t₁ t₁ u.SameView (u.interface.run t) (u.interface.run t) := by
      unfold interface
      rw [enterClasses_eq, bind_assoc, run_bind_ok hnames]
      refine (enterNamed_agree h₁ hps.1).bind ?_
      exact fun _ _ _ _ h₂ _ _ _ => enterExports_agree h₂ u
    rw [hrun] at hrest
    cases hrest with
    | error _ _ hgrows => exact fun d hd => hgrows.knows (hps.2 d hd)

end CompiledUnit

namespace TypeTable

open CompiledUnit

/-- The table after a unit was imported, whether that failed or not. -/
def afterImport (t : TypeTable) (u : CompiledUnit) : TypeTable :=
  match u.interface.run t with
  | .ok _ t | .error _ t => t

def afterImports (t : TypeTable) (us : List CompiledUnit) : TypeTable := us.foldl afterImport t

theorem Matches.afterImports (h : t.Matches t') (us : List CompiledUnit) :
    (t.afterImports us).Matches (t'.afterImports us) := by
  unfold TypeTable.afterImports
  induction us generalizing t t' with
  | nil => exact h
  | cons u us ih =>
    apply ih
    have hagree := interface_agree h (Nat.le_refl _) u
    unfold afterImport
    generalize u.interface.run t = r at hagree ⊢
    generalize u.interface.run t' = r' at hagree ⊢
    cases hagree with
    | ok hmatch => exact hmatch
    | error hmatch => exact hmatch

/-- What a failed import leaves behind: it alters no class that was there, and its class table is the
one before just if it had no class to enter. Then all later imports come to what they would without
it, from one unit to the next. -/
theorem failed_import {u : CompiledUnit} {e : UnitError} (ht : t.Sound) (hclosed : t.Closed)
    (hfail : u.interface.run t = .error e t') :
    (∀ id c, t.classInfo? id = some c → t'.classInfo? id = some c) ∧
      (t'.classes = t.classes ↔ ∀ d ∈ u.classes, t.classByKey? ⟨u.name, d.name⟩ ≠ none) ∧
      (t'.classes = t.classes → ∀ us : List CompiledUnit,
        (t.afterImports us).Matches (t'.afterImports us) ∧
        ∀ v : CompiledUnit, Agree (t.afterImports us).shapes.size (t.afterImports us)
          (t'.afterImports us) v.SameView (v.interface.run (t.afterImports us))
          (v.interface.run (t'.afterImports us))) := by
  have hself := Matches.refl ht hclosed
  have hagree := interface_agree (n := t.shapes.size) hself (Nat.le_refl _) u
  rw [hfail] at hagree
  cases hagree with
  | error hmatch hkeeps hgrows =>
    have hiff : t'.classes = t.classes ↔ ∀ d ∈ u.classes, t.Knows ⟨u.name, d.name⟩ := by
      constructor
      · intro hclasses d hd
        have hknown := hmatch.left.knows_iff.mp (interface_knows hself hfail d hd)
        unfold classByKey? at hknown
        rw [hclasses] at hknown
        exact ht.knows_iff.mpr hknown
      · intro hknown
        refine classes_eq_of_keeps hmatch.left fun n => ?_
        have hexports := enterExports_agree (n := n) hself u
        rw [CompiledUnit.interface, run_bind_ok (enterClasses_known ht hknown)] at hfail
        rw [hfail] at hexports
        cases hexports with
        | error _ hkeeps => exact hkeeps
    refine ⟨?_, ?_, ?_⟩
    · intro id c hc
      obtain ⟨i, hi, -⟩ := classInfo?_eq_some.mp hc
      rw [hkeeps.classes id (shape?_le hi), hc]
    · rw [hiff]
      simp only [ht.knows_iff]
    · intro hclasses us
      have hboth := (hself.grow ht hmatch.left (.refl t) hgrows rfl hclasses).afterImports us
      exact ⟨hboth, interface_agree hboth (Nat.le_refl _)⟩

/-- A unit with a class that was compiled in this session, and a variable of a class that was not. -/
def squaresKnown : CompiledUnit :=
  { name := "squares", classes := [{ name := "square", base := some ⟨"shapes", "shape"⟩ }],
    exports := [{ name := "first", kind := .var,
                  type := some (.classRef (some ⟨"shapes", "shape"⟩)) }] }

theorem failed_import_of_known :
    (empty.newClass ⟨"squares", "square"⟩).2.Sound ∧
      (empty.newClass ⟨"squares", "square"⟩).2.Closed ∧
      ∃ e t', squaresKnown.interface.run (empty.newClass ⟨"squares", "square"⟩).2 = .error e t' ∧
        t'.classes = (empty.newClass ⟨"squares", "square"⟩).2.classes := by
  have hempty : empty.Matches empty := .refl sound_empty (by simp [Closed, empty])
  have hnew : ¬empty.Knows ⟨"squares", "square"⟩ := by
    simp [Knows, keyOf?_eq_some, classInfo?_eq_some, empty]
  have hmatch := hempty.newClass hnew
  have hfail : squaresKnown.interface.run (empty.newClass ⟨"squares", "square"⟩).2 =
      .error (.inSymbol "squares" "first" (.classNotLoaded ⟨"shapes", "shape"⟩))
        (empty.newClass ⟨"squares", "square"⟩).2 := rfl
  refine ⟨hmatch.left, hmatch.closed, _, _, hfail, ?_⟩
  exact (failed_import hmatch.left hmatch.closed hfail).2.1.mpr (by decide)

/-- A class with a field, and in another unit one that extends it. -/
def shapesUnit : CompiledUnit :=
  { name := "shapes",
    classes := [{ name := "shape", fields := [⟨"x", .basic .integer, 0⟩], slots := 1 }] }

def squaresUnit : CompiledUnit :=
  { name := "squares",
    classes := [{ name := "square", base := some ⟨"shapes", "shape"⟩,
                  fields := [⟨"y", .basic .integer, 1⟩], slots := 2 }] }

/-- Importing the derived class too early fails and leaves a class without slots behind, which stays
like that when its unit is imported again after the one it depends on. -/
theorem failed_import_leaves_class :
    squaresUnit.interface.run empty =
        .error (.inClass "squares" "square" (.classNotLoaded ⟨"shapes", "shape"⟩))
          (empty.newClass ⟨"squares", "square"⟩).2 ∧
      (empty.newClass ⟨"squares", "square"⟩).2.classes ≠ empty.classes ∧
      ((empty.afterImports [squaresUnit, shapesUnit, squaresUnit]).classes.map (·.slots)).toList =
        [0, 1] ∧
      ((empty.afterImports [shapesUnit, squaresUnit]).classes.map (·.slots)).toList = [1, 2] :=
  ⟨rfl, by simp [TypeTable.newClass, empty], by decide +kernel, by decide +kernel⟩

end TypeTable

end Pascaline
