import Pascaline.Proofs.Interface.Interning
import Pascaline.Token.Name

/-!
# Selectors tell parameters apart

A selector is a name with the texts of the parameter types. A text is read from its front: it starts
with a word, and the mark behind the word says what kind of type it is and what follows. So the text
of a type determines the type, unless classes of one name, or of the name of a basic type, occur in
it: the text of a class is its bare name.
-/

namespace Pascaline.TypeTable

variable {t : TypeTable} {a b p q id k : Nat} {s : TypeShape} {w x y : List Char}

/-! ## The tables of a session -/

/-- Tables as they come about: types are entered that are made of those already there, and what is
known of a class changes, but not its key. -/
inductive Arises : TypeTable → Prop
  | empty : Arises empty
  | request {t : TypeTable} (ht : Arises t) (r : TypeRequest)
      (hparts : ∀ p ∈ (r.shape t.classes.size).parts, p ≤ t.shapes.size) : Arises (t.answer r).2
  | fill {t : TypeTable} {id : TypeId} {c : ClassInfo} (ht : Arises t)
      (hc : t.classInfo? id = some c) (c' : ClassInfo) (hkey : c'.key = c.key) :
      Arises (t.setClass id c')

/-- No type is entered twice, and every type stands behind its parts. -/
structure Orderly (t : TypeTable) : Prop extends Distinct t where
  earlier : ∀ (id : Nat) s, t.shape? id = some s → ∀ p ∈ s.parts, p < id

theorem Orderly.push (ht : t.Orderly) (hparts : ∀ p ∈ s.parts, p ≤ t.shapes.size)
    {cs : Array ClassInfo} (hdistinct : Distinct ⟨t.shapes.push s, cs⟩) :
    Orderly ⟨t.shapes.push s, cs⟩ := by
  refine ⟨hdistinct, fun id s' hs p hp => ?_⟩
  rw [shape?_push] at hs
  split at hs
  case isTrue hid =>
    obtain rfl := Option.some.inj hs
    exact hid ▸ Nat.lt_succ_of_le (hparts p hp)
  case isFalse => exact ht.earlier id s' hs p hp

theorem Orderly.answer (ht : t.Orderly) (r : TypeRequest)
    (hparts : ∀ p ∈ (r.shape t.classes.size).parts, p ≤ t.shapes.size) :
    (t.answer r).2.Orderly := by
  have hdistinct := (ht.toDistinct.answer r).distinct
  have hintern : ∀ s : TypeShape, (∀ p ∈ s.parts, p ≤ t.shapes.size) →
      (t.intern s).2.Distinct → (t.intern s).2.Orderly := by
    intro s hparts hdistinct
    by_cases h : ∃ id, t.shape? id = some s
    · obtain ⟨id, hid⟩ := h
      rw [intern_of_shape? hid fun b hb => ht.once b id s hb hid]
      exact ht
    · have hnew : ∀ id, t.shape? id ≠ some s := by simpa using h
      rw [intern_eq_push hnew] at hdistinct ⊢
      exact ht.push hparts hdistinct
  cases r with
  | newClass key => exact ht.push hparts hdistinct
  | _ => exact hintern _ hparts hdistinct

theorem setClass_shapes (t : TypeTable) (id : TypeId) (c : ClassInfo) :
    (t.setClass id c).shapes = t.shapes ∧ (t.setClass id c).classes.size = t.classes.size := by
  unfold setClass
  split <;> simp

theorem Orderly.setClass (ht : t.Orderly) (id : TypeId) (c : ClassInfo) :
    (t.setClass id c).Orderly := by
  obtain ⟨hshapes, hsize⟩ := setClass_shapes t id c
  have hshape : ∀ k, (t.setClass id c).shape? k = t.shape? k := fun k => by
    simp only [shape?, hshapes]
  refine ⟨⟨?_, ?_⟩, ?_⟩
  · simpa only [hshape] using ht.once
  · simpa only [hshape, hsize] using ht.indexed
  · simpa only [hshape] using ht.earlier

theorem Arises.orderly (ht : t.Arises) : t.Orderly := by
  induction ht with
  | empty => exact ⟨distinct_empty, sound_empty.earlier⟩
  | request _ r hparts ih => exact ih.answer r hparts
  | fill _ _ c' _ ih => exact ih.setClass _ c'

/-! ## Texts by their form -/

/-- A type as its text shows it. -/
inductive Spelling where
  | invalid
  | leaf (name : String)
  | pointer (elem : TypeId)
  | array (elem : TypeId) (length : Option Nat)
  | routine (sig : Signature)

namespace Spelling

/-- The word at the front of the text. -/
def word : Spelling → String
  | invalid => ""
  | leaf name => name
  | pointer _ => "pointer"
  | array _ _ => "array"
  | routine sig => if sig.result = 0 then "procedure" else "function"

/-- What stands behind the word, given the texts of the parts. -/
def rest (part : TypeId → String) : Spelling → String
  | invalid => "<invalid>"
  | leaf _ => ""
  | pointer e => " to " ++ part e
  | array e none => " of " ++ part e
  | array e (some n) => "[" ++ decimal n ++ "] of " ++ part e
  | routine sig =>
    "(" ++ "; ".intercalate (sig.params.map part) ++ ")" ++
      (if sig.result = 0 then "" else ": " ++ part sig.result)

def parts : Spelling → List TypeId
  | pointer e | array e _ => [e]
  | routine sig => sig.result :: sig.params
  | _ => []

end Spelling

def spelling (t : TypeTable) (id : TypeId) : Spelling :=
  match t.shape? id with
  | none => .invalid
  | some (.pointer e) => .pointer e
  | some (.array e n) => .array e n
  | some (.routine sig) => .routine sig
  | some (.classRef i) =>
    .leaf (match t.classes[i]? with
      | some c => c.key.name
      | none => "class")
  | some s => .leaf s.kind.render

theorem renderFrom_succ (fuel : Nat) (id : TypeId) :
    t.renderFrom (fuel + 1) id =
      (t.spelling id).word ++ (t.spelling id).rest (t.renderFrom fuel) := by
  rw [renderFrom, spelling]
  cases t.shape? id with
  | none => rfl
  | some s =>
    cases s with
    | pointer e =>
      simp only [Spelling.word, Spelling.rest, ← String.append_assoc]
      rfl
    | array e n =>
      cases n <;> simp only [Spelling.word, Spelling.rest, ← String.append_assoc] <;> rfl
    | classRef i =>
      cases h : t.classes[i]? <;>
        simp only [Spelling.word, Spelling.rest, String.append_empty, h]
    | routine sig =>
      by_cases h : sig.result = 0
      · simp only [h, if_true, Spelling.word, Spelling.rest, ← String.append_assoc,
          String.append_empty]
        rfl
      · have hmark : "): " = ")" ++ ": " := rfl
        simp only [h, if_false, hmark, Spelling.word, Spelling.rest, ← String.append_assoc]
        rfl
    | _ => simp only [Spelling.word, Spelling.rest, String.append_empty]

theorem Spelling.rest_congr {σ : Spelling} {f g : TypeId → String}
    (h : ∀ p ∈ σ.parts, f p = g p) : σ.rest f = σ.rest g := by
  cases σ with
  | pointer e => simp [rest, h e (by simp [parts])]
  | array e n => cases n <;> simp [rest, h e (by simp [parts])]
  | routine sig =>
    have hparams : sig.params.map f = sig.params.map g :=
      List.map_congr_left fun p hp => h p (List.mem_cons_of_mem _ hp)
    simp [rest, hparams, h sig.result (by simp [parts])]
  | _ => rfl

theorem Orderly.parts_lt (ht : t.Orderly) (hp : p ∈ (t.spelling id).parts) : p < id := by
  unfold spelling at hp
  cases hs : t.shape? id with
  | none => simp [hs, Spelling.parts] at hp
  | some s =>
    apply ht.earlier id s hs
    cases s <;> simp_all [Spelling.parts, TypeShape.parts]

theorem Orderly.renderFrom_eq (ht : t.Orderly) {fuel fuel' : Nat} (h : id < fuel)
    (h' : id < fuel') : t.renderFrom fuel id = t.renderFrom fuel' id := by
  induction id using Nat.strongRecOn generalizing fuel fuel' with
  | _ id ih =>
    obtain ⟨fuel, rfl⟩ := Nat.exists_eq_add_of_lt h
    obtain ⟨fuel', rfl⟩ := Nat.exists_eq_add_of_lt h'
    rw [renderFrom_succ, renderFrom_succ]
    congr 1
    apply Spelling.rest_congr
    intro p hp
    have hlt := ht.parts_lt hp
    exact ih p hlt (by omega) (by omega)

theorem Orderly.render_eq (ht : t.Orderly) (hid : id ≤ t.shapes.size) :
    t.render id = (t.spelling id).word ++ (t.spelling id).rest t.render := by
  unfold render
  rw [renderFrom_succ]
  congr 1
  apply Spelling.rest_congr
  intro p hp
  have hlt := ht.parts_lt hp
  exact ht.renderFrom_eq (by omega) (by omega)

/-! ## Reading a text from its front -/

/-- The characters that end a word in a text of types. -/
def marks : List Char := [' ', ',', ';', '(', ')', '[', '<']

/-- Behind the text of a part there is nothing, or the next part, or the end of the list. -/
def Closes (x : List Char) : Prop := ∀ c ∈ x.head?, c = ',' ∨ c = ';' ∨ c = ')'

/-- What follows does not belong to the word in front of it. -/
def Cuts (x : List Char) : Prop := ∀ c ∈ x.head?, c ∈ marks

theorem Closes.cuts (hx : Closes x) : Cuts x := by
  intro c hc
  rcases hx c hc with rfl | rfl | rfl <;> decide

theorem word_inj {w' : List Char} (hw : ∀ c ∈ w, c ∉ marks) (hw' : ∀ c ∈ w', c ∉ marks)
    (hx : Cuts x) (hy : Cuts y) (h : w ++ x = w' ++ y) : w = w' ∧ x = y := by
  induction w generalizing w' with
  | nil =>
    cases w' with
    | nil => exact ⟨rfl, h⟩
    | cons c w' =>
      rw [List.nil_append] at h
      exact absurd (hx c (by simp [h])) (hw' c (by simp))
  | cons c w ih =>
    cases w' with
    | nil =>
      rw [List.nil_append] at h
      exact absurd (hy c (by simp [← h])) (hw c (by simp))
    | cons d w' =>
      obtain ⟨rfl, htail⟩ := List.cons_eq_cons.mp h
      obtain ⟨rfl, hrest⟩ := ih (fun e he => hw e (by simp [he])) (fun e he => hw' e (by simp [he]))
        htail
      exact ⟨rfl, hrest⟩

/-! ## Names that tell classes apart -/

/-- A type and all that it is built from. -/
inductive BuiltFrom (t : TypeTable) (id : TypeId) : TypeId → Prop
  | self : BuiltFrom t id id
  | part {k p : TypeId} (hk : BuiltFrom t id k) (hp : p ∈ (t.spelling k).parts) :
      BuiltFrom t id p

/-- The classes among the types `U` are told apart by their names, which are not empty, hold no mark
and are not those of basic types. -/
structure NamesTell (t : TypeTable) (U : TypeId → Prop) : Prop where
  ne_empty : ∀ k c, U k → t.classInfo? k = some c → c.key.name ≠ ""
  plain : ∀ k c, U k → t.classInfo? k = some c → ∀ x ∈ c.key.name.toList, x ∉ marks
  ownName : ∀ k c, U k → t.classInfo? k = some c →
    ∀ s : TypeShape, s.isBasic → c.key.name ≠ s.kind.render
  apart : ∀ k l c d, U k → U l → t.classInfo? k = some c → t.classInfo? l = some d →
    c.key.name = d.key.name → k = l

variable {U : TypeId → Prop}

/-- Both are the same basic type, or both are classes. -/
theorem leaf_cases (ht : t.Orderly) {name : String} (h : t.spelling a = .leaf name) :
    (∃ s, t.shape? a = some s ∧ s.isBasic ∧ name = s.kind.render) ∨
      ∃ c, t.classInfo? a = some c ∧ name = c.key.name := by
  unfold spelling at h
  cases hs : t.shape? a with
  | none => simp [hs] at h
  | some s =>
    cases s with
    | classRef i =>
      have hlt := ht.indexed a i hs
      right
      refine ⟨t.classes[i], classInfo?_eq_some.mpr ⟨i, hs, Array.getElem?_eq_getElem hlt⟩, ?_⟩
      simpa [hs, hlt, eq_comm] using h
    | pointer e => simp [hs] at h
    | array e n => simp [hs] at h
    | routine sig => simp [hs] at h
    | _ =>
      left
      refine ⟨_, rfl, rfl, ?_⟩
      simpa [hs, eq_comm] using h

/-- What stands behind a handle of this spelling, unless it is a word. -/
def Spelling.shape? : Spelling → Option (Option TypeShape)
  | invalid => some none
  | leaf _ => none
  | pointer e => some (some (.pointer e))
  | array e n => some (some (.array e n))
  | routine sig => some (some (.routine sig))

theorem shape?_spelling (t : TypeTable) (id : TypeId) :
    (t.spelling id).shape? = some (t.shape? id) ∨ ∃ name, t.spelling id = .leaf name := by
  unfold spelling
  cases t.shape? id with
  | none => exact .inl rfl
  | some s =>
    cases s with
    | pointer e => exact .inl rfl
    | array e n => exact .inl rfl
    | routine sig => exact .inl rfl
    | _ => exact .inr ⟨_, rfl⟩

theorem kind_inj_of_isBasic {s s' : TypeShape} (hs : s.isBasic) (hs' : s'.isBasic)
    (h : s.kind.render = s'.kind.render) : s = s' := by
  cases s <;> cases s' <;> simp_all [TypeShape.isBasic, TypeShape.kind, TypeKind.render]

/-- Whether a word holds a mark is found by looking through its letters, not through all there are. -/
theorem plain_of_all {w : String} (h : w.toList.all (· ∉ marks) = true) :
    ∀ c ∈ w.toList, c ∉ marks := by
  simpa using h

theorem plain_of_isBasic (hs : s.isBasic) : ∀ c ∈ s.kind.render.toList, c ∉ marks := by
  cases s <;> first | exact plain_of_all rfl | cases hs

namespace NamesTell

variable (hU : t.NamesTell U)
include hU

theorem word_plain (ht : t.Orderly) (ha : U a) : ∀ c ∈ (t.spelling a).word.toList, c ∉ marks := by
  cases hσ : t.spelling a with
  | leaf name =>
    rcases leaf_cases ht hσ with ⟨s, -, hbasic, rfl⟩ | ⟨c, hc, rfl⟩
    · exact plain_of_isBasic hbasic
    · exact hU.plain a c ha hc
  | invalid => exact plain_of_all rfl
  | pointer e => exact plain_of_all (w := "pointer") rfl
  | array e n => exact plain_of_all (w := "array") rfl
  | routine sig =>
    rw [Spelling.word]
    split
    · exact plain_of_all rfl
    · exact plain_of_all rfl

theorem leaf_inj (ht : t.Orderly) (ha : U a) (hb : U b) {name : String}
    (h : t.spelling a = .leaf name) (h' : t.spelling b = .leaf name) : a = b := by
  rcases leaf_cases ht h with ⟨s, hs, hbasic, rfl⟩ | ⟨c, hc, rfl⟩
  · rcases leaf_cases ht h' with ⟨s', hs', hbasic', hname⟩ | ⟨d, hd, hname⟩
    · obtain rfl := kind_inj_of_isBasic hbasic hbasic' hname
      exact ht.once a b s hs hs'
    · exact absurd hname.symm (hU.ownName b d hb hd s hbasic)
  · rcases leaf_cases ht h' with ⟨s', hs', hbasic', hname⟩ | ⟨d, hd, hname⟩
    · exact absurd hname (hU.ownName a c ha hc s' hbasic')
    · exact hU.apart a b c d ha hb hc hd hname

theorem spelling_inj (ht : t.Orderly) (ha : U a) (hb : U b)
    (hazero : t.shape? a = none → a = 0) (hbzero : t.shape? b = none → b = 0)
    (h : t.spelling a = t.spelling b) : a = b := by
  rcases shape?_spelling t a with hshape | ⟨name, hname⟩
  · rcases shape?_spelling t b with hshape' | ⟨name, hname⟩
    · rw [h, hshape', Option.some.injEq] at hshape
      cases hs : t.shape? a with
      | none => rw [hazero hs, hbzero (hshape.trans hs)]
      | some s => exact ht.once a b s hs (hshape.trans hs)
    · simp [h, hname, Spelling.shape?] at hshape
  · exact hU.leaf_inj ht ha hb hname (h ▸ hname)

end NamesTell

/-! ## Texts determine types -/

/-- The mark behind the word, if the text goes on. -/
def Spelling.opening : Spelling → Option Char
  | .invalid => some '<'
  | .leaf _ => none
  | .pointer _ | .array _ none => some ' '
  | .array _ (some _) => some '['
  | .routine _ => some '('

theorem Spelling.head?_rest (σ : Spelling) (part : TypeId → String) :
    (σ.rest part).toList.head? = σ.opening := by
  have hhead : ∀ (c : Char) (u v : String), u.toList.head? = some c →
      (u ++ v).toList.head? = some c := by
    intro c u v h
    rw [String.toList_append, List.head?_append, h]
    rfl
  cases σ with
  | invalid => exact (by decide : "<invalid>".toList.head? = some '<')
  | leaf name => rfl
  | pointer e => exact hhead ' ' _ _ (by decide)
  | array e n =>
    cases n with
    | none => exact hhead ' ' _ _ (by decide)
    | some n =>
      apply hhead
      apply hhead
      exact hhead '[' _ _ (by decide)
  | routine sig =>
    apply hhead
    apply hhead
    exact hhead '(' _ _ (by decide)

theorem Spelling.cuts_rest (σ : Spelling) (part : TypeId → String) (hx : Closes x) :
    Cuts ((σ.rest part).toList ++ x) := by
  intro c hc
  rw [List.head?_append, σ.head?_rest] at hc
  cases σ with
  | leaf name => exact hx.cuts c hc
  | array e n => cases n <;> cases hc <;> decide
  | _ => cases hc; decide

/-- Texts that go on differently are of different forms. -/
theorem Spelling.opening_eq {σ τ : Spelling} {part : TypeId → String} (hx : Closes x)
    (hy : Closes y) (h : (σ.rest part).toList ++ x = (τ.rest part).toList ++ y) :
    σ.opening = τ.opening := by
  have hhead := congrArg List.head? h
  rw [List.head?_append, List.head?_append, σ.head?_rest, τ.head?_rest] at hhead
  have hopen : ∀ (σ : Spelling), ∀ c ∈ σ.opening, ¬ (c = ',' ∨ c = ';' ∨ c = ')') := by
    intro σ c hc
    cases σ with
    | leaf name => cases hc
    | array e n => cases n <;> cases hc <;> decide
    | _ => cases hc; decide
  cases hσ : σ.opening with
  | none =>
    cases hτ : τ.opening with
    | none => rfl
    | some d => exact absurd (hx d (by simpa [hσ, hτ] using hhead)) (hopen τ d hτ)
  | some c =>
    cases hτ : τ.opening with
    | none => exact absurd (hy c (by simpa [hσ, hτ, eq_comm] using hhead)) (hopen σ c hσ)
    | some d => simpa [hσ, hτ] using hhead

/-- Texts of types, read from the front. -/
def Tells (r : TypeId → List Char) (p q : TypeId) : Prop :=
  ∀ x y, Closes x → Closes y → r p ++ x = r q ++ y → p = q ∧ x = y

section Lists

variable {r : TypeId → List Char} {ps qs : List TypeId} {c : Char} {sep : List Char}

theorem closes_items (hc : c = ',' ∨ c = ';') (ps : List TypeId) (x : List Char) :
    Closes (ps.flatMap (fun p => c :: sep ++ r p) ++ ')' :: x) := by
  intro d hd
  cases ps with
  | nil => right; right; simpa [eq_comm] using hd
  | cons p ps =>
    obtain rfl : c = d := by simpa using hd
    rcases hc with rfl | rfl <;> simp

theorem items_inj (hc : c = ',' ∨ c = ';') (hr : ∀ p ∈ ps, ∀ q ∈ qs, Tells r p q)
    (h : ps.flatMap (fun p => c :: sep ++ r p) ++ ')' :: x =
      qs.flatMap (fun q => c :: sep ++ r q) ++ ')' :: y) : ps = qs ∧ x = y := by
  have hne : c ≠ ')' := by rcases hc with rfl | rfl <;> decide
  induction ps generalizing qs with
  | nil =>
    cases qs with
    | nil => simpa using h
    | cons q qs => exact absurd (List.cons_eq_cons.mp h).1.symm hne
  | cons p ps ih =>
    cases qs with
    | nil => exact absurd (List.cons_eq_cons.mp h).1 hne
    | cons q qs =>
      simp only [List.flatMap_cons, List.append_assoc, List.cons_append, List.cons.injEq, true_and,
        List.append_cancel_left_eq] at h
      obtain ⟨rfl, htail⟩ := hr p (by simp) q (by simp) _ _ (closes_items hc ps x)
        (closes_items hc qs y) h
      obtain ⟨rfl, rfl⟩ := ih (fun p hp q hq => hr p (by simp [hp]) q (by simp [hq])) htail
      exact ⟨rfl, rfl⟩

theorem intercalate_cons (p : TypeId) (ps : List TypeId) :
    (sep.intercalate ((p :: ps).map r)) = r p ++ ps.flatMap fun q => sep ++ r q := by
  induction ps generalizing p with
  | nil => simp
  | cons q ps ih =>
    rw [List.map_cons, List.map_cons, List.intercalate_cons_cons, ← List.map_cons, ih]
    simp

theorem list_inj (hc : c = ',' ∨ c = ';') (hr : ∀ p ∈ ps, ∀ q ∈ qs, Tells r p q)
    (hopen : ∀ p ∈ ps ++ qs, ∃ d rest, r p = d :: rest ∧ d ≠ ')')
    (h : (c :: sep).intercalate (ps.map r) ++ ')' :: x =
      (c :: sep).intercalate (qs.map r) ++ ')' :: y) : ps = qs ∧ x = y := by
  cases ps with
  | nil =>
    cases qs with
    | nil => simpa using h
    | cons q qs =>
      obtain ⟨d, rest, hq, hd⟩ := hopen q (by simp)
      rw [intercalate_cons, hq] at h
      exact absurd (List.cons_eq_cons.mp h).1.symm hd
  | cons p ps =>
    cases qs with
    | nil =>
      obtain ⟨d, rest, hp, hd⟩ := hopen p (by simp)
      rw [intercalate_cons, hp] at h
      exact absurd (List.cons_eq_cons.mp h).1 hd
    | cons q qs =>
      rw [intercalate_cons, intercalate_cons, List.append_assoc, List.append_assoc] at h
      obtain ⟨rfl, htail⟩ := hr p (by simp) q (by simp) _ _ (closes_items hc ps x)
        (closes_items hc qs y) h
      obtain ⟨rfl, rfl⟩ :=
        items_inj hc (fun p hp q hq => hr p (by simp [hp]) q (by simp [hq])) htail
      exact ⟨rfl, rfl⟩

end Lists

theorem Spelling.rest_inj {σ τ : Spelling} {part : TypeId → String} (hword : σ.word = τ.word)
    (hparts : ∀ p ∈ σ.parts, ∀ q ∈ τ.parts, Tells (fun p => (part p).toList) p q)
    (hopen : ∀ p ∈ σ.parts ++ τ.parts, ∃ d rest, (part p).toList = d :: rest ∧ d ≠ ')')
    (hx : Closes x) (hy : Closes y)
    (h : (σ.rest part).toList ++ x = (τ.rest part).toList ++ y) : σ = τ ∧ x = y := by
  have hopening := opening_eq hx hy h
  cases σ with
  | invalid =>
    cases τ with
    | invalid => exact ⟨rfl, List.append_cancel_left h⟩
    | array e n => cases n <;> exact absurd hopening (by simp [opening])
    | _ => exact absurd hopening (by simp [opening])
  | leaf name =>
    cases τ with
    | leaf name' =>
      obtain rfl : name = name' := hword
      exact ⟨rfl, List.append_cancel_left h⟩
    | array e n => cases n <;> exact absurd hopening (by simp [opening])
    | _ => exact absurd hopening (by simp [opening])
  | pointer e =>
    cases τ with
    | pointer e' =>
      simp only [rest, String.toList_append, List.append_assoc] at h
      obtain ⟨rfl, rfl⟩ := hparts e (by simp [parts]) e' (by simp [parts]) x y hx hy
        (List.append_cancel_left h)
      exact ⟨rfl, rfl⟩
    | array e' n => exact absurd hword (by simp [word])
    | _ => exact absurd hopening (by simp [opening])
  | array e n =>
    cases τ with
    | array e' n' =>
      have hpart := hparts e (by simp [parts]) e' (by simp [parts]) x y hx hy
      cases n with
      | none =>
        cases n' with
        | none =>
          simp only [rest, String.toList_append, List.append_assoc] at h
          obtain ⟨rfl, rfl⟩ := hpart (List.append_cancel_left h)
          exact ⟨rfl, rfl⟩
        | some n' => exact absurd hopening (by simp [opening])
      | some n =>
        cases n' with
        | none => exact absurd hopening (by simp [opening])
        | some n' =>
          have hof : "] of ".toList = ']' :: " of ".toList := by decide
          simp only [rest, String.toList_append, List.append_assoc, toList_decimal, hof,
            List.cons_append] at h
          have hdigits : ∀ n, ']' ∉ Nat.toDigits 10 n := not_mem_digits rfl
          obtain ⟨hlength, -, htail⟩ :=
            cut_inj (hdigits n) (hdigits n') (List.append_cancel_left h)
          obtain rfl := decimal_inj hlength
          obtain ⟨rfl, rfl⟩ := hpart (List.append_cancel_left htail)
          exact ⟨rfl, rfl⟩
    | pointer e' => exact absurd hword (by simp [word])
    | _ => cases n <;> exact absurd hopening (by simp [opening])
  | routine sig =>
    cases τ with
    | routine sig' =>
      have hclose : ")".toList = [')'] := by decide
      have hsep : "; ".toList = ';' :: " ".toList := by decide
      have hmap : ∀ ps : List TypeId, (ps.map part).map String.toList =
          ps.map fun p => (part p).toList := fun ps => List.map_map
      simp only [rest, String.toList_append, String.toList_intercalate, hmap, hclose, hsep,
        List.append_assoc, List.cons_append, List.nil_append] at h
      obtain ⟨hparams, hresult⟩ := list_inj (.inr rfl)
        (fun p hp q hq => hparts p (by simp [parts, hp]) q (by simp [parts, hq]))
        (fun p hp => hopen p (by rcases List.mem_append.mp hp with hp | hp <;> simp [parts, hp]))
        (List.append_cancel_left h)
      have hprocedure : sig.result = 0 ↔ sig'.result = 0 := by
        have hne : "procedure" ≠ "function" := by decide
        by_cases hr : sig.result = 0 <;> by_cases hr' : sig'.result = 0 <;>
          simp_all [word, eq_comm]
      obtain ⟨ps, r⟩ := sig
      obtain ⟨qs, r'⟩ := sig'
      obtain rfl : ps = qs := hparams
      by_cases hr : r = 0
      · obtain rfl : r' = 0 := hprocedure.mp hr
        subst hr
        exact ⟨rfl, by simpa using hresult⟩
      · have hr' : r' ≠ 0 := fun h => hr (hprocedure.mpr h)
        rw [if_neg hr, if_neg hr', String.toList_append, String.toList_append, List.append_assoc,
          List.append_assoc] at hresult
        obtain ⟨rfl, rfl⟩ := hparts r (by simp [parts]) r' (by simp [parts]) x y hx hy
          (List.append_cancel_left hresult)
        exact ⟨rfl, rfl⟩
    | array e n => cases n <;> exact absurd hopening (by simp [opening])
    | _ => exact absurd hopening (by simp [opening])

namespace NamesTell

variable (hU : t.NamesTell U)
include hU

theorem opens (ht : t.Orderly) (ha : U a) (hle : a ≤ t.shapes.size) :
    ∃ d rest, (t.render a).toList = d :: rest ∧ d ≠ ')' := by
  rw [ht.render_eq hle, String.toList_append]
  cases hw : (t.spelling a).word.toList with
  | cons d w =>
    refine ⟨d, _, rfl, ?_⟩
    rintro rfl
    exact hU.word_plain ht ha ')' (by simp [hw]) (by decide)
  | nil =>
    have hempty : (t.spelling a).word = "" := String.toList_eq_nil_iff.mp hw
    cases hσ : t.spelling a with
    | invalid =>
      exact ⟨'<', "invalid>".toList, by simp [Spelling.rest], by decide⟩
    | leaf name =>
      rw [hσ] at hempty
      rcases leaf_cases ht hσ with ⟨s, -, hbasic, rfl⟩ | ⟨c, hc, rfl⟩
      · cases s <;> first | exact absurd hempty (by decide) | cases hbasic
      · exact absurd hempty (hU.ne_empty a c ha hc)
    | pointer e => simp [hσ, Spelling.word] at hempty
    | array e n => simp [hσ, Spelling.word] at hempty
    | routine sig =>
      rw [hσ, Spelling.word] at hempty
      split at hempty <;> exact absurd hempty (by decide)

theorem render_tells (ht : t.Orderly) (hparts : ∀ id, U id → ∀ p ∈ (t.spelling id).parts, U p)
    (hle : ∀ id, U id → id ≤ t.shapes.size) (ha : U a) (hb : U b) :
    Tells (fun p => (t.render p).toList) a b := by
  induction a using Nat.strongRecOn generalizing b with
  | _ a ih =>
    intro x y hx hy h
    simp only [ht.render_eq (hle a ha), ht.render_eq (hle b hb), String.toList_append,
      List.append_assoc] at h
    obtain ⟨hword, hrest⟩ := word_inj (hU.word_plain ht ha) (hU.word_plain ht hb)
      (Spelling.cuts_rest _ _ hx) (Spelling.cuts_rest _ _ hy) h
    have hopen : ∀ p ∈ (t.spelling a).parts ++ (t.spelling b).parts,
        ∃ d rest, (t.render p).toList = d :: rest ∧ d ≠ ')' := by
      intro p hp
      have hUp : U p := by
        rcases List.mem_append.mp hp with hp | hp
        · exact hparts a ha p hp
        · exact hparts b hb p hp
      exact hU.opens ht hUp (hle p hUp)
    obtain ⟨hspelling, hxy⟩ := Spelling.rest_inj (String.toList_inj.mp hword)
      (fun p hp q hq => ih p (ht.parts_lt hp) (hparts a ha p hp) (hparts b hb q hq)) hopen hx hy
      hrest
    have hknown : ∀ id, U id → t.shape? id = none → id = 0 := by
      intro id hid hnone
      by_contra hne
      obtain ⟨i, rfl⟩ := Nat.exists_eq_succ_of_ne_zero hne
      have hlt : i < t.shapes.size := hle _ hid
      simp [shape?, hlt] at hnone
    exact ⟨hU.spelling_inj ht ha hb (hknown a ha) (hknown b hb) hspelling, hxy⟩

end NamesTell

/-- In any table of a session, selectors of one name agree exactly if the parameter types do, as
long as the classes that the types are built from are told apart by their bare names. -/
theorem selectors_tell_parameters (ht : t.Arises) {ps qs : List TypeId}
    (hknown : ∀ p ∈ ps ++ qs, t.shape? p ≠ none)
    (hnames : t.NamesTell fun k => ∃ p ∈ ps ++ qs, t.BuiltFrom p k) (name : String) :
    t.selector name ps = t.selector name qs ↔ ps = qs := by
  refine ⟨fun h => ?_, fun h => h ▸ rfl⟩
  have hclosed : ∀ id, (∃ p ∈ ps ++ qs, t.BuiltFrom p id) →
      ∀ q ∈ (t.spelling id).parts, ∃ p ∈ ps ++ qs, t.BuiltFrom p q :=
    fun id ⟨p, hp, hid⟩ q hq => ⟨p, hp, hid.part hq⟩
  have hle : ∀ id, (∃ p ∈ ps ++ qs, t.BuiltFrom p id) → id ≤ t.shapes.size := by
    rintro id ⟨p, hp, hid⟩
    induction hid with
    | self =>
      obtain ⟨s, hs⟩ := Option.ne_none_iff_exists'.mp (hknown p hp)
      exact shape?_le hs
    | part _ hq ih => exact Nat.le_trans (Nat.le_of_lt (ht.orderly.parts_lt hq)) ih
  have hself : ∀ p ∈ ps ++ qs, ∃ q ∈ ps ++ qs, t.BuiltFrom q p := fun p hp => ⟨p, hp, .self⟩
  have hlist := congrArg String.toList h
  have hclose : ")".toList = [')'] := by decide
  have hsep : ",".toList = [','] := by decide
  simp only [selector, String.toList_append, String.toList_intercalate, List.map_map, hclose, hsep,
    List.append_assoc] at hlist
  refine (list_inj (.inl rfl) (fun p hp q hq => ?_) (fun p hp => ?_)
    (List.append_cancel_left (List.append_cancel_left hlist))).1
  · exact hnames.render_tells ht.orderly hclosed hle (hself p (by simp [hp]))
      (hself q (by simp [hq]))
  · exact hnames.opens ht.orderly (hself p hp) (hle p (hself p hp))

/-- Two classes of different names, types built from them, and the selectors of two routines. -/
def treeRequests : List TypeRequest :=
  [.newClass ⟨"wood", "node"⟩, .newClass ⟨"park", "leaf"⟩, .pointer 8, .array 9 5,
   .routine ⟨[10, 11], 4⟩]

theorem arises_after {rs : List TypeRequest} (ht : t.Arises)
    (hrs : ∀ i (h : i < rs.length), ∀ p ∈ (rs[i].shape (t.after (rs.take i)).classes.size).parts,
      p ≤ (t.after (rs.take i)).shapes.size) : (t.after rs).Arises := by
  induction rs generalizing t with
  | nil => exact ht
  | cons r rs ih =>
    apply ih (ht.request r (hrs 0 (by simp)))
    intro i hi
    exact hrs (i + 1) (by simpa using hi)

theorem selectors_tell_parameters_tree :
    (empty.after treeRequests).Arises ∧
      (∀ p ∈ [12, 8] ++ [12, 9], (empty.after treeRequests).shape? p ≠ none) ∧
      ((empty.after treeRequests).NamesTell fun k =>
        ∃ p ∈ [12, 8] ++ [12, 9], (empty.after treeRequests).BuiltFrom p k) ∧
      ((empty.after treeRequests).selector "show" [12, 8] =
        (empty.after treeRequests).selector "show" [12, 9] ↔ [12, 8] = [12, 9]) := by
  have harises : (empty.after treeRequests).Arises := arises_after .empty (by decide +kernel)
  have hknown : ∀ p ∈ [12, 8] ++ [12, 9], (empty.after treeRequests).shape? p ≠ none := by
    decide +kernel
  have hclasses : ∀ k c, (empty.after treeRequests).classInfo? k = some c →
      k = 8 ∧ c.key.name = "node" ∨ k = 9 ∧ c.key.name = "leaf" := by
    intro k c hc
    obtain ⟨i, hi, -⟩ := classInfo?_eq_some.mp hc
    have hsize : (empty.after treeRequests).shapes.size = 12 := by decide +kernel
    have hle : k ≤ 12 := hsize ▸ shape?_le hi
    have hall : ∀ k ≤ 12, ∀ c ∈ (empty.after treeRequests).classInfo? k,
        k = 8 ∧ c.key.name = "node" ∨ k = 9 ∧ c.key.name = "leaf" := by decide +kernel
    exact hall k hle c hc
  have hnames : (empty.after treeRequests).NamesTell fun k =>
      ∃ p ∈ [12, 8] ++ [12, 9], (empty.after treeRequests).BuiltFrom p k := by
    constructor
    · intro k c _ hc
      rcases hclasses k c hc with ⟨-, h⟩ | ⟨-, h⟩ <;> rw [h] <;> decide
    · intro k c _ hc
      rcases hclasses k c hc with ⟨-, h⟩ | ⟨-, h⟩ <;> rw [h] <;> exact plain_of_all rfl
    · intro k c _ hc s hs
      rcases hclasses k c hc with ⟨-, h⟩ | ⟨-, h⟩ <;> rw [h] <;>
        cases s <;> first | decide | cases hs
    · intro k l c d _ _ hc hd h
      rcases hclasses k c hc with ⟨rfl, hk⟩ | ⟨rfl, hk⟩ <;>
        rcases hclasses l d hd with ⟨rfl, hl⟩ | ⟨rfl, hl⟩ <;> simp_all
  exact ⟨harises, hknown, hnames, selectors_tell_parameters harises hknown hnames "show"⟩

/-- Two classes of one name, each of its own module. -/
def namesakes : TypeTable := empty.after [.newClass ⟨"wood", "node"⟩, .newClass ⟨"park", "node"⟩]

/-- The text of a class leaves its module out, so that the selectors of routines that take one or
the other class are the same. -/
theorem selector_misses_module :
    namesakes.Arises ∧ (∀ p ∈ [8] ++ [9], namesakes.shape? p ≠ none) ∧
      ¬ (namesakes.selector "show" [8] = namesakes.selector "show" [9] ↔ [8] = [9]) :=
  ⟨arises_after .empty (by decide +kernel), by decide +kernel, by decide +kernel⟩

/-! ## Numbers of parameters -/

/-- The classes have proper names. -/
def Titled (t : TypeTable) : Prop := ∀ c ∈ t.classes, IsName c.key.name

theorem not_mem_intercalate {c : Char} {sep : List Char} {xs : List (List Char)} (hsep : c ∉ sep)
    (hxs : ∀ x ∈ xs, c ∉ x) : c ∉ sep.intercalate xs := by
  induction xs with
  | nil => simp
  | cons x xs ih =>
    have hrest := ih fun y hy => hxs y (List.mem_cons_of_mem _ hy)
    cases xs with
    | nil => simpa using hxs x List.mem_cons_self
    | cons y ys =>
      rw [List.intercalate_cons_cons]
      simp [hsep, hrest, hxs x List.mem_cons_self]

theorem Titled.render (ht : t.Titled) (fuel : Nat) (id : TypeId) :
    t.renderFrom fuel id ≠ "" ∧ ',' ∉ (t.renderFrom fuel id).toList := by
  induction fuel generalizing id with
  | zero => exact ⟨by rw [renderFrom]; decide, by rw [renderFrom]; decide⟩
  | succ fuel ih =>
    have hplain : ∀ n : Nat, ',' ∉ (decimal n).toList := fun n => by
      rw [toList_decimal]
      exact not_mem_digits rfl n
    have hlist : ∀ ps : List TypeId,
        ',' ∉ [';', ' '].intercalate (ps.map (String.toList ∘ t.renderFrom fuel)) := by
      refine fun ps => not_mem_intercalate (by decide) fun x hx => ?_
      obtain ⟨p, -, rfl⟩ := List.mem_map.mp hx
      exact (ih p).2
    have hne : ∀ x y : String, x ≠ "" → x ++ y ≠ "" :=
      fun x y hx h => hx (String.append_eq_empty_iff.mp h).1
    rw [renderFrom]
    cases t.shape? id with
    | none => exact ⟨(by decide : "<invalid>" ≠ ""), (by decide : ',' ∉ "<invalid>".toList)⟩
    | some s =>
      cases s with
      | pointer e => exact ⟨hne _ _ (by decide), by simp [(ih e).2]⟩
      | array e n =>
        cases n with
        | none => exact ⟨hne _ _ (by decide), by simp [(ih e).2]⟩
        | some n => exact ⟨hne _ _ (hne _ _ (hne _ _ (by decide))), by simp [(ih e).2, hplain]⟩
      | classRef i =>
        dsimp only
        split
        · rename_i c hc
          have hname := ht c (Array.mem_of_getElem? hc)
          exact ⟨hname.ne_empty, fun hmem => absurd (hname.codes _ hmem) (by decide)⟩
        · exact ⟨by decide, by decide⟩
      | routine sig =>
        dsimp only
        split
        · exact ⟨hne _ _ (hne _ _ (by decide)), by simp [hlist]⟩
        · exact ⟨hne _ _ (hne _ _ (hne _ _ (by decide))), by simp [hlist, (ih _).2]⟩
      | _ => exact ⟨by simp [TypeShape.kind, TypeKind.render], by simp [TypeShape.kind, TypeKind.render]⟩

theorem count_intercalate {c : Char} {xs : List (List Char)} (hxs : ∀ x ∈ xs, x ≠ [] ∧ c ∉ x) :
    xs.length = ([c].intercalate xs).count c + if [c].intercalate xs = [] then 0 else 1 := by
  induction xs with
  | nil => simp
  | cons x xs ih =>
    obtain ⟨hne, hmem⟩ := hxs x List.mem_cons_self
    have hcount := List.count_eq_zero.mpr hmem
    cases xs with
    | nil => simp [hne, hcount]
    | cons y ys =>
      have hrest := ih fun y hy => hxs y (List.mem_cons_of_mem _ hy)
      rw [List.intercalate_cons_cons, List.length_cons, hrest]
      have hnil : [c].intercalate (y :: ys) ≠ [] := by
        intro h
        simp [h] at hrest
      simp [hnil, hne, hcount]

theorem Titled.length_params (ht : t.Titled) {name : String} {ps qs : List TypeId}
    (h : t.selector name ps = t.selector name qs) : ps.length = qs.length := by
  have hlist := congrArg String.toList h
  have hsep : ",".toList = [','] := by decide
  simp only [selector, String.toList_append, String.toList_intercalate, List.map_map, hsep] at hlist
  have hsame := List.append_cancel_left (List.append_cancel_right hlist)
  have hparts : ∀ ps : List TypeId, ∀ x ∈ ps.map (String.toList ∘ t.render), x ≠ [] ∧ ',' ∉ x := by
    intro ps x hx
    obtain ⟨p, -, rfl⟩ := List.mem_map.mp hx
    obtain ⟨hne, hmem⟩ := ht.render (t.shapes.size + 1) p
    exact ⟨fun h => hne (String.toList_eq_nil_iff.mp h), hmem⟩
  have hps := count_intercalate (hparts ps)
  have hqs := count_intercalate (hparts qs)
  rw [List.length_map] at hps hqs
  rw [hps, hqs, hsame]

end Pascaline.TypeTable
