import Pascaline.Proofs.Interface.Tables

/-!
# Types that are described and entered again

A description of a type says how it is built from basic types and classes. Entered into another
table, it gives the type that is built alike there; if the table has that type, nothing is added.
-/

namespace Pascaline

namespace TypeTable

variable {t t' t₁ t₁' : TypeTable} {a b id : Nat} {s : TypeShape}
  {S : TypeId → String → Prop}

/-! ## Types built alike -/

/-- Types of two tables that are built alike from basic types and from classes of the same keys. No
type is like no type. -/
inductive Alike (t t' : TypeTable) : TypeId → TypeId → Prop
  | none : Alike t t' 0 0
  | basic {a b : TypeId} {s : TypeShape} (ha : t.shape? a = some s) (hb : t'.shape? b = some s)
      (hbasic : s.isBasic) : Alike t t' a b
  | pointer {a b e f : TypeId} (ha : t.shape? a = some (.pointer e))
      (hb : t'.shape? b = some (.pointer f)) (helem : Alike t t' e f) : Alike t t' a b
  | array {a b e f : TypeId} {n : Option Nat} (ha : t.shape? a = some (.array e n))
      (hb : t'.shape? b = some (.array f n)) (helem : Alike t t' e f) : Alike t t' a b
  | classRef {a b : TypeId} {c d : ClassInfo} (ha : t.classInfo? a = some c)
      (hb : t'.classInfo? b = some d) (hkey : c.key = d.key) : Alike t t' a b
  | routine {a b : TypeId} {sig sig' : Signature} (ha : t.shape? a = some (.routine sig))
      (hb : t'.shape? b = some (.routine sig')) (hlength : sig.params.length = sig'.params.length)
      (hparams : ∀ (i : Nat) p q, sig.params[i]? = some p → sig'.params[i]? = some q →
        Alike t t' p q)
      (hresult : Alike t t' sig.result sig'.result) : Alike t t' a b

/-- What a shape of `t` says of a type of `t'` that is built alike. -/
def Mirrors (t t' : TypeTable) (b : TypeId) : TypeShape → Prop
  | .pointer e => ∃ f, t'.shape? b = some (.pointer f) ∧ Alike t t' e f
  | .array e n => ∃ f, t'.shape? b = some (.array f n) ∧ Alike t t' e f
  | .classRef i => ∃ c d, t.classes[i]? = some c ∧ t'.classInfo? b = some d ∧ c.key = d.key
  | .routine sig => ∃ sig', t'.shape? b = some (.routine sig') ∧
      List.Forall₂ (Alike t t') sig.params sig'.params ∧ Alike t t' sig.result sig'.result
  | s => t'.shape? b = some s

theorem forall₂_of_getElem? {R : TypeId → TypeId → Prop} {ps qs : List TypeId}
    (hlength : ps.length = qs.length)
    (h : ∀ (i : Nat) p q, ps[i]? = some p → qs[i]? = some q → R p q) : List.Forall₂ R ps qs := by
  refine List.forall₂_iff_get.mpr ⟨hlength, ?_⟩
  intro i hi hi'
  exact h i _ _ (List.getElem?_eq_getElem hi) (List.getElem?_eq_getElem hi')

namespace Alike

theorem mirrors (h : Alike t t' a b) (hs : t.shape? a = some s) : Mirrors t t' b s := by
  cases h with
  | none => cases hs
  | basic ha hb hbasic =>
    rw [hs] at ha
    cases ha
    cases s <;> first | exact hb | cases hbasic
  | pointer ha hb helem =>
    rw [hs] at ha
    cases ha
    exact ⟨_, hb, helem⟩
  | array ha hb helem =>
    rw [hs] at ha
    cases ha
    exact ⟨_, hb, helem⟩
  | classRef ha hb hkey =>
    obtain ⟨i, hi, hc⟩ := classInfo?_eq_some.mp ha
    rw [hs] at hi
    cases hi
    exact ⟨_, _, hc, hb, hkey⟩
  | routine ha hb hlength hparams hresult =>
    rw [hs] at ha
    cases ha
    exact ⟨_, hb, forall₂_of_getElem? hlength hparams, hresult⟩

theorem of_signature {sig sig' : Signature} (ha : t.shape? a = some (.routine sig))
    (hb : t'.shape? b = some (.routine sig'))
    (hparams : List.Forall₂ (Alike t t') sig.params sig'.params)
    (hresult : Alike t t' sig.result sig'.result) : Alike t t' a b := by
  obtain ⟨hlength, hget⟩ := List.forall₂_iff_get.mp hparams
  refine .routine ha hb hlength ?_ hresult
  intro i p q hp hq
  obtain ⟨hi, rfl⟩ := List.getElem?_eq_some_iff.mp hp
  obtain ⟨hi', rfl⟩ := List.getElem?_eq_some_iff.mp hq
  exact hget i hi hi'

theorem symm (h : Alike t t' a b) : Alike t' t b a := by
  induction h with
  | none => exact .none
  | basic ha hb hbasic => exact .basic hb ha hbasic
  | pointer ha hb _ ih => exact .pointer hb ha ih
  | array ha hb _ ih => exact .array hb ha ih
  | classRef ha hb hkey => exact .classRef hb ha hkey.symm
  | routine ha hb hlength _ _ hparams hresult =>
    exact .routine hb ha hlength.symm (fun i q p hq hp => hparams i p q hp hq) hresult

theorem mono (h : Alike t t' a b) (hle : t.Grows t₁) (hle' : t'.Grows t₁') :
    Alike t₁ t₁' a b := by
  induction h with
  | none => exact .none
  | basic ha hb hbasic => exact .basic (hle.shape? ha) (hle'.shape? hb) hbasic
  | pointer ha hb _ ih => exact .pointer (hle.shape? ha) (hle'.shape? hb) ih
  | array ha hb _ ih => exact .array (hle.shape? ha) (hle'.shape? hb) ih
  | classRef ha hb hkey =>
    obtain ⟨c, hc, hckey, -⟩ := hle.classInfo? ha
    obtain ⟨d, hd, hdkey, -⟩ := hle'.classInfo? hb
    exact .classRef hc hd (by rw [hckey, hdkey, hkey])
  | routine ha hb hlength _ _ hparams hresult =>
    exact .routine (hle.shape? ha) (hle'.shape? hb) hlength hparams hresult

theorem zero_left (h : Alike t t' 0 b) : b = 0 := by
  cases h with
  | none => rfl
  | classRef ha => cases ha
  | basic ha | pointer ha | array ha | routine ha => cases ha

theorem unique {b' : TypeId} (ht' : t'.Sound) (h : Alike t t' a b) (h' : Alike t t' a b') :
    b = b' := by
  induction h generalizing b' with
  | none => exact h'.zero_left.symm
  | @basic a b s ha hb hbasic =>
    have hm := h'.mirrors ha
    cases s <;> first | exact ht'.distinct _ _ _ hb hm | cases hbasic
  | pointer ha hb _ ih =>
    obtain ⟨f, hf, helem⟩ := h'.mirrors ha
    rw [ih helem] at hb
    exact ht'.distinct _ _ _ hb hf
  | array ha hb _ ih =>
    obtain ⟨f, hf, helem⟩ := h'.mirrors ha
    rw [ih helem] at hb
    exact ht'.distinct _ _ _ hb hf
  | classRef ha hb hkey =>
    obtain ⟨i, hi, hc⟩ := classInfo?_eq_some.mp ha
    obtain ⟨c', d', hc', hd', hkey'⟩ := h'.mirrors hi
    rw [hc] at hc'
    cases hc'
    exact ht'.eq_of_key hb hd' (hkey.symm.trans hkey')
  | @routine a b sig sig' ha hb hlength _ _ hparams hresult =>
    obtain ⟨⟨qs, r⟩, hb', hparams', hresult'⟩ := h'.mirrors ha
    obtain ⟨hlength', hget⟩ := List.forall₂_iff_get.mp hparams'
    have hps : sig'.params = qs := by
      refine List.ext_getElem (hlength.symm.trans hlength') ?_
      intro i hi hi'
      have hlt : i < sig.params.length := hlength ▸ hi
      exact hparams i _ _ (List.getElem?_eq_getElem hlt) (List.getElem?_eq_getElem hi)
        (hget i hlt hi')
    obtain ⟨ps', r'⟩ := sig'
    cases hps
    rw [show r' = r from hresult hresult'] at hb
    exact ht'.distinct _ _ _ hb hb'

theorem eq_iff {a' b' : TypeId} (ht : t.Sound) (ht' : t'.Sound) (ha : Alike t t' a a')
    (hb : Alike t t' b b') : a = b ↔ a' = b' := by
  constructor
  · rintro rfl
    exact ha.unique ht' hb
  · rintro rfl
    exact ha.symm.unique ht hb.symm

end Alike

theorem Within.alike_self (h : t.Within S id) : Alike t t id id := by
  induction h with
  | basic hs hbasic => exact .basic hs hs hbasic
  | pointer hs _ ih => exact .pointer hs hs ih
  | array hs _ ih => exact .array hs hs ih
  | classRef hc => exact .classRef hc hc rfl
  | @routine id sig hs _ _ hparams hresult =>
    refine .routine hs hs rfl ?_ ?_
    · intro i p q hp hq
      rw [hp] at hq
      cases hq
      exact hparams p (List.mem_of_getElem? hp)
    · by_cases hr : sig.result = 0
      · rw [hr]
        exact .none
      · exact hresult hr

/-! ## Descriptions -/

/-- A description by a shape and the descriptions of its parts. -/
def describeShape (t : TypeTable) (part : TypeId → Option TypeDesc) : TypeShape → TypeDesc
  | .pointer e => .pointer (part e)
  | .array e n => .array (part e) n
  | .classRef i => .classRef ((t.classes[i]?).map (·.key))
  | .routine sig => .routine (sig.result ≠ 0) (sig.params.filterMap part) (part sig.result)
  | s => .basic s.kind

theorem describeFrom_succ (t : TypeTable) (fuel : Nat) (id : TypeId) :
    t.describeFrom (fuel + 1) id = (t.shape? id).map (t.describeShape (t.describeFrom fuel)) := by
  unfold describeFrom
  cases t.shape? id with
  | none => rfl
  | some s => cases s <;> rfl

theorem describeShape_congr {part part' : TypeId → Option TypeDesc}
    (h : ∀ p ∈ s.parts, part p = part' p) : t.describeShape part s = t.describeShape part' s := by
  cases s with
  | pointer e => simp [describeShape, h e (by simp [TypeShape.parts])]
  | array e n => simp [describeShape, h e (by simp [TypeShape.parts])]
  | routine sig =>
    have hresult := h sig.result (by simp [TypeShape.parts])
    have hparams : sig.params.filterMap part = sig.params.filterMap part' :=
      List.filterMap_congr fun p hp => h p (by simp [TypeShape.parts, hp])
    simp [describeShape, hresult, hparams]
  | _ => rfl

theorem Sound.describeFrom_eq (ht : t.Sound) {fuel fuel' : Nat} (h : id < fuel) (h' : id < fuel') :
    t.describeFrom fuel id = t.describeFrom fuel' id := by
  induction id using Nat.strongRecOn generalizing fuel fuel' with
  | _ id ih =>
    obtain ⟨fuel, rfl⟩ := Nat.exists_eq_add_of_lt h
    obtain ⟨fuel', rfl⟩ := Nat.exists_eq_add_of_lt h'
    rw [describeFrom_succ, describeFrom_succ]
    cases hs : t.shape? id with
    | none => rfl
    | some s =>
      simp only [Option.map_some]
      rw [describeShape_congr]
      intro p hp
      have hlt : p < id := ht.earlier id s hs p hp
      exact ih p hlt (Nat.lt_add_right fuel hlt) (Nat.lt_add_right fuel' hlt)

theorem Sound.describe_eq (ht : t.Sound) (hs : t.shape? id = some s) :
    t.describe id = some (t.describeShape t.describe s) := by
  have hle := shape?_le hs
  unfold describe
  rw [describeFrom_succ, hs, Option.map_some, describeShape_congr]
  intro p hp
  have hlt : p < id := ht.earlier id s hs p hp
  exact ht.describeFrom_eq (Nat.lt_of_lt_of_le hlt hle)
    (Nat.lt_succ_of_lt (Nat.lt_of_lt_of_le hlt hle))

theorem Within.describe_isSome (h : t.Within S id) : (t.describe id).isSome := by
  obtain ⟨s, hs⟩ := h.exists_shape
  rw [describe, describeFrom_succ, hs]
  rfl

/-! ## Entering -/

section Recovery

variable {α β : Type} {x : Entry α} {f : α → Entry β} {P : TypeTable → α → Prop}
  {R : TypeTable → β → Prop}

theorem run_bind_ok {a : α} (h : x.run t = .ok a t₁) : (x >>= f).run t = (f a).run t₁ := by
  change EStateM.bind x f t = _
  unfold EStateM.bind
  rw [show x t = .ok a t₁ from h]
  rfl

/-- Run on `t`, an action adds types at most and gives a result of which `P` holds. It adds nothing
if `t` has such a result already. -/
structure Recovery (t : TypeTable) (x : Entry α) (P : TypeTable → α → Prop) (a : α)
    (t' : TypeTable) : Prop where
  run : x.run t = .ok a t'
  sound : t'.Sound
  grows : t.Grows t'
  classes : t'.classes = t.classes
  result : P t' a
  same : (∃ b, P t b) → t' = t

def Recovers (t : TypeTable) (x : Entry α) (P : TypeTable → α → Prop) : Prop :=
  ∃ a t', Recovery t x P a t'

theorem Recovers.pure {a : α} (ht : t.Sound) (h : P t a) : Recovers t (Pure.pure a) P :=
  ⟨a, t, rfl, ht, .refl t, rfl, h, fun _ => rfl⟩

theorem Recovers.bind (hx : Recovers t x P)
    (hf : ∀ a t₁, t₁.Sound → t.Grows t₁ → t₁.classes = t.classes → P t₁ a → Recovers t₁ (f a) R)
    (hsame : ∀ b, R t b → ∃ a, P t a) : Recovers t (x >>= f) R := by
  obtain ⟨a, t₁, hx⟩ := hx
  obtain ⟨b, t', hy⟩ := hf a t₁ hx.sound hx.grows hx.classes hx.result
  refine ⟨b, t', by rw [run_bind_ok hx.run, hy.run], hy.sound, hx.grows.trans hy.grows,
    hy.classes.trans hx.classes, hy.result, ?_⟩
  rintro ⟨b₀, hb₀⟩
  obtain rfl := hx.same (hsame b₀ hb₀)
  exact hy.same ⟨b₀, hb₀⟩

theorem Recovers.imp {Q : TypeTable → α → Prop} (h : Recovers t x P)
    (hPQ : ∀ t' a, t.Grows t' → t'.classes = t.classes → P t' a → Q t' a)
    (hsame : ∀ a, Q t a → ∃ b, P t b) : Recovers t x Q := by
  obtain ⟨a, t', h⟩ := h
  exact ⟨a, t', h.run, h.sound, h.grows, h.classes, hPQ t' a h.grows h.classes h.result,
    fun ⟨b, hb⟩ => h.same (hsame b hb)⟩

theorem Recovers.within (h : Recovers t x P) (place : UnitError → UnitError) :
    Recovers t (TypeTable.within place x) P := by
  obtain ⟨a, t', h⟩ := h
  refine ⟨a, t', ?_, h.sound, h.grows, h.classes, h.result, h.same⟩
  change TypeTable.within place x t = _
  unfold TypeTable.within
  rw [show x t = .ok a t' from h.run]

end Recovery

theorem recovers_intern (ht : t.Sound) (hparts : ∀ p ∈ s.parts, p ≤ t.shapes.size)
    (hclass : ∀ i, s ≠ .classRef i) :
    Recovers t (modifyGet (·.intern s)) (fun t' id => t'.shape? id = some s) := by
  have h := ht.intern hparts hclass
  refine ⟨(t.intern s).1, (t.intern s).2, rfl, h.sound ht, h.grows, h.classes, h.shape, ?_⟩
  rintro ⟨id, hid⟩
  rw [ht.intern_of_shape? hid]

theorem recovers_classOfKey {key : ClassKey} (ht : t.Sound) (h : t.keyOf? id = some key) :
    Recovers t (classOfKey key) (fun t' id' => t'.keyOf? id' = some key) := by
  refine ⟨id, t, ?_, ht, .refl t, rfl, h, fun _ => rfl⟩
  unfold classOfKey
  rw [run_bind_ok (show (get : Entry TypeTable).run t = .ok t t from rfl), ht.classByKey?_eq_some.mpr h]
  rfl

/-- All classes `S` of `t` are in `t'` under the same keys. -/
def Loaded (t : TypeTable) (S : TypeId → String → Prop) (t' : TypeTable) : Prop :=
  ∀ id key, t.keyOf? id = some key → S id key.module → ∃ id', t'.keyOf? id' = some key

theorem Loaded.grows (h : Loaded t S t') (hle : t'.Grows t₁') : Loaded t S t₁' := by
  intro id key hkey hS
  obtain ⟨id', hid'⟩ := h id key hkey hS
  exact ⟨id', hle.keyOf? hid'⟩

/-- Entering the description of a type gives one that is alike. -/
def Enterable (t : TypeTable) (S : TypeId → String → Prop) (id : TypeId) : Prop :=
  ∀ t', t'.Sound → Loaded t S t' →
    Recovers t' (enterOption (t.describe id)) (fun t'' id' => Alike t t'' id id')

theorem enterable_zero : Enterable t S 0 := fun _ ht' _ => .pure ht' .none

theorem Alike.le_size (h : Alike t t' a b) : b ≤ t'.shapes.size := by
  cases h with
  | none => exact Nat.zero_le _
  | classRef _ hb =>
    obtain ⟨i, hi, -⟩ := classInfo?_eq_some.mp hb
    exact shape?_le hi
  | basic _ hb | pointer _ hb | array _ hb | routine _ hb => exact shape?_le hb

theorem enterTypes_recovers {ps : List TypeId} (h : ∀ p ∈ ps, Enterable t S p)
    (hsome : ∀ p ∈ ps, (t.describe p).isSome) (ht' : t'.Sound) (hload : Loaded t S t') :
    Recovers t' (enterTypes (ps.filterMap t.describe))
      (fun t'' qs => List.Forall₂ (Alike t t'') ps qs) := by
  induction ps generalizing t' with
  | nil =>
    rw [List.filterMap_nil, enterTypes]
    exact .pure ht' .nil
  | cons p ps ih =>
    obtain ⟨d, hd⟩ := Option.isSome_iff_exists.mp (hsome p List.mem_cons_self)
    have hp := h p List.mem_cons_self t' ht' hload
    rw [hd, enterOption] at hp
    rw [List.filterMap_cons_some hd, enterTypes]
    refine hp.bind ?_ ?_
    · intro q t₁ ht₁ hle _ hq
      refine (ih (fun p hp => h p (List.mem_cons_of_mem _ hp))
        (fun p hp => hsome p (List.mem_cons_of_mem _ hp)) ht₁ (hload.grows hle)).bind ?_ ?_
      · intro qs t₂ ht₂ hle₂ _ hqs
        exact .pure ht₂ (.cons (hq.mono (.refl t) hle₂) hqs)
      · rintro _ (_ | ⟨_, hqs⟩)
        exact ⟨_, hqs⟩
    · rintro _ (_ | ⟨hq, _⟩)
      exact ⟨_, hq⟩

theorem recovers_basic (ht' : t'.Sound) (hs : t.shape? id = some s)
    (hbasic : s.isBasic) :
    Recovers t' (internBasic s.kind) (fun t'' id' => Alike t t'' id id') := by
  have hstart : ∀ {i : Nat}, empty.shapes[i]? = some s → internBasic s.kind = pure (i + 1) →
      Recovers t' (internBasic s.kind) (fun t'' id' => Alike t t'' id id') := by
    intro i hi hrun
    rw [hrun]
    exact .pure ht' (.basic hs (ht'.shape?_basic hi) hbasic)
  cases s with
  | void => exact hstart (i := 0) rfl rfl
  | nil => exact hstart (i := 1) rfl rfl
  | boolean => exact hstart (i := 2) rfl rfl
  | integer => exact hstart (i := 3) rfl rfl
  | real => exact hstart (i := 4) rfl rfl
  | char => exact hstart (i := 5) rfl rfl
  | string => exact hstart (i := 6) rfl rfl
  | _ => cases hbasic

theorem recovers_elem {e : TypeId} {f : TypeId → TypeShape} (ht' : t'.Sound)
    (hload : Loaded t S t') (he : Enterable t S e) (hs : t.shape? id = some (f e))
    (hparts : ∀ e', (f e').parts = [e']) (hclass : ∀ e' i, f e' ≠ .classRef i)
    (halike : ∀ {t'' b e'}, t''.shape? b = some (f e') → Alike t t'' e e' → Alike t t'' id b)
    (hmirrors : ∀ {t'' b}, Mirrors t t'' b (f e) →
      ∃ e', t''.shape? b = some (f e') ∧ Alike t t'' e e') :
    Recovers t' (enterOption (t.describe e) >>= fun e' => modifyGet (·.intern (f e')))
      (fun t'' id' => Alike t t'' id id') := by
  refine (he t' ht' hload).bind ?_ ?_
  · intro e₁ t₁ ht₁ _ _ he₁
    refine (recovers_intern ht₁ ?_ (hclass e₁)).imp ?_ ?_
    · rw [hparts e₁]
      simpa using he₁.le_size
    · intro t₂ b hle _ hb
      exact halike hb (he₁.mono (.refl t) hle)
    · intro b hb
      obtain ⟨e₂, hshape, he₂⟩ := hmirrors (hb.mirrors hs)
      rw [he₁.unique ht₁ he₂]
      exact ⟨b, hshape⟩
  · intro b hb
    obtain ⟨e₁, -, he₁⟩ := hmirrors (hb.mirrors hs)
    exact ⟨e₁, he₁⟩

/-- A description says all there is to a type: entered anywhere, it gives one that is alike. -/
theorem Within.enterable (h : t.Within S id) (ht : t.Sound) : Enterable t S id := by
  induction h with
  | @basic id s hs hbasic =>
    intro t' ht' _
    have hd : t.describe id = some (.basic s.kind) := by
      rw [ht.describe_eq hs]
      cases s <;> first | rfl | cases hbasic
    rw [hd]
    exact recovers_basic ht' hs hbasic
  | pointer hs _ ih =>
    intro t' ht' hload
    rw [ht.describe_eq hs]
    exact recovers_elem (f := .pointer) ht' hload ih hs (fun _ => rfl) (by simp)
      (fun hb hf => .pointer hs hb hf) (fun h => h)
  | @array id e n hs _ ih =>
    intro t' ht' hload
    rw [ht.describe_eq hs]
    exact recovers_elem (f := (.array · n)) ht' hload ih hs (fun _ => rfl) (by simp)
      (fun hb hf => .array hs hb hf) (fun h => h)
  | @classRef id c hc hkey =>
    intro t' ht' hload
    obtain ⟨i, hi, hget⟩ := classInfo?_eq_some.mp hc
    rw [ht.describe_eq hi, describeShape, hget]
    obtain ⟨id', hid'⟩ := hload id c.key (keyOf?_eq_some.mpr ⟨c, hc, rfl⟩) hkey
    refine (recovers_classOfKey ht' hid').imp ?_ ?_
    · intro t'' b _ _ hb
      obtain ⟨d, hd, hkey⟩ := keyOf?_eq_some.mp hb
      exact .classRef hc hd hkey.symm
    · exact fun _ _ => ⟨id', hid'⟩
  | @routine id sig hs hparams hresult ihparams ihresult =>
    intro t' ht' hload
    rw [ht.describe_eq hs]
    have hres : Enterable t S sig.result := by
      by_cases hr : sig.result = 0
      · rw [hr]
        exact enterable_zero
      · exact ihresult hr
    refine (enterTypes_recovers ihparams (fun p hp => (hparams p hp).describe_isSome) ht'
      hload).bind ?_ ?_
    · intro ps t₁ ht₁ hle₁ _ hps
      refine (hres t₁ ht₁ (hload.grows hle₁)).bind ?_ ?_
      · intro r t₂ ht₂ hle₂ _ hr
        have hps₂ : List.Forall₂ (Alike t t₂) sig.params ps :=
          hps.imp fun _ _ hp => hp.mono (.refl t) hle₂
        refine (recovers_intern (s := .routine ⟨ps, r⟩) ht₂ ?_ (by simp)).imp ?_ ?_
        · intro q hq
          rcases List.mem_cons.mp hq with rfl | hq
          · exact hr.le_size
          · obtain ⟨p, hp⟩ := forall₂_mem_right hps₂ hq
            exact hp.le_size
        · intro t₃ b hle₃ _ hb
          exact .of_signature hs hb (hps₂.imp fun _ _ hp => hp.mono (.refl t) hle₃)
            (hr.mono (.refl t) hle₃)
        · intro b hb
          obtain ⟨⟨ps', r'⟩, hshape, hps', hr'⟩ := hb.mirrors hs
          have hsame : ps = ps' :=
            List.right_unique_forall₂' (fun _ _ _ hp hp' => hp.unique ht₂ hp') hps₂ hps'
          rw [hsame, hr.unique ht₂ hr']
          exact ⟨b, hshape⟩
      · intro b hb
        obtain ⟨sig', -, -, hr⟩ := hb.mirrors hs
        exact ⟨_, hr⟩
    · intro b hb
      obtain ⟨sig', -, hps, -⟩ := hb.mirrors hs
      exact ⟨_, hps⟩

end TypeTable

end Pascaline
