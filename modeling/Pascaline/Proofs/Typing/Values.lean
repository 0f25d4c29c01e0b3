import Pascaline.Bound.Coercion
import Pascaline.Proofs.Interface.Selectors
import Pascaline.Proofs.Lowering.Folding
import Pascaline.Types.Compat

/-!
# Types and values of a program without classes

What a table of types looks like as long as no class is declared: references and routines are made of
types that have values. In such a table the only values that stand as they are in a place of another
type are nil and fixed arrays.

Which values a type has, and that operators and built-in routines yield values of the types that are
assigned to them. References and routine values have a type relative to what they refer to: the type
of the elements of a cell, and the signature of a routine.
-/

namespace Pascaline

namespace TypeShape

/-- A value of the first type may stand in a place of the second as it is. -/
inductive Fits : TypeShape → TypeShape → Prop
  | same (s : TypeShape) : Fits s s
  | nil {s : TypeShape} (hs : s.kind.isReference = true) : Fits .nil s
  | array (e : TypeId) (n : Option Nat) : Fits (.array e n) (.array e none)

/-- The kind of a type without parts tells it from all others. -/
theorem eq_of_kind {s s' : TypeShape} (hs : s.isBasic = true) (h : s'.kind = s.kind) : s' = s := by
  cases s' with
  | routine sig => by_cases hr : sig.result = 0 <;> cases s <;> simp_all [kind, isBasic]
  | _ => cases s <;> simp_all [kind, isBasic]

end TypeShape

/-! ## Types with values -/

/-- The type is there, and it is not `void`. -/
def TypeTable.Storable (t : TypeTable) (id : TypeId) : Prop :=
  ∃ s, t.shape? id = some s ∧ s ≠ .void

/-- A routine without a result has the result 0. -/
structure Signature.Storable (sig : Signature) (t : TypeTable) : Prop where
  params : ∀ p ∈ sig.params, t.Storable p
  result : sig.result ≠ 0 → t.Storable sig.result

/-- A type that is no class, and whose parts have values. -/
def TypeShape.Regular (t : TypeTable) : TypeShape → Prop
  | .pointer e | .array e _ => t.Storable e
  | .routine sig => sig.Storable t
  | .classRef _ => False
  | _ => True

namespace TypeTable

variable {t t' : TypeTable} {a b id : TypeId} {s : TypeShape} {sig : Signature}

theorem Storable.mono (h : t.Storable id) (hle : t.Grows t') : t'.Storable id := by
  obtain ⟨s, hs, hne⟩ := h
  exact ⟨s, hle.shape? hs, hne⟩

theorem Storable.ne_zero (h : t.Storable id) : id ≠ 0 := by
  obtain ⟨s, hs, -⟩ := h
  exact ne_zero_of_shape? hs

theorem Storable.le_size (h : t.Storable id) : id ≤ t.shapes.size := by
  obtain ⟨s, hs, -⟩ := h
  exact shape?_le hs

theorem storable_of_kind (hinvalid : t.kind id ≠ .invalid) (hvoid : t.kind id ≠ .void) :
    t.Storable id := by
  obtain ⟨s, hs, hk⟩ := exists_shape_of_kind rfl hinvalid
  refine ⟨s, hs, ?_⟩
  rintro rfl
  exact hvoid hk.symm

theorem signature?_eq_some : t.signature? id = some sig ↔ t.shape? id = some (.routine sig) := by
  unfold signature?
  split
  · simp_all
  · rename_i h
    simpa using h sig

end TypeTable

theorem Signature.Storable.mono {sig : Signature} {t t' : TypeTable} (h : sig.Storable t)
    (hle : t.Grows t') : sig.Storable t' :=
  ⟨fun p hp => (h.params p hp).mono hle, fun hne => (h.result hne).mono hle⟩

theorem TypeShape.Regular.mono {s : TypeShape} {t t' : TypeTable} (h : s.Regular t)
    (hle : t.Grows t') : s.Regular t' := by
  cases s with
  | pointer e | array e n => exact TypeTable.Storable.mono h hle
  | routine sig => exact Signature.Storable.mono h hle
  | classRef i => exact h
  | _ => trivial

namespace TypeTable

variable {t t' : TypeTable} {a b id : TypeId} {s : TypeShape} {sig : Signature}

/-- A table without classes. -/
structure Plain (t : TypeTable) : Prop extends t.Sound where
  regular : ∀ (id : TypeId) (s : TypeShape), t.shape? id = some s → s.Regular t

namespace Plain

theorem shape?_ne_classRef (ht : t.Plain) (id : TypeId) (i : Nat) :
    t.shape? id ≠ some (.classRef i) :=
  fun h => ht.regular id _ h

theorem kind_ne_classRef (ht : t.Plain) (id : TypeId) : t.kind id ≠ .classRef := by
  intro h
  obtain ⟨s, hs, hk⟩ := exists_shape_of_kind h (by decide)
  have hregular := ht.regular id s hs
  cases s with
  | classRef i => exact hregular
  | routine sig => by_cases hr : sig.result = 0 <;> simp [TypeShape.kind, hr] at hk
  | _ => simp [TypeShape.kind] at hk

theorem classInfo?_eq_none (ht : t.Plain) (id : TypeId) : t.classInfo? id = none := by
  cases h : t.classInfo? id with
  | none => rfl
  | some c =>
    obtain ⟨i, hi, -⟩ := classInfo?_eq_some.mp h
    exact absurd hi (ht.shape?_ne_classRef id i)

theorem classOf?_eq_none (ht : t.Plain) (id : TypeId) : t.classOf? id = none := by
  unfold classOf?
  split <;> exact ht.classInfo?_eq_none _

end Plain

/-! ## Basic types -/

namespace Sound

/-- The kind of a basic type is that of no other type. -/
theorem eq_of_kind (ht : t.Sound) {i : Nat} (hs : empty.shapes[i]? = some s)
    (h : t.kind id = s.kind) : id = i + 1 := by
  have hall : ∀ s ∈ empty.shapes.toList, s.isBasic = true ∧ s.kind ≠ .invalid := by decide
  obtain ⟨hbasic, hvalid⟩ := hall s (Array.mem_toList_iff.mpr (Array.mem_of_getElem? hs))
  obtain ⟨s', hs', hk⟩ := exists_shape_of_kind h hvalid
  obtain rfl := TypeShape.eq_of_kind hbasic hk
  exact ht.distinct _ _ _ hs' (ht.shape?_basic hs)

theorem eq_boolean (ht : t.Sound) (h : t.kind id = .boolean) : id = boolean :=
  ht.eq_of_kind (i := 2) rfl h

theorem eq_integer (ht : t.Sound) (h : t.kind id = .integer) : id = integer :=
  ht.eq_of_kind (i := 3) rfl h

theorem eq_real (ht : t.Sound) (h : t.kind id = .real) : id = real := ht.eq_of_kind (i := 4) rfl h

theorem eq_char (ht : t.Sound) (h : t.kind id = .char) : id = char := ht.eq_of_kind (i := 5) rfl h

theorem eq_string (ht : t.Sound) (h : t.kind id = .string) : id = string :=
  ht.eq_of_kind (i := 6) rfl h

theorem shape?_void (ht : t.Sound) : t.shape? void = some .void := ht.shape?_basic (i := 0) rfl

theorem shape?_nil (ht : t.Sound) : t.shape? nil = some .nil := ht.shape?_basic (i := 1) rfl

theorem shape?_boolean (ht : t.Sound) : t.shape? boolean = some .boolean :=
  ht.shape?_basic (i := 2) rfl

theorem shape?_integer (ht : t.Sound) : t.shape? integer = some .integer :=
  ht.shape?_basic (i := 3) rfl

theorem shape?_real (ht : t.Sound) : t.shape? real = some .real := ht.shape?_basic (i := 4) rfl

theorem shape?_char (ht : t.Sound) : t.shape? char = some .char := ht.shape?_basic (i := 5) rfl

theorem shape?_string (ht : t.Sound) : t.shape? string = some .string :=
  ht.shape?_basic (i := 6) rfl

theorem storable_of_basic (ht : t.Sound) {i : Nat} (hs : empty.shapes[i]? = some s)
    (hne : s ≠ .void) : t.Storable (i + 1) :=
  ⟨s, ht.shape?_basic hs, hne⟩

end Sound

/-! ## Entering types -/

theorem regular_of_isBasic (h : s.isBasic = true) : s.Regular t := by
  cases s <;> trivial

theorem plain_empty : empty.Plain := by
  refine ⟨sound_empty, fun id s hs => regular_of_isBasic ?_⟩
  have hall : ∀ s ∈ empty.shapes.toList, s.isBasic = true := by decide
  exact hall s (Array.mem_toList_iff.mpr (Array.mem_of_getElem? (shape?_eq_some.mp hs).2))

theorem le_size_of_regular (h : s.Regular t) : ∀ p ∈ s.parts, p ≤ t.shapes.size := by
  cases s with
  | pointer e | array e n =>
    intro p hp
    obtain rfl : p = e := by simpa [TypeShape.parts] using hp
    exact Storable.le_size h
  | routine sig =>
    intro p hp
    rcases List.mem_cons.mp hp with rfl | hp
    · by_cases hr : sig.result = 0
      · exact hr ▸ Nat.zero_le _
      · exact (Signature.Storable.result h hr).le_size
    · exact (Signature.Storable.params h p hp).le_size
  | _ => exact fun p hp => absurd hp (by simp [TypeShape.parts])

theorem Plain.intern (ht : t.Plain) (hs : s.Regular t) :
    (t.intern s).2.Plain ∧ Interns t s (t.intern s).1 (t.intern s).2 := by
  have hclass : ∀ i, s ≠ .classRef i := by
    rintro i rfl
    exact hs
  have h := ht.toSound.intern (le_size_of_regular hs) hclass
  refine ⟨⟨h.sound ht.toSound, fun id s' hs' => ?_⟩, h⟩
  by_cases hold : ∃ id, t.shape? id = some s
  · obtain ⟨id', hid⟩ := hold
    rw [ht.toSound.intern_of_shape? hid] at hs' ⊢
    exact ht.regular id s' hs'
  · rw [intern_eq_push (by simpa using hold)] at hs' h ⊢
    rw [shape?_push] at hs'
    split at hs'
    · cases hs'
      exact hs.mono h.grows
    · exact (ht.regular id s' hs').mono h.grows

/-! ## Fitting -/

/-- A value of the first type may stand in a place of the second as it is. -/
def Fits (t : TypeTable) (a b : TypeId) : Prop :=
  ∃ s s', t.shape? a = some s ∧ t.shape? b = some s' ∧ s.Fits s'

theorem Storable.fits (h : t.Storable a) : t.Fits a a := by
  obtain ⟨s, hs, -⟩ := h
  exact ⟨s, s, hs, hs, .same s⟩

theorem Fits.mono (h : t.Fits a b) (hle : t.Grows t') : t'.Fits a b := by
  obtain ⟨s, s', hs, hs', hfits⟩ := h
  exact ⟨s, s', hle.shape? hs, hle.shape? hs', hfits⟩

/-- Only a place of references takes values of another type. -/
theorem Sound.eq_of_fits (ht : t.Sound) (h : t.Fits a b) (hb : t.shape? b = some s)
    (hs : s.kind.isReference = false) : a = b := by
  obtain ⟨s₁, s₂, ha, hb', hfits⟩ := h
  obtain rfl : s = s₂ := Option.some.inj (hb.symm.trans hb')
  cases hfits with
  | same => exact ht.distinct _ _ _ ha hb
  | nil hnil =>
    rw [hs] at hnil
    cases hnil
  | array e n => simp [TypeShape.kind, TypeKind.isReference] at hs

/-- Besides what fits as it is, only integers may stand where reals are wanted. -/
theorem Plain.fits_of_assignable (ht : t.Plain) (ha : t.shape? a = some s) :
    (t.assignable a b = .exact → t.Fits a b) ∧
    (t.assignable a b = .widening → t.Fits a b ∨ a = integer ∧ b = real) := by
  have hclass : ∀ {x y}, t.derivesFrom x y = false := by
    intro x y
    simp [derivesFrom, ht.kind_ne_classRef]
  unfold assignable
  dsimp only
  split
  · simp
  split
  case isTrue heq =>
    subst heq
    exact ⟨fun _ => ⟨s, s, ha, ha, .same s⟩, by simp⟩
  rw [ha]
  cases hb : t.shape? b with
  | none => simp
  | some s' =>
    split
    case h_1 heq heq' =>
      cases heq
      cases heq'
      refine ⟨?_, by split <;> simp⟩
      intro h
      split at h
      · exact ⟨.nil, s', ha, hb, .nil ‹_›⟩
      · cases h
    case h_2 heq heq' =>
      cases heq
      cases heq'
      exact ⟨by simp, fun _ => .inr ⟨ht.distinct _ _ _ ha ht.shape?_integer,
        ht.distinct _ _ _ hb ht.shape?_real⟩⟩
    case h_3 heq heq' =>
      cases heq
      exact absurd ha (ht.shape?_ne_classRef _ _)
    case h_4 => simp [hclass]
    case h_5 heq heq' =>
      cases heq'
      exact absurd hb (ht.shape?_ne_classRef _ _)
    case h_6 heq heq' =>
      cases heq
      exact absurd ha (ht.shape?_ne_classRef _ _)
    case h_7 e n f heq heq' =>
      cases heq
      cases heq'
      refine ⟨by split <;> simp, ?_⟩
      intro h
      split at h
      case isTrue hef =>
        obtain rfl : e = f := by simpa using hef
        exact .inl ⟨_, _, ha, hb, .array e n⟩
      case isFalse => cases h
    case h_8 => simp

/-! ## Selectors -/

/-- Without classes the selectors of routines of one name tell their parameters. -/
theorem Plain.params_of_selector (ht : t.Plain) {name : String} {ps qs : List TypeId}
    (hps : ∀ p ∈ ps ++ qs, t.Storable p) (h : t.selector name ps = t.selector name qs) :
    ps = qs := by
  have horderly : t.Orderly := ⟨⟨ht.distinct, ht.indexed⟩, ht.earlier⟩
  have hnames : t.NamesTell fun id => id ≤ t.shapes.size := by
    have hnone : ∀ {k c}, t.classInfo? k ≠ some c := by simp [ht.classInfo?_eq_none]
    exact ⟨fun _ _ _ hc => absurd hc hnone, fun _ _ _ hc => absurd hc hnone,
      fun _ _ _ hc => absurd hc hnone, fun _ _ _ _ _ _ hc => absurd hc hnone⟩
  have hparts : ∀ id, id ≤ t.shapes.size → ∀ p ∈ (t.spelling id).parts, p ≤ t.shapes.size :=
    fun id hid p hp => Nat.le_trans (Nat.le_of_lt (horderly.parts_lt hp)) hid
  have hlist := congrArg String.toList h
  have hclose : ")".toList = [')'] := by decide
  have hsep : ",".toList = [','] := by decide
  simp only [selector, String.toList_append, String.toList_intercalate, List.map_map, hclose, hsep,
    List.append_assoc] at hlist
  refine (list_inj (.inl rfl) (fun p hp q hq => ?_) (fun p hp => ?_)
    (List.append_cancel_left (List.append_cancel_left hlist))).1
  · exact hnames.render_tells horderly hparts (fun _ h => h) (hps p (by simp [hp])).le_size
      (hps q (by simp [hq])).le_size
  · exact hnames.opens horderly (hps p hp).le_size (hps p hp).le_size

end TypeTable

/-! ## Values of types -/

/-- What references and routine values stand for. -/
structure Referents where
  /-- The cell is an array of elements of this type. -/
  cell : Handle → TypeId → Prop
  code : String → Int64 → Signature → Prop

namespace Referents

/-- Constants refer to nothing. -/
def none : Referents := ⟨fun _ _ => False, fun _ _ _ => False⟩

structure Le (S S' : Referents) : Prop where
  cell : ∀ h e, S.cell h e → S'.cell h e
  code : ∀ u i sig, S.code u i sig → S'.code u i sig

theorem Le.refl (S : Referents) : S.Le S := ⟨fun _ _ h => h, fun _ _ _ h => h⟩

theorem none_le (S : Referents) : none.Le S := ⟨fun _ _ h => h.elim, fun _ _ _ h => h.elim⟩

end Referents

/-- The values of a type. Nil is a value of every type of references. -/
inductive Value.Of (S : Referents) : TypeShape → Value → Prop
  | boolean (n : Int64) : Of S .boolean (.bool n)
  | integer (n : Int64) : Of S .integer (.int n)
  | real (x : Float) : Of S .real (.real x)
  | char (n : Int64) : Of S .char (.char n)
  | string (s : Bytes) : Of S .string (.string s)
  | nil {s : TypeShape} (hs : s.kind.isReference = true) : Of S s (.ref 0)
  | pointer {h : Handle} {e : TypeId} (hc : S.cell h e) : Of S (.pointer e) (.ref h)
  | array {h : Handle} {e : TypeId} (n : Option Nat) (hc : S.cell h e) : Of S (.array e n) (.ref h)
  | noRoutine (sig : Signature) (i : Int64) : Of S (.routine sig) (.routine "" i)
  | routine {u : String} {i : Int64} {sig : Signature} (hc : S.code u i sig) :
      Of S (.routine sig) (.routine u i)

namespace Value.Of

variable {S S' : Referents} {s s' : TypeShape} {v : Value}

theorem mono (h : Value.Of S s v) (hS : S.Le S') : Value.Of S' s v := by
  cases h with
  | boolean n => exact .boolean n
  | integer n => exact .integer n
  | real x => exact .real x
  | char n => exact .char n
  | string s => exact .string s
  | nil hs => exact .nil hs
  | pointer hc => exact .pointer (hS.cell _ _ hc)
  | array n hc => exact .array n (hS.cell _ _ hc)
  | noRoutine sig i => exact .noRoutine sig i
  | routine hc => exact .routine (hS.code _ _ _ hc)

theorem fits (h : Value.Of S s v) (hfits : s.Fits s') : Value.Of S s' v := by
  cases hfits with
  | same => exact h
  | nil hs =>
    cases h with
    | nil => exact .nil hs
  | array e n =>
    cases h with
    | nil hs => exact .nil rfl
    | array _ hc => exact .array none hc

theorem boolean_iff : Value.Of S .boolean v ↔ ∃ n, v = .bool n := by
  constructor
  · intro h
    cases h with
    | nil hs => cases hs
    | boolean n => exact ⟨n, rfl⟩
  · rintro ⟨n, rfl⟩
    exact .boolean n

theorem integer_iff : Value.Of S .integer v ↔ ∃ n, v = .int n := by
  constructor
  · intro h
    cases h with
    | nil hs => cases hs
    | integer n => exact ⟨n, rfl⟩
  · rintro ⟨n, rfl⟩
    exact .integer n

theorem real_iff : Value.Of S .real v ↔ ∃ x, v = .real x := by
  constructor
  · intro h
    cases h with
    | nil hs => cases hs
    | real x => exact ⟨x, rfl⟩
  · rintro ⟨x, rfl⟩
    exact .real x

theorem char_iff : Value.Of S .char v ↔ ∃ n, v = .char n := by
  constructor
  · intro h
    cases h with
    | nil hs => cases hs
    | char n => exact ⟨n, rfl⟩
  · rintro ⟨n, rfl⟩
    exact .char n

theorem string_iff : Value.Of S .string v ↔ ∃ s, v = .string s := by
  constructor
  · intro h
    cases h with
    | nil hs => cases hs
    | string s => exact ⟨s, rfl⟩
  · rintro ⟨s, rfl⟩
    exact .string s

end Value.Of

namespace TypeTable

variable {t t' : TypeTable} {S S' : Referents} {a b r : TypeId} {s : TypeShape} {v x y : Value}

/-- The value has the type. -/
def Has (t : TypeTable) (S : Referents) (a : TypeId) (v : Value) : Prop :=
  ∃ s, t.shape? a = some s ∧ Value.Of S s v

theorem has_iff (h : t.shape? a = some s) : t.Has S a v ↔ Value.Of S s v := by
  constructor
  · rintro ⟨s', hs', hv⟩
    obtain rfl : s = s' := Option.some.inj (h.symm.trans hs')
    exact hv
  · exact fun hv => ⟨s, h, hv⟩

theorem Has.mono (h : t.Has S a v) (ht : t.Grows t') (hS : S.Le S') : t'.Has S' a v := by
  obtain ⟨s, hs, hv⟩ := h
  exact ⟨s, ht.shape? hs, hv.mono hS⟩

theorem Has.fits (h : t.Has S a v) (hfits : t.Fits a b) : t.Has S b v := by
  obtain ⟨s, s', hs, hs', hfits⟩ := hfits
  exact ⟨s', hs', ((has_iff hs).mp h).fits hfits⟩

theorem Has.storable (h : t.Has S a v) : t.Storable a := by
  obtain ⟨s, hs, hv⟩ := h
  refine ⟨s, hs, ?_⟩
  rintro rfl
  cases hv with
  | nil hs => cases hs

/-! ## Values of the basic types -/

namespace Sound

theorem has_boolean (ht : t.Sound) : t.Has S boolean v ↔ ∃ n, v = .bool n :=
  (has_iff ht.shape?_boolean).trans Value.Of.boolean_iff

theorem has_integer (ht : t.Sound) : t.Has S integer v ↔ ∃ n, v = .int n :=
  (has_iff ht.shape?_integer).trans Value.Of.integer_iff

theorem has_real (ht : t.Sound) : t.Has S real v ↔ ∃ x, v = .real x :=
  (has_iff ht.shape?_real).trans Value.Of.real_iff

theorem has_char (ht : t.Sound) : t.Has S char v ↔ ∃ n, v = .char n :=
  (has_iff ht.shape?_char).trans Value.Of.char_iff

theorem has_string (ht : t.Sound) : t.Has S string v ↔ ∃ s, v = .string s :=
  (has_iff ht.shape?_string).trans Value.Of.string_iff

theorem has_ofBool (ht : t.Sound) (b : Bool) : t.Has S boolean (.ofBool b) :=
  ht.has_boolean.mpr ⟨_, rfl⟩

end Sound

/-! ## Operators -/

/-- An operator on two values of these types yields a value of the result type, unless it divides by
zero. -/
def Computes (t : TypeTable) (f : Value → Value → Value.Outcome) (a b r : TypeId) : Prop :=
  ∀ S x y, t.Has S a x → t.Has S b y →
    f x y = .error .divisionByZero ∨ ∃ v, f x y = .ok v ∧ t.Has S r v

namespace Sound

theorem computes_ints (ht : t.Sound) {f : Value → Value → Value.Outcome}
    (hf : ∀ m n, f (.int m) (.int n) = .error .divisionByZero ∨
      ∃ k, f (.int m) (.int n) = .ok (.int k)) :
    t.Computes f integer integer integer := by
  intro S x y hx hy
  obtain ⟨m, rfl⟩ := ht.has_integer.mp hx
  obtain ⟨n, rfl⟩ := ht.has_integer.mp hy
  exact (hf m n).imp_right fun ⟨k, hk⟩ => ⟨_, hk, ht.has_integer.mpr ⟨k, rfl⟩⟩

theorem computes_reals (ht : t.Sound) {f : Value → Value → Value.Outcome}
    (hf : ∀ x y, f (.real x) (.real y) = .error .divisionByZero ∨
      ∃ z, f (.real x) (.real y) = .ok (.real z)) :
    t.Computes f real real real := by
  intro S x y hx hy
  obtain ⟨m, rfl⟩ := ht.has_real.mp hx
  obtain ⟨n, rfl⟩ := ht.has_real.mp hy
  exact (hf m n).imp_right fun ⟨k, hk⟩ => ⟨_, hk, ht.has_real.mpr ⟨k, rfl⟩⟩

theorem computes_booleans (ht : t.Sound) {f : Value → Value → Value.Outcome}
    (hf : ∀ m n, ∃ b, f (.bool m) (.bool n) = .ok (.ofBool b)) :
    t.Computes f boolean boolean boolean := by
  intro S x y hx hy
  obtain ⟨m, rfl⟩ := ht.has_boolean.mp hx
  obtain ⟨n, rfl⟩ := ht.has_boolean.mp hy
  obtain ⟨b, hb⟩ := hf m n
  exact .inr ⟨_, hb, ht.has_ofBool b⟩

theorem computes_strings (ht : t.Sound) {f : Value → Value → Value.Outcome}
    (hf : ∀ u w, ∃ z, f (.string u) (.string w) = .ok (.string z)) :
    t.Computes f string string string := by
  intro S x y hx hy
  obtain ⟨m, rfl⟩ := ht.has_string.mp hx
  obtain ⟨n, rfl⟩ := ht.has_string.mp hy
  obtain ⟨z, hz⟩ := hf m n
  exact .inr ⟨_, hz, ht.has_string.mpr ⟨z, rfl⟩⟩

end Sound

end TypeTable

namespace Bound

open TypeTable

variable {t : TypeTable} {S : Referents} {a b r : TypeId} {op : BinaryOp}

/-- The types of the operands and of the result of an operator, once conversions are written out. -/
def BinaryOp.Types : BinaryOp → (a b r : TypeId) → Prop
  | .add, a, b, r | .sub, a, b, r | .mul, a, b, r =>
    a = integer ∧ b = integer ∧ r = integer ∨ a = real ∧ b = real ∧ r = real
  | .quot, a, b, r => a = real ∧ b = real ∧ r = real
  | .div, a, b, r | .mod, a, b, r | .shl, a, b, r | .shr, a, b, r =>
    a = integer ∧ b = integer ∧ r = integer
  | .and, a, b, r | .or, a, b, r | .xor, a, b, r =>
    a = boolean ∧ b = boolean ∧ r = boolean ∨ a = integer ∧ b = integer ∧ r = integer
  | .concat, a, b, r => a = string ∧ b = string ∧ r = string
  | _, _, _, r => r = boolean

/-- The type of the operand, which is that of the result as well. -/
def UnaryOp.Types : UnaryOp → (a : TypeId) → Prop
  | .neg, a => a = integer ∨ a = real
  | .not, a => a = boolean ∨ a = integer

theorem computes_compare (ht : t.Sound) (f : Value → Value → Bool) :
    t.Computes (fun x y => .ok (.ofBool (f x y))) a b boolean :=
  fun _ _ _ _ _ => .inr ⟨_, rfl, ht.has_ofBool _⟩

theorem BinaryOp.Types.computes (ht : t.Sound) (h : op.Types a b r) : t.Computes op.apply a b r := by
  cases op with
  | add | sub | mul =>
    rcases h with ⟨rfl, rfl, rfl⟩ | ⟨rfl, rfl, rfl⟩
    · exact ht.computes_ints fun m n => .inr ⟨_, rfl⟩
    · exact ht.computes_reals fun x y => .inr ⟨_, rfl⟩
  | quot =>
    obtain ⟨rfl, rfl, rfl⟩ := h
    refine ht.computes_reals fun x y => ?_
    by_cases hy : (y == 0.0) = true
    · exact .inl (if_pos hy)
    · exact .inr ⟨_, if_neg hy⟩
  | div | mod =>
    obtain ⟨rfl, rfl, rfl⟩ := h
    refine ht.computes_ints fun m n => ?_
    by_cases hn : n = 0
    · exact .inl (if_pos hn)
    · exact .inr ⟨_, if_neg hn⟩
  | shl | shr =>
    obtain ⟨rfl, rfl, rfl⟩ := h
    exact ht.computes_ints fun m n => .inr ⟨_, rfl⟩
  | and | or | xor =>
    rcases h with ⟨rfl, rfl, rfl⟩ | ⟨rfl, rfl, rfl⟩
    · exact ht.computes_booleans fun m n => ⟨_, rfl⟩
    · exact ht.computes_ints fun m n => .inr ⟨_, rfl⟩
  | concat =>
    obtain ⟨rfl, rfl, rfl⟩ := h
    exact ht.computes_strings fun u w => ⟨_, rfl⟩
  | eq | ne | lt | le | gt | ge =>
    obtain rfl : r = boolean := h
    exact computes_compare ht _

theorem BinaryOp.Types.storable (ht : t.Sound) (h : op.Types a b r) : t.Storable r := by
  have hint : t.Storable integer := ht.storable_of_basic (i := 3) rfl (by decide)
  have hreal : t.Storable real := ht.storable_of_basic (i := 4) rfl (by decide)
  have hbool : t.Storable boolean := ht.storable_of_basic (i := 2) rfl (by decide)
  cases op with
  | add | sub | mul =>
    rcases h with ⟨-, -, rfl⟩ | ⟨-, -, rfl⟩
    · exact hint
    · exact hreal
  | quot => exact h.2.2 ▸ hreal
  | div | mod | shl | shr => exact h.2.2 ▸ hint
  | and | or | xor =>
    rcases h with ⟨-, -, rfl⟩ | ⟨-, -, rfl⟩
    · exact hbool
    · exact hint
  | concat => exact h.2.2 ▸ ht.storable_of_basic (i := 6) rfl (by decide)
  | eq | ne | lt | le | gt | ge => exact (show r = boolean from h) ▸ hbool

theorem BinaryOp.Types.folds (ht : t.Sound) (h : op.Types a b r) {x y v : Value}
    (hx : t.Has S a x) (hy : t.Has S b y) (hv : op.apply? x y = some v) : t.Has S r v := by
  rw [op.apply?_eq] at hv
  rcases h.computes ht S x y hx hy with herror | ⟨w, hw, hr⟩
  · rw [herror] at hv
    cases hv
  · rw [hw] at hv
    cases hv
    exact hr

theorem UnaryOp.Types.apply (ht : t.Sound) {op : UnaryOp} (h : op.Types a) {x : Value}
    (hx : t.Has S a x) : ∃ v, op.apply x = .ok v ∧ t.Has S a v := by
  cases op with
  | neg =>
    rcases h with rfl | rfl
    · obtain ⟨n, rfl⟩ := ht.has_integer.mp hx
      exact ⟨_, rfl, ht.has_integer.mpr ⟨_, rfl⟩⟩
    · obtain ⟨n, rfl⟩ := ht.has_real.mp hx
      exact ⟨_, rfl, ht.has_real.mpr ⟨_, rfl⟩⟩
  | not =>
    rcases h with rfl | rfl
    · obtain ⟨n, rfl⟩ := ht.has_boolean.mp hx
      exact ⟨_, rfl, ht.has_ofBool _⟩
    · obtain ⟨n, rfl⟩ := ht.has_integer.mp hx
      exact ⟨_, rfl, ht.has_integer.mpr ⟨_, rfl⟩⟩

theorem UnaryOp.Types.folds (ht : t.Sound) {op : UnaryOp} (h : op.Types a) {x v : Value}
    (hx : t.Has S a x) (hv : op.apply? x = some v) : t.Has S a v := by
  obtain ⟨w, hw, hr⟩ := h.apply ht hx
  rw [op.apply?_eq, hw] at hv
  cases hv
  exact hr

end Bound

/-! ## Built-in routines -/

/-- The type of a call with arguments of these types. -/
def Native.resultType (n : Native) (args : List TypeId) : TypeId :=
  match n.result with
  | .void => TypeTable.void
  | .int => TypeTable.integer
  | .real => TypeTable.real
  | .char => TypeTable.char
  | .string => TypeTable.string
  | .bool => TypeTable.boolean
  | .sameAsFirst => args.head?.getD 0

theorem Bound.nativeResult_eq (n : Native) (args : List Bound.Expr) :
    Bound.nativeResult n args = n.resultType (args.map (·.type)) := by
  unfold Bound.nativeResult Native.resultType
  cases n.result
  case sameAsFirst => rw [List.head?_map]
  all_goals rfl

namespace Native

open TypeTable

variable {t t' : TypeTable} {S : Referents} {n : Native} {a : TypeId} {tys : List TypeId}

/-- The routine accepts arguments of these types. -/
structure Accepts (t : TypeTable) (n : Native) (tys : List TypeId) : Prop where
  arity : n.arity tys.length = true
  kinds : ∀ (i : Nat) (a : TypeId), tys[i]? = some a → (n.param i).accepts (t.kind a) = true

theorem storable_of_accepts {p : ArgKind} (h : p.accepts (t.kind a) = true) : t.Storable a := by
  apply storable_of_kind <;> intro hk <;> rw [hk] at h <;>
    cases p <;> simp [ArgKind.accepts, TypeKind.isNumeric, TypeKind.isOrdinal] at h

theorem Accepts.mono (h : n.Accepts t tys) (ht : t.Grows t') : n.Accepts t' tys := by
  refine ⟨h.arity, fun i a ha => ?_⟩
  have hkind := h.kinds i a ha
  obtain ⟨s, hs, -⟩ := storable_of_accepts hkind
  rwa [ht.kind hs]

theorem Accepts.single (h : n.Accepts t tys) (hvariadic : n.variadic = false)
    (hone : n.params.length = 1) : ∃ a, tys = [a] ∧ (n.param 0).accepts (t.kind a) = true := by
  have harity := h.arity
  simp only [Native.arity, hvariadic, hone, Bool.false_eq_true, if_false, beq_iff_eq] at harity
  obtain ⟨a, rfl⟩ := List.length_eq_one_iff.mp harity
  exact ⟨a, rfl, h.kinds 0 a rfl⟩

theorem Accepts.sameAsFirst (h : n.Accepts t tys) (hn : n.result = .sameAsFirst) :
    ∃ a, tys = [a] ∧ (n.param 0).accepts (t.kind a) = true := by
  apply h.single <;> cases n <;> first | rfl | cases hn

theorem Accepts.storable (ht : t.Sound) (h : n.Accepts t tys) (hn : n.result ≠ .void) :
    t.Storable (n.resultType tys) := by
  unfold resultType
  split
  case h_1 hvoid => exact absurd hvoid hn
  case h_2 => exact ht.storable_of_basic (i := 3) rfl (by decide)
  case h_3 => exact ht.storable_of_basic (i := 4) rfl (by decide)
  case h_4 => exact ht.storable_of_basic (i := 5) rfl (by decide)
  case h_5 => exact ht.storable_of_basic (i := 6) rfl (by decide)
  case h_6 => exact ht.storable_of_basic (i := 2) rfl (by decide)
  case h_7 hsame =>
    obtain ⟨a, rfl, ha⟩ := h.sameAsFirst hsame
    exact storable_of_accepts ha

theorem accepts_numeric (ht : t.Sound) (h : ArgKind.numeric.accepts (t.kind a) = true) :
    a = integer ∨ a = real := by
  simp only [ArgKind.accepts, TypeKind.isNumeric, Bool.or_eq_true, decide_eq_true_eq] at h
  exact h.imp ht.eq_integer ht.eq_real

theorem accepts_text (ht : t.Sound) (h : ArgKind.text.accepts (t.kind a) = true) :
    a = string ∨ a = char := by
  simp only [ArgKind.accepts, Bool.or_eq_true, decide_eq_true_eq] at h
  exact h.imp ht.eq_string ht.eq_char

theorem call_has (ht : t.Sound) (hn : n.Accepts t tys) {args : List Value}
    (hargs : List.Forall₂ (t.Has S) tys args) {host : NativeHost} {r : NativeReturn}
    (hr : n.call host args = .ok r) (hvoid : n.result ≠ .void) :
    t.Has S (n.resultType tys) r.value := by
  cases n
  all_goals
    unfold Native.call at hr
    dsimp only at hr
  case write | writeln | halt => exact absurd rfl hvoid
  case abs =>
    obtain ⟨a, rfl, ha⟩ := hn.single rfl rfl
    obtain _ | ⟨harg, ⟨⟩⟩ := hargs
    rcases accepts_numeric ht ha with rfl | rfl
    · obtain ⟨k, rfl⟩ := ht.has_integer.mp harg
      simp only [List.getD_cons_zero] at hr
      split at hr
      all_goals
        cases hr
        exact ht.has_integer.mpr ⟨_, rfl⟩
    · obtain ⟨x, rfl⟩ := ht.has_real.mp harg
      cases hr
      exact ht.has_real.mpr ⟨_, rfl⟩
  case sqr =>
    obtain ⟨a, rfl, ha⟩ := hn.single rfl rfl
    obtain _ | ⟨harg, ⟨⟩⟩ := hargs
    rcases accepts_numeric ht ha with rfl | rfl
    · obtain ⟨k, rfl⟩ := ht.has_integer.mp harg
      cases hr
      exact ht.has_integer.mpr ⟨_, rfl⟩
    · obtain ⟨x, rfl⟩ := ht.has_real.mp harg
      cases hr
      exact ht.has_real.mpr ⟨_, rfl⟩
  case upcase =>
    obtain ⟨a, rfl, ha⟩ := hn.single rfl rfl
    obtain _ | ⟨harg, ⟨⟩⟩ := hargs
    rcases accepts_text ht ha with rfl | rfl
    · obtain ⟨s, rfl⟩ := ht.has_string.mp harg
      cases hr
      exact ht.has_string.mpr ⟨_, rfl⟩
    · obtain ⟨k, rfl⟩ := ht.has_char.mp harg
      cases hr
      exact ht.has_char.mpr ⟨_, rfl⟩
  all_goals
    repeat' split at hr
    all_goals cases hr
    all_goals first
      | exact ht.has_integer.mpr ⟨_, rfl⟩
      | exact ht.has_real.mpr ⟨_, rfl⟩
      | exact ht.has_char.mpr ⟨_, rfl⟩
      | exact ht.has_string.mpr ⟨_, rfl⟩

end Native

end Pascaline
