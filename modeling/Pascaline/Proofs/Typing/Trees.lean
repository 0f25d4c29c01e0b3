import Pascaline.Bound.Statement
import Pascaline.Proofs.Typing.Values

/-!
# Typed trees

When the type that stands at an expression is the type of its values, and that the conversions, the
operators and the constants that the binder puts into a tree keep to it. Nothing is said of objects.
-/

namespace Pascaline

open TypeTable

/-- What code can refer to: types, routines with their signatures, and the variables of units with
their types. -/
structure World where
  types : TypeTable
  routine : RoutineRef → Signature → Prop
  global : String → Int → TypeId → Prop

namespace World

structure Le (W W' : World) : Prop where
  types : W.types.Grows W'.types
  routine : ∀ ref sig, W.routine ref sig → W'.routine ref sig
  global : ∀ m k a, W.global m k a → W'.global m k a

theorem Le.refl (W : World) : W.Le W := ⟨.refl _, fun _ _ h => h, fun _ _ _ h => h⟩

theorem le_of_grows {t t' : TypeTable} (h : t.Grows t') (r : RoutineRef → Signature → Prop)
    (g : String → Int → TypeId → Prop) : Le ⟨t, r, g⟩ ⟨t', r, g⟩ :=
  ⟨h, fun _ _ hr => hr, fun _ _ _ hg => hg⟩

end World

namespace TypeTable

variable {t : TypeTable} {a b : TypeId}

theorem Fits.ne_void (ht : t.Sound) (h : t.Fits a b) (hb : t.Storable b) : a ≠ void := by
  rintro rfl
  obtain ⟨s, s', hs, hs', hfits⟩ := h
  obtain ⟨s'', hs'', hne⟩ := hb
  obtain rfl : s' = s'' := Option.some.inj (hs'.symm.trans hs'')
  obtain rfl : TypeShape.void = s := Option.some.inj (ht.shape?_void.symm.trans hs)
  cases hfits
  exact hne rfl

theorem storable_elem (ht : t.Plain) {e : TypeId} {n : Option Nat}
    (h : t.shape? a = some (.array e n)) : t.Storable e :=
  ht.regular a _ h

theorem storable_pointee (ht : t.Plain) {e : TypeId} (h : t.shape? a = some (.pointer e)) :
    t.Storable e :=
  ht.regular a _ h

theorem storable_signature (ht : t.Plain) {sig : Signature}
    (h : t.shape? a = some (.routine sig)) : sig.Storable t :=
  ht.regular a _ h

theorem storable_callType {sig : Signature} (hsig : sig.Storable t)
    (h : Bound.Bind.callType sig ≠ void) : t.Storable (Bound.Bind.callType sig) := by
  unfold Bound.Bind.callType at h ⊢
  split
  · rename_i hr
    rw [if_pos hr] at h
    exact absurd rfl h
  · exact hsig.result ‹_›

end TypeTable

namespace Bound

/-- Arguments that fit the parameters of a routine as they are. -/
def Passes (t : TypeTable) (args : List Expr) (sig : Signature) : Prop :=
  List.Forall₂ (fun (e : Expr) p => t.Fits e.type p) args sig.params

/-- The types that a `for` loop counts through and a selection decides by. -/
def Ordinal (a : TypeId) : Prop := a = boolean ∨ a = integer ∨ a = char

/-- The expression denotes values of its type; `slot` gives the types of the slots of the frame. -/
inductive Expr.Typed (W : World) (slot : Nat → TypeId → Prop) : Expr → Prop
  | const {v : Value} {a : TypeId} {sp : Span} (hv : W.types.Has .none a v) :
      Typed W slot (.const v a sp)
  | frameVar {x : SymbolId} {n : Nat} {a : TypeId} {sp : Span} (hn : slot n a)
      (ha : W.types.Storable a) : Typed W slot (.frameVar x n a sp)
  | unitVar {m : String} {k : Int} {a : TypeId} {sp : Span} (hk : W.global m k a)
      (ha : W.types.Storable a) : Typed W slot (.unitVar m k a sp)
  | element {x i : Expr} {a : TypeId} {n : Option Nat} {sp : Span} (hx : Typed W slot x)
      (hi : Typed W slot i) (hxt : W.types.shape? x.type = some (.array a n))
      (hit : i.type = integer) : Typed W slot (.element x i a sp)
  | character {x i : Expr} {sp : Span} (hx : Typed W slot x) (hi : Typed W slot i)
      (hxt : x.type = string) (hit : i.type = integer) : Typed W slot (.character x i char sp)
  | deref {p : Expr} {a : TypeId} {sp : Span} (hp : Typed W slot p)
      (hpt : W.types.shape? p.type = some (.pointer a)) : Typed W slot (.deref p a sp)
  | unary {op : UnaryOp} {x : Expr} {sp : Span} (hx : Typed W slot x) (hop : op.Types x.type) :
      Typed W slot (.unary op x x.type sp)
  | binary {op : BinaryOp} {l r : Expr} {a : TypeId} {sp : Span} (hl : Typed W slot l)
      (hr : Typed W slot r) (hlt : l.type ≠ void) (hrt : r.type ≠ void)
      (hop : op.Types l.type r.type a) : Typed W slot (.binary op l r a sp)
  | intToReal {x : Expr} {sp : Span} (hx : Typed W slot x) (hxt : x.type = integer) :
      Typed W slot (.convert .intToReal x real sp)
  | charToString {x : Expr} {sp : Span} (hx : Typed W slot x) (hxt : x.type = char) :
      Typed W slot (.convert .charToString x string sp)
  | call {ref : RoutineRef} {sig : Signature} {args : List Expr} {sp : Span}
      (href : W.routine ref sig) (hsig : sig.Storable W.types) (hargs : ∀ e ∈ args, Typed W slot e)
      (hpass : Passes W.types args sig) : Typed W slot (.call ref args (Bind.callType sig) sp)
  | callNative {n : Native} {args : List Expr} {sp : Span} (hargs : ∀ e ∈ args, Typed W slot e)
      (hn : n.Accepts W.types (args.map (·.type))) :
      Typed W slot (.callNative n args (n.resultType (args.map (·.type))) sp)
  | callValue {f : Expr} {sig : Signature} {args : List Expr} {sp : Span} (hf : Typed W slot f)
      (hft : W.types.shape? f.type = some (.routine sig)) (hargs : ∀ e ∈ args, Typed W slot e)
      (hpass : Passes W.types args sig) : Typed W slot (.callValue f args (Bind.callType sig) sp)
  | newArray {n : Expr} {elem a : TypeId} {sp : Span} (hn : Typed W slot n) (hnt : n.type = integer)
      (ha : W.types.shape? a = some (.array elem none)) : Typed W slot (.newArray elem n a sp)
  | newCell {elem a : TypeId} {sp : Span} (ha : W.types.shape? a = some (.pointer elem)) :
      Typed W slot (.newCell elem a sp)
  | routine {ref : RoutineRef} {sig : Signature} {a : TypeId} {sp : Span}
      (href : W.routine ref sig) (ha : W.types.shape? a = some (.routine sig)) :
      Typed W slot (.routine ref a sp)

/-- All expressions of the statement are typed, and values are stored where they fit. -/
inductive Stmt.Typed (W : World) (slot : Nat → TypeId → Prop) : Stmt → Prop
  | assign {x v : Expr} {sp : Span} (hx : x.Typed W slot) (hv : v.Typed W slot)
      (hplace : Bind.isAddressable x = true) (hfits : W.types.Fits v.type x.type) :
      Typed W slot (.assign x v sp)
  | expr {e : Expr} {sp : Span} (he : e.Typed W slot) : Typed W slot (.expr e sp)
  | ifElse {c : Expr} {yes no : List Stmt} {sp : Span} (hc : c.Typed W slot) (hct : c.type = boolean)
      (hyes : ∀ s ∈ yes, Typed W slot s) (hno : ∀ s ∈ no, Typed W slot s) :
      Typed W slot (.ifElse c yes no sp)
  | whileDo {c : Expr} {body : List Stmt} {sp : Span} (hc : c.Typed W slot) (hct : c.type = boolean)
      (hbody : ∀ s ∈ body, Typed W slot s) : Typed W slot (.whileDo c body sp)
  | repeatUntil {c : Expr} {body : List Stmt} {sp : Span} (hc : c.Typed W slot)
      (hct : c.type = boolean) (hbody : ∀ s ∈ body, Typed W slot s) :
      Typed W slot (.repeatUntil body c sp)
  | forTo {x first last : Expr} {down : Bool} {body : List Stmt} {sp : Span} (hx : x.Typed W slot)
      (hxt : Ordinal x.type) (hfirst : first.Typed W slot) (hft : first.type = x.type)
      (hlast : last.Typed W slot) (hlt : last.type = x.type) (hbody : ∀ s ∈ body, Typed W slot s) :
      Typed W slot (.forTo x first last down body sp)
  | caseOf {e : Expr} {arms : List CaseArm} {otherwise : List Stmt} {sp : Span}
      (he : e.Typed W slot) (het : Ordinal e.type)
      (hlabels : ∀ labels body, .arm labels body ∈ arms → ∀ v ∈ labels, ∃ a, W.types.Has .none a v)
      (harms : ∀ labels body, .arm labels body ∈ arms → ∀ s ∈ body, Typed W slot s)
      (hotherwise : ∀ s ∈ otherwise, Typed W slot s) : Typed W slot (.caseOf e arms otherwise sp)
  | exit {sp : Span} : Typed W slot (.exit sp)
  | break {sp : Span} : Typed W slot (.break sp)
  | continue {sp : Span} : Typed W slot (.continue sp)

variable {W W' : World} {slot slot' : Nat → TypeId → Prop} {t t' : TypeTable}
  {e e' l r x : Expr} {a b : TypeId}

theorem Ordinal.storable (ht : t.Sound) (h : Ordinal a) : t.Storable a := by
  rcases h with rfl | rfl | rfl
  · exact ht.storable_of_basic (i := 2) rfl (by decide)
  · exact ht.storable_of_basic (i := 3) rfl (by decide)
  · exact ht.storable_of_basic (i := 5) rfl (by decide)

theorem Passes.mono {args : List Expr} {sig : Signature} (h : Passes t args sig) (ht : t.Grows t') :
    Passes t' args sig :=
  h.imp fun _ _ hfits => hfits.mono ht

theorem Expr.Typed.mono (h : e.Typed W slot) (hW : W.Le W')
    (hslot : ∀ n a, slot n a → slot' n a) : e.Typed W' slot' := by
  have ht := hW.types
  induction h with
  | const hv => exact .const (hv.mono ht (.refl _))
  | frameVar hn ha => exact .frameVar (hslot _ _ hn) (ha.mono ht)
  | unitVar hk ha => exact .unitVar (hW.global _ _ _ hk) (ha.mono ht)
  | element _ _ hxt hit hx hi => exact .element hx hi (ht.shape? hxt) hit
  | character _ _ hxt hit hx hi => exact .character hx hi hxt hit
  | deref _ hpt hp => exact .deref hp (ht.shape? hpt)
  | unary _ hop hx => exact .unary hx hop
  | binary _ _ hlt hrt hop hl hr => exact .binary hl hr hlt hrt hop
  | intToReal _ hxt hx => exact .intToReal hx hxt
  | charToString _ hxt hx => exact .charToString hx hxt
  | call href hsig _ hpass hargs =>
    exact .call (hW.routine _ _ href) (hsig.mono ht) hargs (hpass.mono ht)
  | callNative _ hn hargs => exact .callNative hargs (hn.mono ht)
  | callValue _ hft _ hpass hf hargs => exact .callValue hf (ht.shape? hft) hargs (hpass.mono ht)
  | newArray _ hnt ha hn => exact .newArray hn hnt (ht.shape? ha)
  | newCell ha => exact .newCell (ht.shape? ha)
  | routine href ha => exact .routine (hW.routine _ _ href) (ht.shape? ha)

theorem Stmt.Typed.mono {c : Stmt} (h : c.Typed W slot) (hW : W.Le W')
    (hslot : ∀ n a, slot n a → slot' n a) : c.Typed W' slot' := by
  have hexpr : ∀ {e : Expr}, e.Typed W slot → e.Typed W' slot' := fun he => he.mono hW hslot
  induction h with
  | assign hx hv hplace hfits => exact .assign (hexpr hx) (hexpr hv) hplace (hfits.mono hW.types)
  | expr he => exact .expr (hexpr he)
  | ifElse hc hct _ _ hyes hno => exact .ifElse (hexpr hc) hct hyes hno
  | whileDo hc hct _ hbody => exact .whileDo (hexpr hc) hct hbody
  | repeatUntil hc hct _ hbody => exact .repeatUntil (hexpr hc) hct hbody
  | forTo hx hxt hfirst hft hlast hlt _ hbody =>
    exact .forTo (hexpr hx) hxt (hexpr hfirst) hft (hexpr hlast) hlt hbody
  | caseOf he het hlabels _ _ harms hotherwise =>
    refine .caseOf (hexpr he) het ?_ harms hotherwise
    intro labels body hmem v hv
    obtain ⟨a, ha⟩ := hlabels labels body hmem v hv
    exact ⟨a, ha.mono hW.types (.refl _)⟩
  | exit => exact .exit
  | «break» => exact .break
  | «continue» => exact .continue

/-- An expression is a call of a procedure, or its type has values. -/
theorem Expr.Typed.storable (ht : W.types.Plain) (h : e.Typed W slot) (hne : e.type ≠ void) :
    W.types.Storable e.type := by
  induction h with
  | const hv => exact hv.storable
  | frameVar _ ha | unitVar _ ha => exact ha
  | element _ _ hxt _ _ _ => exact storable_elem ht hxt
  | character => exact ht.storable_of_basic (i := 5) rfl (by decide)
  | deref _ hpt _ => exact storable_pointee ht hpt
  | unary _ hop ih => exact ih hne
  | binary _ _ _ _ hop _ _ => exact hop.storable ht.toSound
  | intToReal => exact ht.storable_of_basic (i := 4) rfl (by decide)
  | charToString => exact ht.storable_of_basic (i := 6) rfl (by decide)
  | call _ hsig _ _ _ => exact storable_callType hsig hne
  | @callNative n args _ _ hn _ =>
    refine hn.storable ht.toSound fun hvoid => hne ?_
    simp only [Expr.type, Native.resultType, hvoid]
  | callValue _ hft _ _ _ _ => exact storable_callType (storable_signature ht hft) hne
  | newArray _ _ ha _ => exact ⟨_, ha, by simp⟩
  | newCell ha => exact ⟨_, ha, by simp⟩
  | routine _ ha => exact ⟨_, ha, by simp⟩

theorem Expr.Typed.exists_shape (ht : W.types.Plain) (h : e.Typed W slot) :
    ∃ s, W.types.shape? e.type = some s := by
  by_cases hne : e.type = void
  · exact ⟨_, hne ▸ ht.shape?_void⟩
  · obtain ⟨s, hs, -⟩ := h.storable ht hne
    exact ⟨s, hs⟩

/-! ## Conversions -/

theorem intToReal_typed (ht : W.types.Sound) (he : e.Typed W slot) (hty : e.type = integer) :
    (intToReal e).Typed W slot ∧ (intToReal e).type = real := by
  unfold intToReal
  split
  · exact ⟨.const (ht.has_real.mpr ⟨_, rfl⟩), rfl⟩
  · exact ⟨.intToReal he hty, rfl⟩

theorem toReal_typed (ht : W.types.Sound) (he : e.Typed W slot)
    (hnum : (W.types.kind e.type).isNumeric = true) :
    (toReal W.types e).Typed W slot ∧ (toReal W.types e).type = real := by
  unfold toReal
  split
  case isTrue hint => exact intToReal_typed ht he (ht.eq_integer hint)
  case isFalse hint =>
    simp only [TypeKind.isNumeric, Bool.or_eq_true, decide_eq_true_eq] at hnum
    exact ⟨he, ht.eq_real (hnum.resolve_left hint)⟩

theorem charToString_typed (ht : W.types.Sound) (he : e.Typed W slot)
    (htext : isText (W.types.kind e.type) = true) :
    (charToString W.types e).Typed W slot ∧ (charToString W.types e).type = string := by
  unfold charToString
  split
  case isTrue hchar =>
    split
    · exact ⟨.const (ht.has_string.mpr ⟨_, rfl⟩), rfl⟩
    · exact ⟨.charToString he (ht.eq_char hchar), rfl⟩
  case isFalse hchar =>
    simp only [isText, Bool.or_eq_true, decide_eq_true_eq] at htext
    exact ⟨he, ht.eq_string (htext.resolve_left hchar)⟩

theorem coerce_typed (ht : W.types.Plain) (he : e.Typed W slot) (ha : W.types.Storable a)
    (h : coerce W.types e a = .ok e') : e'.Typed W slot ∧ W.types.Fits e'.type a := by
  obtain ⟨s, hs⟩ := he.exists_shape ht
  have hassign := ht.fits_of_assignable hs (b := a)
  unfold coerce at h
  split at h
  case isTrue hzero => exact absurd hzero ha.ne_zero
  split at h
  case h_1 c hc =>
    cases h
    have hkind : W.types.kind a = .char := by
      unfold charFor? at hc
      split at hc
      · assumption
      · cases hc
    obtain rfl := ht.eq_char hkind
    exact ⟨.const (ht.has_char.mpr ⟨_, rfl⟩), ha.fits⟩
  case h_2 =>
    split at h
    case h_1 hexact =>
      cases h
      exact ⟨he, hassign.1 hexact⟩
    case h_2 hwide =>
      split at h
      case isTrue hkinds =>
        cases h
        simp only [Bool.and_eq_true, decide_eq_true_eq] at hkinds
        obtain ⟨htyped, hreal⟩ := intToReal_typed ht.toSound he (ht.eq_integer hkinds.1)
        obtain rfl := ht.eq_real hkinds.2
        exact ⟨htyped, hreal ▸ ha.fits⟩
      case isFalse hkinds =>
        cases h
        refine ⟨he, (hassign.2 hwide).resolve_right ?_⟩
        rintro ⟨hint, rfl⟩
        apply hkinds
        rw [hint, kind_of_shape? ht.shape?_integer, kind_of_shape? ht.shape?_real]
        rfl
    case h_3 => split at h <;> cases h

/-! ## Operators -/

theorem const?_typed (hx : x.Typed W slot) {v : Value} (hv : x.const? = some v) :
    W.types.Has .none x.type v := by
  cases hx with
  | const hhas =>
    cases hv
    exact hhas
  | _ => cases hv

theorem mkUnary_typed (ht : W.types.Sound) (hx : x.Typed W slot) {op : UnaryOp}
    (hop : op.Types x.type) (sp : Span) : (mkUnary op x sp).Typed W slot := by
  unfold mkUnary
  split
  case h_1 v hv =>
    obtain ⟨w, hw, hv⟩ := Option.bind_eq_some_iff.mp hv
    exact .const (hop.folds ht (const?_typed hx hw) hv)
  case h_2 => exact .unary hx hop

theorem mkBinary_typed (ht : W.types.Sound) (hl : l.Typed W slot) (hr : r.Typed W slot)
    (hlt : l.type ≠ void) (hrt : r.type ≠ void) {op : BinaryOp} (hop : op.Types l.type r.type a)
    (sp : Span) : (mkBinary op l r a sp).Typed W slot := by
  unfold mkBinary
  split
  case h_1 v w hv hw =>
    split
    case h_1 u hu => exact .const (hop.folds ht (const?_typed hl hv) (const?_typed hr hw) hu)
    case h_2 => exact .binary hl hr hlt hrt hop
  case h_2 => exact .binary hl hr hlt hrt hop

/-- Two operands of these types, whatever the conversions that led to them. -/
structure Operands (W : World) (slot : Nat → TypeId → Prop) (l r : Expr) (a b : TypeId) : Prop where
  left : l.Typed W slot
  right : r.Typed W slot
  leftType : l.type = a
  rightType : r.type = b

theorem operands_reals (ht : W.types.Sound) (hl : l.Typed W slot) (hr : r.Typed W slot)
    (h : ((W.types.kind l.type).isNumeric && (W.types.kind r.type).isNumeric) = true) :
    Operands W slot (toReal W.types l) (toReal W.types r) real real := by
  rw [Bool.and_eq_true] at h
  obtain ⟨hl, hlt⟩ := toReal_typed ht hl h.1
  obtain ⟨hr, hrt⟩ := toReal_typed ht hr h.2
  exact ⟨hl, hr, hlt, hrt⟩

theorem operands_strings (ht : W.types.Sound) (hl : l.Typed W slot) (hr : r.Typed W slot)
    (h : (isText (W.types.kind l.type) && isText (W.types.kind r.type)) = true) :
    Operands W slot (charToString W.types l) (charToString W.types r) string string := by
  rw [Bool.and_eq_true] at h
  obtain ⟨hl, hlt⟩ := charToString_typed ht hl h.1
  obtain ⟨hr, hrt⟩ := charToString_typed ht hr h.2
  exact ⟨hl, hr, hlt, hrt⟩

theorem operands_ints (ht : W.types.Sound) (hl : l.Typed W slot) (hr : r.Typed W slot)
    (h : (decide (W.types.kind l.type = .integer) && decide (W.types.kind r.type = .integer)) = true) :
    Operands W slot l r integer integer := by
  simp only [Bool.and_eq_true, decide_eq_true_eq] at h
  exact ⟨hl, hr, ht.eq_integer h.1, ht.eq_integer h.2⟩

theorem operands_bools (ht : W.types.Sound) (hl : l.Typed W slot) (hr : r.Typed W slot)
    (h : (decide (W.types.kind l.type = .boolean) && decide (W.types.kind r.type = .boolean)) = true) :
    Operands W slot l r boolean boolean := by
  simp only [Bool.and_eq_true, decide_eq_true_eq] at h
  exact ⟨hl, hr, ht.eq_boolean h.1, ht.eq_boolean h.2⟩

/-- The operator under which two operands are joined. -/
def joinOp (op : BinaryOp) (a : TypeId) : BinaryOp :=
  if op = .add && a = string then .concat else op

theorem typeBinary_typed (ht : W.types.Sound) (hl : l.Typed W slot) (hr : r.Typed W slot)
    (hlt : l.type ≠ void) (hrt : r.type ≠ void) {op : BinaryOp} {l' r' : Expr}
    (h : typeBinary W.types op l r = some (l', r', a)) :
    ∃ b c, Operands W slot l' r' b c ∧ b ≠ void ∧ c ≠ void ∧ (joinOp op a).Types b c a := by
  cases op
  all_goals simp only [typeBinary] at h
  case add =>
    split at h
    case isTrue htext =>
      cases h
      rw [Bool.and_eq_true, Bool.and_eq_true] at htext
      exact ⟨_, _, operands_strings ht hl hr (by simp [htext.1.2, htext.2]), by decide, by decide,
        by simp [joinOp, BinaryOp.Types]⟩
    split at h
    case isTrue hints =>
      cases h
      exact ⟨_, _, operands_ints ht hl hr hints, by decide, by decide, .inl ⟨rfl, rfl, rfl⟩⟩
    split at h
    case isTrue hnums =>
      cases h
      exact ⟨_, _, operands_reals ht hl hr hnums, by decide, by decide, .inr ⟨rfl, rfl, rfl⟩⟩
    cases h
  case sub | mul =>
    rw [if_neg (by simp)] at h
    split at h
    case isTrue hints =>
      cases h
      exact ⟨_, _, operands_ints ht hl hr hints, by decide, by decide, .inl ⟨rfl, rfl, rfl⟩⟩
    split at h
    case isTrue hnums =>
      cases h
      exact ⟨_, _, operands_reals ht hl hr hnums, by decide, by decide, .inr ⟨rfl, rfl, rfl⟩⟩
    cases h
  case quot =>
    split at h
    case isTrue hnums =>
      cases h
      exact ⟨_, _, operands_reals ht hl hr hnums, by decide, by decide, rfl, rfl, rfl⟩
    cases h
  case div | mod | shl | shr =>
    split at h
    case isTrue hints =>
      cases h
      exact ⟨_, _, operands_ints ht hl hr hints, by decide, by decide, rfl, rfl, rfl⟩
    cases h
  case and | or | xor =>
    split at h
    case isTrue hbools =>
      cases h
      exact ⟨_, _, operands_bools ht hl hr hbools, by decide, by decide, .inl ⟨rfl, rfl, rfl⟩⟩
    split at h
    case isTrue hints =>
      cases h
      exact ⟨_, _, operands_ints ht hl hr hints, by decide, by decide, .inr ⟨rfl, rfl, rfl⟩⟩
    cases h
  case concat => cases h
  all_goals
    split at h
    case isTrue => cases h
    split at h
    case isTrue hnums =>
      cases h
      rw [Bool.and_eq_true] at hnums
      exact ⟨_, _, operands_reals ht hl hr hnums.1, by decide, by decide, rfl⟩
    split at h
    case isTrue htext =>
      cases h
      rw [Bool.and_eq_true] at htext
      exact ⟨_, _, operands_strings ht hl hr htext.1, by decide, by decide, rfl⟩
    cases h
    exact ⟨_, _, ⟨hl, hr, rfl, rfl⟩, hlt, hrt, rfl⟩

end Bound

end Pascaline
