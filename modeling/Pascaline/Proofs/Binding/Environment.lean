import Pascaline.Bound.Declaration
import Pascaline.Proofs.Classes.Hierarchy
import Pascaline.Proofs.Interface.Restoring

/-!
# What names may stand for

While an expression is bound, every name in it leads to a symbol, a field or a method that is there:
a routine takes as many arguments as it has parameters, a variable has a place, and a type is made
of known classes. `Env` says which those are, and `Fits` that something agrees with it.
-/

namespace Pascaline

/-! ## Tables that gain types -/

namespace TypeTable

variable {t t' t₁ : TypeTable} {id k declared type : TypeId} {c d : ClassInfo}

/-- Types were entered, and no class has changed. -/
structure Widens (t t' : TypeTable) : Prop where
  shapes : t.shapes.toList <+: t'.shapes.toList
  classes : t'.classes = t.classes

namespace Widens

theorem refl (t : TypeTable) : t.Widens t := ⟨List.prefix_refl _, rfl⟩

theorem trans (h : t.Widens t₁) (h' : t₁.Widens t') : t.Widens t' :=
  ⟨h.shapes.trans h'.shapes, h'.classes.trans h.classes⟩

theorem grows (h : t.Widens t') : t.Grows t' :=
  ⟨h.shapes, fun _ c hc => ⟨c, by rw [h.classes, hc], rfl, rfl⟩⟩

theorem size_le (h : t.Widens t') : t.shapes.size ≤ t'.shapes.size := by
  simpa using h.shapes.length_le

theorem classInfo? (h : t.Widens t') (hc : t.classInfo? id = some c) :
    t'.classInfo? id = some c := by
  obtain ⟨i, hi, hget⟩ := classInfo?_eq_some.mp hc
  exact classInfo?_eq_some.mpr ⟨i, h.grows.shape? hi, by rw [h.classes, hget]⟩

end Widens

theorem Interns.widens {s : TypeShape} (h : Interns t s id t') : t.Widens t' :=
  ⟨h.grows.shapes, h.classes⟩

namespace Formed

variable {S : TypeId → String → Prop}

theorem within_void (ht : t.Formed) : t.Within S void := ht.within_basic (i := 0) rfl

theorem within_nil (ht : t.Formed) : t.Within S nil := ht.within_basic (i := 1) rfl

theorem within_boolean (ht : t.Formed) : t.Within S boolean := ht.within_basic (i := 2) rfl

theorem within_integer (ht : t.Formed) : t.Within S integer := ht.within_basic (i := 3) rfl

theorem within_real (ht : t.Formed) : t.Within S real := ht.within_basic (i := 4) rfl

theorem within_char (ht : t.Formed) : t.Within S char := ht.within_basic (i := 5) rfl

theorem within_string (ht : t.Formed) : t.Within S string := ht.within_basic (i := 6) rfl

end Formed

/-! ## Classes and their bases -/

/-- The class `d` is the class `id` or one of its bases. -/
inductive Above (t : TypeTable) : TypeId → ClassInfo → Prop
  | self {id : TypeId} {c : ClassInfo} (hc : t.classInfo? id = some c) : Above t id c
  | base {id : TypeId} {c d : ClassInfo} (hc : t.classInfo? id = some c) (hd : Above t c.base d) :
      Above t id d

theorem above_of_mem_chainFrom {fuel : Nat} (h : d ∈ t.chainFrom fuel id) : t.Above id d := by
  induction fuel generalizing id with
  | zero => cases h
  | succ fuel ih =>
    rw [chainFrom] at h
    split at h
    · rename_i c hc
      rcases List.mem_cons.mp h with rfl | h
      · exact .self hc
      · exact .base hc (ih h)
    · cases h

theorem Above.mono (h : t.Above id d) (hle : t.Widens t') : t'.Above id d := by
  induction h with
  | self hc => exact .self (hle.classInfo? hc)
  | base hc _ ih => exact .base (hle.classInfo? hc) ih

theorem Above.exists_class (h : t.Above id d) : ∃ c, t.classInfo? id = some c := by
  cases h with
  | self hc | base hc => exact ⟨_, hc⟩

/-- Objects of the class `id` have a field of this type at this offset. -/
def HasField (t : TypeTable) (id : TypeId) (offset : Nat) (type : TypeId) : Prop :=
  ∃ d f, t.Above id d ∧ f ∈ d.fields ∧ f.offset = offset ∧ f.type = type

theorem HasField.mono {offset : Nat} (h : t.HasField id offset type) (hle : t.Widens t') :
    t'.HasField id offset type := by
  obtain ⟨d, f, hd, hf⟩ := h
  exact ⟨d, f, hd.mono hle, hf⟩

theorem exists_of_lookupField? {name : String} {f : Field} (h : t.lookupField? id name = some f) :
    ∃ d, t.Above id d ∧ f ∈ d.fields := by
  obtain ⟨d, hd, hf⟩ := List.exists_of_findSome?_eq_some h
  exact ⟨d, above_of_mem_chainFrom hd, List.mem_of_find?_eq_some hf⟩

theorem exists_of_mem_lookupMethods {name : String} {m : Method}
    (h : m ∈ t.lookupMethods id name) : ∃ d, t.Above id d ∧ m ∈ d.methods := by
  obtain ⟨d, hd, hm⟩ := mem_of_lookupMethods h
  exact ⟨d, above_of_mem_chainFrom hd, hm⟩

theorem classOf?_widens (h : t.classOf? id = some c) (hle : t.Widens t') :
    t'.classOf? id = some c := by
  unfold classOf? at h ⊢
  split at h
  · rename_i elem hs
    rw [hle.grows.shape? hs]
    exact hle.classInfo? h
  · rename_i hs
    obtain ⟨i, hi, -⟩ := classInfo?_eq_some.mp h
    rw [hle.grows.shape? hi]
    exact hle.classInfo? h

/-- A place of type `declared` is seen as one of type `type`: a pointer to a class that was
followed is the object itself. -/
def Shows (t : TypeTable) (declared type : TypeId) : Prop :=
  declared = type ∨ t.shape? declared = some (.pointer type) ∧ t.kind type = .classRef

theorem Shows.mono (h : t.Shows declared type) (hle : t.Grows t') : t'.Shows declared type := by
  rcases h with rfl | ⟨hs, hk⟩
  · exact .inl rfl
  · obtain ⟨s, hs', -⟩ := exists_shape_of_kind hk (by decide)
    exact .inr ⟨hle.shape? hs, (hle.kind hs').trans hk⟩

theorem Shows.deref (h : t.Shows declared type) (hs : t.shape? type = some (.pointer id))
    (hid : t.kind id = .classRef) : t.Shows declared id := by
  rcases h with rfl | ⟨-, hk⟩
  · exact .inr ⟨hs, hid⟩
  · rw [kind_of_shape? hs] at hk
    cases hk

end TypeTable

namespace Bound

open TypeTable

/-! ## Environments -/

/-- What the names in an expression may stand for. -/
structure Env where
  /-- The classes that may be referred to, by their handles and units. -/
  known : TypeId → String → Prop
  /-- The routines, each with the number of its parameters. -/
  takes : RoutineRef → Nat → Prop
  /-- The variables of units, with their types. -/
  holds : String → Int → TypeId → Prop
  /-- The slots of the frame at hand, with their types. -/
  slot : Nat → TypeId → Prop
  scopes : ScopeTable
  /-- The scopes that a name may be looked up in. -/
  opens : ScopeId → Prop

variable {E E' : Env} {t t' : TypeTable} {id : TypeId} {c d : ClassInfo}

/-- All that is there in `E` is there in `E'`. -/
structure Env.Le (E E' : Env) : Prop where
  known : ∀ i m, E.known i m → E'.known i m
  takes : ∀ r n, E.takes r n → E'.takes r n
  holds : ∀ m slot type, E.holds m slot type → E'.holds m slot type
  slot : ∀ n type, E.slot n type → E'.slot n type

/-- All that a class refers to is there. -/
structure ClassFits (E : Env) (t : TypeTable) (c : ClassInfo) : Prop where
  within : c.Within t E.known
  /-- A method has its receiver besides its parameters. -/
  methods : ∀ m ∈ c.methods, E.takes m.routine (m.sig.params.length + 1)
  dispatch : ∀ e ∈ c.vmt, ∃ n, E.takes e.routine n

/-- All that the known classes refer to is there. -/
def TableFits (E : Env) (t : TypeTable) : Prop :=
  ∀ c ∈ t.classes, E.known c.type c.key.module → ClassFits E t c

/-- What a symbol that is not a member of a class stands for is there. -/
structure SymbolFits (E : Env) (t : TypeTable) (sym : Symbol) : Prop where
  within : sym.Within t E.known
  typed : sym.kind ≠ .unit → sym.kind ≠ .native → sym.type ≠ 0
  free : sym.kind ≠ .invalid ∧ sym.kind ≠ .field ∧ sym.kind ≠ .method
  routine : sym.kind = .procedure ∨ sym.kind = .function →
    E.takes ⟨sym.module, sym.routine⟩ sym.sig.params.length
  place : sym.kind = .var ∨ sym.kind = .param →
    if sym.flags.has .global then E.holds sym.module sym.slot sym.type
    else E.slot sym.slot.toNat sym.type

/-- The symbols of one name: all are there, and several are routines. -/
structure NamesFit (E : Env) (t : TypeTable) (ids : List SymbolId) : Prop where
  symbols : ∀ x ∈ ids, ∃ sym, E.scopes.symbol? x = some sym ∧ SymbolFits E t sym
  overloads : 2 ≤ ids.length → ∀ x ∈ ids, E.scopes.isRoutine x

/-- The routine whose body is at hand has its receiver and its result in their slots. -/
structure FrameFits (E : Env) (t : TypeTable) (f : Frame) : Prop where
  owner : f.owner ≠ 0 → t.IsClass E.known f.owner ∧ E.slot 0 f.owner
  result : ∀ n, f.result = some n →
    E.slot n (f.slots.getD n default).type ∧ t.Within E.known (f.slots.getD n default).type

/-- The session agrees with the environment. -/
structure Fits (E : Env) (s : Session) : Prop where
  formed : s.types.Formed
  table : TableFits E s.types
  scopes : s.scopes = E.scopes
  names : ∀ id sc name, E.opens id → E.scopes.scope? id = some sc →
    NamesFit E s.types (sc.index.find name)
  parents : ∀ id sc, E.opens id → E.scopes.scope? id = some sc → E.opens sc.parent
  scope : E.opens s.scope
  units : ∀ p ∈ s.unitScopes, E.opens p.2
  frame : ∀ f, s.frame = some f → FrameFits E s.types f

/-! ## Growth -/

theorem ClassFits.mono (h : ClassFits E t c) (hle : t.Grows t') : ClassFits E t' c :=
  ⟨h.within.mono hle, h.methods, h.dispatch⟩

theorem SymbolFits.mono {sym : Symbol} (h : SymbolFits E t sym) (hle : t.Grows t') :
    SymbolFits E t' sym :=
  ⟨h.within.mono hle, h.typed, h.free, h.routine, h.place⟩

theorem NamesFit.nil : NamesFit E t [] := ⟨by simp, by simp⟩

theorem NamesFit.mono {ids : List SymbolId} (h : NamesFit E t ids) (hle : t.Grows t') :
    NamesFit E t' ids := by
  refine ⟨fun x hx => ?_, h.overloads⟩
  obtain ⟨sym, hsym, hfits⟩ := h.symbols x hx
  exact ⟨sym, hsym, hfits.mono hle⟩

theorem FrameFits.mono {f : Frame} (h : FrameFits E t f) (hle : t.Grows t') : FrameFits E t' f :=
  ⟨fun hne => ⟨(h.owner hne).1.mono hle, (h.owner hne).2⟩,
    fun n hn => ⟨(h.result n hn).1, (h.result n hn).2.mono hle⟩⟩

theorem Fits.widen {s : Session} (h : Fits E s) (ht' : t'.Formed) (hle : s.types.Widens t') :
    Fits E { s with types := t' } := by
  refine ⟨ht', ?_, h.scopes, ?_, h.parents, h.scope, h.units, ?_⟩
  · intro c hc hk
    rw [hle.classes] at hc
    exact (h.table c hc hk).mono hle.grows
  · exact fun id sc name hid hsc => (h.names id sc name hid hsc).mono hle.grows
  · exact fun f hf => (h.frame f hf).mono hle.grows

theorem Fits.constant {s : Session} (h : Fits E s) (b : Bool) : Fits E { s with inConst := b } :=
  ⟨h.formed, h.table, h.scopes, h.names, h.parents, h.scope, h.units, h.frame⟩

theorem Fits.loops {s : Session} (h : Fits E s) (g : Nat → Nat) :
    Fits E { s with frame := s.frame.map fun fr => { fr with loops := g fr.loops } } := by
  refine ⟨h.formed, h.table, h.scopes, h.names, h.parents, h.scope, h.units, ?_⟩
  intro f hf
  obtain ⟨f', hf', rfl⟩ := Option.map_eq_some_iff.mp hf
  exact ⟨(h.frame f' hf').owner, (h.frame f' hf').result⟩

/-! ## Members -/

theorem TableFits.above (h : TableFits E t) (ht : t.Formed) (hid : t.IsClass E.known id)
    (hd : t.Above id d) : ClassFits E t d := by
  induction hd with
  | self hc =>
    obtain ⟨key, hkey, hknown⟩ := hid
    obtain ⟨c', hc', rfl⟩ := keyOf?_eq_some.mp hkey
    rw [hc, Option.some.injEq] at hc'
    subst hc'
    exact h _ (ht.mem_classes hc) (ht.type_eq hc ▸ hknown)
  | @base id c d hc hd ih =>
    obtain ⟨key, hkey, hknown⟩ := hid
    obtain ⟨c', hc', rfl⟩ := keyOf?_eq_some.mp hkey
    rw [hc, Option.some.injEq] at hc'
    subst hc'
    refine ih ((h _ (ht.mem_classes hc) (ht.type_eq hc ▸ hknown)).within.base ?_)
    obtain ⟨b, hb⟩ := hd.exists_class
    intro hzero
    rw [hzero, classInfo?_zero] at hb
    cases hb

/-- The method is one of a known class. -/
structure MethodFits (E : Env) (t : TypeTable) (m : Method) : Prop where
  sig : m.sig.Within t E.known
  routine : E.takes m.routine (m.sig.params.length + 1)

theorem MethodFits.mono {m : Method} (h : MethodFits E t m) (hle : t.Grows t') :
    MethodFits E t' m :=
  ⟨h.sig.mono hle, h.routine⟩

theorem TableFits.method (h : TableFits E t) (ht : t.Formed) (hid : t.IsClass E.known id)
    {m : Method} (hd : t.Above id d) (hm : m ∈ d.methods) : MethodFits E t m :=
  have hfits := h.above ht hid hd
  ⟨(hfits.within.methods m hm).1, hfits.methods m hm⟩

theorem TableFits.lookupMethods (h : TableFits E t) (ht : t.Formed) (hid : t.IsClass E.known id)
    (name : String) : ∀ m ∈ t.lookupMethods id name, MethodFits E t m := by
  intro m hm
  obtain ⟨d, hd, hmem⟩ := exists_of_mem_lookupMethods hm
  exact h.method ht hid hd hmem

/-- The field is one of a known class or of its bases. -/
structure FieldFits (E : Env) (t : TypeTable) (id : TypeId) (f : Field) : Prop where
  type : t.Within E.known f.type
  member : t.HasField id f.offset f.type

theorem FieldFits.mono {f : Field} (h : FieldFits E t id f) (hle : t.Widens t') :
    FieldFits E t' id f :=
  ⟨h.type.mono hle.grows, h.member.mono hle⟩

theorem TableFits.lookupField? (h : TableFits E t) (ht : t.Formed) (hid : t.IsClass E.known id)
    {name : String} {f : Field} (hf : t.lookupField? id name = some f) : FieldFits E t id f := by
  obtain ⟨d, hd, hmem⟩ := exists_of_lookupField? hf
  exact ⟨((h.above ht hid hd).within.fields f hmem).1, d, f, hd, hmem, rfl, rfl⟩

/-! ## Expressions -/

/-- Every name in the expression is resolved to something that is there. -/
inductive Expr.Fits (E : Env) (t : TypeTable) : Expr → Prop
  | const {v : Value} {type : TypeId} {span : Span} (htype : t.Within E.known type) :
      Fits E t (.const v type span)
  | frameVar {x : SymbolId} {slot : Nat} {declared type : TypeId} {span : Span}
      (hslot : E.slot slot declared) (hshows : t.Shows declared type)
      (htype : t.Within E.known type) : Fits E t (.frameVar x slot type span)
  | unitVar {module : String} {slot : Int} {declared type : TypeId} {span : Span}
      (hplace : E.holds module slot declared) (hshows : t.Shows declared type)
      (htype : t.Within E.known type) : Fits E t (.unitVar module slot type span)
  | field {object : Expr} {c : ClassInfo} {offset : Nat} {declared type : TypeId} {span : Span}
      (hobject : Fits E t object) (hc : t.classOf? object.type = some c)
      (hfield : t.HasField c.type offset declared) (hshows : t.Shows declared type)
      (htype : t.Within E.known type) : Fits E t (.field object offset type span)
  | element {array index : Expr} {type : TypeId} {span : Span} (harray : Fits E t array)
      (hindex : Fits E t index) (htype : t.Within E.known type) :
      Fits E t (.element array index type span)
  | character {text index : Expr} {type : TypeId} {span : Span} (htext : Fits E t text)
      (hindex : Fits E t index) (htype : t.Within E.known type) :
      Fits E t (.character text index type span)
  | deref {pointer : Expr} {type : TypeId} {span : Span} (hpointer : Fits E t pointer)
      (htype : t.Within E.known type) : Fits E t (.deref pointer type span)
  | unary {op : UnaryOp} {operand : Expr} {type : TypeId} {span : Span}
      (hoperand : Fits E t operand) (htype : t.Within E.known type) :
      Fits E t (.unary op operand type span)
  | binary {op : BinaryOp} {left right : Expr} {type : TypeId} {span : Span}
      (hleft : Fits E t left) (hright : Fits E t right) (htype : t.Within E.known type) :
      Fits E t (.binary op left right type span)
  | convert {conv : Conversion} {operand : Expr} {type : TypeId} {span : Span}
      (hoperand : Fits E t operand) (htype : t.Within E.known type) :
      Fits E t (.convert conv operand type span)
  | call {routine : RoutineRef} {args : List Expr} {type : TypeId} {span : Span}
      (hargs : ∀ a ∈ args, Fits E t a) (hroutine : E.takes routine args.length)
      (htype : t.Within E.known type) : Fits E t (.call routine args type span)
  | callVirtual {slot : Nat} {args : List Expr} {type : TypeId} {span : Span}
      (hargs : ∀ a ∈ args, Fits E t a) (htype : t.Within E.known type) :
      Fits E t (.callVirtual slot args type span)
  | callNative {routine : Native} {args : List Expr} {type : TypeId} {span : Span}
      (hargs : ∀ a ∈ args, Fits E t a) (htype : t.Within E.known type) :
      Fits E t (.callNative routine args type span)
  | callValue {callee : Expr} {args : List Expr} {type : TypeId} {span : Span}
      (hcallee : Fits E t callee) (hargs : ∀ a ∈ args, Fits E t a)
      (htype : t.Within E.known type) : Fits E t (.callValue callee args type span)
  | newObject {key : ClassKey} {constructor : Option RoutineRef} {args : List Expr}
      {type : TypeId} {span : Span} (hkey : ∃ id, t.keyOf? id = some key ∧ E.known id key.module)
      (hroutine : ∀ r, constructor = some r → E.takes r (args.length + 1))
      (hargs : ∀ a ∈ args, Fits E t a) (htype : t.Within E.known type) :
      Fits E t (.newObject key constructor args type span)
  | newArray {elem : TypeId} {length : Expr} {type : TypeId} {span : Span}
      (hlength : Fits E t length) (htype : t.Within E.known type) :
      Fits E t (.newArray elem length type span)
  | newCell {elem type : TypeId} {span : Span} (htype : t.Within E.known type) :
      Fits E t (.newCell elem type span)
  | routine {ref : RoutineRef} {n : Nat} {type : TypeId} {span : Span} (href : E.takes ref n)
      (htype : t.Within E.known type) : Fits E t (.routine ref type span)

namespace Expr.Fits

variable {e : Expr}

theorem within (h : e.Fits E t) : t.Within E.known e.type := by
  cases h <;> assumption

theorem mono (h : e.Fits E t) (hE : E.Le E') (hle : t.Widens t') : e.Fits E' t' := by
  have htypes : ∀ {id}, t.Within E.known id → t'.Within E'.known id :=
    fun h => (h.weaken hE.known).mono hle.grows
  induction h with
  | const htype => exact .const (htypes htype)
  | frameVar hslot hshows htype =>
    exact .frameVar (hE.slot _ _ hslot) (hshows.mono hle.grows) (htypes htype)
  | unitVar hplace hshows htype =>
    exact .unitVar (hE.holds _ _ _ hplace) (hshows.mono hle.grows) (htypes htype)
  | field _ hc hfield hshows htype ho =>
    exact .field ho (classOf?_widens hc hle) (hfield.mono hle) (hshows.mono hle.grows)
      (htypes htype)
  | element _ _ htype ha hi => exact .element ha hi (htypes htype)
  | character _ _ htype hx hi => exact .character hx hi (htypes htype)
  | deref _ htype hp => exact .deref hp (htypes htype)
  | unary _ htype hx => exact .unary hx (htypes htype)
  | binary _ _ htype hl hr => exact .binary hl hr (htypes htype)
  | convert _ htype hx => exact .convert hx (htypes htype)
  | call _ hroutine htype hargs => exact .call hargs (hE.takes _ _ hroutine) (htypes htype)
  | callVirtual _ htype hargs => exact .callVirtual hargs (htypes htype)
  | callNative _ htype hargs => exact .callNative hargs (htypes htype)
  | callValue _ _ htype hf hargs => exact .callValue hf hargs (htypes htype)
  | newObject hkey hroutine _ htype hargs =>
    obtain ⟨id, hid, hknown⟩ := hkey
    exact .newObject ⟨id, hle.grows.keyOf? hid, hE.known _ _ hknown⟩
      (fun r hr => hE.takes _ _ (hroutine r hr)) hargs (htypes htype)
  | newArray _ htype hn => exact .newArray hn (htypes htype)
  | newCell htype => exact .newCell (htypes htype)
  | routine href htype => exact .routine (hE.takes _ _ href) (htypes htype)

/-- The object that a pointer to a class stands for. -/
theorem relabel {elem : TypeId} {span : Span} (h : e.Fits E t)
    (hs : t.shape? e.type = some (.pointer elem)) (helem : t.kind elem = .classRef) :
    (e.relabel elem span).Fits E t := by
  have htype := h.within.elem hs
  cases h with
  | const => exact .const htype
  | frameVar hslot hshows => exact .frameVar hslot (hshows.deref hs helem) htype
  | unitVar hplace hshows => exact .unitVar hplace (hshows.deref hs helem) htype
  | field ho hc hfield hshows => exact .field ho hc hfield (hshows.deref hs helem) htype
  | element ha hi => exact .element ha hi htype
  | character hx hi => exact .character hx hi htype
  | deref hp => exact .deref hp htype
  | unary hx => exact .unary hx htype
  | binary hl hr => exact .binary hl hr htype
  | convert hx => exact .convert hx htype
  | call hargs hroutine => exact .call hargs hroutine htype
  | callVirtual hargs => exact .callVirtual hargs htype
  | callNative hargs => exact .callNative hargs htype
  | callValue hf hargs => exact .callValue hf hargs htype
  | newObject hkey hroutine hargs => exact .newObject hkey hroutine hargs htype
  | newArray hn => exact .newArray hn htype
  | newCell => exact .newCell htype
  | routine href => exact .routine href htype

end Expr.Fits

/-! ## Statements -/

/-- The expressions that stand directly in statements fit. -/
def StmtsFit (E : Env) (t : TypeTable) (ss : List Stmt) : Prop :=
  ∀ s ∈ ss, ∀ e ∈ s.exprs, e.Fits E t

/-- The expressions in statements, those inside of others included, fit. -/
def BodyFits (E : Env) (t : TypeTable) (body : List Stmt) : Prop :=
  StmtsFit E t (Stmt.flattenAll body)

def ArmsFit (E : Env) (t : TypeTable) (arms : List CaseArm) : Prop :=
  StmtsFit E t (Stmt.flattenArms arms)

theorem StmtsFit.mono {ss : List Stmt} (h : StmtsFit E t ss) (hE : E.Le E')
    (hle : t.Widens t') : StmtsFit E' t' ss :=
  fun s hs e he => (h s hs e he).mono hE hle

theorem StmtsFit.append {ss ss' : List Stmt} (h : StmtsFit E t ss) (h' : StmtsFit E t ss') :
    StmtsFit E t (ss ++ ss') :=
  fun s hs => (List.mem_append.mp hs).elim (h s) (h' s)

theorem StmtsFit.cons {s : Stmt} {ss : List Stmt} (hs : ∀ e ∈ s.exprs, e.Fits E t)
    (h : StmtsFit E t ss) : StmtsFit E t (s :: ss) := by
  intro s' hs'
  rcases List.mem_cons.mp hs' with rfl | hs'
  · exact hs
  · exact h s' hs'

theorem StmtsFit.nil : StmtsFit E t [] := fun s hs => by cases hs

theorem flattenAll_append (ss ss' : List Stmt) :
    Stmt.flattenAll (ss ++ ss') = Stmt.flattenAll ss ++ Stmt.flattenAll ss' := by
  induction ss with
  | nil => rfl
  | cons s ss ih => simp [Stmt.flattenAll, ih]

theorem BodyFits.append {ss ss' : List Stmt} (h : BodyFits E t ss) (h' : BodyFits E t ss') :
    BodyFits E t (ss ++ ss') := by
  rw [BodyFits, flattenAll_append]
  exact StmtsFit.append h h'

theorem BodyFits.single {s : Stmt} (h : StmtsFit E t s.flatten) : BodyFits E t [s] := by
  simpa [BodyFits, Stmt.flattenAll] using h

end Bound

end Pascaline
