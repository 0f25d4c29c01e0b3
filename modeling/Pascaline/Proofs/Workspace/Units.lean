import Pascaline.Proofs.Binding.Modules
import Pascaline.Proofs.Interface.Imports
import Pascaline.Proofs.Lowering.Pools

/-!
# Compiled modules and their units

A module that was compiled keeps the types of that time. Those of another session that are alike
stand for them there, so what the module says of its classes, its routines and its variables holds
wherever its classes are like they were.

A unit that a module was compiled to describes the classes and the exported symbols of the module.
-/

namespace Pascaline

open TypeTable Pascaline.Bound

/-- A module that was bound without errors, with the types that it was bound with. -/
structure Origin where
  types : TypeTable
  module : Module

namespace Origin

variable {os os' : List Origin} {o p : Origin} {us us' : List String} {t t' : TypeTable}
  {P : Origin → Prop}

abbrev name (o : Origin) : String := o.module.name

/-- The module is one of the used ones, or one that such a module depends on. -/
inductive Reaches (os : List Origin) : List String → Origin → Prop
  | used {us : List String} {o : Origin} (ho : o ∈ os) (hu : o.name ∈ us) : Reaches os us o
  | through {us : List String} {o p : Origin} (ho : o ∈ os) (hu : o.name ∈ us)
      (hp : Reaches os o.module.uses p) : Reaches os us p

namespace Reaches

theorem mem (h : Reaches os us o) : o ∈ os := by
  induction h with
  | used ho => exact ho
  | through _ _ _ ih => exact ih

theorem trans (h : Reaches os us o) (h' : Reaches os o.module.uses p) : Reaches os us p := by
  induction h with
  | used ho hu => exact .through ho hu h'
  | through ho hu _ ih => exact .through ho hu (ih h')

theorem subset (h : Reaches os us o) (hus : us ⊆ us') : Reaches os us' o := by
  cases h with
  | used ho hu => exact .used ho (hus hu)
  | through ho hu hp => exact .through ho (hus hu) hp

theorem of_mem (h : Reaches os us o) (hos : ∀ p, Reaches os us p → p ∈ os') : Reaches os' us o := by
  induction h with
  | used ho hu => exact .used (hos _ (.used ho hu)) hu
  | through ho hu _ ih =>
    exact .through (hos _ (.used ho hu)) hu (ih fun p hp => hos p (.through ho hu hp))

/-- Nothing else is reached among the modules `os'` if these have what is needed. -/
theorem to_mem (h : Reaches os' us o) (hnames : ∀ p ∈ os', ∀ q ∈ os', p.name = q.name → p = q)
    (hos : ∀ p, Reaches os us p → p ∈ os') (hus : ∀ n ∈ us, ∃ p ∈ os, p.name = n)
    (huses : ∀ p ∈ os, ∀ n ∈ p.module.uses, ∃ q ∈ os, q.name = n) : Reaches os us o := by
  have hsame : ∀ {us p}, (∀ q, Reaches os us q → q ∈ os') → (∀ n ∈ us, ∃ q ∈ os, q.name = n) →
      p ∈ os' → p.name ∈ us → p ∈ os := by
    intro us p hos hus hp hu
    obtain ⟨q, hq, hname⟩ := hus _ hu
    rwa [hnames p hp q (hos q (.used hq (hname ▸ hu))) hname.symm]
  induction h with
  | used ho hu => exact .used (hsame hos hus ho hu) hu
  | through ho hu _ ih =>
    have ho := hsame hos hus ho hu
    exact .through ho hu (ih (fun q hq => hos q (.through ho hu hq)) (huses _ ho))

end Reaches

/-! ## Realms -/

/-- What some modules offer, in the types `t`. -/
def realm (P : Origin → Prop) (t : TypeTable) : Realm where
  known n := ∃ o, P o ∧ o.name = n
  takes r n := ∃ o, P o ∧ o.module.Takes r n
  holds m slot type := ∃ o, P o ∧ ∃ declared, o.module.Holds m slot declared ∧
    o.types.Alike t declared type
  size := t.shapes.size

/-- The classes of the module, and no others under its name, are there like when it was compiled. -/
structure Stays (o : Origin) (t : TypeTable) : Prop where
  classes : ∀ c ∈ o.types.classes, c.key.module = o.name →
    ∃ id c', t.classInfo? id = some c' ∧ c.Alike o.types t c'
  own : ∀ c' ∈ t.classes, c'.key.module = o.name → ∃ c ∈ o.types.classes, c.key = c'.key

theorem Stays.original (h : o.Stays t) (ht : t.Sound) {c' : ClassInfo} (hc' : c' ∈ t.classes)
    (hmodule : c'.key.module = o.name) :
    ∃ c ∈ o.types.classes, c.key = c'.key ∧ c.Alike o.types t c' := by
  obtain ⟨c, hc, hkey⟩ := h.own c' hc' hmodule
  obtain ⟨id, c'', hc'', halike⟩ := h.classes c hc (hkey ▸ hmodule)
  have hinfo := ht.classInfo?_type hc'
  obtain rfl := ht.eq_of_key hc'' hinfo (halike.key.trans hkey)
  rw [hinfo, Option.some.injEq] at hc''
  exact ⟨c, hc, hkey, hc'' ▸ halike⟩

theorem Stays.grows (h : o.Stays t) (hle : t.Grows t')
    (hdone : ∀ id c, t.classInfo? id = some c → c.key.module = o.name → c.state = .done →
      t'.classInfo? id = some c)
    (hall : ∀ c ∈ o.types.classes, c.key.module = o.name → c.state = .done)
    (hown : ∀ c' ∈ t'.classes, c'.key.module = o.name → ∃ c ∈ t.classes, c.key = c'.key) :
    o.Stays t' := by
  refine ⟨fun c hc hmodule => ?_, fun c' hc' hmodule => ?_⟩
  · obtain ⟨id, c', hc', halike⟩ := h.classes c hc hmodule
    have hstate : c'.state = c.state := by rw [halike.same]
    exact ⟨id, c', hdone id c' hc' (halike.key ▸ hmodule) (hstate.trans (hall c hc hmodule)),
      halike.mono (.refl _) hle⟩
  · obtain ⟨c, hc, hkey⟩ := hown c' hc' hmodule
    obtain ⟨d, hd, hsame⟩ := h.own c hc (hkey ▸ hmodule)
    exact ⟨d, hd, hsame.trans hkey⟩

/-- All that the module refers to is in itself or in the modules that it depends on. -/
structure Proper (os : List Origin) (o : Origin) : Prop where
  sound : o.types.Sound
  titled : o.types.Titled
  fits : o.module.Fits (realm (Reaches os o.module.uses) o.types) o.types
  done : ∀ c ∈ o.types.classes, c.key.module = o.name → c.state = .done
  uses : ∀ n ∈ o.module.uses, ∃ p ∈ os, p.name = n
  foreign : ∀ p, Reaches os o.module.uses p → p.name ≠ o.name
  stays : ∀ p, Reaches os o.module.uses p → p.Stays o.types

end Origin

/-! ## Environments of alike types -/

namespace Bound

variable {E E' : Env} {t t' : TypeTable}

/-- All that is there in `E` is there in `E'`, with a type that is alike. -/
structure Env.Carries (E E' : Env) (t t' : TypeTable) : Prop where
  known : ∀ i j m, E.known i m → E'.known j m
  takes : ∀ r n, E.takes r n → E'.takes r n
  holds : ∀ m slot a b, E.holds m slot a → t.Alike t' a b → E'.holds m slot b
  slot : ∀ n a b, E.slot n a → t.Alike t' a b → E'.slot n b

theorem ClassFits.carry {c c' : ClassInfo} (h : ClassFits E t c) (hE : E.Carries E' t t')
    (ht' : t'.Sound) (hc : c.Alike t t' c') : ClassFits E' t' c' := by
  refine ⟨hc.within ht' h.within hE.known, fun m' hm' => ?_, fun e' he' => ?_⟩
  · obtain ⟨m, hm, hmm⟩ := forall₂_exists_mem hc.methods.flip hm'
    rw [hmm.same, ← hmm.sig.params.length_eq]
    exact hE.takes _ _ (h.methods m hm)
  · obtain ⟨e, he, hee⟩ := forall₂_exists_mem hc.vmt.flip he'
    obtain ⟨n, hn⟩ := h.dispatch e he
    exact ⟨n, by rw [hee.same]; exact hE.takes _ _ hn⟩

theorem SymbolFits.carry {file : Nat} {sym sym' : Symbol} (h : SymbolFits E t sym)
    (hE : E.Carries E' t t') (hsym : sym.Alike t t' file sym') : SymbolFits E' t' sym' := by
  have hkind : sym'.kind = sym.kind := by rw [hsym.same]
  have hmodule : sym'.module = sym.module := by rw [hsym.same]
  have hroutine : sym'.routine = sym.routine := by rw [hsym.same]
  have hslot : sym'.slot = sym.slot := by rw [hsym.same]
  have hflags : sym'.flags = sym.flags := by rw [hsym.same]
  refine ⟨hsym.within h.within hE.known, ?_, ?_, ?_, ?_⟩
  · rw [hkind]
    exact fun hunit hnative => hsym.type.symm.ne_zero (h.typed hunit hnative)
  · rw [hkind]
    exact h.free
  · rw [hkind, hmodule, hroutine, ← hsym.sig.params.length_eq]
    exact fun hr => hE.takes _ _ (h.routine hr)
  · rw [hkind, hmodule, hslot, hflags]
    intro hvar
    have hplace := h.place hvar
    split at hplace
    · rename_i hglobal
      rw [if_pos hglobal]
      exact hE.holds _ _ _ _ hplace hsym.type
    · rename_i hglobal
      rw [if_neg hglobal]
      exact hE.slot _ _ _ hplace hsym.type

/-- The same units offer more variables and routines. -/
structure Realm.Le (R R' : Realm) : Prop where
  known : ∀ n, R'.known n ↔ R.known n
  takes : ∀ r n, R.takes r n → R'.takes r n
  holds : ∀ n slot type, R.holds n slot type → R'.holds n slot type

theorem Realm.Le.env {R R' : Realm} (h : R.Le R') (m : Module) (slots : List Slot) :
    (m.env R slots).Le (m.env R' slots) :=
  ⟨fun _ n hn => hn.imp_right (h.known n).mpr, fun r n hr => hr.imp_left (h.takes r n),
    fun n slot type hv => hv.imp_left (h.holds n slot type), fun _ _ hn => hn⟩

theorem Module.Refers.among {R R' : Realm} {m : Module} (h : m.Refers R t) (hle : R.Le R') :
    m.Refers R' t :=
  ⟨fun r hr s hs e he => (h.bodies r hr s hs e he).mono (hle.env m r.slots) (.refl t), h.routines⟩

theorem Module.Fits.among {R R' : Realm} {m : Module} (h : m.Fits R t) (hle : R.Le R') :
    m.Fits R' t := by
  refine ⟨h.toRefers.among hle, fun c hc hn => ?_, h.classes, fun x hx => ?_, h.overloads⟩
  · exact (h.table c hc (hn.imp_right (hle.known _).mp)).extend (hle.env m []) (.refl t)
  · obtain ⟨sym, hsym, hfits, hmodule, hflags⟩ := h.exports x hx
    exact ⟨sym, hsym, hfits.extend (hle.env m []) (.refl t) rfl sym.scope, hmodule, hflags⟩

end Bound

namespace Origin

variable {os : List Origin} {o : Origin} {us : List String} {t : TypeTable}

/-- What a module may refer to where it was compiled is there for those that use it. -/
theorem Reaches.carries (ho : Reaches os us o) (t : TypeTable) :
    (o.module.env (realm (Reaches os o.module.uses) o.types) []).Carries
      (realm (Reaches os us) t).env o.types t := by
  refine ⟨?_, ?_, ?_, fun n a b hn => ?_⟩
  · rintro i j n (rfl | ⟨p, hp, hname⟩)
    · exact ⟨o, ho, rfl⟩
    · exact ⟨p, ho.trans hp, hname⟩
  · rintro r n (⟨p, hp, hr⟩ | hr)
    · exact ⟨p, ho.trans hp, hr⟩
    · exact ⟨o, ho, hr⟩
  · rintro n slot a b (⟨p, hp, declared, hv, halike⟩ | hv) hab
    · exact ⟨p, ho.trans hp, declared, hv, halike.trans hab⟩
    · exact ⟨o, ho, a, hv, hab⟩
  · obtain ⟨sl, hsl, -⟩ := hn
    cases hsl

theorem tableFits_realm (ht : t.Sound)
    (hos : ∀ o, Reaches os us o → o.Proper os ∧ o.Stays t) :
    TableFits (realm (Reaches os us) t).env t := by
  rintro c' hc' ⟨o, ho, hname⟩
  obtain ⟨hproper, hstays⟩ := hos o ho
  obtain ⟨c, hc, hkey, halike⟩ := hstays.original ht hc' hname.symm
  exact (hproper.fits.table c hc (.inl (hkey ▸ hname.symm))).carry (ho.carries t) ht halike

/-- The symbols of a module that it exports. -/
def exported (o : Origin) : List Symbol := o.module.exports.filterMap o.module.scopes.symbol?

/-- The import is that of the module, restored. -/
structure Restored (o : Origin) (t : TypeTable) (imp : Import) : Prop where
  name : imp.name = o.name
  kind : imp.kind = o.module.kind
  symbols : ∃ file, List.Forall₂ (Symbol.Alike o.types t file) o.exported imp.symbols

theorem Proper.exports (h : o.Proper os) {sym : Symbol} (hsym : sym ∈ o.exported) :
    o.module.Exports (realm (Reaches os o.module.uses) o.types) o.types sym := by
  obtain ⟨x, hx, hsym⟩ := List.mem_filterMap.mp hsym
  obtain ⟨sym', hsym', hfits⟩ := h.fits.exports x hx
  rw [hsym] at hsym'
  cases hsym'
  exact hfits

/-- The symbols of a restored import stand for what is there. -/
theorem Restored.fits {imp : Import} (h : o.Restored t imp) (hproper : o.Proper os)
    (ho : Reaches os us o) : ImportFits (realm (Reaches os us) t) t imp := by
  obtain ⟨file, hsyms⟩ := h.symbols
  refine ⟨fun sym' hsym' => ?_, ?_⟩
  · obtain ⟨sym, hsym, halike⟩ := forall₂_exists_mem hsyms.flip hsym'
    exact (hproper.exports hsym).fits.carry (ho.carries t) halike
  · refine forall₂_pairwise hsyms hproper.fits.overloads fun ha hb hroutine hsame => ?_
    rw [hb.same]
    refine hroutine ?_
    rwa [ha.same, hb.same] at hsame

end Origin

/-! ## Expressions of a body -/

namespace Bound

variable {E : Env} {t : TypeTable} {e : Expr}

theorem Expr.Fits.flatten (h : e.Fits E t) : ∀ x ∈ e.flatten, x.Fits E t := by
  have hparts : ∀ (e : Expr), e.Fits E t → (∀ x ∈ e.operands, ∀ y ∈ x.flatten, y.Fits E t) →
      ∀ y ∈ e.flatten, y.Fits E t := fun e he hx => Expr.forall_flatten.mpr ⟨he, hx⟩
  refine hparts e h ?_
  induction h with
  | const | frameVar | unitVar | newCell | routine => simp [Expr.operands]
  | field hx _ _ _ _ ih | deref hx _ ih | unary hx _ ih | convert hx _ ih | newArray hx _ ih =>
    simpa [Expr.operands] using hparts _ hx ih
  | element hx hy _ ihx ihy | character hx hy _ ihx ihy | binary hx hy _ ihx ihy =>
    simpa [Expr.operands] using ⟨hparts _ hx ihx, hparts _ hy ihy⟩
  | call hargs _ _ ih | callVirtual hargs _ ih | callNative hargs _ ih | newObject _ _ hargs _ ih =>
    exact fun x hx => hparts x (hargs x hx) (ih x hx)
  | callValue hf hargs _ ihf ih =>
    simpa [Expr.operands] using ⟨hparts _ hf ihf, fun x hx => hparts x (hargs x hx) (ih x hx)⟩

end Bound

/-! ## Classes -/

namespace CompiledUnit

variable {t : TypeTable} {ids : List TypeId} {ds : List ClassDesc} {c : ClassInfo} {d : ClassDesc}

/-- The class is laid out, and this is its description. -/
structure Lays (t : TypeTable) (c : ClassInfo) (d : ClassDesc) : Prop where
  done : c.state = .done
  tells : ∃ shapes, shapes.length = c.slots ∧ d = t.describeClass shapes c

theorem objectShapes_length {shapes : List Shape} (h : t.objectShapes c = .ok shapes) :
    shapes.length = c.slots := by
  unfold objectShapes at h
  have hfold : ∀ (fs : List Field) (start shapes : List Shape),
      fs.foldlM (fun shapes f => do return shapes.set f.offset (← t.slotShape f.type)) start =
        Except.ok (ε := LowerError) shapes → shapes.length = start.length := by
    intro fs
    induction fs with
    | nil =>
      intro start shapes h
      cases h
      rfl
    | cons f fs ih =>
      intro start shapes h
      rw [List.foldlM_cons] at h
      obtain ⟨next, hnext, h⟩ := except_bind_ok h
      obtain ⟨shape, -, hnext⟩ := except_bind_ok hnext
      cases hnext
      rw [ih _ _ h, List.length_set]
  rw [hfold _ _ _ h, List.length_replicate]

theorem classDescs_ok (h : classDescs t ids = .ok ds) :
    ∃ cs, List.Forall₂ (Lays t) cs ds ∧
      ∃ sorted, sorted.Perm ids ∧
        List.Forall₂ (fun id c => t.classInfo? id = some c) sorted cs := by
  unfold classDescs at h
  have hsplit := forall₂_split (A := fun id c => t.classInfo? id = some c) (B := Lays t)
    ((mapM_eq_ok h).imp fun id d hd => by
      split at hd
      · cases hd
      · rename_i c hc
        split at hd
        · cases hd
        · rename_i hdone
          obtain ⟨shapes, hshapes, hd⟩ := except_bind_ok hd
          cases hd
          exact ⟨c, hc, by simpa using hdone, shapes, objectShapes_length hshapes, rfl⟩)
  obtain ⟨cs, hids, hds⟩ := hsplit
  exact ⟨cs, hds, _, List.mergeSort_perm _ _, hids⟩

end CompiledUnit

/-! ## Units -/

namespace Origin

variable {o : Origin} {os : List Origin} {u : CompiledUnit}

/-- The module compiles to the unit, whatever source it is said to come from. -/
def Makes (o : Origin) (u : CompiledUnit) : Prop :=
  ∃ v, CompiledUnit.ofModule o.types o.module = .ok v ∧
    ∃ source file deps, u = { v with source, file, deps }

/-- What is known of a unit without its code. -/
structure Describes (o : Origin) (u : CompiledUnit) : Prop where
  name : u.name = o.name
  kind : u.kind = o.module.kind
  imports : u.imports = o.module.uses
  exports : u.exports = o.exported.map o.types.describeSymbol
  classes : CompiledUnit.classDescs o.types o.module.classes = .ok u.classes
  globals : u.globals.length = o.module.globals.length

theorem Makes.describes (h : o.Makes u) : o.Describes u := by
  obtain ⟨v, hv, source, file, deps, rfl⟩ := h
  unfold CompiledUnit.ofModule at hv
  obtain ⟨classes, hclasses, hv⟩ := except_bind_ok hv
  obtain ⟨globals, hglobals, hv⟩ := except_bind_ok hv
  obtain ⟨⟨routines, pool⟩, -, hv⟩ := except_bind_ok hv
  cases hv
  refine ⟨rfl, rfl, rfl, ?_, hclasses, (mapM_eq_ok hglobals).length_eq.symm⟩
  rw [exported, List.map_filterMap]

theorem Describes.laid (h : o.Describes u) (hsound : o.types.Sound) {R : Bound.Realm}
    (hfits : o.module.Fits R o.types) :
    ∃ cs, List.Forall₂ (CompiledUnit.Lays o.types) cs u.classes ∧ (cs.map (·.key)).Nodup ∧
      ∀ c, c ∈ cs ↔ c ∈ o.types.classes ∧ c.key.module = o.name := by
  obtain ⟨cs, hds, sorted, hperm, hids⟩ := CompiledUnit.classDescs_ok h.classes
  obtain ⟨hnodup, hown⟩ := hfits.classes
  refine ⟨cs, hds, ?_, fun c => ⟨fun hc => ?_, fun ⟨hc, hmodule⟩ => ?_⟩⟩
  · refine List.pairwise_map.mpr (forall₂_pairwise hids (hperm.nodup_iff.mpr hnodup) ?_)
    intro id id' c c' hc hc' hne hkey
    exact hne (hsound.eq_of_key hc hc' hkey)
  · obtain ⟨id, hid, hc⟩ := forall₂_exists_mem hids.flip hc
    obtain ⟨c', hc', hmodule⟩ := (hown id).mp (hperm.mem_iff.mp hid)
    obtain rfl := Option.some.inj (hc.symm.trans hc')
    exact ⟨hsound.mem_classes hc, hmodule⟩
  · have hinfo := hsound.classInfo?_type hc
    obtain ⟨c', hc', hinfo'⟩ := forall₂_exists_mem hids
      (hperm.mem_iff.mpr ((hown c.type).mpr ⟨c, hinfo, hmodule⟩))
    obtain rfl := Option.some.inj (hinfo.symm.trans hinfo')
    exact hc'

theorem Describes.presents (h : o.Describes u) (hsound : o.types.Sound) {R : Bound.Realm}
    (hfits : o.module.Fits R o.types) : u.Presents o.types o.exported := by
  obtain ⟨cs, hds, hkeys, hall⟩ := h.laid hsound hfits
  refine ⟨⟨cs, hds.imp fun c d hd => ?_, hkeys, fun c => by rw [hall c, h.name]⟩, h.exports,
    fun sym hsym => ?_⟩
  · obtain ⟨shapes, -, hd⟩ := hd.tells
    exact ⟨shapes, hd⟩
  · obtain ⟨x, hx, hsym⟩ := List.mem_filterMap.mp hsym
    obtain ⟨sym', hsym', hexports⟩ := hfits.exports x hx
    obtain rfl := Option.some.inj (hsym.symm.trans hsym')
    exact ⟨hexports.module.trans h.name.symm, hexports.flags⟩

theorem Describes.done (h : o.Describes u) (hsound : o.types.Sound) {R : Bound.Realm}
    (hfits : o.module.Fits R o.types) :
    ∀ c ∈ o.types.classes, c.key.module = o.name → c.state = .done := by
  intro c hc hmodule
  obtain ⟨cs, hds, -, hall⟩ := h.laid hsound hfits
  obtain ⟨d, -, hd⟩ := forall₂_exists_mem hds ((hall c).mpr ⟨hc, hmodule⟩)
  exact hd.done

end Origin

end Pascaline
