import Mathlib.Data.List.Perm.Subperm
import Mathlib.Logic.Relation
import Pascaline.Proofs.Interface.Descriptions
import Pascaline.Proofs.Interface.Interning

/-!
# Types entered again where they come from

Entered into the table that it comes from, the description of a type gives the handle of the type
and adds nothing, just if the type is whole: a description says nothing of a handle with nothing
behind it, and leaves out parameters without a type.
-/

namespace Pascaline

/-- The types of the parameters. -/
def TypeShape.params : TypeShape → List TypeId
  | .routine sig => sig.params
  | _ => []

namespace TypeTable

variable {t t₁ t' : TypeTable} {a b id p : Nat} {s : TypeShape} {rs : List TypeRequest}

/-- A type all of whose parts are there and whole themselves. A pointer and an array may be of no
type, and a routine may have no result, but a parameter is never without a type. -/
inductive Whole (t : TypeTable) : TypeId → Prop
  | intro {id : TypeId} {s : TypeShape} (hs : t.shape? id = some s) (hparams : 0 ∉ s.params)
      (hparts : ∀ p ∈ s.parts, p ≠ 0 → Whole t p) : Whole t id

/-! ## Tables that requests lead to -/

/-- A table starts with the basic types, and its classes stand under their own handles. -/
structure Entered (t : TypeTable) : Prop extends t.Distinct where
  basic : empty.Grows t
  owned : ∀ (i : Nat) c, t.classes[i]? = some c → t.shape? c.type = some (.classRef i)

theorem intern_classes (t : TypeTable) (s : TypeShape) : (t.intern s).2.classes = t.classes := by
  unfold intern
  split <;> rfl

theorem Entered.answer (ht : t.Entered) (r : TypeRequest) : (t.answer r).2.Entered := by
  have hanswer := ht.toDistinct.answer r
  refine ⟨hanswer.distinct, ht.basic.trans hanswer.grown.grows, fun i c hc => ?_⟩
  have hkept : t.classes[i]? = some c → (t.answer r).2.shape? c.type = some (.classRef i) :=
    fun hc => hanswer.grown.grows.shape? (ht.owned i c hc)
  cases r with
  | newClass key =>
    simp only [TypeTable.answer, TypeTable.newClass, Array.getElem?_push] at hc
    split at hc
    · cases hc
      rw [‹i = _›]
      exact hanswer.shape
    · exact hkept hc
  | _ =>
    simp only [TypeTable.answer, pointer, array, routine, intern_classes] at hc
    exact hkept hc

theorem Entered.after (ht : t.Entered) (rs : List TypeRequest) : (t.after rs).Entered := by
  induction rs generalizing t with
  | nil => exact ht
  | cons r rs ih => exact ih (ht.answer r)

theorem entered_empty : empty.Entered :=
  ⟨distinct_empty, .refl empty, fun i c hc => by simp [empty] at hc⟩

/-- What becomes of its classes does not matter to a table. -/
theorem Entered.regrown (ht : t.Entered) (h : t.Grows t') (h' : t'.Grows t) : t'.Entered := by
  have hclass : ∀ (i : Nat) c, t'.classes[i]? = some c → t.shape? c.type = some (.classRef i) := by
    intro i c hc
    obtain ⟨c', hc', -, htype⟩ := h'.classes i c hc
    exact htype ▸ ht.owned i c' hc'
  refine ⟨⟨fun a b s ha hb => ht.once a b s (h'.shape? ha) (h'.shape? hb), fun id i hs => ?_⟩,
    ht.basic.trans h, fun i c hc => h.shape? (hclass i c hc)⟩
  have hlt := ht.indexed id i (h'.shape? hs)
  obtain ⟨c, hc, -⟩ := h.classes i _ (Array.getElem?_eq_getElem hlt)
  exact (Array.getElem?_eq_some_iff.mp hc).1

theorem Extends.antisymm (h : t.Extends t') (h' : t'.Extends t) : t = t' := by
  obtain ⟨shapes, classes⟩ := t
  obtain ⟨shapes', classes'⟩ := t'
  have hshapes := h.shapes.eq_of_length_le h'.shapes.length_le
  have hclasses := h.classes.eq_of_length_le h'.classes.length_le
  rw [mk.injEq]
  exact ⟨Array.toList_inj.mp hshapes, Array.toList_inj.mp hclasses⟩

/-! ## Descriptions of whole types -/

/-- The type `p` is a part of `id`. -/
def Part (t : TypeTable) (p id : TypeId) : Prop :=
  p ≠ 0 ∧ ∃ s, t.shape? id = some s ∧ p ∈ s.parts

namespace Whole

theorem leaf (hs : t.shape? id = some s) (hparts : s.parts = []) : t.Whole id := by
  refine .intro hs ?_ (by simp [hparts])
  cases s with
  | routine sig => cases hparts
  | _ => exact List.not_mem_nil

theorem elem {e : TypeId} (hs : t.shape? id = some s) (hparts : s.parts = [e])
    (he : e ≠ 0 → t.Whole e) : t.Whole id := by
  refine .intro hs ?_ (by simpa [hparts] using he)
  cases s with
  | routine sig => simp [TypeShape.params, (List.cons_eq_cons.mp hparts).2]
  | _ => exact List.not_mem_nil

theorem part (h : t.Whole id) (hp : t.Part p id) : t.Whole p := by
  obtain ⟨hs, -, hparts⟩ := h
  obtain ⟨hne, s, hs', hmem⟩ := hp
  rw [hs] at hs'
  cases hs'
  exact hparts p hmem hne

theorem acc (h : t.Whole id) : Acc t.Part id := by
  induction h with
  | intro hs _ _ ih =>
    refine ⟨_, fun p hp => ?_⟩
    obtain ⟨hne, s, hs', hmem⟩ := hp
    rw [hs] at hs'
    cases hs'
    exact ih p hmem hne

theorem not_part_self (h : t.Whole id) : ¬ Relation.TransGen t.Part id id := by
  have hacc := h.acc.transGen
  clear h
  induction hacc with
  | intro id _ ih => exact fun hself => ih id hself hself

theorem length_path_le {path : List Nat} (hnodup : path.Nodup)
    (hpath : ∀ a ∈ path, a ≠ 0 ∧ a ≤ t.shapes.size) : path.length ≤ t.shapes.size := by
  have hsub : path ⊆ List.range' 1 t.shapes.size := fun a ha => by
    obtain ⟨hne, hle⟩ := hpath a ha
    rw [List.mem_range'_1]
    omega
  simpa using (List.subperm_of_subset hnodup hsub).length_le

/-- The bound on the nesting of a description is high enough: the types that a part is below of are
different ones of the table. -/
theorem describeFrom_eq (h : t.Whole id) {path : List Nat} (hnodup : path.Nodup)
    (hpath : ∀ a ∈ path, (a ≠ 0 ∧ a ≤ t.shapes.size) ∧ Relation.TransGen t.Part id a)
    {fuel fuel' : Nat} (hfuel : t.shapes.size < fuel + path.length)
    (hfuel' : t.shapes.size < fuel' + path.length) :
    t.describeFrom fuel id = t.describeFrom fuel' id := by
  induction h generalizing path fuel fuel' with
  | @intro id s hs hparams hparts ih =>
    -- the type joins the path that its parts are below, which leaves one level less to go
    have hnot : id ∉ path := fun hmem =>
      (Whole.intro hs hparams hparts).not_part_self (hpath id hmem).2
    have hnodup' : (id :: path).Nodup := List.nodup_cons.mpr ⟨hnot, hnodup⟩
    have hvalid : ∀ a ∈ id :: path, a ≠ 0 ∧ a ≤ t.shapes.size :=
      List.forall_mem_cons.mpr ⟨⟨ne_zero_of_shape? hs, shape?_le hs⟩, fun a ha => (hpath a ha).1⟩
    have hlength : path.length + 1 ≤ t.shapes.size := length_path_le hnodup' hvalid
    obtain ⟨fuel, rfl⟩ := Nat.exists_eq_add_of_le' (show 1 ≤ fuel by omega)
    obtain ⟨fuel', rfl⟩ := Nat.exists_eq_add_of_le' (show 1 ≤ fuel' by omega)
    rw [describeFrom_succ, describeFrom_succ, hs, Option.map_some, Option.map_some,
      describeShape_congr]
    intro p hp
    by_cases hp₀ : p = 0
    · subst hp₀
      cases fuel <;> cases fuel' <;> rfl
    · have hpart : t.Part p id := ⟨hp₀, s, hs, hp⟩
      refine ih p hp hp₀ hnodup' (fun a ha => ⟨hvalid a ha, ?_⟩)
        (by rw [List.length_cons]; omega) (by rw [List.length_cons]; omega)
      rcases List.mem_cons.mp ha with rfl | ha
      · exact .single hpart
      · exact .head hpart (hpath a ha).2

theorem describe_eq (h : t.Whole id) (hs : t.shape? id = some s) :
    t.describe id = some (t.describeShape t.describe s) := by
  unfold describe
  rw [describeFrom_succ, hs, Option.map_some, describeShape_congr]
  intro p hp
  by_cases hp₀ : p = 0
  · subst hp₀
    cases t.shapes.size <;> rfl
  · have hpart : t.Part p id := ⟨hp₀, s, hs, hp⟩
    have hpath : ∀ a ∈ [id], (a ≠ 0 ∧ a ≤ t.shapes.size) ∧ Relation.TransGen t.Part p a := by
      rintro a ha
      rw [List.mem_singleton.mp ha]
      exact ⟨⟨ne_zero_of_shape? hs, shape?_le hs⟩, .single hpart⟩
    refine (h.part hpart).describeFrom_eq (List.pairwise_singleton _ id) hpath ?_ ?_
    · exact Nat.lt_succ_self _
    · exact Nat.lt_add_right 1 (Nat.lt_succ_self _)

end Whole

/-! ## There and back -/

/-- Described and entered again, a type gives its own handle, and the table stays as it is. -/
def RoundTrips (t : TypeTable) (id : TypeId) : Prop :=
  ∃ d, t.describe id = some d ∧ (enterType d).run t = .ok id t

theorem RoundTrips.enterOption (h : p ≠ 0 → t.RoundTrips p) :
    (TypeTable.enterOption (t.describe p)).run t = .ok p t := by
  by_cases hp : p = 0
  · subst hp
    rfl
  · obtain ⟨d, hd, hrun⟩ := h hp
    rw [hd]
    exact hrun

theorem RoundTrips.enterTypes {ps : List TypeId} (h : ∀ p ∈ ps, t.RoundTrips p) :
    (TypeTable.enterTypes (ps.filterMap t.describe)).run t = .ok ps t := by
  induction ps with
  | nil => rfl
  | cons p ps ih =>
    obtain ⟨d, hd, hrun⟩ := h p List.mem_cons_self
    rw [List.filterMap_cons_some hd, TypeTable.enterTypes, run_bind_ok hrun,
      run_bind_ok (ih fun p hp => h p (List.mem_cons_of_mem _ hp))]
    rfl

theorem Distinct.run_intern (ht : t.Distinct) (hs : t.shape? id = some s) :
    (modifyGet (·.intern s) : Entry TypeId).run t = .ok id t := by
  have hfound : t.intern s = (id, t) := intern_of_shape? hs fun b hb => ht.once b id s hb hs
  exact congrArg (fun r : TypeId × TypeTable => EStateM.Result.ok r.1 r.2) hfound

namespace Entered

theorem internBasic (ht : t.Entered) (hs : t.shape? id = some s) (hbasic : s.isBasic) :
    (TypeTable.internBasic s.kind).run t = .ok id t := by
  have hstart : ∀ {i : Nat}, empty.shape? i = some s → id = i :=
    fun hi => ht.once _ _ s hs (ht.basic.shape? hi)
  cases s with
  | void => exact hstart (i := 1) rfl ▸ rfl
  | nil => exact hstart (i := 2) rfl ▸ rfl
  | boolean => exact hstart (i := 3) rfl ▸ rfl
  | integer => exact hstart (i := 4) rfl ▸ rfl
  | real => exact hstart (i := 5) rfl ▸ rfl
  | char => exact hstart (i := 6) rfl ▸ rfl
  | string => exact hstart (i := 7) rfl ▸ rfl
  | _ => cases hbasic

theorem roundTrips (ht : t.Entered)
    (hkeys : ∀ c ∈ t.classes, t.classByKey? c.key = some c.type) (h : t.Whole id) :
    t.RoundTrips id := by
  induction h with
  | @intro id s hs hparams hparts ih =>
    have hd := (Whole.intro hs hparams hparts).describe_eq hs
    refine ⟨_, hd, ?_⟩
    cases s with
    | pointer e =>
      have he := RoundTrips.enterOption (ih e (by simp [TypeShape.parts]))
      rw [describeShape, enterType, run_bind_ok he]
      exact ht.run_intern hs
    | array e n =>
      have he := RoundTrips.enterOption (ih e (by simp [TypeShape.parts]))
      rw [describeShape, enterType, run_bind_ok he]
      exact ht.run_intern hs
    | routine sig =>
      have hps : ∀ p ∈ sig.params, t.RoundTrips p := fun p hp =>
        ih p (by simp [TypeShape.parts, hp]) fun hp₀ => hparams (hp₀ ▸ hp)
      have hresult := RoundTrips.enterOption (ih sig.result (by simp [TypeShape.parts]))
      rw [describeShape, enterType, run_bind_ok (RoundTrips.enterTypes hps), run_bind_ok hresult]
      exact ht.run_intern hs
    | classRef i =>
      have hlt := ht.indexed id i hs
      have hc := Array.getElem?_eq_getElem hlt
      have hfound := hkeys t.classes[i] (Array.getElem_mem hlt)
      rw [ht.once _ _ _ (ht.owned i _ hc) hs] at hfound
      rw [describeShape, hc, Option.map_some, enterType, classOfKey,
        run_bind_ok (show (get : Entry TypeTable).run t = .ok t t from rfl), hfound]
      rfl
    | _ =>
      refine Eq.trans ?_ (ht.internBasic hs rfl)
      simp only [describeShape, enterType]

end Entered

/-! ## Nothing else comes back -/

section Extending

variable {α β : Type}

theorem run_bind_eq_ok {x : Entry α} {f : α → Entry β} {c : β} (h : (x >>= f).run t = .ok c t') :
    ∃ a t₁, x.run t = .ok a t₁ ∧ (f a).run t₁ = .ok c t' := by
  change EStateM.bind x f t = _ at h
  unfold EStateM.bind at h
  split at h
  · exact ⟨_, _, ‹_›, h⟩
  · cases h

/-- Whatever an action leaves is in the table with what was there. -/
def Extending (x : Entry α) : Prop :=
  ∀ ⦃t : TypeTable⦄ ⦃a t'⦄, t.Distinct → x.run t = .ok a t' → t.Extends t' ∧ t'.Distinct

theorem Extending.pure (a : α) : Extending (Pure.pure a) := by
  intro t a' t' ht h
  cases h
  exact ⟨.refl t, ht⟩

theorem Extending.throw (e : UnitError) : Extending (MonadExcept.throw e : Entry α) := by
  intro t a t' _ h
  cases h

theorem Extending.bind {x : Entry α} {f : α → Entry β} (hx : Extending x)
    (hf : ∀ a, Extending (f a)) : Extending (x >>= f) := by
  intro t c t' ht h
  obtain ⟨a, t₁, hrun, hrun'⟩ := run_bind_eq_ok h
  obtain ⟨hgrown, ht₁⟩ := hx ht hrun
  obtain ⟨hgrown', ht'⟩ := hf a ht₁ hrun'
  exact ⟨hgrown.trans hgrown', ht'⟩

theorem extending_intern (hs : ∀ i, s ≠ .classRef i) :
    Extending (modifyGet (·.intern s) : Entry TypeId) := by
  intro t a t' ht h
  cases h
  exact ⟨(ht.intern hs).1, (ht.intern hs).2.1⟩

theorem extending_internBasic (k : TypeKind) : Extending (internBasic k) := by
  cases k <;> first | exact .pure _ | exact .throw _

theorem extending_classOfKey (key : ClassKey) : Extending (classOfKey key) := by
  intro t a t' ht h
  obtain ⟨t₁, _, hget, hrun⟩ := run_bind_eq_ok h
  cases hget
  split at hrun
  · exact Extending.pure _ ht hrun
  · exact Extending.throw _ ht hrun

/-- Where the table is in the end as it was, it was so in between. -/
theorem Extending.run_bind_eq_ok {x : Entry α} {f : α → Entry β} {c : β} (hx : Extending x)
    (hf : ∀ a, Extending (f a)) (ht : t.Distinct) (h : (x >>= f).run t = .ok c t) :
    ∃ a, x.run t = .ok a t ∧ (f a).run t = .ok c t := by
  obtain ⟨a, t₁, hrun, hrun'⟩ := TypeTable.run_bind_eq_ok h
  obtain ⟨hgrown, ht₁⟩ := hx ht hrun
  obtain rfl := hgrown.antisymm (hf a ht₁ hrun').1
  exact ⟨a, hrun, hrun'⟩

mutual

theorem extending_enterType (d : TypeDesc) : Extending (enterType d) := by
  cases d with
  | basic k => exact extending_internBasic k
  | pointer e => exact (extending_enterOption e).bind fun _ => extending_intern (by simp)
  | array e n => exact (extending_enterOption e).bind fun _ => extending_intern (by simp)
  | classRef key =>
    cases key with
    | none => exact .throw _
    | some key => exact extending_classOfKey key
  | routine hasResult params result =>
    exact (extending_enterTypes params).bind fun _ =>
      (extending_enterOption result).bind fun _ => extending_intern (by simp)
  | unknown n => exact .throw _

theorem extending_enterOption (d : Option TypeDesc) : Extending (enterOption d) := by
  cases d with
  | none => exact .pure _
  | some d => exact extending_enterType d

theorem extending_enterTypes (ds : List TypeDesc) : Extending (enterTypes ds) := by
  cases ds with
  | nil => exact .pure _
  | cons d ds =>
    exact (extending_enterType d).bind fun _ => (extending_enterTypes ds).bind fun _ => .pure _

end

end Extending

theorem describeFrom_zero (t : TypeTable) (fuel : Nat) : t.describeFrom fuel 0 = none := by
  cases fuel <;> rfl

theorem shape?_of_run_intern (ht : t.Distinct) (hs : ∀ i, s ≠ .classRef i)
    (h : (modifyGet (·.intern s) : Entry TypeId).run t = .ok id t') : t'.shape? id = some s := by
  cases h
  exact (ht.intern hs).2.2

/-- What stands behind the handle of a type that comes back was made of one that comes back. -/
theorem elem_of_run (ht : t.Distinct) {d : Option TypeDesc} {f : TypeId → TypeShape}
    (hclass : ∀ e i, f e ≠ .classRef i)
    (h : (enterOption d >>= fun e => modifyGet (·.intern (f e))).run t = .ok id t) :
    ∃ e, (enterOption d).run t = .ok e t ∧ t.shape? id = some (f e) := by
  obtain ⟨e, he, hid⟩ := (extending_enterOption d).run_bind_eq_ok
    (fun e => extending_intern (hclass e)) ht h
  exact ⟨e, he, shape?_of_run_intern ht (hclass e) hid⟩

theorem length_of_run_enterTypes {ds : List TypeDesc} {qs : List TypeId}
    (h : (enterTypes ds).run t = .ok qs t') : qs.length = ds.length := by
  induction ds generalizing t qs with
  | nil =>
    rw [enterTypes] at h
    cases h
    rfl
  | cons d ds ih =>
    rw [enterTypes] at h
    obtain ⟨q, t₁, -, h⟩ := run_bind_eq_ok h
    obtain ⟨qs, t₂, hqs, h⟩ := run_bind_eq_ok h
    cases h
    rw [List.length_cons, List.length_cons, ih hqs]

theorem of_run_enterTypes (ht : t.Distinct) {part : TypeId → Option TypeDesc} {ps : List TypeId}
    (h : (enterTypes (ps.filterMap part)).run t = .ok ps t) :
    ∀ p ∈ ps, part p ≠ none ∧ (enterOption (part p)).run t = .ok p t := by
  induction ps with
  | nil => exact fun p hp => absurd hp List.not_mem_nil
  | cons p ps ih =>
    cases hd : part p with
    | none =>
      have hle := List.length_filterMap_le part ps
      have hlength := length_of_run_enterTypes h
      rw [List.filterMap_cons_none hd, List.length_cons] at hlength
      omega
    | some d =>
      rw [List.filterMap_cons_some hd, enterTypes] at h
      obtain ⟨q, hq, h⟩ := (extending_enterType d).run_bind_eq_ok
        (fun _ => (extending_enterTypes _).bind fun _ => .pure _) ht h
      obtain ⟨qs, hqs, h⟩ := (extending_enterTypes _).run_bind_eq_ok (fun _ => .pure _) ht h
      cases h
      refine List.forall_mem_cons.mpr ⟨⟨by simp [hd], ?_⟩, ih hqs⟩
      rw [hd]
      exact hq

theorem whole_of_run (ht : t.Distinct) (fuel : Nat) (hid : id ≠ 0)
    (h : (enterOption (t.describeFrom fuel id)).run t = .ok id t) : t.Whole id := by
  induction fuel generalizing id with
  | zero =>
    cases h
    exact absurd rfl hid
  | succ fuel ih =>
    rw [describeFrom_succ] at h
    cases hs : t.shape? id with
    | none =>
      rw [hs] at h
      cases h
      exact absurd rfl hid
    | some s =>
      rw [hs, Option.map_some] at h
      cases s with
      | pointer e =>
        obtain ⟨e', he, hshape⟩ := elem_of_run (f := .pointer) ht (by simp) h
        cases hs.symm.trans hshape
        exact .elem hs rfl fun hne => ih hne he
      | array e n =>
        obtain ⟨e', he, hshape⟩ := elem_of_run (f := (.array · n)) ht (by simp) h
        cases hs.symm.trans hshape
        exact .elem hs rfl fun hne => ih hne he
      | routine sig =>
        obtain ⟨ps, hps, h⟩ := (extending_enterTypes _).run_bind_eq_ok
          (fun _ => (extending_enterOption _).bind fun _ => extending_intern (by simp)) ht h
        obtain ⟨r, hr, h⟩ := (extending_enterOption _).run_bind_eq_ok
          (fun _ => extending_intern (by simp)) ht h
        have hshape := shape?_of_run_intern ht (by simp) h
        cases hs.symm.trans hshape
        -- a parameter without a type has no description, and would be missing from what came back
        have hparams := of_run_enterTypes ht hps
        refine .intro hs (fun h₀ => (hparams 0 h₀).1 (describeFrom_zero t fuel)) ?_
        intro p hp hp₀
        rcases List.mem_cons.mp hp with rfl | hp
        · exact ih hp₀ hr
        · exact ih hp₀ (hparams p hp).2
      | _ => exact .leaf hs rfl

end TypeTable

open TypeTable in
/-- Take a table that requests lead to, its classes laid out since or not, in which every class is
found under its key. Described and entered again, just the whole types give their own handles and
leave the table as it is. Two of them have one description just if they are the same. -/
theorem types_round_trip (rs : List TypeRequest) (t : TypeTable) (hgrown : (empty.after rs).Grows t)
    (hsame : t.Grows (empty.after rs))
    (hkeys : ∀ c ∈ t.classes, t.classByKey? c.key = some c.type) :
    (∀ id, t.Whole id ↔ ∃ d, t.describe id = some d ∧ (enterType d).run t = .ok id t) ∧
    ∀ a b, t.Whole a → t.Whole b → (t.describe a = t.describe b ↔ a = b) := by
  have ht : t.Entered := (entered_empty.after rs).regrown hgrown hsame
  refine ⟨fun id => ⟨ht.roundTrips hkeys, ?_⟩, fun a b ha hb => ⟨fun h => ?_, congrArg t.describe⟩⟩
  · rintro ⟨d, hd, hrun⟩
    refine whole_of_run ht.toDistinct (t.shapes.size + 1) ?_ ?_
    · rintro rfl
      cases hd
    · rw [← describe, hd]
      exact hrun
  · obtain ⟨d, hd, hrun⟩ := ht.roundTrips hkeys ha
    obtain ⟨d', hd', hrun'⟩ := ht.roundTrips hkeys hb
    rw [hd, hd'] at h
    cases h
    rw [hrun] at hrun'
    cases hrun'
    rfl

open TypeTable in
/-- A function of an array of pointers to a class. -/
theorem types_round_trip_cages :
    let t := empty.after
      [.newClass ⟨"zoo", "animal"⟩, .pointer 8, .array 9 12, .routine ⟨[10, integer], 9⟩]
    (∀ c ∈ t.classes, t.classByKey? c.key = some c.type) ∧
    (∃ d, t.describe 11 = some d ∧ (enterType d).run t = .ok 11 t) ∧
    t.describe 11 ≠ t.describe 10 := by
  intro t
  have hkeys : ∀ c ∈ t.classes, t.classByKey? c.key = some c.type := by decide +kernel
  obtain ⟨htrip, hsame⟩ := types_round_trip _ t (.refl t) (.refl t) hkeys
  have hinteger : t.Whole integer := .leaf (s := .integer) (by decide +kernel) rfl
  have hanimal : t.Whole 8 := .leaf (s := .classRef 0) (by decide +kernel) rfl
  have hcage : t.Whole 9 := .elem (s := .pointer 8) (by decide +kernel) rfl fun _ => hanimal
  have hcages : t.Whole 10 :=
    .elem (s := .array 9 (some 12)) (by decide +kernel) rfl fun _ => hcage
  have hpick : t.Whole 11 := .intro (s := .routine ⟨[10, integer], 9⟩) (by decide +kernel)
    (by decide) (by simp [TypeShape.parts, hcage, hcages, hinteger])
  exact ⟨hkeys, (htrip 11).mp hpick, fun h => absurd ((hsame 11 10 hpick hcages).mp h) (by decide)⟩

open TypeTable in
/-- A procedure with a parameter without a type comes back as one without parameters, which has the
same description. -/
theorem untyped_parameter_is_lost :
    let t := empty.after [.routine ⟨[0], 0⟩, .routine ⟨[], 0⟩]
    (∀ c ∈ t.classes, t.classByKey? c.key = some c.type) ∧
    t.shape? 8 = some (.routine ⟨[0], 0⟩) ∧ t.shape? 9 = some (.routine ⟨[], 0⟩) ∧
    t.describe 8 = t.describe 9 ∧
    ∃ d, t.describe 8 = some d ∧ (enterType d).run t = .ok 9 t := by
  intro t
  have hkeys : ∀ c ∈ t.classes, t.classByKey? c.key = some c.type := by decide +kernel
  have hpicky : t.shape? 8 = some (.routine ⟨[0], 0⟩) := by decide +kernel
  have hplain : t.shape? 9 = some (.routine ⟨[], 0⟩) := by decide +kernel
  have hdescribe : t.describe 8 = some (.routine false [] none) := by
    rw [describe, describeFrom_succ, hpicky]
    simp [describeShape, describeFrom_zero]
  have hsame : t.describe 8 = t.describe 9 := by
    rw [hdescribe, describe, describeFrom_succ, hplain]
    simp [describeShape, describeFrom_zero]
  have hwhole : t.Whole 9 := .intro hplain (by decide) (by simp [TypeShape.parts])
  obtain ⟨d, hd, hrun⟩ := (entered_empty.after _).roundTrips hkeys hwhole
  exact ⟨hkeys, hpicky, hplain, hsame, d, hsame.trans hd, hrun⟩

end Pascaline
