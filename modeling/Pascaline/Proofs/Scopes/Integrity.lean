import Mathlib.Order.Nat
import Pascaline.Proofs.Binding.Scopes

/-!
# Scope tables hold together

Scopes are opened, outermost or below a scope that is there, and names are declared in scopes that
are there. Whatever the order, a scope lists the symbols that were declared in it, and has those of
one name under that name. Of several symbols of one name in one scope all but the last are routines.
Such a table passes its check. A name is looked up in a scope and those around it, the innermost
first, and the way outward always ends.
-/

namespace Pascaline

/-- A request to a table of scopes. -/
inductive ScopeRequest where
  | newScope (kind : ScopeKind) (parent : ScopeId)
  | declare (scope : ScopeId) (sym : Symbol) (overload : Bool)

/-- The scope that is asked about is there, or none is to be around a new one. -/
def ScopeRequest.Fits (t : ScopeTable) : ScopeRequest → Prop
  | newScope _ parent => parent ≤ t.scopes.size
  | declare scope _ _ => scope ≠ 0 ∧ scope ≤ t.scopes.size

/-- The kind of the scope that is opened, and the scope around it. -/
def ScopeRequest.opened? : ScopeRequest → Option (ScopeKind × ScopeId)
  | newScope kind parent => some (kind, parent)
  | declare _ _ _ => none

namespace ScopeTable

variable {t t' : ScopeTable} {id x y scope parent : Nat} {ids : List ScopeId} {sc : Scope}
  {sym : Symbol} {p : Symbol → Bool} {rs : List ScopeRequest}

/-- The table after a request. -/
def answer (t : ScopeTable) : ScopeRequest → ScopeTable
  | .newScope kind parent => (t.newScope kind parent).2
  | .declare scope sym overload =>
    match t.declare scope sym overload with
    | .ok (_, t) => t
    | .error _ => t

/-- The table after requests made one after the other. -/
def after (t : ScopeTable) (rs : List ScopeRequest) : ScopeTable := rs.foldl answer t

/-- Each of the requests fits the table that it is made to. -/
def Admits (t : ScopeTable) : List ScopeRequest → Prop
  | [] => True
  | r :: rs => r.Fits t ∧ (t.answer r).Admits rs

instance (t : ScopeTable) (r : ScopeRequest) : Decidable (r.Fits t) :=
  match r with
  | .newScope _ parent => inferInstanceAs (Decidable (parent ≤ t.scopes.size))
  | .declare scope _ _ => inferInstanceAs (Decidable (scope ≠ 0 ∧ scope ≤ t.scopes.size))

instance decidableAdmits (t : ScopeTable) : (rs : List ScopeRequest) → Decidable (t.Admits rs)
  | [] => inferInstanceAs (Decidable True)
  | r :: rs =>
    have := decidableAdmits (t.answer r) rs
    inferInstanceAs (Decidable (r.Fits t ∧ (t.answer r).Admits rs))

/-- The symbols that a test holds of, in the order of their declaration. -/
def symbolsWith (t : ScopeTable) (p : Symbol → Bool) : List SymbolId :=
  (List.range' 1 t.symbols.size).filter fun x => (t.symbol? x).any p

/-- The kinds of the scopes, and the scopes around them. -/
def nesting (t : ScopeTable) : List (ScopeKind × ScopeId) :=
  t.scopes.toList.map fun sc => (sc.kind, sc.parent)

theorem answer_declare (t : ScopeTable) (scope : ScopeId) (sym : Symbol) (overload : Bool) :
    t.answer (.declare scope sym overload) = t ∨
      ∃ sc, t.scope? scope = some sc ∧
        t.answer (.declare scope sym overload) = t.bind scope sc sym ∧
        ∀ y ∈ sc.index.find sym.name, t.isRoutine y = true := by
  cases hd : t.declare scope sym overload with
  | error e => exact .inl (by simp only [answer, hd])
  | ok result =>
    have hanswer : t.answer (.declare scope sym overload) = result.2 := by simp only [answer, hd]
    rw [hanswer]
    obtain ⟨_, -, htable, -⟩ | ⟨sc, hsc, -, htable, hfree⟩ := declare_cases hd
    · exact .inl htable
    · exact .inr ⟨sc, hsc, htable, fun y hy => (hfree y hy).2⟩

/-! ## Scopes in their order -/

theorem nesting_bind (hsc : t.scope? scope = some sc) :
    (t.bind scope sc sym).nesting = t.nesting := by
  obtain ⟨-, hget⟩ := scope?_eq_some.mp hsc
  obtain ⟨hlt, rfl⟩ := Array.getElem?_eq_some_iff.mp hget
  refine List.ext_getElem (by simp [nesting, bind]) fun i hi hi' => ?_
  by_cases heq : scope - 1 = i
  · subst heq
    simp [nesting, bind]
  · simp [nesting, bind, heq]

theorem nesting_answer (t : ScopeTable) (r : ScopeRequest) :
    (t.answer r).nesting = t.nesting ++ r.opened?.toList := by
  cases r with
  | newScope kind parent => simp [answer, newScope, nesting, ScopeRequest.opened?]
  | declare scope sym overload =>
    rw [ScopeRequest.opened?, Option.toList_none, List.append_nil]
    obtain hsame | ⟨sc, hsc, hbind, -⟩ := t.answer_declare scope sym overload
    · rw [hsame]
    · rw [hbind, nesting_bind hsc]

theorem nesting_after (t : ScopeTable) (rs : List ScopeRequest) :
    (t.after rs).nesting = t.nesting ++ rs.filterMap (·.opened?) := by
  induction rs generalizing t with
  | nil => simp [after]
  | cons r rs ih =>
    rw [after, List.foldl_cons, ← after, ih, nesting_answer, List.append_assoc]
    cases h : r.opened? <;> simp [h]

/-! ## Symbols in their order -/

theorem mem_symbolsWith : x ∈ t.symbolsWith p ↔ ∃ sym, t.symbol? x = some sym ∧ p sym = true := by
  rw [symbolsWith, List.mem_filter, Option.any_eq_true]
  refine ⟨And.right, fun h => ⟨?_, h⟩⟩
  obtain ⟨sym, hsym, -⟩ := h
  have hle := symbol?_le hsym
  have hne := (symbol?_eq_some.mp hsym).1
  rw [List.mem_range'_1]
  omega

/-- Of the symbols that one test holds of, those that another holds of. -/
theorem filter_symbolsWith (t : ScopeTable) (p q : Symbol → Bool) :
    (t.symbolsWith p).filter (fun x => (t.symbol? x).any q) =
      t.symbolsWith fun sym => p sym && q sym := by
  rw [symbolsWith, List.filter_filter]
  refine List.filter_congr fun x _ => ?_
  cases t.symbol? x with
  | none => rfl
  | some sym => exact Bool.and_comm _ _

theorem symbolsWith_eq_nil (h : ∀ x sym, t.symbol? x = some sym → p sym = false) :
    t.symbolsWith p = [] := by
  refine List.eq_nil_iff_forall_not_mem.mpr fun x hx => ?_
  obtain ⟨sym, hsym, hp⟩ := mem_symbolsWith.mp hx
  rw [h x sym hsym] at hp
  cases hp

theorem symbolsWith_newScope (t : ScopeTable) (kind : ScopeKind) (parent : ScopeId)
    (p : Symbol → Bool) : (t.newScope kind parent).2.symbolsWith p = t.symbolsWith p := rfl

theorem symbolsWith_bind (t : ScopeTable) (scope : Nat) (sc : Scope) (sym : Symbol)
    (p : Symbol → Bool) :
    (t.bind scope sc sym).symbolsWith p =
      t.symbolsWith p ++ if p { sym with scope } then [t.symbols.size + 1] else [] := by
  have hsize : (t.bind scope sc sym).symbols.size = t.symbols.size + 1 := by simp [bind]
  rw [symbolsWith, hsize, List.range'_1_concat, List.filter_append, Nat.add_comm 1]
  congr 1
  · refine List.filter_congr fun x hx => ?_
    have hlt : x < 1 + t.symbols.size := (List.mem_range'_1.mp hx).2
    rw [symbol?_bind, if_neg (Nat.ne_of_lt (Nat.add_comm 1 _ ▸ hlt))]
  · rw [List.filter_singleton, symbol?_bind, if_pos rfl, Option.any_some, cond_eq_ite]

/-! ## What every request keeps -/

/-- A scope stands behind the one around it. It lists the symbols that belong to it, and under each
name those of the name. A symbol that is joined in its scope by another of its name is a routine. -/
structure Intact (t : ScopeTable) : Prop where
  nested : ∀ (id : Nat) sc, t.scope? id = some sc → sc.parent < id
  placed : ∀ (x : Nat) sym, t.symbol? x = some sym → sym.scope ≤ t.scopes.size
  listed : ∀ (id : Nat) sc, t.scope? id = some sc → sc.symbols = t.symbolsWith (·.scope == id)
  indexed : ∀ (id : Nat) sc, t.scope? id = some sc → ∀ name,
    sc.index.find name = t.symbolsWith fun sym => sym.scope == id && sym.name == name
  overloaded : ∀ (x y : Nat) sym sym', x < y → t.symbol? x = some sym → t.symbol? y = some sym' →
    sym.scope = sym'.scope → sym.name = sym'.name → sym.kind.isRoutine = true

theorem intact_empty : Intact {} := by
  have hscope : ∀ id sc, ({} : ScopeTable).scope? id ≠ some sc := by simp [scope?]
  have hsymbol : ∀ x sym, ({} : ScopeTable).symbol? x ≠ some sym := by simp [symbol?]
  exact ⟨fun id sc h => absurd h (hscope id sc), fun x sym h => absurd h (hsymbol x sym),
    fun id sc h => absurd h (hscope id sc), fun id sc h => absurd h (hscope id sc),
    fun x _ sym _ _ h => absurd h (hsymbol x sym)⟩

theorem exists_scope (hne : scope ≠ 0) (hle : scope ≤ t.scopes.size) :
    ∃ sc, t.scope? scope = some sc := by
  have hlt : scope - 1 < t.scopes.size := by omega
  exact ⟨_, scope?_eq_some.mpr ⟨hne, Array.getElem?_eq_getElem hlt⟩⟩

namespace Intact

theorem newScope (ht : t.Intact) (kind : ScopeKind) (hparent : parent ≤ t.scopes.size) :
    (t.newScope kind parent).2.Intact := by
  have hfresh : ∀ q : Symbol → Bool,
      t.symbolsWith (fun sym => sym.scope == t.scopes.size + 1 && q sym) = [] := by
    refine fun q => symbolsWith_eq_nil fun x sym hsym => ?_
    have hle := ht.placed x sym hsym
    have hne : sym.scope ≠ t.scopes.size + 1 := Nat.ne_of_lt (Nat.lt_succ_of_le hle)
    simp [hne]
  refine ⟨fun id sc h => ?_, fun x sym h => ?_, fun id sc h => ?_, fun id sc h name => ?_,
    ht.overloaded⟩
  · rw [scope?_newScope] at h
    split at h
    · cases h
      rw [‹id = _›]
      exact Nat.lt_succ_of_le hparent
    · exact ht.nested id sc h
  · exact (ht.placed x sym h).trans (by simp [ScopeTable.newScope])
  · rw [symbolsWith_newScope]
    rw [scope?_newScope] at h
    split at h
    · cases h
      rw [‹id = _›]
      simpa using (hfresh fun _ => true).symm
    · exact ht.listed id sc h
  · rw [scope?_newScope] at h
    split at h
    · cases h
      rw [‹id = _›]
      exact (hfresh (·.name == name)).symm
    · exact ht.indexed id sc h name

theorem bind (ht : t.Intact) (hsc : t.scope? scope = some sc)
    (hfree : ∀ y ∈ sc.index.find sym.name, t.isRoutine y = true) :
    (t.bind scope sc sym).Intact := by
  refine ⟨fun id sc' h => ?_, fun x sym' h => ?_, fun id sc' h => ?_, fun id sc' h name => ?_,
    fun x y sym' sym'' hlt hx hy hscope hname => ?_⟩
  · rw [scope?_bind hsc] at h
    split at h
    · cases h
      rw [‹id = _›]
      exact ht.nested scope sc hsc
    · exact ht.nested id sc' h
  · rw [size_scopes_bind]
    rw [symbol?_bind] at h
    split at h
    · cases h
      exact scope?_le hsc
    · exact ht.placed x sym' h
  · rw [symbolsWith_bind]
    rw [scope?_bind hsc] at h
    split at h
    · cases h
      simp [‹id = _›, ht.listed scope sc hsc]
    · have hne : scope ≠ id := fun heq => ‹¬ id = _› heq.symm
      simp [ht.listed id sc' h, hne]
  · rw [symbolsWith_bind]
    rw [scope?_bind hsc] at h
    split at h
    · cases h
      rw [NameIndex.find_push, ht.indexed scope sc hsc name, ‹id = _›]
      by_cases hname : name = sym.name
      · simp [hname]
      · have hne : sym.name ≠ name := fun heq => hname heq.symm
        simp [hname, hne]
    · have hne : scope ≠ id := fun heq => ‹¬ id = _› heq.symm
      simp [ht.indexed id sc' h, hne]
  · rw [symbol?_bind] at hx hy
    -- the new symbol is the last, so it is never the earlier of two
    have hold : x ≠ t.symbols.size + 1 := by
      rintro rfl
      split at hy
      · omega
      · have := symbol?_le hy
        omega
    rw [if_neg hold] at hx
    split at hy
    · cases hy
      have hmem : x ∈ sc.index.find sym.name := by
        rw [ht.indexed scope sc hsc, mem_symbolsWith]
        exact ⟨sym', hx, by simpa using ⟨hscope, hname⟩⟩
      have hroutine := hfree x hmem
      rw [isRoutine, hx, Option.any_some] at hroutine
      exact hroutine
    · exact ht.overloaded x y sym' sym'' hlt hx hy hscope hname

theorem answer (ht : t.Intact) {r : ScopeRequest} (hr : r.Fits t) : (t.answer r).Intact := by
  cases r with
  | newScope kind parent => exact ht.newScope kind hr
  | declare scope sym overload =>
    obtain hsame | ⟨sc, hsc, hbind, hfree⟩ := t.answer_declare scope sym overload
    · rw [hsame]
      exact ht
    · rw [hbind]
      exact ht.bind hsc hfree

theorem after (ht : t.Intact) (hrs : t.Admits rs) : (t.after rs).Intact := by
  induction rs generalizing t with
  | nil => exact ht
  | cons r rs ih => exact ih (ht.answer hrs.1) hrs.2

end Intact

/-! ## The check -/

theorem forIn_yield {α ε : Type} {f : α → PUnit → Except ε (ForInStep PUnit)} {xs : List α}
    (h : ∀ x ∈ xs, f x ⟨⟩ = .ok (.yield ⟨⟩)) : forIn xs PUnit.unit f = .ok ⟨⟩ := by
  induction xs with
  | nil => rfl
  | cons x xs ih =>
    rw [List.forIn_cons, h x List.mem_cons_self]
    exact ih fun y hy => h y (List.mem_cons_of_mem _ hy)

theorem validateScope_eq_ok (hparent : sc.parent ≠ 0 → ∃ sc', t.scope? sc.parent = some sc')
    (hsymbols : ∀ x ∈ sc.symbols, ∃ sym, t.symbol? x = some sym ∧ sym.scope = id) :
    t.validateScope id sc = .ok () := by
  unfold validateScope
  have hcheck : ¬ (sc.parent ≠ 0 && (t.scope? sc.parent).isNone) = true := by
    by_cases h : sc.parent = 0
    · simp [h]
    · obtain ⟨sc', hsc'⟩ := hparent h
      simp [hsc']
  rw [if_neg hcheck]
  change (forIn sc.symbols PUnit.unit _ >>= fun _ => pure ()) = _
  rw [forIn_yield fun x hx => ?_]
  · rfl
  · obtain ⟨sym, hsym, hscope⟩ := hsymbols x hx
    simp only [hsym, hscope, ne_eq, not_true_eq_false, if_false]
    rfl

theorem Intact.validate (ht : t.Intact) : t.validate = .ok () := by
  refine forM_eq_ok_iff.mpr fun ⟨sc, i⟩ hmem => ?_
  have hsc : t.scope? (i + 1) = some sc := by
    rw [scope?_eq_some]
    simpa [List.mem_zipIdx_iff_getElem?] using hmem
  refine validateScope_eq_ok (fun hne => ?_) fun x hx => ?_
  · have hlt := ht.nested (i + 1) sc hsc
    have hle := scope?_le hsc
    exact exists_scope hne (hlt.le.trans hle)
  · rw [ht.listed (i + 1) sc hsc, mem_symbolsWith] at hx
    obtain ⟨sym, hsym, hscope⟩ := hx
    exact ⟨sym, hsym, by simpa using hscope⟩

/-! ## Declaring -/

/-- What declaring a name does: the first binding in the way is found, or the symbol is put behind
all others. -/
inductive Declares (t : ScopeTable) (scope : ScopeId) (sym : Symbol) (overload : Bool) :
    Declared → ScopeTable → Prop
  | conflict {previous : SymbolId} {earlier later : List SymbolId}
      (hsplit : t.lookupLocal scope sym.name = earlier ++ previous :: later)
      (hearlier : ∀ y ∈ earlier, overload = true ∧ t.isRoutine y = true)
      (hway : overload = true → t.isRoutine previous = false) :
      Declares t scope sym overload (.conflict previous) t
  | bound {t' : ScopeTable} (hsymbols : t'.symbols = t.symbols.push { sym with scope })
      (hfree : ∀ previous ∈ t.lookupLocal scope sym.name,
        overload = true ∧ t.isRoutine previous = true) :
      Declares t scope sym overload (.bound (t.symbols.size + 1)) t'

theorem declare_of_scope? (hsc : t.scope? scope = some sc) (sym : Symbol) (overload : Bool) :
    ∃ d t', t.declare scope sym overload = .ok (d, t') ∧ t.Declares scope sym overload d t' := by
  cases hfind : (sc.index.find sym.name).find? fun prev => !overload || !t.isRoutine prev with
  | some previous =>
    have hrun : t.declare scope sym overload = .ok (.conflict previous, t) := by
      unfold declare
      simp only [hsc, hfind]
    obtain ⟨hway, earlier, later, hsplit, hearlier⟩ := List.find?_eq_some_iff_append.mp hfind
    refine ⟨_, _, hrun, .conflict ((lookupLocal_of_scope? hsc _).trans hsplit) (fun y hy => ?_)
      fun hoverload => by simpa [hoverload] using hway⟩
    simpa using hearlier y hy
  | none =>
    have hrun : t.declare scope sym overload =
        .ok (.bound (t.symbols.size + 1), t.bind scope sc sym) := by
      unfold declare
      simp only [hsc, hfind]
      rfl
    refine ⟨_, _, hrun, .bound rfl fun previous hmem => ?_⟩
    rw [lookupLocal_of_scope? hsc] at hmem
    simpa using List.find?_eq_none.mp hfind previous hmem

/-! ## The way outward -/

/-- A scope and those around it, the innermost first. -/
inductive Chain (t : ScopeTable) : ScopeId → List ScopeId → Prop
  | nil : Chain t 0 []
  | cons {id : ScopeId} {sc : Scope} {ids : List ScopeId} (hsc : t.scope? id = some sc)
      (hids : Chain t sc.parent ids) : Chain t id (id :: ids)

namespace Chain

theorem length_le (h : t.Chain id ids) (ht : t.Intact) : ids.length ≤ id := by
  induction h with
  | nil => exact Nat.le_refl 0
  | cons hsc _ ih => exact Nat.lt_of_le_of_lt ih (ht.nested _ _ hsc)

/-- A walk that is long enough finds the first scope of the chain that satisfies the test. -/
theorem walk (h : t.Chain id ids) (found : Scope → Bool) {fuel : Nat} (hfuel : ids.length < fuel) :
    t.walk found fuel id = .ok (ids.find? fun i => (t.scope? i).any found) := by
  induction h generalizing fuel with
  | nil =>
    obtain ⟨fuel, rfl⟩ := Nat.exists_eq_add_of_lt hfuel
    rfl
  | @cons id sc ids hsc _ ih =>
    obtain ⟨fuel, rfl⟩ := Nat.exists_eq_add_of_le' (Nat.le_trans (Nat.succ_pos _) hfuel)
    have hne : id ≠ 0 := (scope?_eq_some.mp hsc).1
    rw [ScopeTable.walk, if_neg hne, hsc]
    cases hfound : found sc with
    | true => simp [hsc, hfound]
    | false => simpa [hsc, hfound] using ih (Nat.lt_of_succ_lt_succ hfuel)

end Chain

theorem Intact.exists_chain (ht : t.Intact) (hle : id ≤ t.scopes.size) : ∃ ids, t.Chain id ids := by
  induction id using Nat.strongRecOn with
  | _ id ih =>
    by_cases hid : id = 0
    · exact ⟨[], hid ▸ .nil⟩
    · obtain ⟨sc, hsc⟩ := exists_scope hid hle
      have hlt := ht.nested id sc hsc
      obtain ⟨ids, hids⟩ := ih sc.parent hlt (hlt.le.trans hle)
      exact ⟨id :: ids, .cons hsc hids⟩

/-- The bindings of a name in the innermost of some scopes that has any, and that scope. There are
no bindings, and no scope, if none has any. -/
inductive Nearest (t : ScopeTable) (name : String) : List ScopeId → List SymbolId × ScopeId → Prop
  | none {ids : List ScopeId} (hnone : ∀ i ∈ ids, t.lookupLocal i name = []) :
      Nearest t name ids ([], 0)
  | found {inner outer : List ScopeId} {i : ScopeId}
      (hinner : ∀ j ∈ inner, t.lookupLocal j name = []) (hi : t.lookupLocal i name ≠ []) :
      Nearest t name (inner ++ i :: outer) (t.lookupLocal i name, i)

theorem any_scope? (t : ScopeTable) (id : ScopeId) (name : String) :
    ((t.scope? id).any fun sc => !(sc.index.find name).isEmpty) =
      !(t.lookupLocal id name).isEmpty := by
  unfold lookupLocal
  cases t.scope? id <;> rfl

theorem Chain.lookup (h : t.Chain id ids) (ht : t.Intact) (hle : id ≤ t.scopes.size)
    (name : String) : ∃ r, t.lookup id name = .ok r ∧ t.Nearest name ids r := by
  have hwalk := h.walk (fun sc => !(sc.index.find name).isEmpty)
    (Nat.lt_succ_of_le ((h.length_le ht).trans hle))
  simp only [any_scope?] at hwalk
  unfold ScopeTable.lookup
  rw [hwalk]
  cases hfind : ids.find? fun i => !(t.lookupLocal i name).isEmpty with
  | none => exact ⟨_, rfl, .none fun i hi => by simpa using List.find?_eq_none.mp hfind i hi⟩
  | some i =>
    obtain ⟨hi, inner, outer, rfl, hinner⟩ := List.find?_eq_some_iff_append.mp hfind
    exact ⟨_, rfl, .found (fun j hj => by simpa using hinner j hj) (by simpa using hi)⟩

end ScopeTable

open ScopeTable in
/-- However scopes are opened and names declared, the table passes its check. A scope has the
symbols that were declared in it, and its index those of each name, in the order of their
declaration. To declare a name leaves the table as it is, where a binding is in the way, or puts the
symbol behind all others; any binding that the name has in the scope is then a routine, and the
caller allows overloads. A lookup gives the bindings of the nearest scope that has any. -/
theorem scope_tables_hold_together (rs : List ScopeRequest) (hrs : Admits {} rs) :
    let t := after {} rs
    t.validate = .ok () ∧ t.nesting = rs.filterMap (·.opened?) ∧
    (∀ id sc, t.scope? id = some sc →
      sc.symbols = t.symbolsWith (·.scope == id) ∧
      ∀ name, sc.index.find name = sc.symbols.filter fun x => (t.symbol? x).any (·.name == name)) ∧
    (∀ scope sym overload, scope ≠ 0 → scope ≤ t.scopes.size →
      ∃ d t', t.declare scope sym overload = .ok (d, t') ∧ t.Declares scope sym overload d t') ∧
    (∀ x y sym sym', x < y → t.symbol? x = some sym → t.symbol? y = some sym' →
      sym.scope = sym'.scope → sym.name = sym'.name → sym.kind.isRoutine = true) ∧
    ∀ id ≤ t.scopes.size, ∃ ids, t.Chain id ids ∧
      ∀ name, ∃ r, t.lookup id name = .ok r ∧ t.Nearest name ids r := by
  intro t
  have ht : t.Intact := intact_empty.after hrs
  refine ⟨ht.validate, nesting_after {} rs, fun id sc hsc => ⟨ht.listed id sc hsc, fun name => ?_⟩,
    fun scope sym overload hne hle => ?_, ht.overloaded, fun id hle => ?_⟩
  · rw [ht.listed id sc hsc, ht.indexed id sc hsc, filter_symbolsWith]
  · obtain ⟨sc, hsc⟩ := exists_scope hne hle
    exact declare_of_scope? hsc sym overload
  · obtain ⟨ids, hids⟩ := ht.exists_chain hle
    exact ⟨ids, hids, hids.lookup ht hle⟩

open ScopeTable in
/-- A routine and a constant around a scope that has a variable of the name of the constant. -/
theorem scope_tables_hold_together_nested :
    let rs : List ScopeRequest :=
      [.newScope .unit 0, .declare 1 { name := "f", kind := .function } true,
       .declare 1 { name := "n", kind := .const } false, .newScope .routine 1,
       .declare 2 { name := "n", kind := .var } false,
       .declare 1 { name := "f", kind := .procedure } true]
    Admits {} rs ∧ (after {} rs).validate = .ok () ∧
    ∃ ids, (after {} rs).Chain 2 ids ∧
      ∀ name, ∃ r, (after {} rs).lookup 2 name = .ok r ∧ (after {} rs).Nearest name ids r := by
  intro rs
  have hrs : Admits {} rs := by decide
  obtain ⟨hvalid, -, -, -, -, hlookup⟩ := scope_tables_hold_together rs hrs
  exact ⟨hrs, hvalid, hlookup 2 (by decide)⟩

open ScopeTable in
/-- A routine that was declared without overloads is joined by one that is declared with them. -/
theorem overload_joins_routine :
    let f : Symbol := { name := "f", kind := .function }
    let rs : List ScopeRequest := [.newScope .unit 0, .declare 1 f false, .declare 1 f true]
    Admits {} rs ∧ (after {} (rs.take 2)).lookupLocal 1 "f" = [1] ∧
      (after {} rs).lookupLocal 1 "f" = [1, 2] := by
  decide

end Pascaline
