import Pascaline.Proofs.Pairwise
import Pascaline.Scope

/-!
# Scopes that gain symbols

What a scope table shows after a scope was opened, a symbol was bound or a symbol was replaced:
nothing else in it has changed.
-/

namespace Pascaline

/-! ## Flags -/

namespace SymbolFlags

theorem has_without (f : SymbolFlags) {g mask : SymbolFlags}
    (h : ~~~g.bits &&& mask.bits = mask.bits) : (f.without g).has mask = f.has mask := by
  have hbits : f.bits &&& ~~~g.bits &&& mask.bits = f.bits &&& mask.bits := by
    rw [UInt16.and_assoc, h]
  exact congrArg (· == mask.bits) hbits

theorem has_global_imported (f : SymbolFlags) : (f.union .imported).has .global = f.has .global := by
  have h : ∀ a : UInt16, (a ||| 2) &&& 8 = a &&& 8 := fun a =>
    UInt16.toBitVec_inj.mp (BitVec.and_or_distrib_right.trans BitVec.or_zero)
  exact congrArg (· == (8 : UInt16)) (h f.bits)

theorem has_imported (f : SymbolFlags) : (f.union .imported).has .imported = true := by
  have h : ∀ a b : BitVec 16, (a ||| b) &&& b = b := fun a b =>
    BitVec.eq_of_getLsbD_eq fun i _ => by simp +contextual
  exact beq_iff_eq.mpr (UInt16.toBitVec_inj.mp (h _ _))

theorem without_imported {f : SymbolFlags} (h : f.has .imported = false) :
    f.without .imported = f := by
  have hne : f.bits &&& 2 ≠ 2 := beq_eq_false_iff_ne.mp h
  have hzero : f.bits &&& 2 = 0 := by
    have hbit := BitVec.and_twoPow f.bits.toBitVec 1
    split at hbit
    · exact absurd (UInt16.toBitVec_inj.mp hbit) hne
    · exact UInt16.toBitVec_inj.mp hbit
  have hbits : f.bits &&& ~~~2 = f.bits := calc
    f.bits &&& ~~~2 = (f.bits &&& 2) ||| (f.bits &&& ~~~2) := by rw [hzero, UInt16.zero_or]
    _ = f.bits &&& (2 ||| ~~~2) := UInt16.toBitVec_inj.mp BitVec.and_or_distrib_left.symm
    _ = f.bits := UInt16.and_neg_one
  exact congrArg SymbolFlags.mk hbits

end SymbolFlags

/-! ## The index by name -/

namespace NameIndex

theorem lookup_pushEntry (name n : String) (id : SymbolId) (entries : List (String × List SymbolId)) :
    (pushEntry name id entries).lookup n =
      if n = name then some ((entries.lookup n).getD [] ++ [id]) else entries.lookup n := by
  induction entries with
  | nil =>
    by_cases hn : n = name
    · simp [pushEntry, hn]
    · have hbeq : (n == name) = false := by simpa using hn
      simp [pushEntry, List.lookup_cons, hn, hbeq]
  | cons e entries ih =>
    obtain ⟨m, ids⟩ := e
    unfold pushEntry
    by_cases hm : m = name
    · subst hm
      by_cases hn : n = m
      · simp [hn]
      · have hbeq : (n == m) = false := by simpa using hn
        simp [List.lookup_cons, hn, hbeq]
    · rw [if_neg hm]
      by_cases hnm : n = m
      · subst hnm
        simp [hm]
      · have hbeq : (n == m) = false := by simpa using hnm
        simp only [List.lookup_cons, hbeq]
        exact ih

theorem find_push (x : NameIndex) (name n : String) (id : SymbolId) :
    (x.push name id).find n = if n = name then x.find n ++ [id] else x.find n := by
  unfold find push
  rw [lookup_pushEntry]
  split <;> rfl

theorem mem_find_push {x : NameIndex} {name n : String} {id y : SymbolId} :
    y ∈ (x.push name id).find n ↔ y ∈ x.find n ∨ n = name ∧ y = id := by
  rw [find_push]
  by_cases hn : n = name <;> simp [hn]

end NameIndex

namespace ScopeTable

variable {t t' : ScopeTable} {id scope x y : Nat} {sc : Scope} {sym : Symbol}

theorem scope?_eq_some : t.scope? id = some sc ↔ id ≠ 0 ∧ t.scopes[id - 1]? = some sc := by
  unfold scope?
  split <;> simp_all

theorem symbol?_eq_some : t.symbol? x = some sym ↔ x ≠ 0 ∧ t.symbols[x - 1]? = some sym := by
  unfold symbol?
  split <;> simp_all

theorem scope?_le (h : t.scope? id = some sc) : id ≤ t.scopes.size := by
  obtain ⟨hid, hsc⟩ := scope?_eq_some.mp h
  have := (Array.getElem?_eq_some_iff.mp hsc).1
  omega

theorem symbol?_le (h : t.symbol? x = some sym) : x ≤ t.symbols.size := by
  obtain ⟨hx, hsym⟩ := symbol?_eq_some.mp h
  have := (Array.getElem?_eq_some_iff.mp hsym).1
  omega

/-! ## New scopes -/

theorem scope?_newScope (t : ScopeTable) (kind : ScopeKind) (parent id : Nat) :
    (t.newScope kind parent).2.scope? id =
      if id = t.scopes.size + 1 then some { kind, parent } else t.scope? id := by
  unfold newScope scope?
  by_cases hid : id = 0
  · simp [hid]
  · by_cases hnew : id = t.scopes.size + 1
    · simp [hnew]
    · have hne : id - 1 ≠ t.scopes.size := by omega
      simp [hid, hnew, Array.getElem?_push, hne]

theorem scope?_newScope_of_le (kind : ScopeKind) (parent : ScopeId) (h : id ≤ t.scopes.size) :
    (t.newScope kind parent).2.scope? id = t.scope? id := by
  rw [scope?_newScope, if_neg (Nat.ne_of_lt (Nat.lt_succ_of_le h))]

theorem scope?_newScope_of_some (kind : ScopeKind) (parent : ScopeId) (h : t.scope? id = some sc) :
    (t.newScope kind parent).2.scope? id = some sc :=
  (scope?_newScope_of_le kind parent (scope?_le h)).trans h

/-! ## New symbols -/

/-- The table with one symbol more, in a scope that is there. -/
def bind (t : ScopeTable) (scope : ScopeId) (sc : Scope) (sym : Symbol) : ScopeTable :=
  { scopes := t.scopes.set! (scope - 1)
      { sc with index := sc.index.push sym.name (t.symbols.size + 1)
                symbols := sc.symbols ++ [t.symbols.size + 1] },
    symbols := t.symbols.push { sym with scope } }

theorem lookupLocal_of_scope? (hsc : t.scope? scope = some sc) (name : String) :
    t.lookupLocal scope name = sc.index.find name := by
  unfold lookupLocal
  rw [hsc]

theorem declare_cases {overload : Bool} {d : Declared}
    (h : t.declare scope sym overload = .ok (d, t')) :
    (∃ previous, d = .conflict previous ∧ t' = t ∧ previous ∈ t.lookupLocal scope sym.name) ∨
      ∃ sc, t.scope? scope = some sc ∧ d = .bound (t.symbols.size + 1) ∧
        t' = t.bind scope sc sym ∧
        ∀ y ∈ sc.index.find sym.name, overload = true ∧ t.isRoutine y = true := by
  unfold declare at h
  split at h
  · cases h
  · rename_i sc hsc
    split at h
    · rename_i previous hfound
      cases h
      refine .inl ⟨previous, rfl, rfl, ?_⟩
      rw [lookupLocal_of_scope? hsc]
      exact List.mem_of_find?_eq_some hfound
    · rename_i hnone
      cases h
      refine .inr ⟨sc, hsc, rfl, rfl, fun y hy => ?_⟩
      have := List.find?_eq_none.mp hnone y hy
      simpa using this

theorem scope?_bind (hsc : t.scope? scope = some sc) (id : Nat) :
    (t.bind scope sc sym).scope? id =
      if id = scope then some { sc with index := sc.index.push sym.name (t.symbols.size + 1)
                                        symbols := sc.symbols ++ [t.symbols.size + 1] }
      else t.scope? id := by
  obtain ⟨hne, hget⟩ := scope?_eq_some.mp hsc
  have hlt := (Array.getElem?_eq_some_iff.mp hget).1
  unfold bind scope?
  by_cases hid : id = 0
  · have hne' : 0 ≠ scope := fun h => hne h.symm
    simp [hid, hne']
  · by_cases heq : id = scope
    · subst heq
      simp [hid, hlt]
    · have hpos : scope - 1 ≠ id - 1 := by omega
      simp [hid, heq, hpos]

theorem size_scopes_bind : (t.bind scope sc sym).scopes.size = t.scopes.size := by
  simp [bind]

theorem symbol?_bind (t : ScopeTable) (scope : Nat) (sc : Scope) (sym : Symbol) (x : Nat) :
    (t.bind scope sc sym).symbol? x =
      if x = t.symbols.size + 1 then some { sym with scope } else t.symbol? x := by
  unfold bind symbol?
  by_cases hx : x = 0
  · simp [hx]
  · by_cases hnew : x = t.symbols.size + 1
    · simp [hnew]
    · have hne : x - 1 ≠ t.symbols.size := by omega
      simp [hx, hnew, Array.getElem?_push, hne]

/-! ## Symbols that change -/

theorem scope?_setSymbol (t : ScopeTable) (x : SymbolId) (sym : Symbol) (id : ScopeId) :
    (t.setSymbol x sym).scope? id = t.scope? id := by
  unfold setSymbol
  split <;> rfl

theorem symbol?_setSymbol {old : Symbol} (hold : t.symbol? x = some old) (sym : Symbol)
    (y : Nat) :
    (t.setSymbol x sym).symbol? y = if y = x then some sym else t.symbol? y := by
  obtain ⟨hne, hget⟩ := symbol?_eq_some.mp hold
  have hlt := (Array.getElem?_eq_some_iff.mp hget).1
  unfold setSymbol symbol?
  rw [if_neg hne]
  by_cases hy : y = 0
  · have hne' : 0 ≠ x := fun h => hne h.symm
    simp [hy, hne']
  · by_cases heq : y = x
    · subst heq
      simp [hy, hlt]
    · have hpos : x - 1 ≠ y - 1 := by omega
      simp [hy, heq, hpos]

end ScopeTable

end Pascaline
