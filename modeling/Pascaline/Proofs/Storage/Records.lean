import Mathlib
import Pascaline.CompiledUnit.Storage
import Pascaline.Proofs.Storage.MessagePack

/-!
# Stored records

How one record is read back: a member is found among the others, an absent one stands for its empty
value, and numbers and texts that fit their width come back unchanged. Constants, references, shapes
and types are read back here; a real that is zero comes back without a sign. The library's lemmas
about `Float` come with no smaller part of it than the whole.
-/

namespace Pascaline

namespace Storage

open Pack

/-! ## Widths -/

/-- The text has a length that can be stored. -/
def Brief (s : String) : Prop := (utf8 s).length < 2 ^ 32

instance (s : String) : Decidable (Brief s) :=
  inferInstanceAs (Decidable ((utf8 s).length < 2 ^ 32))

def IsWord (n : Int) : Prop := -2 ^ 63 ≤ n ∧ n < 2 ^ 63

instance (n : Int) : Decidable (IsWord n) :=
  inferInstanceAs (Decidable (-2 ^ 63 ≤ n ∧ n < 2 ^ 63))

def IsHalfWord (n : Int) : Prop := -2 ^ 31 ≤ n ∧ n < 2 ^ 31

instance (n : Int) : Decidable (IsHalfWord n) :=
  inferInstanceAs (Decidable (-2 ^ 31 ≤ n ∧ n < 2 ^ 31))

/-- The list has a length that can be stored, and so has all that is in it. -/
def Each {α : Type} (P : α → Prop) (xs : List α) : Prop := xs.length < 2 ^ 32 ∧ ∀ x ∈ xs, P x

instance {α : Type} {P : α → Prop} [DecidablePred P] (xs : List α) : Decidable (Each P xs) :=
  inferInstanceAs (Decidable (xs.length < 2 ^ 32 ∧ ∀ x ∈ xs, P x))

/-- A part that may be missing. -/
instance decidableIfPresent {α : Type} {P : α → Prop} [DecidablePred P] (o : Option α) :
    Decidable (∀ a, o = some a → P a) :=
  match o with
  | none => .isTrue (by simp)
  | some a => decidable_of_iff (P a) (by simp)

/-! ## Single members -/

@[simp] theorem getBytes_str (s : String) : getBytes (str s) = some (utf8 s) := rfl

@[simp] theorem getBytes_text (s : Bytes) : getBytes (.text s) = some s := rfl

@[simp] theorem getStr_str (s : String) : getStr (str s) = some s := by
  simp [getStr]

theorem getInt_int {n : Int} (h : IsWord n) : getInt (.int n) = some n := by
  have hbmod : Int.bmod n 0x10000000000000000 = n := by
    apply Int.bmod_eq_of_le_mul_two <;> have := h.1 <;> have := h.2 <;> omega
  simp [getInt, hbmod]

theorem getInt32_int {n : Int} (h : IsHalfWord n) : getInt32 (.int n) = some n := by
  have hword : IsWord n := ⟨by have := h.1; omega, by have := h.2; omega⟩
  have hbmod : Int.bmod n 0x100000000 = n := by
    apply Int.bmod_eq_of_le_mul_two <;> have := h.1 <;> have := h.2 <;> omega
  simp [getInt32, getInt_int hword, hbmod]

theorem getBits_nat {n : Nat} (bits : Nat) (h : n < 2 ^ bits) (hbits : bits ≤ 32) :
    getBits bits (nat n) = some n := by
  have hpow : 2 ^ bits ≤ 2 ^ 32 := Nat.pow_le_pow_right (by decide) hbits
  have hword : IsWord n := ⟨by omega, by omega⟩
  have hmod : ((n : Int) % (Nat.pow 2 bits : Int)).toNat = n := by
    have hcast : (Nat.pow 2 bits : Int) = ((2 ^ bits : Nat) : Int) := rfl
    rw [hcast, ← Int.natCast_emod, Int.toNat_natCast, Nat.mod_eq_of_lt h]
  simp only [getBits, nat, getInt_int hword, Option.map_some, hmod]

theorem getDigest_binary {d : Digest} (h : d.bytes.length = 32) :
    getDigest (.binary d.bytes) = some d := by
  simp [getDigest, getBytes, h]

theorem getReal_realBits (x : Float) : getReal (.real (realBits x)) = some x := by
  have hread : getReal (.real (realBits x)) = some (Float.ofBits (realBits x)) := rfl
  rw [hread]
  unfold realBits
  split
  · rename_i h
    have hnan : x = Float.nan := by simpa using h
    rw [hnan]
    rfl
  · rw [Float.ofBits_toBits]

theorem getOption_eq {α : Type} {f : Pack → Option α} {p : Pack} {a : α} (hp : p ≠ .nil)
    (h : f p = some a) : getOption f p = some (some a) := by
  have hread : getOption f p = (f p).map some := by
    cases p with
    | nil => exact absurd rfl hp
    | _ => rfl
  rw [hread, h]
  rfl

theorem getList_listOf {α β : Type} {f : Pack → Option β} {g : α → Pack} {r : α → β} {xs : List α}
    (h : ∀ x ∈ xs, f (g x) = some (r x)) : getList f (listOf g xs) = some (xs.map r) := by
  have hmap : (xs.map g).mapM f = some (xs.map r) := by
    induction xs with
    | nil => rfl
    | cons x xs ih =>
      rw [List.map_cons, List.mapM_cons, h x List.mem_cons_self,
        ih fun y hy => h y (List.mem_cons_of_mem _ hy)]
      rfl
  cases xs with
  | nil => rfl
  | cons x xs => exact hmap

/-! ## Finding members -/

theorem bind_some_eq {α β : Type} {o : Option α} {a : α} (h : o = some a) {f : α → Option β} :
    (o >>= f) = f a := by
  rw [h]
  rfl

theorem members_record (keys : List String) (es : List PackEntry) :
    members keys (record es) = some es := by
  unfold members record
  induction es with
  | nil => rfl
  | cons e es ih =>
    simp only [List.map_cons, List.mapM_cons] at ih ⊢
    rw [ih]
    simp

section Members

variable {α : Type} {key k : String} {absent : α} {f : Pack → Option α} {v : Pack}
  {es es' : List PackEntry}

/-- The member that a reader takes for a key. -/
def find (es : List PackEntry) (key : String) : Option Pack := es.reverse.lookup key

theorem member_eq : member es key absent f = (find es key).elim (some absent) f := by
  unfold member find
  cases es.reverse.lookup key <;> rfl

@[simp] theorem find_nil : find [] key = none := rfl

@[simp] theorem find_append : find (es ++ es') key = (find es' key).or (find es key) := by
  simp [find, List.lookup_append]

@[simp] theorem find_cons :
    find ((k, v) :: es) key = (find es key).or (if key = k then some v else none) := by
  by_cases h : key = k
  · simp [find, List.lookup_append, List.lookup, h]
  · have hbeq : (key == k) = false := by simpa using h
    simp [find, List.lookup_append, List.lookup, h, hbeq]

@[simp] theorem find_omitIf {e : Bool} :
    find (omitIf e k v) key = if key = k then (if e then none else some v) else none := by
  cases e <;> simp [omitIf]

@[simp] theorem find_optional {β : Type} {g : β → Pack} {o : Option β} :
    find (Pack.optional k g o) key = if key = k then o.map g else none := by
  cases o <;> simp [Pack.optional]

@[simp] theorem find_packPart {o : Option TypeDesc} :
    find (packPart k o) key = if key = k then o.map packType else none := by
  cases o <;> simp [packPart]

/-! What is left out is empty. -/

theorem elim_word {n : Int} (h : IsWord n) :
    Option.elim (if n = 0 then none else some (.int n)) (some 0) getInt = some n := by
  by_cases hn : n = 0
  · simp [hn]
  · simp [hn, getInt_int h]

theorem elim_halfWord {n : Int} (h : IsHalfWord n) :
    Option.elim (if n = 0 then none else some (.int n)) (some 0) getInt32 = some n := by
  by_cases hn : n = 0
  · simp [hn]
  · simp [hn, getInt32_int h]

theorem elim_bits {n : Nat} (bits : Nat) (h : n < 2 ^ bits) (hbits : bits ≤ 32) :
    Option.elim (if n = 0 then none else some (.int n)) (some 0) (getBits bits) = some n := by
  by_cases hn : n = 0
  · simp [hn]
  · have := getBits_nat bits h hbits
    simpa [hn, nat] using this

theorem elim_str (s : String) :
    Option.elim (if s = "" then none else some (str s)) (some "") getStr = some s := by
  by_cases hs : s = "" <;> simp [hs]

theorem elim_list {α β : Type} {f : Pack → Option β} {g : α → Pack} {r : α → β} {xs : List α}
    (h : ∀ x ∈ xs, f (g x) = some (r x)) :
    Option.elim (if xs = [] then none else some (listOf g xs)) (some []) (getList f) =
      some (xs.map r) := by
  by_cases hxs : xs = []
  · simp [hxs]
  · simp [hxs, getList_listOf h]

theorem elim_part {β : Type} {f : Pack → Option β} {g : β → Pack} {o : Option β}
    (hg : ∀ b, g b ≠ .nil) (h : ∀ b, o = some b → f (g b) = some b) :
    Option.elim (o.map g) (some none) (getOption f) = some o := by
  cases o with
  | none => rfl
  | some b => exact getOption_eq (hg b) (h b rfl)

/-! ## Lengths -/

theorem length_omitIf_le {e : Bool} : (omitIf e k v).length ≤ 1 := by
  cases e <;> simp [omitIf]

theorem length_optional_le {β : Type} {g : β → Pack} {o : Option β} :
    (Pack.optional k g o).length ≤ 1 := by
  cases o <;> simp [Pack.optional]

theorem length_packPart_le {o : Option TypeDesc} : (packPart k o).length ≤ 1 := by
  cases o <;> simp [packPart]

end Members

/-! A record has a form if all its members have one. -/

theorem fits_str {s : String} (h : Brief s) : (str s).Fits := h

theorem fits_int {n : Int} (h : IsWord n) : (int n).Fits := ⟨h.1, by have := h.2; omega⟩

theorem fits_nat {n : Nat} (h : n < 2 ^ 32) : (nat n).Fits := ⟨by omega, by omega⟩

theorem fits_listOf {α : Type} {g : α → Pack} {xs : List α} (h : Each (fun x => (g x).Fits) xs) :
    (listOf g xs).Fits := by
  cases xs with
  | nil => trivial
  | cons x xs =>
    refine ⟨by simpa using h.1, ?_⟩
    rw [fitList_iff]
    intro p hp
    obtain ⟨y, hy, rfl⟩ := List.mem_map.mp hp
    exact h.2 y hy

/-- The keys and values of members have forms. -/
def FitEntries (es : List PackEntry) : Prop := ∀ e ∈ es, Brief e.1 ∧ e.2.Fits

theorem fits_record {es : List PackEntry} (hlen : es.length < 2 ^ 32) (h : FitEntries es) :
    (record es).Fits := by
  refine ⟨by simpa using hlen, ?_⟩
  rw [fitMap_iff]
  intro m hm
  obtain ⟨e, he, rfl⟩ := List.mem_map.mp hm
  exact h e he

@[simp] theorem fitEntries_nil : FitEntries [] := by simp [FitEntries]

@[simp] theorem fitEntries_cons {k : String} {v : Pack} {es : List PackEntry} :
    FitEntries ((k, v) :: es) ↔ Brief k ∧ v.Fits ∧ FitEntries es := by
  simp [FitEntries, and_assoc]

@[simp] theorem fitEntries_append {es es' : List PackEntry} :
    FitEntries (es ++ es') ↔ FitEntries es ∧ FitEntries es' := by
  unfold FitEntries
  exact List.forall_mem_append

@[simp] theorem fitEntries_omitIf {e : Bool} {k : String} {v : Pack} :
    FitEntries (omitIf e k v) ↔ (e = false → Brief k ∧ v.Fits) := by
  cases e <;> simp [omitIf]

@[simp] theorem fitEntries_optional {α : Type} {k : String} {g : α → Pack} {o : Option α} :
    FitEntries (Pack.optional k g o) ↔ ∀ a, o = some a → Brief k ∧ (g a).Fits := by
  cases o <;> simp [Pack.optional]

@[simp] theorem fitEntries_packPart {k : String} {o : Option TypeDesc} :
    FitEntries (packPart k o) ↔ ∀ d, o = some d → Brief k ∧ (packType d).Fits := by
  cases o <;> simp [packPart]

/-! The parts of a document are shorter than the document. -/

theorem length_write_of_mem_map {ms : List (Pack × Pack)} {m : Pack × Pack} (h : m ∈ ms) :
    m.2.write.length ≤ (writeMap ms).length := by
  induction ms with
  | nil => cases h
  | cons x ms ih =>
    rcases List.mem_cons.mp h with rfl | h
    · simp [writeMap]
      omega
    · have := ih h
      simp [writeMap]
      omega

theorem length_write_of_mem_record {es : List PackEntry} {k : String} {v : Pack}
    (h : (k, v) ∈ es) : v.write.length < (record es).write.length := by
  have hmem : (str k, v) ∈ es.map fun e => (str e.1, e.2) := List.mem_map.mpr ⟨(k, v), h, rfl⟩
  have hle := length_write_of_mem_map hmem
  have hpos := length_writeCount_pos 0x80 0xde (es.map fun e => (str e.1, e.2)).length
  have hrecord : record es = map (es.map fun e => (str e.1, e.2)) := rfl
  rw [hrecord, write, List.length_append]
  exact Nat.lt_of_le_of_lt hle (Nat.lt_add_of_pos_left hpos)

theorem length_write_of_mem_list {xs : List Pack} {x : Pack} (h : x ∈ xs) :
    x.write.length < (list xs).write.length := by
  have hle : x.write.length ≤ (writeList xs).length := by
    induction xs with
    | nil => cases h
    | cons y xs ih =>
      rcases List.mem_cons.mp h with rfl | h
      · simp [writeList]
      · have := ih h
        simp [writeList]
        omega
  have hpos := length_writeCount_pos 0x90 0xdc xs.length
  simp only [write, List.length_append]
  omega

theorem length_write_of_mem_listOf {α : Type} {g : α → Pack} {xs : List α} {x : α} (h : x ∈ xs) :
    (g x).write.length < (listOf g xs).write.length := by
  cases xs with
  | nil => cases h
  | cons y xs => exact length_write_of_mem_list (List.mem_map.mpr ⟨x, h, rfl⟩)

end Storage

/-! ## Constants -/

open Storage Pack

/-- The value has a stored form: references have 32 bits. -/
def Value.Storable : Value → Prop
  | .string s => s.length < 2 ^ 32
  | .ref h => h < 2 ^ 32
  | .routine u _ => Brief u
  | _ => True

instance : DecidablePred Value.Storable
  | .string s => inferInstanceAs (Decidable (s.length < 2 ^ 32))
  | .ref h => inferInstanceAs (Decidable (h < 2 ^ 32))
  | .routine u _ => inferInstanceAs (Decidable (Brief u))
  | .invalid | .bool _ | .int _ | .real _ | .char _ => .isTrue trivial

/-- What is read back: a zero loses its sign. -/
def Value.restored : Value → Value
  | .real x => .real (if x == 0.0 then 0.0 else x)
  | v => v

namespace Storage

theorem isWord_toInt (n : Int64) : IsWord n.toInt := by
  have h₁ := n.le_toInt
  have h₂ := n.toInt_lt
  exact ⟨h₁, h₂⟩

theorem elim_int64 (n : Int64) :
    Option.elim (if n.toInt = 0 then none else some (.int n.toInt)) (some 0) getInt =
      some n.toInt :=
  elim_word (isWord_toInt n)

/-- The members of a stored value. -/
def valueEntries (v : Value) : List PackEntry :=
  ("k", nat (valueKindNumber v.kind)) :: match v with
    | .invalid => []
    | .bool n | .int n | .char n => optionalInt "i" n.toInt
    | .real x => omitIf (x == 0.0) "r" (.real (realBits x))
    | .string s => omitIf s.isEmpty "s" (.text s)
    | .ref h => optionalInt "h" h
    | .routine u n => optionalInt "i" n.toInt ++ omitIf (u == "") "s" (str u)

theorem packValue_eq (v : Value) : packValue v = record (valueEntries v) := by
  cases v <;> rfl

/-- The real a value carries, and the text. -/
def realOf : Value → Float
  | .real x => x
  | _ => 0.0

def textOf : Value → Bytes
  | .string s => s
  | .routine u _ => utf8 u
  | _ => []

theorem member_kind (v : Value) :
    member (valueEntries v) "k" 0 (getBits 8) = some (valueKindNumber v.kind) := by
  cases v <;> simp [member_eq, valueEntries, optionalInt, valueKindNumber, Value.kind, getBits_nat]

theorem member_number (v : Value) :
    member (valueEntries v) "i" 0 getInt = some v.number.toInt := by
  cases v <;> simp [member_eq, valueEntries, optionalInt, Value.number, elim_int64]

theorem member_real (v : Value) :
    member (valueEntries v) "r" 0.0 getReal = some (realOf v.restored) := by
  cases v with
  | real x =>
    by_cases hx : (x == 0.0) = true
    · simp [member_eq, valueEntries, Value.restored, realOf, hx]
    · simp [member_eq, valueEntries, Value.restored, realOf, hx, getReal_realBits]
  | _ => simp [member_eq, valueEntries, optionalInt, Value.restored, realOf]

theorem member_text (v : Value) : member (valueEntries v) "s" [] getBytes = some (textOf v) := by
  cases v with
  | string s => by_cases hs : s = [] <;> simp [member_eq, valueEntries, textOf, hs]
  | routine u n =>
    by_cases hu : u = ""
    · simp [member_eq, valueEntries, optionalInt, textOf, hu, utf8]
    · simp [member_eq, valueEntries, optionalInt, textOf, hu]
  | _ => simp [member_eq, valueEntries, optionalInt, textOf]

theorem member_handle {v : Value} (h : v.Storable) :
    member (valueEntries v) "h" 0 (getBits 32) = some v.handle := by
  cases v with
  | ref k => simp [member_eq, valueEntries, optionalInt, Value.handle, elim_bits 32 h]
  | _ => simp [member_eq, valueEntries, optionalInt, Value.handle]

theorem unpackValue_packValue {v : Value} (h : v.Storable) :
    unpackValue (packValue v) = some v.restored := by
  rw [packValue_eq]
  unfold unpackValue
  rw [bind_some_eq (members_record _ _), bind_some_eq (member_kind v),
    bind_some_eq (member_number v), bind_some_eq (member_real v), bind_some_eq (member_text v),
    bind_some_eq (member_handle h), Int64.ofInt_toInt]
  cases v with
  | routine u n => exact congrArg (fun u => some (Value.routine u n)) (Utf8.toString_utf8 u)
  | _ => rfl

theorem fits_packValue {v : Value} (h : v.Storable) : (packValue v).Fits := by
  have hkind : (nat (valueKindNumber v.kind)).Fits := by
    apply fits_nat
    cases v <;> simp [Value.kind, valueKindNumber]
  rw [packValue_eq]
  apply fits_record
  · cases v <;> simp [valueEntries, optionalInt] <;> grind [length_omitIf_le]
  · cases v with
    | invalid => simpa +decide [valueEntries] using hkind
    | bool n | int n | char n =>
      have := fits_int (isWord_toInt n)
      simpa +decide [valueEntries, optionalInt, this] using hkind
    | real x => simpa +decide [valueEntries, Fits] using hkind
    | string s =>
      have hs : (text s).Fits := h
      simpa +decide [valueEntries, hs] using hkind
    | ref k =>
      have hk : (int k).Fits := fits_nat h
      simpa +decide [valueEntries, optionalInt, hk] using hkind
    | routine u n =>
      have hn := fits_int (isWord_toInt n)
      have hu : (str u).Fits := h
      simpa +decide [valueEntries, optionalInt, hn, hu] using hkind

theorem packValue_restored (v : Value) : packValue v.restored = packValue v := by
  cases v with
  | real x =>
    by_cases hx : (x == 0.0) = true
    · have hzero : ((0.0 : Float) == 0.0) = true := by decide
      simp [packValue, Value.restored, Value.kind, hx, hzero, omitIf]
    · simp [packValue, Value.restored, Value.kind, hx]
  | _ => rfl

end Storage

/-! ## References -/

@[mk_iff]
structure RoutineRef.Storable (r : RoutineRef) : Prop where
  module : Brief r.module
  index : IsWord r.index

@[mk_iff]
structure ClassKey.Storable (k : ClassKey) : Prop where
  module : Brief k.module
  name : Brief k.name

@[mk_iff]
structure GlobalRef.Storable (g : GlobalRef) : Prop where
  module : Brief g.module
  slot : IsWord g.slot

instance : DecidablePred RoutineRef.Storable := fun x =>
  decidable_of_iff _ (RoutineRef.storable_iff x).symm

instance : DecidablePred ClassKey.Storable := fun x =>
  decidable_of_iff _ (ClassKey.storable_iff x).symm

instance : DecidablePred GlobalRef.Storable := fun x =>
  decidable_of_iff _ (GlobalRef.storable_iff x).symm

namespace Storage

theorem unpackRoutineRef_pack {r : RoutineRef} (h : r.Storable) :
    unpackRoutineRef (packRoutineRef r) = some r := by
  unfold unpackRoutineRef packRoutineRef
  simp [members_record, member_eq, getInt_int h.index]

theorem unpackClassKey_pack (k : ClassKey) : unpackClassKey (packClassKey k) = some k := by
  unfold unpackClassKey packClassKey
  simp [members_record, member_eq]

theorem unpackGlobalRef_pack {g : GlobalRef} (h : g.Storable) :
    unpackGlobalRef (packGlobalRef g) = some g := by
  unfold unpackGlobalRef packGlobalRef
  simp [members_record, member_eq, getInt_int h.slot]

theorem fits_packRoutineRef {r : RoutineRef} (h : r.Storable) : (packRoutineRef r).Fits := by
  apply fits_record (by simp)
  simp +decide [fits_str h.module, fits_int h.index]

theorem fits_packClassKey {k : ClassKey} (h : k.Storable) : (packClassKey k).Fits := by
  apply fits_record (by simp)
  simp +decide [fits_str h.module, fits_str h.name]

theorem fits_packGlobalRef {g : GlobalRef} (h : g.Storable) : (packGlobalRef g).Fits := by
  apply fits_record (by simp)
  simp +decide [fits_str h.module, fits_int h.slot]

end Storage

/-! ## Shapes -/

/-- The shape has a stored form, and it is the only one of that form. -/
def Shape.Storable : Shape → Prop
  | .array n e => IsWord n ∧ e.Storable
  | .hollow n => IsWord n
  | .unknown k => k = 0 ∨ 9 ≤ k ∧ k < 256
  | _ => True

instance Shape.decidableStorable : DecidablePred Shape.Storable
  | .array n e =>
    have := Shape.decidableStorable e
    inferInstanceAs (Decidable (IsWord n ∧ e.Storable))
  | .hollow n => inferInstanceAs (Decidable (IsWord n))
  | .unknown k => inferInstanceAs (Decidable (k = 0 ∨ 9 ≤ k ∧ k < 256))
  | .bool | .int | .real | .char | .string | .ref | .routine => .isTrue trivial

namespace Storage

theorem packShape_ne_nil (s : Shape) : packShape s ≠ .nil := by
  cases s <;> simp [packShape, record]

theorem unpackShape_pack {s : Shape} (h : s.Storable) {fuel : Nat}
    (hfuel : (packShape s).write.length ≤ fuel) : unpackShape fuel (packShape s) = some s := by
  induction fuel generalizing s with
  | zero =>
    have := length_write_pos (packShape s)
    omega
  | succ fuel ih =>
    unfold unpackShape
    cases s with
    | array n e =>
      have helem : unpackShape fuel (packShape e) = some e := by
        apply ih h.2
        unfold packShape at hfuel
        have hmem : ("e", packShape e) ∈ [("k", nat 8)] ++ optionalInt "n" n ++
            [("e", packShape e)] := by simp
        have := length_write_of_mem_record hmem
        omega
      unfold packShape
      rw [bind_some_eq (members_record _ _)]
      simp [member_eq, optionalInt, getBits_nat, elim_word h.1,
        getOption_eq (packShape_ne_nil e) helem]
    | hollow n =>
      unfold packShape
      rw [bind_some_eq (members_record _ _)]
      simp [member_eq, optionalInt, getBits_nat, elim_word h]
    | unknown k =>
      have hk : k < 2 ^ 8 := by
        have : k = 0 ∨ 9 ≤ k ∧ k < 256 := h
        omega
      unfold packShape
      rw [bind_some_eq (members_record _ _)]
      simp [member_eq, getBits_nat 8 hk]
      rcases h with rfl | ⟨hlow, -⟩
      · rfl
      · split <;> first | rfl | omega
    | _ =>
      unfold packShape
      rw [bind_some_eq (members_record _ _)]
      simp [member_eq, getBits_nat]

theorem fits_packShape {s : Shape} (h : s.Storable) : (packShape s).Fits := by
  induction s with
  | array n e ih =>
    unfold packShape
    apply fits_record
    · simp [optionalInt]
      grind [length_omitIf_le]
    · simp +decide [optionalInt, fits_int h.1, ih h.2, fits_nat]
  | hollow n =>
    unfold packShape
    apply fits_record
    · simp [optionalInt]
      grind [length_omitIf_le]
    · simp +decide [optionalInt, fits_int h, fits_nat]
  | unknown k =>
    have hk : k < 2 ^ 32 := by
      have : k = 0 ∨ 9 ≤ k ∧ k < 256 := h
      omega
    apply fits_record (by simp)
    simp +decide [fits_nat hk]
  | _ =>
    apply fits_record (by simp)
    simp +decide [fits_nat]

end Storage

/-! ## Types -/

mutual

/-- The type has a stored form, and it is the only one of that form. -/
def TypeDesc.Storable : TypeDesc → Prop
  | .basic k => k ∈ [TypeKind.void, .nil, .boolean, .integer, .real, .char, .string]
  | .pointer e => TypeDesc.PartStorable e
  | .array e n => TypeDesc.PartStorable e ∧ ∀ k, n = some k → k < TypeTable.dynamicLength
  | .classRef key => ∀ k, key = some k → k.Storable
  | .routine _ params result =>
    params.length < 2 ^ 32 ∧ TypeDesc.AllStorable params ∧ TypeDesc.PartStorable result
  | .unknown k => k = 0 ∨ 13 ≤ k ∧ k < 256

def TypeDesc.PartStorable : Option TypeDesc → Prop
  | none => True
  | some d => d.Storable

def TypeDesc.AllStorable : List TypeDesc → Prop
  | [] => True
  | d :: ds => d.Storable ∧ TypeDesc.AllStorable ds

end

mutual

instance TypeDesc.decidableStorable : (d : TypeDesc) → Decidable d.Storable
  | .basic k => inferInstanceAs (Decidable (k ∈
      [TypeKind.void, .nil, .boolean, .integer, .real, .char, .string]))
  | .pointer e => TypeDesc.decidablePartStorable e
  | .array e n =>
    have := TypeDesc.decidablePartStorable e
    inferInstanceAs (Decidable (TypeDesc.PartStorable e ∧
      ∀ k, n = some k → k < TypeTable.dynamicLength))
  | .classRef key => inferInstanceAs (Decidable (∀ k, key = some k → k.Storable))
  | .routine _ params result =>
    have := TypeDesc.decidableAllStorable params
    have := TypeDesc.decidablePartStorable result
    inferInstanceAs (Decidable (params.length < 2 ^ 32 ∧ TypeDesc.AllStorable params ∧
      TypeDesc.PartStorable result))
  | .unknown k => inferInstanceAs (Decidable (k = 0 ∨ 13 ≤ k ∧ k < 256))

instance TypeDesc.decidablePartStorable : (o : Option TypeDesc) →
    Decidable (TypeDesc.PartStorable o)
  | none => .isTrue trivial
  | some d => TypeDesc.decidableStorable d

instance TypeDesc.decidableAllStorable : (ds : List TypeDesc) →
    Decidable (TypeDesc.AllStorable ds)
  | [] => .isTrue trivial
  | d :: ds =>
    have := TypeDesc.decidableStorable d
    have := TypeDesc.decidableAllStorable ds
    inferInstanceAs (Decidable (d.Storable ∧ TypeDesc.AllStorable ds))

end

theorem TypeDesc.partStorable_iff {o : Option TypeDesc} :
    TypeDesc.PartStorable o ↔ ∀ d, o = some d → d.Storable := by
  cases o <;> simp [TypeDesc.PartStorable]

theorem TypeDesc.allStorable_iff {ds : List TypeDesc} :
    TypeDesc.AllStorable ds ↔ ∀ d ∈ ds, d.Storable := by
  induction ds with
  | nil => simp [TypeDesc.AllStorable]
  | cons d ds ih => simp [TypeDesc.AllStorable, ih]

namespace Storage

theorem packType_ne_nil (d : TypeDesc) : packType d ≠ .nil := by
  cases d <;> simp [packType, record]

theorem packTypes_eq (ds : List TypeDesc) : packTypes ds = ds.map packType := by
  induction ds with
  | nil => rfl
  | cons d ds ih => simp [packTypes, ih]

theorem arrayLength_lt {n : Option Nat} (h : ∀ k, n = some k → k < TypeTable.dynamicLength) :
    n.getD TypeTable.dynamicLength < 2 ^ 32 := by
  cases n with
  | none => decide
  | some k =>
    have := h k rfl
    simp only [TypeTable.dynamicLength, Option.getD_some] at this ⊢
    omega

theorem unpackType_pack {d : TypeDesc} (h : d.Storable) {fuel : Nat}
    (hfuel : (packType d).write.length ≤ fuel) : unpackType fuel (packType d) = some d := by
  induction fuel generalizing d with
  | zero =>
    have := length_write_pos (packType d)
    omega
  | succ fuel ih =>
    -- A part is shorter, so that the fuel that is left will do.
    have hpart : ∀ (es : List PackEntry) (k : String) (o : Option TypeDesc),
        packType d = record es → packPart k o ⊆ es → TypeDesc.PartStorable o →
        Option.elim (o.map packType) (some none) (getOption (unpackType fuel)) = some o := by
      intro es k o hd hes ho
      apply elim_part packType_ne_nil
      rintro e rfl
      have hlt := length_write_of_mem_record (hes (show (k, packType e) ∈ _ by simp [packPart]))
      rw [← hd] at hlt
      exact ih ho (by omega)
    unfold unpackType
    cases d with
    | basic k =>
      simp only [TypeDesc.Storable, List.mem_cons, List.not_mem_nil, or_false] at h
      unfold packType
      rw [bind_some_eq (members_record _ _)]
      rcases h with rfl | rfl | rfl | rfl | rfl | rfl | rfl <;>
        simp [member_eq, getBits_nat, typeKindNumber, TypeKind.all, List.findIdx_cons]
    | pointer e =>
      have he := hpart _ "e" e rfl (by simp) h
      unfold packType
      rw [bind_some_eq (members_record _ _)]
      simp [member_eq, getBits_nat, he]
    | array e n =>
      have he := hpart _ "e" e rfl (by simp) h.1
      have hn := arrayLength_lt h.2
      have hread : (if n.getD TypeTable.dynamicLength = TypeTable.dynamicLength then none
          else some (n.getD TypeTable.dynamicLength)) = n := by
        cases n with
        | none => rfl
        | some k => simp [Nat.ne_of_lt (h.2 k rfl)]
      unfold packType
      rw [bind_some_eq (members_record _ _)]
      simp [member_eq, optionalInt, getBits_nat, he, elim_bits 32 hn, hread]
    | classRef key =>
      have hkey : Option.elim (key.map packClassKey) (some none) (getOption unpackClassKey) =
          some key := elim_part (by simp [packClassKey, record]) fun k _ => unpackClassKey_pack k
      unfold packType
      rw [bind_some_eq (members_record _ _)]
      simp [member_eq, getBits_nat, hkey]
    | routine isFunction params result =>
      have hresult := hpart _ "r" result rfl (by simp) h.2.2
      have hparams : ∀ d ∈ params, unpackType fuel (packType d) = some d := by
        intro d hd
        have hne : params ≠ [] := List.ne_nil_of_mem hd
        have hlist : (packType d).write.length < (list (packTypes params)).write.length :=
          length_write_of_mem_list (by rw [packTypes_eq]; exact List.mem_map_of_mem hd)
        have hrecord : (list (packTypes params)).write.length <
            (packType (.routine isFunction params result)).write.length := by
          unfold packType
          exact length_write_of_mem_record (k := "p") (by simp [omitIf, hne])
        exact ih (TypeDesc.allStorable_iff.mp h.2.1 d hd) (by omega)
      have hlist : Option.elim (if params = [] then none else some (list (packTypes params)))
          (some []) (getList (unpackType fuel)) = some params := by
        rw [packTypes_eq]
        cases params with
        | nil => rfl
        | cons d ds => simpa [listOf] using getList_listOf (g := packType) (r := id) hparams
      unfold packType
      rw [bind_some_eq (members_record _ _)]
      cases isFunction <;> simp [member_eq, getBits_nat, hresult, hlist]
    | unknown k =>
      have hk : k = 0 ∨ 13 ≤ k ∧ k < 256 := h
      have hbits : k < 2 ^ 8 := by omega
      unfold packType
      rw [bind_some_eq (members_record _ _)]
      simp [member_eq, getBits_nat 8 hbits]
      rcases hk with rfl | ⟨hlow, -⟩
      · rfl
      · split <;> first | omega | skip
        have hnone : TypeKind.all[k]? = none := List.getElem?_eq_none hlow
        rw [hnone]

mutual

theorem fits_packType (d : TypeDesc) (h : d.Storable) : (packType d).Fits := by
  unfold packType
  cases d with
  | basic k =>
    simp only [TypeDesc.Storable, List.mem_cons, List.not_mem_nil, or_false] at h
    have hk : typeKindNumber k < 2 ^ 32 := by
      rcases h with rfl | rfl | rfl | rfl | rfl | rfl | rfl <;> decide
    apply fits_record (by simp)
    simp +decide [fits_nat hk]
  | pointer e =>
    apply fits_record
    · simp
      grind [length_packPart_le]
    · have he := fits_parts e h
      simpa +decide [fits_nat] using he
  | array e n =>
    apply fits_record
    · simp [optionalInt]
      grind [length_packPart_le, length_omitIf_le]
    · have he := fits_parts e h.1
      have hn : (int (n.getD TypeTable.dynamicLength : Nat)).Fits := fits_nat (arrayLength_lt h.2)
      simpa +decide [fits_nat, optionalInt, hn] using he
  | classRef key =>
    apply fits_record
    · simp
      grind [length_optional_le]
    · have hkey : ∀ k, key = some k → (packClassKey k).Fits := fun k hk =>
        fits_packClassKey (h k hk)
      simpa +decide [fits_nat] using hkey
  | routine isFunction params result =>
    apply fits_record
    · simp
      grind [length_packPart_le, length_omitIf_le]
    · have hresult := fits_parts result h.2.2
      have hparams : (list (packTypes params)).Fits := by
        rw [packTypes_eq]
        refine ⟨by simpa using h.1, ?_⟩
        rw [fitList_iff]
        intro p hp
        obtain ⟨d, hd, rfl⟩ := List.mem_map.mp hp
        exact fits_types params h.2.1 d hd
      have hkind : (nat (if isFunction then 12 else 11)).Fits := fits_nat (by split <;> omega)
      simpa +decide [hkind, hparams] using hresult
  | unknown k =>
    have hk : k = 0 ∨ 13 ≤ k ∧ k < 256 := h
    apply fits_record (by simp)
    simp +decide [fits_nat (show k < 2 ^ 32 by omega)]

theorem fits_parts (o : Option TypeDesc) (h : TypeDesc.PartStorable o) :
    ∀ d, o = some d → (packType d).Fits := by
  cases o with
  | none => simp
  | some d =>
    have hd := fits_packType d h
    simpa using hd

theorem fits_types (ds : List TypeDesc) (h : TypeDesc.AllStorable ds) :
    ∀ d ∈ ds, (packType d).Fits := by
  cases ds with
  | nil => simp
  | cons d ds =>
    have hd := fits_packType d h.1
    have hds := fits_types ds h.2
    simpa [hd] using hds

end

end Storage

end Pascaline
