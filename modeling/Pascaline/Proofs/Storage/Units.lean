import Pascaline.Proofs.Storage.Records

/-!
# Stored units

A unit that is in order and whose numbers and lengths fit their fields is read back from its bytes:
all that is stored comes back as it was, but for the sign of zero among the real constants.
-/

namespace Pascaline

open Storage Pack

/-! ## What can be stored -/

@[mk_iff]
structure SymbolDesc.Storable (d : SymbolDesc) : Prop where
  name : Brief d.name
  display : Brief d.display
  type : TypeDesc.PartStorable d.type
  const : d.const.Storable
  slot : IsWord d.slot
  routine : IsWord d.routine
  owner : ∀ k, d.owner = some k → k.Storable
  native : Brief d.native
  params : Each TypeDesc.Storable d.params
  result : TypeDesc.PartStorable d.result
  start : d.start < 2 ^ 32
  stop : d.stop < 2 ^ 32

instance : DecidablePred SymbolDesc.Storable := fun x =>
  decidable_of_iff _ (SymbolDesc.storable_iff x).symm

@[mk_iff]
structure FieldDesc.Storable (d : FieldDesc) : Prop where
  name : Brief d.name
  type : d.type.Storable
  offset : IsWord d.offset

instance : DecidablePred FieldDesc.Storable := fun x =>
  decidable_of_iff _ (FieldDesc.storable_iff x).symm

@[mk_iff]
structure MethodDesc.Storable (d : MethodDesc) : Prop where
  name : Brief d.name
  selector : Brief d.selector
  kind : d.kind < 2 ^ 8
  params : Each TypeDesc.Storable d.params
  result : TypeDesc.PartStorable d.result
  slot : IsWord d.slot
  routine : d.routine.Storable

instance : DecidablePred MethodDesc.Storable := fun x =>
  decidable_of_iff _ (MethodDesc.storable_iff x).symm

@[mk_iff]
structure VmtDesc.Storable (d : VmtDesc) : Prop where
  selector : Brief d.selector
  routine : d.routine.Storable
  owner : d.owner.Storable

instance : DecidablePred VmtDesc.Storable := fun x =>
  decidable_of_iff _ (VmtDesc.storable_iff x).symm

@[mk_iff]
structure ClassDesc.Storable (d : ClassDesc) : Prop where
  name : Brief d.name
  base : ∀ k, d.base = some k → k.Storable
  fields : Each FieldDesc.Storable d.fields
  methods : Each MethodDesc.Storable d.methods
  vmt : Each VmtDesc.Storable d.vmt
  slots : IsWord d.slots
  shapes : Each Shape.Storable d.shapes

instance : DecidablePred ClassDesc.Storable := fun x =>
  decidable_of_iff _ (ClassDesc.storable_iff x).symm

/-- An operation that has no name has a number that no other one has. -/
def Op.Storable : Op → Prop
  | .unknown n => Op.all.length ≤ n ∧ n < 2 ^ 8
  | _ => True

instance : DecidablePred Op.Storable := fun op => by
  cases op with
  | unknown n => exact inferInstanceAs (Decidable (Op.all.length ≤ n ∧ n < 2 ^ 8))
  | _ => exact .isTrue trivial

@[mk_iff]
structure Instr.Storable (i : Instr) : Prop where
  op : i.op.Storable
  a : IsHalfWord i.a
  b : IsHalfWord i.b
  pos : i.pos < 2 ^ 32

instance : DecidablePred Instr.Storable := fun x =>
  decidable_of_iff _ (Instr.storable_iff x).symm

@[mk_iff]
structure Routine.Storable (r : Routine) : Prop where
  name : Brief r.name
  params : IsWord r.params
  result : IsWord r.result
  locals : Each Shape.Storable r.locals.toList
  blocks : Each (fun b : Array Instr => Each Instr.Storable b.toList) r.blocks.toList

instance : DecidablePred Routine.Storable := fun x =>
  decidable_of_iff _ (Routine.storable_iff x).symm

@[mk_iff]
structure Pool.Storable (p : Pool) : Prop where
  consts : Each Value.Storable p.consts.toList
  calls : Each RoutineRef.Storable p.calls.toList
  globals : Each GlobalRef.Storable p.globals.toList
  classes : Each ClassKey.Storable p.classes.toList
  natives : Each Brief p.natives.toList
  shapes : Each Shape.Storable p.shapes.toList

instance : DecidablePred Pool.Storable := fun x =>
  decidable_of_iff _ (Pool.storable_iff x).symm

@[mk_iff]
structure GlobalDesc.Storable (d : GlobalDesc) : Prop where
  name : Brief d.name
  shape : d.shape.Storable

instance : DecidablePred GlobalDesc.Storable := fun x =>
  decidable_of_iff _ (GlobalDesc.storable_iff x).symm

@[mk_iff]
structure DepDigest.Storable (d : DepDigest) : Prop where
  name : Brief d.name
  digest : d.digest.bytes.length = 32

instance : DecidablePred DepDigest.Storable := fun x =>
  decidable_of_iff _ (DepDigest.storable_iff x).symm

/-- All numbers of the unit fit their fields, and all texts and lists are short enough. -/
@[mk_iff]
structure CompiledUnit.Storable (u : CompiledUnit) : Prop where
  name : Brief u.name
  display : Brief u.display
  path : Brief u.path
  source : u.source.bytes.length = 32
  deps : Each DepDigest.Storable u.deps
  imports : Each Brief u.imports
  exports : Each SymbolDesc.Storable u.exports
  privates : Each SymbolDesc.Storable u.privates
  classes : Each ClassDesc.Storable u.classes
  globals : Each GlobalDesc.Storable u.globals
  table : ∀ rs, u.table = some rs → Each Routine.Storable rs.toList
  pool : u.pool.Storable
  init : IsWord u.init
  main : IsWord u.main

instance : DecidablePred CompiledUnit.Storable := fun x =>
  decidable_of_iff _ (CompiledUnit.storable_iff x).symm

/-! ## What is read back -/

def SymbolDesc.restored (d : SymbolDesc) : SymbolDesc := { d with const := d.const.restored }

def Pool.restored (p : Pool) : Pool := { p with consts := p.consts.map Value.restored }

/-- The unit as it is read back: zeros among its constants have no sign, and it belongs to no
source of a session. -/
def CompiledUnit.restored (u : CompiledUnit) : CompiledUnit :=
  { u with exports := u.exports.map SymbolDesc.restored
           privates := u.privates.map SymbolDesc.restored
           pool := u.pool.restored
           file := 0 }

/-! ## Reading back -/

namespace Storage

section Parts

variable {es : List PackEntry} {fuel : Nat}

theorem elim_type {k : String} {o : Option TypeDesc}
    (hes : ∀ d, o = some d → (k, packType d) ∈ es) (hfuel : (record es).write.length ≤ fuel)
    (h : TypeDesc.PartStorable o) :
    Option.elim (o.map packType) (some none) (getOption (unpackType fuel)) = some o := by
  apply elim_part packType_ne_nil
  intro d hd
  have hlt := length_write_of_mem_record (hes d hd)
  exact unpackType_pack (TypeDesc.partStorable_iff.mp h d hd) (by omega)

theorem fuel_of_mem {α : Type} {k : String} {g : α → Pack} {xs : List α} {x : α}
    (hes : xs ≠ [] → (k, listOf g xs) ∈ es) (hfuel : (record es).write.length ≤ fuel)
    (hx : x ∈ xs) : (g x).write.length ≤ fuel := by
  have hlist := length_write_of_mem_record (hes (List.ne_nil_of_mem hx))
  have helem := length_write_of_mem_listOf (g := g) hx
  omega

theorem elim_types {k : String} {ds : List TypeDesc}
    (hes : ds ≠ [] → (k, listOf packType ds) ∈ es) (hfuel : (record es).write.length ≤ fuel)
    (h : Each TypeDesc.Storable ds) :
    Option.elim (if ds = [] then none else some (listOf packType ds)) (some [])
      (getList (unpackType fuel)) = some ds := by
  have hds : ∀ d ∈ ds, unpackType fuel (packType d) = some (id d) := fun d hd =>
    unpackType_pack (h.2 d hd) (fuel_of_mem hes hfuel hd)
  simpa using elim_list hds

end Parts

theorem getList_arrayOf {α β : Type} {f : Pack → Option β} {g : α → Pack} {r : α → β}
    {xs : Array α} (h : ∀ x ∈ xs.toList, f (g x) = some (r x)) :
    getList f (arrayOf g xs) = some (xs.map r).toList := by
  rw [Array.toList_map]
  exact getList_listOf h

theorem elim_key (key : Option ClassKey) :
    Option.elim (key.map packClassKey) (some none) (getOption unpackClassKey) = some key :=
  elim_part (by simp [packClassKey, record]) fun k _ => unpackClassKey_pack k

theorem ofNumber_number (k : SymbolKind) : SymbolKind.ofNumber k.number = k := by
  cases k <;> rfl

theorem number_lt (k : SymbolKind) : k.number < 2 ^ 8 := by
  cases k <;> decide

theorem unpackSymbol_pack {d : SymbolDesc} (h : d.Storable) {fuel : Nat}
    (hfuel : (packSymbol d).write.length ≤ fuel) :
    unpackSymbol fuel (packSymbol d) = some d.restored := by
  have htype := elim_type (k := "t") (by simp +contextual [packPart]) hfuel h.type
  have hresult := elim_type (k := "res") (by simp +contextual [packPart]) hfuel h.result
  have hparams := elim_types (k := "p") (by simp +contextual [optionalList, omitIf]) hfuel h.params
  have hflags : d.flags.bits.toNat < 2 ^ 16 := d.flags.bits.toNat_lt
  unfold unpackSymbol packSymbol
  rw [bind_some_eq (members_record _ _)]
  simp [member_eq, optionalInt, optionalList, htype, hresult, hparams, elim_key d.owner,
    elim_word h.slot, elim_word h.routine, elim_str, elim_bits 16 hflags,
    getBits_nat 8 (number_lt d.kind), ofNumber_number, unpackValue_packValue h.const,
    getBits_nat 32 h.start, getBits_nat 32 h.stop, SymbolDesc.restored]

theorem unpackField_pack {d : FieldDesc} (h : d.Storable) {fuel : Nat}
    (hfuel : (packField d).write.length ≤ fuel) : unpackField fuel (packField d) = some d := by
  have hlt : (packType d.type).write.length < (packField d).write.length :=
    length_write_of_mem_record (k := "t") (by simp)
  unfold unpackField packField
  rw [bind_some_eq (members_record _ _)]
  simp [member_eq, unpackType_pack h.type (show _ ≤ fuel by omega), getInt_int h.offset]

theorem unpackMethod_pack {d : MethodDesc} (h : d.Storable) {fuel : Nat}
    (hfuel : (packMethod d).write.length ≤ fuel) : unpackMethod fuel (packMethod d) = some d := by
  have hresult := elim_type (k := "r") (by simp +contextual [packPart]) hfuel h.result
  have hparams := elim_types (k := "p") (by simp +contextual [optionalList, omitIf]) hfuel h.params
  have hflag : ∀ b : Bool, Option.elim (if b = false then none else some (.bool true)) (some false)
      getBool = some b := by decide
  unfold unpackMethod packMethod
  rw [bind_some_eq (members_record _ _)]
  simp [member_eq, optionalList, hresult, hparams, hflag, getBits_nat 8 h.kind, getInt_int h.slot,
    unpackRoutineRef_pack h.routine]

theorem unpackVmt_pack {d : VmtDesc} (h : d.Storable) : unpackVmt (packVmt d) = some d := by
  unfold unpackVmt packVmt
  rw [bind_some_eq (members_record _ _)]
  simp [member_eq, unpackRoutineRef_pack h.routine, unpackClassKey_pack]

theorem unpackClass_pack {d : ClassDesc} (h : d.Storable) {fuel : Nat}
    (hfuel : (packClass d).write.length ≤ fuel) : unpackClass fuel (packClass d) = some d := by
  have hfields : ∀ f ∈ d.fields, unpackField fuel (packField f) = some (id f) := fun f hf =>
    unpackField_pack (h.fields.2 f hf)
      (fuel_of_mem (k := "f") (by simp +contextual [optionalList, omitIf]) hfuel hf)
  have hmethods : ∀ m ∈ d.methods, unpackMethod fuel (packMethod m) = some (id m) := fun m hm =>
    unpackMethod_pack (h.methods.2 m hm)
      (fuel_of_mem (k := "m") (by simp +contextual [optionalList, omitIf]) hfuel hm)
  have hvmt : ∀ e ∈ d.vmt, unpackVmt (packVmt e) = some (id e) := fun e he =>
    unpackVmt_pack (h.vmt.2 e he)
  have hshapes : ∀ s ∈ d.shapes, unpackShape fuel (packShape s) = some (id s) := fun s hs =>
    unpackShape_pack (h.shapes.2 s hs)
      (fuel_of_mem (k := "fs") (by simp +contextual [optionalList, omitIf]) hfuel hs)
  unfold unpackClass packClass
  rw [bind_some_eq (members_record _ _)]
  simp [member_eq, optionalList, elim_key d.base, elim_list hfields, elim_list hmethods,
    elim_list hvmt, elim_list hshapes, getInt_int h.slots]

theorem op_roundTrip {op : Op} (h : op.Storable) :
    Op.ofNumber op.number = op ∧ op.number < 2 ^ 8 := by
  cases op with
  | unknown n =>
    have hnone : Op.all[n]? = none := List.getElem?_eq_none h.1
    exact ⟨by simp [Op.number, Op.ofNumber, List.getD, hnone], h.2⟩
  | _ => decide

theorem unpackInstr_pack {i : Instr} (h : i.Storable) : unpackInstr (packInstr i) = some i := by
  obtain ⟨hop, hbits⟩ := op_roundTrip h.op
  unfold unpackInstr packInstr
  rw [bind_some_eq (members_record _ _)]
  simp [member_eq, optionalInt, getBits_nat 8 hbits, hop, elim_halfWord h.a, elim_halfWord h.b,
    elim_bits 32 h.pos]

theorem unpackBlock_pack {b : Array Instr} (h : Each Instr.Storable b.toList) :
    unpackBlock (record [("i", arrayOf packInstr b)]) = some b := by
  have hinstrs : ∀ i ∈ b.toList, unpackInstr (packInstr i) = some (id i) := fun i hi =>
    unpackInstr_pack (h.2 i hi)
  unfold unpackBlock
  rw [bind_some_eq (members_record _ _)]
  simp [member_eq, getList_arrayOf hinstrs]

theorem unpackRoutine_pack {r : Routine} (h : r.Storable) {fuel : Nat}
    (hfuel : (packRoutine r).write.length ≤ fuel) :
    unpackRoutine fuel (packRoutine r) = some r := by
  have hlocals : ∀ s ∈ r.locals.toList, unpackShape fuel (packShape s) = some (id s) := fun s hs =>
    unpackShape_pack (h.locals.2 s hs) (fuel_of_mem (k := "l") (by simp [arrayOf]) hfuel hs)
  have hblocks : ∀ b ∈ r.blocks.toList,
      unpackBlock (record [("i", arrayOf packInstr b)]) = some (id b) := fun b hb =>
    unpackBlock_pack (h.blocks.2 b hb)
  have hcode : unpackBlocks (record [("b", arrayOf (fun b => record [("i", arrayOf packInstr b)])
      r.blocks)]) = some r.blocks := by
    unfold unpackBlocks
    rw [bind_some_eq (members_record _ _)]
    simp [member_eq, getList_arrayOf hblocks]
  unfold unpackRoutine packRoutine
  rw [bind_some_eq (members_record _ _)]
  simp [member_eq, getInt_int h.params, getInt_int h.result, getList_arrayOf hlocals, hcode]

theorem unpackPool_pack {p : Pool} (h : p.Storable) {fuel : Nat}
    (hfuel : (packPool p).write.length ≤ fuel) :
    unpackPool fuel (packPool p) = some p.restored := by
  have hconsts : ∀ v ∈ p.consts.toList, unpackValue (packValue v) = some v.restored := fun v hv =>
    unpackValue_packValue (h.consts.2 v hv)
  have hcalls : ∀ r ∈ p.calls.toList, unpackRoutineRef (packRoutineRef r) = some (id r) :=
    fun r hr => unpackRoutineRef_pack (h.calls.2 r hr)
  have hglobals : ∀ g ∈ p.globals.toList, unpackGlobalRef (packGlobalRef g) = some (id g) :=
    fun g hg => unpackGlobalRef_pack (h.globals.2 g hg)
  have hclasses : ∀ k ∈ p.classes.toList, unpackClassKey (packClassKey k) = some (id k) :=
    fun k _ => unpackClassKey_pack k
  have hnatives : ∀ n ∈ p.natives.toList, getStr (str n) = some (id n) := fun n _ => getStr_str n
  have hshapes : ∀ s ∈ p.shapes.toList, unpackShape fuel (packShape s) = some (id s) := fun s hs =>
    unpackShape_pack (h.shapes.2 s hs) (fuel_of_mem (k := "s") (by simp [arrayOf]) hfuel hs)
  have hrestored : (p.consts.toList.map Value.restored).toArray = p.consts.map Value.restored := by
    apply Array.ext'
    simp
  unfold unpackPool packPool
  rw [bind_some_eq (members_record _ _)]
  simp [member_eq, getList_arrayOf hconsts, getList_arrayOf hcalls, getList_arrayOf hglobals,
    getList_arrayOf hclasses, getList_arrayOf hnatives, getList_arrayOf hshapes, Pool.restored,
    hrestored]

theorem unpackGlobal_pack {d : GlobalDesc} (h : d.Storable) {fuel : Nat}
    (hfuel : (record [("n", str d.name), ("s", packShape d.shape)]).write.length ≤ fuel) :
    unpackGlobal fuel (record [("n", str d.name), ("s", packShape d.shape)]) = some d := by
  have hlt : (packShape d.shape).write.length <
      (record [("n", str d.name), ("s", packShape d.shape)]).write.length :=
    length_write_of_mem_record (k := "s") (by simp)
  unfold unpackGlobal
  rw [bind_some_eq (members_record _ _)]
  simp [member_eq, unpackShape_pack h.shape (show _ ≤ fuel by omega)]

theorem unpackDep_pack {d : DepDigest} (h : d.Storable) :
    unpackDep (record [("n", str d.name), ("h", .binary d.digest.bytes)]) = some d := by
  unfold unpackDep
  rw [bind_some_eq (members_record _ _)]
  simp [member_eq, getDigest_binary h.digest]

theorem unpackTable_pack (fuel : Nat) (table : Option (Array Routine)) :
    (∀ rs, table = some rs → ∀ r ∈ rs.toList, unpackRoutine fuel (packRoutine r) = some r) →
    getOption (getList (unpackRoutine fuel)) (match table with
      | none => .nil
      | some rs => .list (rs.toList.map packRoutine)) = some (table.map Array.toList) := by
  intro h
  cases table with
  | none => rfl
  | some rs =>
    apply getOption_eq (by simp)
    have hread := getList_listOf (r := id) (h rs rfl)
    cases hrs : rs.toList with
    | nil => simp [hrs, getList]
    | cons r rest => simpa [hrs, listOf] using hread

theorem unpackUnit_pack {u : CompiledUnit} (h : u.Storable) (hschema : u.schema < 2 ^ 16)
    {fuel : Nat} (hfuel : (packUnit u).write.length ≤ fuel) :
    unpackUnit fuel (packUnit u) = some u.restored := by
  have hkind : getBits 8 (nat (kindNumber u.kind)) = some (kindNumber u.kind) :=
    getBits_nat 8 (by cases u.kind <;> decide) (by decide)
  have hdeps : ∀ d ∈ u.deps, unpackDep (record [("n", str d.name), ("h", .binary d.digest.bytes)]) =
      some (id d) := fun d hd => unpackDep_pack (h.deps.2 d hd)
  have himports : ∀ n ∈ u.imports, getStr (str n) = some (id n) := fun n _ => getStr_str n
  have hexports : ∀ d ∈ u.exports, unpackSymbol fuel (packSymbol d) = some d.restored := fun d hd =>
    unpackSymbol_pack (h.exports.2 d hd) (fuel_of_mem (k := "exports") (by simp) hfuel hd)
  have hprivates : ∀ d ∈ u.privates, unpackSymbol fuel (packSymbol d) = some d.restored :=
    fun d hd =>
      unpackSymbol_pack (h.privates.2 d hd) (fuel_of_mem (k := "private") (by simp) hfuel hd)
  have hclasses : ∀ d ∈ u.classes, unpackClass fuel (packClass d) = some (id d) := fun d hd =>
    unpackClass_pack (h.classes.2 d hd) (fuel_of_mem (k := "classes") (by simp) hfuel hd)
  have hglobals : ∀ d ∈ u.globals,
      unpackGlobal fuel (record [("n", str d.name), ("s", packShape d.shape)]) = some (id d) := by
    intro d hd
    apply unpackGlobal_pack (h.globals.2 d hd)
    apply fuel_of_mem (x := d) (k := "globals") (g := fun d : GlobalDesc =>
      record [("n", str d.name), ("s", packShape d.shape)]) _ hfuel hd
    simp
  have htable := unpackTable_pack fuel u.table fun rs hrs r hr => by
    have hlist := length_write_of_mem_list (List.mem_map_of_mem (f := packRoutine) hr)
    have hrecord : (list (rs.toList.map packRoutine)).write.length < (packUnit u).write.length :=
      length_write_of_mem_record (k := "routines") (by simp [hrs])
    exact unpackRoutine_pack ((h.table rs hrs).2 r hr) (by omega)
  have hpool : unpackPool fuel (packPool u.pool) = some u.pool.restored := by
    have hlt : (packPool u.pool).write.length < (packUnit u).write.length :=
      length_write_of_mem_record (k := "pool") (by simp)
    exact unpackPool_pack h.pool (by omega)
  have hread : (u.table.map Array.toList).map List.toArray = u.table := by
    cases u.table <;> simp
  unfold unpackUnit packUnit
  rw [bind_some_eq (members_record _ _),
    bind_some_eq (a := u.magic) (by simp [member_eq]),
    bind_some_eq (a := u.schema) (by simp [member_eq, getBits_nat 16 hschema]),
    bind_some_eq (a := u.name) (by simp [member_eq]),
    bind_some_eq (a := u.display) (by simp [member_eq]),
    bind_some_eq (a := kindNumber u.kind) (by simp [member_eq, hkind]),
    bind_some_eq (a := u.path) (by simp [member_eq]),
    bind_some_eq (a := u.source) (by simp [member_eq, getDigest_binary h.source]),
    bind_some_eq (a := u.deps) (by simp [member_eq, getList_listOf hdeps]),
    bind_some_eq (a := u.imports) (by simp [member_eq, getList_listOf himports]),
    bind_some_eq (a := u.exports.map SymbolDesc.restored)
      (by simp [member_eq, getList_listOf hexports]),
    bind_some_eq (a := u.privates.map SymbolDesc.restored)
      (by simp [member_eq, getList_listOf hprivates]),
    bind_some_eq (a := u.classes) (by simp [member_eq, getList_listOf hclasses]),
    bind_some_eq (a := u.globals) (by simp [member_eq, getList_listOf hglobals]),
    bind_some_eq (a := u.table.map Array.toList) (by simp [member_eq]; exact htable),
    bind_some_eq (a := u.pool.restored) (by simp [member_eq, hpool]),
    bind_some_eq (a := u.init) (by simp [member_eq, getInt_int h.init]),
    bind_some_eq (a := u.main) (by simp [member_eq, getInt_int h.main]), hread]
  cases hu : u.kind <;> simp [CompiledUnit.restored, kindNumber, hu]

/-! ## Forms -/

theorem Each.mono {α : Type} {P Q : α → Prop} {xs : List α} (h : Each P xs)
    (himp : ∀ x, P x → Q x) : Each Q xs :=
  ⟨h.1, fun x hx => himp x (h.2 x hx)⟩

theorem fits_types_list {ds : List TypeDesc} (h : Each TypeDesc.Storable ds) :
    (listOf packType ds).Fits :=
  fits_listOf (h.mono fits_packType)

theorem fits_packSymbol {d : SymbolDesc} (h : d.Storable) : (packSymbol d).Fits := by
  apply fits_record
  · simp [optionalInt, optionalList]
    grind [length_omitIf_le, length_packPart_le, length_optional_le]
  · have hflags : (int d.flags.bits.toNat).Fits :=
      fits_nat (by have := d.flags.bits.toNat_lt; omega)
    have hkind := fits_nat (show d.kind.number < 2 ^ 32 by have := number_lt d.kind; omega)
    have htype := fits_parts _ h.type
    have hresult := fits_parts _ h.result
    have howner : ∀ k, d.owner = some k → (packClassKey k).Fits := fun k hk =>
      fits_packClassKey (h.owner k hk)
    simp +decide [optionalInt, optionalList, fits_str h.name, fits_str h.display, hkind, hflags,
      fits_packValue h.const, fits_int h.slot, fits_int h.routine, fits_str h.native,
      fits_types_list h.params, fits_nat h.start, fits_nat h.stop]
    exact ⟨htype, howner, hresult⟩

theorem fits_packField {d : FieldDesc} (h : d.Storable) : (packField d).Fits := by
  apply fits_record (by simp)
  simp +decide [fits_str h.name, fits_packType _ h.type, fits_int h.offset]

theorem fits_packMethod {d : MethodDesc} (h : d.Storable) : (packMethod d).Fits := by
  apply fits_record
  · simp [optionalList]
    grind [length_omitIf_le, length_packPart_le]
  · have hkind := fits_nat (show d.kind < 2 ^ 32 by have := h.kind; omega)
    have hresult := fits_parts _ h.result
    have hflag : (Pack.bool true).Fits := trivial
    simp +decide [optionalList, fits_str h.name, fits_str h.selector, hkind,
      fits_types_list h.params, fits_int h.slot, fits_packRoutineRef h.routine, hflag]
    exact hresult

theorem fits_packVmt {d : VmtDesc} (h : d.Storable) : (packVmt d).Fits := by
  apply fits_record (by simp)
  simp +decide [fits_str h.selector, fits_packRoutineRef h.routine, fits_packClassKey h.owner]

theorem fits_packClass {d : ClassDesc} (h : d.Storable) : (packClass d).Fits := by
  apply fits_record
  · simp [optionalList]
    grind [length_omitIf_le, length_optional_le]
  · have hbase : ∀ k, d.base = some k → (packClassKey k).Fits := fun k hk =>
      fits_packClassKey (h.base k hk)
    simp +decide [optionalList, fits_str h.name, fits_int h.slots,
      fits_listOf (h.fields.mono fun _ => fits_packField),
      fits_listOf (h.methods.mono fun _ => fits_packMethod),
      fits_listOf (h.vmt.mono fun _ => fits_packVmt),
      fits_listOf (h.shapes.mono fun _ => fits_packShape)]
    exact hbase

theorem fits_packInstr {i : Instr} (h : i.Storable) : (packInstr i).Fits := by
  apply fits_record
  · simp [optionalInt]
    grind [length_omitIf_le]
  · have hop := fits_nat (show i.op.number < 2 ^ 32 by have := (op_roundTrip h.op).2; omega)
    have ha : (int i.a).Fits := fits_int ⟨by have := h.a.1; omega, by have := h.a.2; omega⟩
    have hb : (int i.b).Fits := fits_int ⟨by have := h.b.1; omega, by have := h.b.2; omega⟩
    have hpos : (int i.pos).Fits := fits_nat h.pos
    simp +decide [optionalInt, hop, ha, hb, hpos]

theorem fits_packRoutine {r : Routine} (h : r.Storable) : (packRoutine r).Fits := by
  have hblock : ∀ b : Array Instr, Each Instr.Storable b.toList →
      (record [("i", arrayOf packInstr b)]).Fits := by
    intro b hb
    apply fits_record (by simp)
    simp +decide [arrayOf, fits_listOf (hb.mono fun _ => fits_packInstr)]
  have hcode :
      (record [("b", arrayOf (fun b => record [("i", arrayOf packInstr b)]) r.blocks)]).Fits := by
    apply fits_record (by simp)
    have hblocks := fits_listOf (h.blocks.mono hblock)
    simp only [fitEntries_cons, fitEntries_nil, and_true]
    exact ⟨by decide, hblocks⟩
  apply fits_record (by simp)
  simp only [fitEntries_cons, fitEntries_nil, and_true]
  refine ⟨by decide, fits_str h.name, by decide, fits_int h.params, by decide, fits_int h.result,
    by decide, fits_listOf (h.locals.mono fun _ => fits_packShape), by decide, hcode⟩

theorem fits_packPool {p : Pool} (h : p.Storable) : (packPool p).Fits := by
  apply fits_record (by simp)
  simp only [fitEntries_cons, fitEntries_nil, and_true]
  refine ⟨by decide, fits_listOf (h.consts.mono fun _ => fits_packValue),
    by decide, fits_listOf (h.calls.mono fun _ => fits_packRoutineRef),
    by decide, fits_listOf (h.globals.mono fun _ => fits_packGlobalRef),
    by decide, fits_listOf (h.classes.mono fun _ => fits_packClassKey),
    by decide, fits_listOf (h.natives.mono fun _ => fits_str),
    by decide, fits_listOf (h.shapes.mono fun _ => fits_packShape)⟩

theorem fits_packUnit {u : CompiledUnit} (h : u.Storable) (hmagic : Brief u.magic)
    (hschema : u.schema < 2 ^ 32) : (packUnit u).Fits := by
  have hdep : ∀ d : DepDigest, d.Storable →
      (record [("n", str d.name), ("h", .binary d.digest.bytes)]).Fits := by
    intro d hd
    have hdigest : (Pack.binary d.digest.bytes).Fits := by simp [Fits, hd.digest]
    apply fits_record (by simp)
    simp +decide [fits_str hd.name, hdigest]
  have hglobal : ∀ d : GlobalDesc, d.Storable →
      (record [("n", str d.name), ("s", packShape d.shape)]).Fits := by
    intro d hd
    apply fits_record (by simp)
    simp +decide [fits_str hd.name, fits_packShape hd.shape]
  have hsource : (Pack.binary u.source.bytes).Fits := by simp [Fits, h.source]
  have htable : (match u.table with
      | none => Pack.nil
      | some rs => .list (rs.toList.map packRoutine)).Fits := by
    cases htable : u.table with
    | none => trivial
    | some rs =>
      have hrs := h.table rs htable
      refine ⟨by simpa using hrs.1, ?_⟩
      rw [fitList_iff]
      intro p hp
      obtain ⟨r, hr, rfl⟩ := List.mem_map.mp hp
      exact fits_packRoutine (hrs.2 r hr)
  apply fits_record (by simp)
  simp only [fitEntries_cons, fitEntries_nil, and_true]
  refine ⟨by decide, fits_str hmagic, by decide, fits_nat hschema, by decide, fits_str h.name,
    by decide, fits_str h.display, by decide, fits_nat (by cases u.kind <;> decide),
    by decide, fits_str h.path, by decide, hsource, by decide, fits_listOf (h.deps.mono hdep),
    by decide, fits_listOf (h.imports.mono fun _ => fits_str),
    by decide, fits_listOf (h.exports.mono fun _ => fits_packSymbol),
    by decide, fits_listOf (h.privates.mono fun _ => fits_packSymbol),
    by decide, fits_listOf (h.classes.mono fun _ => fits_packClass),
    by decide, fits_listOf (h.globals.mono hglobal), by decide, htable,
    by decide, fits_packPool h.pool, by decide, fits_int h.init, by decide, fits_int h.main⟩

end Storage

/-! ## Whole units -/

namespace CompiledUnit

theorem header_of_validate {u : CompiledUnit} (h : u.validate = .ok ()) :
    u.magic = magicWord ∧ u.schema = currentSchema := by
  unfold validate at h
  by_cases hhead : (u.magic ≠ magicWord || u.schema ≠ currentSchema) = true
  · rw [if_pos hhead] at h
    cases h
  · simpa using hhead

theorem validate_restored (u : CompiledUnit) : u.restored.validate = u.validate := rfl

theorem packSymbol_restored (d : SymbolDesc) : packSymbol d.restored = packSymbol d := by
  unfold packSymbol SymbolDesc.restored
  rw [packValue_restored]

theorem packPool_restored (p : Pool) : packPool p.restored = packPool p := by
  have hconsts : arrayOf packValue (p.consts.map Value.restored) = arrayOf packValue p.consts := by
    unfold arrayOf
    rw [Array.toList_map]
    cases p.consts.toList with
    | nil => rfl
    | cons v vs => simp [listOf, packValue_restored]
  unfold packPool Pool.restored
  rw [hconsts]

theorem packUnit_restored (u : CompiledUnit) : packUnit u.restored = packUnit u := by
  have hsymbols : ∀ ds : List SymbolDesc,
      listOf packSymbol (ds.map SymbolDesc.restored) = listOf packSymbol ds := by
    intro ds
    cases ds with
    | nil => rfl
    | cons d ds => simp [listOf, packSymbol_restored]
  unfold packUnit restored
  rw [hsymbols, hsymbols, packPool_restored]

theorem decode_encode {u : CompiledUnit} (hvalid : u.validate = .ok ()) (h : u.Storable) :
    decode u.encode = .ok u.restored := by
  obtain ⟨hmagic, hschema⟩ := header_of_validate hvalid
  have hfits : (packUnit u).Fits := by
    apply fits_packUnit h
    · rw [hmagic]
      decide
    · rw [hschema]
      decide
  have hparse : Pack.parse u.encode = some (packUnit u, []) := by
    have := parse_write hfits []
    rwa [List.append_nil] at this
  have hread : unpackUnit (u.encode.length + 1) (packUnit u) = some u.restored := by
    apply unpackUnit_pack h
    · rw [hschema]
      decide
    · exact Nat.le_succ _
  unfold decode
  have hmagic' : u.restored.magic = magicWord := hmagic
  have hschema' : u.restored.schema = currentSchema := hschema
  simp [hparse, hread, hmagic', hschema', validate_restored, hvalid]

theorem encode_restored (u : CompiledUnit) : u.restored.encode = u.encode := by
  unfold encode
  rw [packUnit_restored]

end CompiledUnit

/-- A unit in order whose numbers and lengths fit is read back as it was, but for the signs of zero
constants, and what is read back has the same bytes. -/
theorem stored_units_read_back {u : CompiledUnit} (hvalid : u.validate = .ok ())
    (h : u.Storable) :
    CompiledUnit.decode u.encode = .ok u.restored ∧ u.restored.encode = u.encode :=
  ⟨CompiledUnit.decode_encode hvalid h, u.encode_restored⟩

/-- A unit that exports a constant and returns a negative zero. -/
def negativeZero : CompiledUnit :=
  { name := "zero"
    exports := [{ name := "origin", kind := .const, type := some (.basic .real),
                  const := .real (-0.0) }]
    table := some #[{ name := "main", result := 0, locals := #[.real, .array 3 .int],
                      blocks := #[#[{ op := .const, pos := 7 }, { op := .storeLocal },
                                    { op := .ret }]] }]
    pool := { consts := #[.real (-0.0), .string [72, 105], .int (-70000)] }
    main := 0 }

theorem negativeZero_storable : negativeZero.Storable := by decide +kernel

theorem stored_units_read_back_negativeZero :
    CompiledUnit.decode negativeZero.encode = .ok negativeZero.restored ∧
      negativeZero.restored.encode = negativeZero.encode ∧
      negativeZero.restored.pool.consts[0]? = some (.real 0.0) := by
  have hvalid : negativeZero.validate = .ok () := rfl
  have hzero : ((-0.0 : Float) == 0.0) = true := by decide
  obtain ⟨hdecode, hencode⟩ := stored_units_read_back hvalid negativeZero_storable
  refine ⟨hdecode, hencode, ?_⟩
  simp [negativeZero, CompiledUnit.restored, Pool.restored, Value.restored, hzero]

end Pascaline
