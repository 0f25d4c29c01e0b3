import Pascaline.CompiledUnit
import Pascaline.Text.MessagePack

/-!
# Stored units

A unit is stored as a MessagePack map. Members marked as optional are left out when they are empty,
and a list without elements is stored as nil. Reading starts from an empty unit: absent members
keep their empty value, unknown ones are skipped, and the last of several members of one name
counts.
-/

namespace Pascaline

/-! ## Members -/

namespace Pack

/-- A member of a record. -/
abbrev PackEntry := String × Pack

def str (s : String) : Pack := .text (utf8 s)

def nat (n : Nat) : Pack := .int n

/-- A list, or nil when there is nothing in it. -/
def listOf {α : Type} (f : α → Pack) : List α → Pack
  | [] => .nil
  | xs => .list (xs.map f)

def arrayOf {α : Type} (f : α → Pack) (xs : Array α) : Pack := listOf f xs.toList

/-- A member that is left out under a condition. -/
def omitIf (empty : Bool) (key : String) (value : Pack) : List PackEntry :=
  if empty then [] else [(key, value)]

def optional {α : Type} (key : String) (f : α → Pack) : Option α → List PackEntry
  | none => []
  | some a => [(key, f a)]

def optionalList {α : Type} (key : String) (f : α → Pack) (xs : List α) : List PackEntry :=
  omitIf xs.isEmpty key (listOf f xs)

def optionalInt (key : String) (n : Int) : List PackEntry := omitIf (n == 0) key (.int n)

def record (entries : List PackEntry) : Pack := .map (entries.map fun (k, v) => (str k, v))

end Pack

/-! ## Writing -/

namespace Storage

open Pack

/-- The number of a kind of value. -/
def valueKindNumber : ValueKind → Nat
  | .invalid => 0 | .bool => 1 | .int => 2 | .real => 3 | .char => 4 | .string => 5 | .ref => 6
  | .routine => 7

/-- The bits of a real; all that is not a number is stored alike. -/
def realBits (x : Float) : UInt64 := if x.isNaN then 0x7ff8000000000001 else x.toBits

def packValue (v : Value) : Pack :=
  let payload := match v with
    | .invalid => []
    | .bool n | .int n | .char n => optionalInt "i" n.toInt
    | .real x => omitIf (x == 0.0) "r" (.real (realBits x))
    | .string s => omitIf s.isEmpty "s" (.text s)
    | .ref h => optionalInt "h" h
    | .routine u n => optionalInt "i" n.toInt ++ omitIf (u == "") "s" (str u)
  record (("k", nat (valueKindNumber v.kind)) :: payload)

def packRoutineRef (r : RoutineRef) : Pack := record [("m", str r.module), ("i", .int r.index)]

def packClassKey (k : ClassKey) : Pack := record [("m", str k.module), ("n", str k.name)]

def packGlobalRef (g : GlobalRef) : Pack := record [("m", str g.module), ("s", .int g.slot)]

def packShape : Shape → Pack
  | .array n e => record ([("k", nat 8)] ++ optionalInt "n" n ++ [("e", packShape e)])
  | .hollow n => record ([("k", nat 8)] ++ optionalInt "n" n)
  | .bool => record [("k", nat 1)]
  | .int => record [("k", nat 2)]
  | .real => record [("k", nat 3)]
  | .char => record [("k", nat 4)]
  | .string => record [("k", nat 5)]
  | .ref => record [("k", nat 6)]
  | .routine => record [("k", nat 7)]
  | .unknown k => record [("k", nat k)]

def typeKindNumber (k : TypeKind) : Nat := TypeKind.all.findIdx (· = k)

mutual

def packType : TypeDesc → Pack
  | .basic k => record [("k", nat (typeKindNumber k))]
  | .pointer e => record (("k", nat 8) :: packPart "e" e)
  | .array e n =>
    record (("k", nat 9) :: (packPart "e" e ++ optionalInt "n" (n.getD TypeTable.dynamicLength)))
  | .classRef key => record (("k", nat 10) :: optional "c" packClassKey key)
  | .routine isFunction params result =>
    record (("k", nat (if isFunction then 12 else 11)) ::
      (omitIf params.isEmpty "p" (.list (packTypes params)) ++ packPart "r" result))
  | .unknown k => record [("k", nat k)]

def packPart (key : String) : Option TypeDesc → List PackEntry
  | none => []
  | some d => [(key, packType d)]

def packTypes : List TypeDesc → List Pack
  | [] => []
  | d :: ds => packType d :: packTypes ds

end

def packSymbol (d : SymbolDesc) : Pack :=
  record ([("n", str d.name), ("d", str d.display), ("k", nat d.kind.number)] ++
    optionalInt "f" d.flags.bits.toNat ++ packPart "t" d.type ++ [("c", packValue d.const)] ++
    optionalInt "s" d.slot ++ optionalInt "r" d.routine ++ optional "cl" packClassKey d.owner ++
    omitIf (d.native == "") "nt" (str d.native) ++ optionalList "p" packType d.params ++
    packPart "res" d.result ++ [("sb", nat d.start), ("se", nat d.stop)])

def packField (d : FieldDesc) : Pack :=
  record [("n", str d.name), ("t", packType d.type), ("o", .int d.offset)]

def packMethod (d : MethodDesc) : Pack :=
  record ([("n", str d.name), ("sel", str d.selector), ("k", nat d.kind)] ++
    optionalList "p" packType d.params ++ packPart "r" d.result ++
    omitIf (!d.isVirtual) "v" (.bool true) ++ omitIf (!d.isOverride) "o" (.bool true) ++
    [("s", .int d.slot), ("rt", packRoutineRef d.routine)])

def packVmt (d : VmtDesc) : Pack :=
  record [("sel", str d.selector), ("rt", packRoutineRef d.routine), ("o", packClassKey d.owner)]

def packClass (d : ClassDesc) : Pack :=
  record ([("n", str d.name)] ++ optional "b" packClassKey d.base ++
    optionalList "f" packField d.fields ++ optionalList "m" packMethod d.methods ++
    optionalList "v" packVmt d.vmt ++ [("s", .int d.slots)] ++ optionalList "fs" packShape d.shapes)

def packInstr (i : Instr) : Pack :=
  record ([("o", nat i.op.number)] ++ optionalInt "a" i.a ++ optionalInt "b" i.b ++
    optionalInt "p" i.pos)

def packRoutine (r : Routine) : Pack :=
  record [("n", str r.name), ("p", .int r.params), ("r", .int r.result),
    ("l", arrayOf packShape r.locals),
    ("c", record [("b", arrayOf (fun b => record [("i", arrayOf packInstr b)]) r.blocks)])]

def packPool (p : Pool) : Pack :=
  record [("c", arrayOf packValue p.consts), ("r", arrayOf packRoutineRef p.calls),
    ("g", arrayOf packGlobalRef p.globals), ("k", arrayOf packClassKey p.classes),
    ("n", arrayOf str p.natives), ("s", arrayOf packShape p.shapes)]

def kindNumber : Tree.FileKind → Nat
  | .program => 0
  | .unit => 1

def packUnit (u : CompiledUnit) : Pack :=
  record [("magic", str u.magic), ("schema", nat u.schema), ("name", str u.name),
    ("display", str u.display), ("kind", nat (kindNumber u.kind)), ("path", str u.path),
    ("src", .binary u.source.bytes),
    ("deps", listOf (fun d => record [("n", str d.name), ("h", .binary d.digest.bytes)]) u.deps),
    ("imports", listOf str u.imports), ("exports", listOf packSymbol u.exports),
    ("private", listOf packSymbol u.privates), ("classes", listOf packClass u.classes),
    ("globals", listOf (fun g => record [("n", str g.name), ("s", packShape g.shape)]) u.globals),
    ("routines", match u.table with
      | none => .nil
      | some rs => .list (rs.toList.map packRoutine)),
    ("pool", packPool u.pool), ("init", .int u.init), ("main", .int u.main)]

/-! ## Reading -/

/-- A number, wrapped to 64 bits; nil counts as zero. -/
def getInt : Pack → Option Int
  | .nil => some 0
  | .int n => some (Int.bmod n 0x10000000000000000)
  | _ => none

/-- A number that a field of so many bits keeps. -/
def getBits (bits : Nat) (p : Pack) : Option Nat :=
  (getInt p).map fun n => (n % (Nat.pow 2 bits : Int)).toNat

def getInt32 (p : Pack) : Option Int := (getInt p).map (Int.bmod · 0x100000000)

def getBool : Pack → Option Bool
  | .nil => some false
  | .bool b => some b
  | _ => none

/-- A real; a whole number will do. -/
def getReal : Pack → Option Float
  | .real bits => some (Float.ofBits bits)
  | p => (getInt p).map fun n => (Int64.ofInt n).toFloat

def getBytes : Pack → Option Bytes
  | .nil => some []
  | .text s | .binary s => some s
  | _ => none

def getStr (p : Pack) : Option String := (getBytes p).map Utf8.toString

/-- A digest; a short one is filled up with zeros. -/
def getDigest (p : Pack) : Option Digest := do
  let s ← getBytes p
  if 32 < s.length then none else return ⟨s ++ List.replicate (32 - s.length) 0⟩

def getList {α : Type} (f : Pack → Option α) : Pack → Option (List α)
  | .nil => some []
  | .list xs => xs.mapM f
  | _ => none

def getOption {α : Type} (f : Pack → Option α) : Pack → Option (Option α)
  | .nil => some none
  | p => (f p).map some

/-- The members of a record. A list stands for a record if it is empty, or has all members in
order. -/
def members (keys : List String) : Pack → Option (List (String × Pack))
  | .nil => some []
  | .map ms => ms.mapM fun (k, v) => (getStr k).map (·, v)
  | .list xs =>
    if xs.isEmpty then some []
    else if xs.length = keys.length then some (keys.zip xs)
    else none
  | _ => none

/-- A member of a record, or what it is when absent. -/
def member {α : Type} (ms : List (String × Pack)) (key : String) (absent : α)
    (f : Pack → Option α) : Option α :=
  match ms.reverse.lookup key with
  | some p => f p
  | none => some absent

def unpackValue (p : Pack) : Option Value := do
  let ms ← members ["k", "i", "r", "s", "h"] p
  let kind ← member ms "k" 0 (getBits 8)
  let n ← member ms "i" 0 getInt
  let x ← member ms "r" 0.0 getReal
  let s ← member ms "s" [] getBytes
  let h ← member ms "h" 0 (getBits 32)
  let n := Int64.ofInt n
  return match kind with
    | 1 => .bool n
    | 2 => .int n
    | 3 => .real x
    | 4 => .char n
    | 5 => .string s
    | 6 => .ref h
    | 7 => .routine (Utf8.toString s) n
    | _ => .invalid

def unpackRoutineRef (p : Pack) : Option RoutineRef := do
  let ms ← members ["m", "i"] p
  return ⟨← member ms "m" "" getStr, ← member ms "i" 0 getInt⟩

def unpackClassKey (p : Pack) : Option ClassKey := do
  let ms ← members ["m", "n"] p
  return ⟨← member ms "m" "" getStr, ← member ms "n" "" getStr⟩

def unpackGlobalRef (p : Pack) : Option GlobalRef := do
  let ms ← members ["m", "s"] p
  return ⟨← member ms "m" "" getStr, ← member ms "s" 0 getInt⟩

/-- A shape; `fuel` bounds the nesting. -/
def unpackShape : (fuel : Nat) → Pack → Option Shape
  | 0, _ => none
  | fuel + 1, p => do
    let ms ← members ["k", "n", "e"] p
    let kind ← member ms "k" 0 (getBits 8)
    let n ← member ms "n" 0 getInt
    let elem ← member ms "e" none (getOption (unpackShape fuel))
    return match kind, elem with
      | 1, _ => .bool
      | 2, _ => .int
      | 3, _ => .real
      | 4, _ => .char
      | 5, _ => .string
      | 6, _ => .ref
      | 7, _ => .routine
      | 8, some e => .array n e
      | 8, none => .hollow n
      | k, _ => .unknown k

/-- A type; `fuel` bounds the nesting. -/
def unpackType : (fuel : Nat) → Pack → Option TypeDesc
  | 0, _ => none
  | fuel + 1, p => do
    let ms ← members ["k", "e", "n", "c", "p", "r"] p
    let kind ← member ms "k" 0 (getBits 8)
    let elem ← member ms "e" none (getOption (unpackType fuel))
    let n ← member ms "n" 0 (getBits 32)
    let key ← member ms "c" none (getOption unpackClassKey)
    let params ← member ms "p" [] (getList (unpackType fuel))
    let result ← member ms "r" none (getOption (unpackType fuel))
    return match kind with
      | 8 => .pointer elem
      | 9 => .array elem (if n = TypeTable.dynamicLength then none else some n)
      | 10 => .classRef key
      | 11 => .routine false params result
      | 12 => .routine true params result
      | k =>
        match TypeKind.all[k]? with
        | some .invalid | none => .unknown k
        | some kind => .basic kind

def unpackSymbol (fuel : Nat) (p : Pack) : Option SymbolDesc := do
  let ms ← members ["n", "d", "k", "f", "t", "c", "s", "r", "cl", "nt", "p", "res", "sb", "se"] p
  return { name := ← member ms "n" "" getStr
           display := ← member ms "d" "" getStr
           kind := .ofNumber (← member ms "k" 0 (getBits 8))
           flags := ⟨(← member ms "f" 0 (getBits 16)).toUInt16⟩
           type := ← member ms "t" none (getOption (unpackType fuel))
           const := ← member ms "c" .invalid unpackValue
           slot := ← member ms "s" 0 getInt
           routine := ← member ms "r" 0 getInt
           owner := ← member ms "cl" none (getOption unpackClassKey)
           native := ← member ms "nt" "" getStr
           params := ← member ms "p" [] (getList (unpackType fuel))
           result := ← member ms "res" none (getOption (unpackType fuel))
           start := ← member ms "sb" 0 (getBits 32)
           stop := ← member ms "se" 0 (getBits 32) }

def unpackField (fuel : Nat) (p : Pack) : Option FieldDesc := do
  let ms ← members ["n", "t", "o"] p
  return { name := ← member ms "n" "" getStr
           type := ← member ms "t" (.unknown 0) (unpackType fuel)
           offset := ← member ms "o" 0 getInt }

def unpackMethod (fuel : Nat) (p : Pack) : Option MethodDesc := do
  let ms ← members ["n", "sel", "k", "p", "r", "v", "o", "s", "rt"] p
  return { name := ← member ms "n" "" getStr
           selector := ← member ms "sel" "" getStr
           kind := ← member ms "k" 0 (getBits 8)
           params := ← member ms "p" [] (getList (unpackType fuel))
           result := ← member ms "r" none (getOption (unpackType fuel))
           isVirtual := ← member ms "v" false getBool
           isOverride := ← member ms "o" false getBool
           slot := ← member ms "s" 0 getInt
           routine := ← member ms "rt" ⟨"", 0⟩ unpackRoutineRef }

def unpackVmt (p : Pack) : Option VmtDesc := do
  let ms ← members ["sel", "rt", "o"] p
  return { selector := ← member ms "sel" "" getStr
           routine := ← member ms "rt" ⟨"", 0⟩ unpackRoutineRef
           owner := ← member ms "o" ⟨"", ""⟩ unpackClassKey }

def unpackClass (fuel : Nat) (p : Pack) : Option ClassDesc := do
  let ms ← members ["n", "b", "f", "m", "v", "s", "fs"] p
  return { name := ← member ms "n" "" getStr
           base := ← member ms "b" none (getOption unpackClassKey)
           fields := ← member ms "f" [] (getList (unpackField fuel))
           methods := ← member ms "m" [] (getList (unpackMethod fuel))
           vmt := ← member ms "v" [] (getList unpackVmt)
           slots := ← member ms "s" 0 getInt
           shapes := ← member ms "fs" [] (getList (unpackShape fuel)) }

def unpackInstr (p : Pack) : Option Instr := do
  let ms ← members ["o", "a", "b", "p"] p
  return { op := .ofNumber (← member ms "o" 0 (getBits 8))
           a := ← member ms "a" 0 getInt32
           b := ← member ms "b" 0 getInt32
           pos := ← member ms "p" 0 (getBits 32) }

def unpackBlock (p : Pack) : Option (Array Instr) := do
  let ms ← members ["i"] p
  return (← member ms "i" [] (getList unpackInstr)).toArray

def unpackBlocks (p : Pack) : Option Blocks := do
  let ms ← members ["b"] p
  return (← member ms "b" [] (getList unpackBlock)).toArray

def unpackRoutine (fuel : Nat) (p : Pack) : Option Routine := do
  let ms ← members ["n", "p", "r", "l", "c"] p
  return { name := ← member ms "n" "" getStr
           params := ← member ms "p" 0 getInt
           result := ← member ms "r" 0 getInt
           locals := (← member ms "l" [] (getList (unpackShape fuel))).toArray
           blocks := ← member ms "c" #[] unpackBlocks }

def unpackPool (fuel : Nat) (p : Pack) : Option Pool := do
  let ms ← members ["c", "r", "g", "k", "n", "s"] p
  return { consts := (← member ms "c" [] (getList unpackValue)).toArray
           calls := (← member ms "r" [] (getList unpackRoutineRef)).toArray
           globals := (← member ms "g" [] (getList unpackGlobalRef)).toArray
           classes := (← member ms "k" [] (getList unpackClassKey)).toArray
           natives := (← member ms "n" [] (getList getStr)).toArray
           shapes := (← member ms "s" [] (getList (unpackShape fuel))).toArray }

def unpackGlobal (fuel : Nat) (p : Pack) : Option GlobalDesc := do
  let ms ← members ["n", "s"] p
  return ⟨← member ms "n" "" getStr, ← member ms "s" (.unknown 0) (unpackShape fuel)⟩

def unpackDep (p : Pack) : Option DepDigest := do
  let ms ← members ["n", "h"] p
  return ⟨← member ms "n" "" getStr, ← member ms "h" .zero getDigest⟩

/-- A unit; `fuel` bounds the nesting of types and shapes. -/
def unpackUnit (fuel : Nat) (p : Pack) : Option CompiledUnit := do
  let ms ← members ["magic", "schema", "name", "display", "kind", "path", "src", "deps", "imports",
    "exports", "private", "classes", "globals", "routines", "pool", "init", "main"] p
  return { magic := ← member ms "magic" "" getStr
           schema := ← member ms "schema" 0 (getBits 16)
           name := ← member ms "name" "" getStr
           display := ← member ms "display" "" getStr
           kind := if (← member ms "kind" 0 (getBits 8)) = 1 then .unit else .program
           path := ← member ms "path" "" getStr
           source := ← member ms "src" .zero getDigest
           deps := ← member ms "deps" [] (getList unpackDep)
           imports := ← member ms "imports" [] (getList getStr)
           exports := ← member ms "exports" [] (getList (unpackSymbol fuel))
           privates := ← member ms "private" [] (getList (unpackSymbol fuel))
           classes := ← member ms "classes" [] (getList (unpackClass fuel))
           globals := ← member ms "globals" [] (getList (unpackGlobal fuel))
           table := (← member ms "routines" none
             (getOption (getList (unpackRoutine fuel)))).map List.toArray
           pool := ← member ms "pool" {} (unpackPool fuel)
           init := ← member ms "init" 0 getInt
           main := ← member ms "main" 0 getInt }

end Storage

namespace CompiledUnit

/-- The bytes of a unit. -/
def encode (u : CompiledUnit) : Bytes := (Storage.packUnit u).write

/-- Why bytes that cannot be read are no unit. -/
def blame : Bytes → Unreadable
  | [] => .empty
  | b :: _ =>
    if b = 0xc0 || (0x80 ≤ b && b ≤ 0x9f) || (0xdc ≤ b && b ≤ 0xdf) then .broken else .notARecord b

/-- Reads a unit and checks it. -/
def decode (s : Bytes) : Except UnitError CompiledUnit := do
  match (Pack.parse s).bind fun (p, _) => Storage.unpackUnit (s.length + 1) p with
  | none => throw (.unreadable (blame s))
  | some u =>
    if u.magic ≠ magicWord then throw (.badMagic u.magic)
    if u.schema ≠ currentSchema then throw (.badSchema u.schema)
    u.validate
    return u

end CompiledUnit

end Pascaline
