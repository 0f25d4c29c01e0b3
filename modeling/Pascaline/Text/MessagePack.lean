import Pascaline.Digest
import Pascaline.Text.Utf8

/-!
# MessagePack

A binary form of documents. Writing uses the shortest form of every number and length; reading
takes any form.
-/

namespace Pascaline

/-- A document. A real is given by its bits. -/
inductive Pack where
  | nil
  | bool (b : Bool)
  | int (n : Int)
  | real (bits : UInt64)
  | text (s : Bytes)
  | binary (s : Bytes)
  | list (xs : List Pack)
  | map (ms : List (Pack × Pack))
  | ext (kind : UInt8) (s : Bytes)
deriving Repr, Inhabited

namespace Pack

/-! ## Writing -/

/-- A number in so many bytes, most significant first; negative numbers wrap around. -/
def bytesOf (count : Nat) (n : Int) : Bytes :=
  Sha256.bigEndian count (n % (Nat.pow 256 count : Int)).toNat

/-- A number in its shortest form. -/
def writeInt (n : Int) : Bytes :=
  if 0 ≤ n then
    if n ≤ 127 then bytesOf 1 n
    else if n ≤ 0xff then 0xcc :: bytesOf 1 n
    else if n ≤ 0xffff then 0xcd :: bytesOf 2 n
    else if n ≤ 0xffffffff then 0xce :: bytesOf 4 n
    else 0xcf :: bytesOf 8 n
  else if -32 ≤ n then bytesOf 1 n
  else if -0x80 ≤ n then 0xd0 :: bytesOf 1 n
  else if -0x8000 ≤ n then 0xd1 :: bytesOf 2 n
  else if -0x80000000 ≤ n then 0xd2 :: bytesOf 4 n
  else 0xd3 :: bytesOf 8 n

/-- The head of a list or map: `small` holds lengths below sixteen in the same byte. -/
def writeCount (small wide : UInt8) (n : Nat) : Bytes :=
  if n < 16 then [small + n.toUInt8]
  else if n ≤ 0xffff then wide :: bytesOf 2 n
  else (wide + 1) :: bytesOf 4 n

def writeTextHead (n : Nat) : Bytes :=
  if n < 32 then [0xa0 + n.toUInt8]
  else if n ≤ 0xff then 0xd9 :: bytesOf 1 n
  else if n ≤ 0xffff then 0xda :: bytesOf 2 n
  else 0xdb :: bytesOf 4 n

def writeBinaryHead (n : Nat) : Bytes :=
  if n ≤ 0xff then 0xc4 :: bytesOf 1 n
  else if n ≤ 0xffff then 0xc5 :: bytesOf 2 n
  else 0xc6 :: bytesOf 4 n

def writeExtHead (n : Nat) : Bytes :=
  if n ≤ 0xff then 0xc7 :: bytesOf 1 n
  else if n ≤ 0xffff then 0xc8 :: bytesOf 2 n
  else 0xc9 :: bytesOf 4 n

mutual

def write : Pack → Bytes
  | nil => [0xc0]
  | bool b => [if b then 0xc3 else 0xc2]
  | int n => writeInt n
  | real bits => 0xcb :: bytesOf 8 bits.toNat
  | text s => writeTextHead s.length ++ s
  | binary s => writeBinaryHead s.length ++ s
  | list xs => writeCount 0x90 0xdc xs.length ++ writeList xs
  | map ms => writeCount 0x80 0xde ms.length ++ writeMap ms
  | ext kind s => writeExtHead s.length ++ kind :: s

def writeList : List Pack → Bytes
  | [] => []
  | x :: xs => write x ++ writeList xs

def writeMap : List (Pack × Pack) → Bytes
  | [] => []
  | (k, v) :: ms => write k ++ write v ++ writeMap ms

end

/-! ## Reading -/

/-- Splits off so many bytes, if they are there. -/
def split? (n : Nat) (s : Bytes) : Option (Bytes × Bytes) :=
  if n ≤ s.length then some (s.take n, s.drop n) else none

/-- The number that bytes denote, most significant first. -/
def unsigned (s : Bytes) : Nat := s.foldl (fun n b => 256 * n + b.toNat) 0

/-- The number that bytes denote as a two's complement. -/
def signed (s : Bytes) : Int :=
  let n := unsigned s
  let count := Nat.pow 256 s.length
  if 2 * n < count then n else (n : Int) - (count : Int)

def readUnsigned (count : Nat) (s : Bytes) : Option (Nat × Bytes) := do
  let (b, s) ← split? count s
  return (unsigned b, s)

/-- Bytes behind a length of `count` bytes. -/
def readSized (count : Nat) (s : Bytes) : Option (Bytes × Bytes) := do
  let (n, s) ← readUnsigned count s
  split? n s

def readExt (n : Nat) (s : Bytes) : Option (Pack × Bytes) := do
  match ← split? (n + 1) s with
  | (kind :: data, s) => return (ext kind data, s)
  | _ => none

/-- A double of the same value as a single. -/
def widen (bits : Nat) : UInt64 := (Float32.ofBits bits.toUInt32).toFloat.toBits

mutual

/-- The document at the front; `fuel` bounds the nesting and the number of parts. -/
def read : (fuel : Nat) → Bytes → Option (Pack × Bytes)
  | 0, _ => none
  | _, [] => none
  | fuel + 1, c :: s =>
    let number := fun (count : Nat) => do
      let (n, s) ← readUnsigned count s
      return (int n, s)
    let negative := fun (count : Nat) => do
      let (b, s) ← split? count s
      return (int (signed b), s)
    let sized := fun (f : Bytes → Pack) (count : Nat) => do
      let (b, s) ← readSized count s
      return (f b, s)
    let many := fun (n : Nat) (s : Bytes) => do
      let (xs, s) ← readList fuel n s
      return (list xs, s)
    let pairs := fun (n : Nat) (s : Bytes) => do
      let (ms, s) ← readMap fuel n s
      return (map ms, s)
    if c < 0x80 then some (int c.toNat, s)
    else if c < 0x90 then pairs (c.toNat - 0x80) s
    else if c < 0xa0 then many (c.toNat - 0x90) s
    else if c < 0xc0 then do
      let (b, s) ← split? (c.toNat - 0xa0) s
      return (text b, s)
    else if 0xe0 ≤ c then some (int (c.toNat - 256), s)
    else match c.toNat with
      | 0xc0 => some (nil, s)
      | 0xc2 => some (bool false, s)
      | 0xc3 => some (bool true, s)
      | 0xc4 => sized binary 1
      | 0xc5 => sized binary 2
      | 0xc6 => sized binary 4
      | 0xc7 => do
        let (n, s) ← readUnsigned 1 s
        readExt n s
      | 0xc8 => do
        let (n, s) ← readUnsigned 2 s
        readExt n s
      | 0xc9 => do
        let (n, s) ← readUnsigned 4 s
        readExt n s
      | 0xca => do
        let (n, s) ← readUnsigned 4 s
        return (real (widen n), s)
      | 0xcb => do
        let (n, s) ← readUnsigned 8 s
        return (real n.toUInt64, s)
      | 0xcc => number 1
      | 0xcd => number 2
      | 0xce => number 4
      | 0xcf => number 8
      | 0xd0 => negative 1
      | 0xd1 => negative 2
      | 0xd2 => negative 4
      | 0xd3 => negative 8
      | 0xd4 => readExt 1 s
      | 0xd5 => readExt 2 s
      | 0xd6 => readExt 4 s
      | 0xd7 => readExt 8 s
      | 0xd8 => readExt 16 s
      | 0xd9 => sized text 1
      | 0xda => sized text 2
      | 0xdb => sized text 4
      | 0xdc => do
        let (n, s) ← readUnsigned 2 s
        many n s
      | 0xdd => do
        let (n, s) ← readUnsigned 4 s
        many n s
      | 0xde => do
        let (n, s) ← readUnsigned 2 s
        pairs n s
      | 0xdf => do
        let (n, s) ← readUnsigned 4 s
        pairs n s
      | _ => none

def readList : (fuel : Nat) → (count : Nat) → Bytes → Option (List Pack × Bytes)
  | _, 0, s => some ([], s)
  | 0, _ + 1, _ => none
  | fuel + 1, n + 1, s => do
    let (x, s) ← read fuel s
    let (xs, s) ← readList fuel n s
    return (x :: xs, s)

def readMap : (fuel : Nat) → (count : Nat) → Bytes → Option (List (Pack × Pack) × Bytes)
  | _, 0, s => some ([], s)
  | 0, _ + 1, _ => none
  | fuel + 1, n + 1, s => do
    let (k, s) ← read fuel s
    let (v, s) ← read fuel s
    let (ms, s) ← readMap fuel n s
    return ((k, v) :: ms, s)

end

/-- The document at the front of a text, and what follows it. -/
def parse (s : Bytes) : Option (Pack × Bytes) := read (2 * s.length + 2) s

end Pack

end Pascaline
