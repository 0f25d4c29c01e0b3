/-!
# Raw text

Source files, string values and program output are byte strings that need not be valid UTF-8.
This module holds the byte string type, its order, and decimal and hexadecimal digits.
-/

namespace Pascaline

/-- Raw text: any bytes, usually but not always UTF-8. -/
abbrev Bytes := List UInt8

/-- The UTF-8 form of a text. -/
def utf8 (s : String) : Bytes :=
  s.toList.flatMap String.utf8EncodeChar

instance : Coe String Bytes := ⟨utf8⟩

namespace Bytes

/-- The byte of an ASCII character. -/
def ch (c : Char) : UInt8 := c.toNat.toUInt8

/-- Byte order, the order of string comparison. -/
def lt : Bytes → Bytes → Bool
  | _, [] => false
  | [], _ :: _ => true
  | a :: as, b :: bs => a < b || (a == b && lt as bs)

/-- Whether `p` starts the text. -/
def startsWith (s p : Bytes) : Bool := p.isPrefixOf s

/-- The first offset at which `sub` occurs in `s`. -/
def find? (sub : Bytes) : Bytes → Option Nat
  | [] => if sub.isEmpty then some 0 else none
  | b :: s => if sub.isPrefixOf (b :: s) then some 0 else (find? sub s).map (· + 1)

/-- Cuts the text after every newline; the newline itself is dropped. -/
def lines (s : Bytes) : List Bytes :=
  s.foldr (fun b acc =>
    if b = 10 then [] :: acc
    else match acc with
      | l :: ls => (b :: l) :: ls
      | [] => [[b]]) [[]]

/-- Concatenates the parts with `sep` between neighbours. -/
def join (sep : Bytes) : List Bytes → Bytes
  | [] => []
  | [p] => p
  | p :: ps => p ++ sep ++ join sep ps

/-! ## Digits -/

def isDigit (b : UInt8) : Bool := 48 ≤ b && b ≤ 57

/-- The value of a hexadecimal digit. -/
def hexDigit? (b : UInt8) : Option Nat :=
  if isDigit b then some (b.toNat - 48)
  else if 97 ≤ b && b ≤ 102 then some (b.toNat - 87)
  else if 65 ≤ b && b ≤ 70 then some (b.toNat - 55)
  else none

def isHexDigit (b : UInt8) : Bool := (hexDigit? b).isSome

/-- The number a run of digits denotes; the caller has checked the digits. -/
def digitsValue (s : Bytes) : Nat :=
  s.foldl (fun n b => 10 * n + (b.toNat - 48)) 0

def hexValue (s : Bytes) : Nat :=
  s.foldl (fun n b => 16 * n + (hexDigit? b).getD 0) 0

/-- A decimal number without sign: at least one digit and nothing else. -/
def nat? (s : Bytes) : Option Nat :=
  if s.isEmpty || !s.all isDigit then none else some (digitsValue s)

/-- The least and greatest 64-bit integer bound what a text may denote. -/
def int64? (s : Bytes) : Option Int :=
  let signed : Option Int := match s with
    | [] => none
    | b :: r =>
      if b = ch '-' then (nat? r).map (fun n => -(n : Int))
      else if b = ch '+' then (nat? r).map Int.ofNat
      else (nat? s).map Int.ofNat
  signed.filter (fun n => -9223372036854775808 ≤ n && n ≤ 9223372036854775807)

/-- The lower-case hexadecimal digit of a number below sixteen. -/
def hexChar (n : Nat) : UInt8 := (if n < 10 then 48 + n else 87 + n).toUInt8

/-- Two lower-case hexadecimal digits a byte. -/
def toHex (s : Bytes) : String :=
  String.ofList (s.flatMap fun b =>
    [Char.ofNat (hexChar (b.toNat / 16)).toNat, Char.ofNat (hexChar (b.toNat % 16)).toNat])

/-- Reads pairs of hexadecimal digits. -/
def ofHex? : Bytes → Option Bytes
  | [] => some []
  | a :: b :: r => do
    let hi ← hexDigit? a
    let lo ← hexDigit? b
    return (16 * hi + lo).toUInt8 :: (← ofHex? r)
  | [_] => none

end Bytes

/-- The decimal text of a number. -/
def decimal (n : Nat) : String := String.ofList (Nat.toDigits 10 n)

/-- The decimal text of a number with its sign. -/
def signedDecimal (n : Int) : String :=
  if n < 0 then "-" ++ decimal n.natAbs else decimal n.natAbs

end Pascaline
