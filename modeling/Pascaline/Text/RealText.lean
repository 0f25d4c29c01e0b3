import Pascaline.Text.Bytes

/-!
# Decimal text of reals

A real is written with the fewest significant digits that read back as the same real; of those
the nearest is taken. Numbers from 0.0001 up to a million are written positionally, all others
with an exponent. Reading rounds to the nearest real.
-/

namespace Pascaline.RealText

/-! ## Binary form -/

/-- A positive real as `mantissa * 2 ^ exponent`. The gap to the real below is half as wide as the
gap above when `narrowBelow` holds. -/
structure Binary where
  mantissa : Nat
  exponent : Int
  narrowBelow : Bool
deriving Repr, DecidableEq

/-- Takes apart the bits of a positive finite real. -/
def Binary.ofBits (bits : UInt64) : Binary :=
  let fraction : Nat := bits.toNat % 0x10000000000000
  let biased : Nat := bits.toNat / 0x10000000000000 % 0x800
  if biased = 0 then ⟨fraction, -1074, false⟩
  else ⟨0x10000000000000 + fraction, (biased : Int) - 1075, fraction = 0 && 1 < biased⟩

/-! ## The fewest digits -/

/-- A decimal number `digits * 10 ^ exponent`. -/
structure Decimal where
  digits : Nat
  exponent : Int
deriving Repr, DecidableEq

/-- The interval of numbers that round to a real, as three numerators over one denominator: its
ends and the real itself. The ends belong to it when `closed` holds. -/
structure Rounding where
  low : Nat
  mid : Nat
  high : Nat
  den : Nat
  closed : Bool

def Binary.rounding (b : Binary) : Rounding :=
  let (num, den) :=
    if 0 ≤ b.exponent then (Nat.pow 2 b.exponent.toNat, 4) else (1, 4 * Nat.pow 2 (-b.exponent).toNat)
  ⟨(4 * b.mantissa - (if b.narrowBelow then 1 else 2)) * num, 4 * b.mantissa * num,
    (4 * b.mantissa + 2) * num, den, b.mantissa % 2 = 0⟩

/-- The same numbers measured in units of `10 ^ e`. -/
def Rounding.scale (r : Rounding) (e : Int) : Rounding :=
  if 0 ≤ e then { r with den := r.den * Nat.pow 10 e.toNat }
  else
    let k := Nat.pow 10 (-e).toNat
    { r with low := r.low * k, mid := r.mid * k, high := r.high * k }

def Rounding.contains (r : Rounding) (n : Nat) : Bool :=
  if r.closed then r.low ≤ n * r.den && n * r.den ≤ r.high
  else r.low < n * r.den && n * r.den < r.high

/-- The whole number in the interval nearest to the middle, if one of the middle's two
neighbours is in it; the even one on a tie. -/
def Rounding.nearest? (r : Rounding) : Option Nat :=
  let below := r.mid / r.den
  let above := below + 1
  match r.contains below, r.contains above with
  | true, false => some below
  | false, true => some above
  | false, false => none
  | true, true =>
    let down := r.mid - below * r.den
    let up := above * r.den - r.mid
    some (if down < up then below else if up < down then above
      else if below % 2 = 0 then below else above)

/-- The exponent `e` with `10 ^ e ≤ x < 10 ^ (e + 1)` for the middle `x`, searched upwards from
`start`. -/
def Rounding.magnitude (r : Rounding) : (fuel : Nat) → (start : Int) → Int
  | 0, e => e
  | fuel + 1, e =>
    let s := r.scale (e + 1)
    if s.den ≤ s.mid then magnitude r fuel (e + 1) else e

/-- Tries one more digit at a time; seventeen always suffice. -/
def Rounding.search (r : Rounding) (magnitude : Int) : (tries : Nat) → (digits : Nat) → Decimal
  | 0, _ => ⟨0, 0⟩
  | tries + 1, n =>
    let e := magnitude - n + 1
    match (r.scale e).nearest? with
    | some d => ⟨d, e⟩
    | none => search r magnitude tries (n + 1)

/-- Moves zeros at the end into the exponent. -/
def Decimal.trim : (fuel : Nat) → Decimal → Decimal
  | 0, d => d
  | fuel + 1, d => if d.digits % 10 = 0 then trim fuel ⟨d.digits / 10, d.exponent + 1⟩ else d

/-- An exponent of ten not above the magnitude and at most one below it. -/
def Binary.magnitudeEstimate (b : Binary) : Int :=
  (((b.mantissa.log2 : Int) + b.exponent) * 30103).fdiv 100000 - 1

/-- The decimal of fewest digits that rounds to a positive real. -/
def Binary.shortest (b : Binary) : Decimal :=
  let r := b.rounding
  let m := r.magnitude 4 b.magnitudeEstimate
  (r.search m 17 1).trim 20

/-! ## Writing -/

/-- Digits with a point after the first `n`, filled with zeros. -/
def positional (digits : List Char) (point : Int) : List Char :=
  if point ≤ 0 then ['0', '.'] ++ List.replicate (-point).toNat '0' ++ digits
  else
    let n := point.toNat
    if digits.length ≤ n then digits ++ List.replicate (n - digits.length) '0'
    else digits.take n ++ ['.'] ++ digits.drop n

/-- One digit before the point, and a signed exponent of at least two digits. -/
def scientific (digits : List Char) (exponent : Int) : List Char :=
  let mantissa := match digits with
    | [] => []
    | [d] => [d]
    | d :: ds => d :: '.' :: ds
  let e := Nat.toDigits 10 exponent.natAbs
  mantissa ++ ['e', if exponent < 0 then '-' else '+'] ++ (if e.length < 2 then '0' :: e else e)

/-- Exponents below `low`, or from `high` on, are written out. -/
structure Style where
  low : Int
  high : Int

/-- Reals from 0.0001 up to a million are positional. -/
def style : Style := ⟨-4, 6⟩

def Decimal.render (d : Decimal) : List Char :=
  let digits := Nat.toDigits 10 d.digits
  let point := d.exponent + digits.length
  let exponent := point - 1
  if exponent < style.low || style.high ≤ exponent then scientific digits exponent
  else positional digits point

/-- The text of a real. -/
def render (x : Float) : String :=
  let bits := x.toBits
  if x.isNaN then "NaN"
  else
    let negative := 0x8000000000000000 ≤ bits.toNat
    if x.isInf then (if negative then "-Inf" else "+Inf")
    else
      let magnitude := bits.toNat % 0x8000000000000000
      let body :=
        if magnitude = 0 then ['0'] else (Binary.ofBits magnitude.toUInt64).shortest.render
      String.ofList (if negative then '-' :: body else body)

/-- A quotient rounded to the nearest whole number; a half goes to the even one. -/
def roundQuotient (num den : Nat) : Nat :=
  let q := num / den
  let twice := 2 * (num % den)
  if twice < den || (twice = den && q % 2 = 0) then q else q + 1

/-- A real that is not negative, with a fixed number of decimals. -/
def fixed (places : Nat) (x : Float) : String :=
  let r := (Binary.ofBits x.toBits).rounding
  let n := roundQuotient (r.mid * Nat.pow 10 places) r.den
  let digits := Nat.toDigits 10 n
  let filled := List.replicate (places + 1 - digits.length) '0' ++ digits
  let whole := filled.length - places
  String.ofList (filled.take whole ++ (if places = 0 then [] else '.' :: filled.drop whole))

/-! ## Reading -/

def infinity : Float := 1.0 / 0.0

def notANumber : Float := 0.0 / 0.0

/-- The real nearest to `digits * 10 ^ exponent`; exponents far out of range are not worked out. -/
def Decimal.toReal (d : Decimal) : Float :=
  if d.digits = 0 then 0.0
  else
    let top := d.exponent + (Nat.toDigits 10 d.digits).length
    if 400 < top then infinity
    else if top < -400 then 0.0
    else if 0 ≤ d.exponent then Float.ofScientific d.digits false d.exponent.toNat
    else Float.ofScientific d.digits true (-d.exponent).toNat

/-- The exponent part of a number, or zero when there is none. -/
def readExponent? : Bytes → Option Int
  | [] => some 0
  | e :: rest =>
    if e = Bytes.ch 'e' || e = Bytes.ch 'E' then
      match rest with
      | s :: ds =>
        if s = Bytes.ch '-' then (Bytes.nat? ds).map (fun n => -(n : Int))
        else if s = Bytes.ch '+' then (Bytes.nat? ds).map Int.ofNat
        else (Bytes.nat? rest).map Int.ofNat
      | [] => none
    else none

/-- An unsigned number: digits, maybe a fraction, maybe an exponent. -/
def readUnsigned? (s : Bytes) : Option Decimal :=
  let whole := s.takeWhile Bytes.isDigit
  let rest := s.dropWhile Bytes.isDigit
  let (fraction, rest) := match rest with
    | p :: r => if p = Bytes.ch '.' then (r.takeWhile Bytes.isDigit, r.dropWhile Bytes.isDigit)
      else ([], rest)
    | [] => ([], rest)
  if whole.isEmpty && fraction.isEmpty then none
  else (readExponent? rest).map fun e =>
    ⟨Bytes.digitsValue (whole ++ fraction), e - fraction.length⟩

/-- Reads the text of a real: a number, an infinity or no number. -/
def read? (s : Bytes) : Option Float :=
  let (negative, body) := match s with
    | b :: r => if b = Bytes.ch '-' then (true, r) else if b = Bytes.ch '+' then (false, r) else (false, s)
    | [] => (false, s)
  let signed := fun (x : Float) => if negative then -x else x
  let word := body.map fun b => if 65 ≤ b && b ≤ 90 then b + 32 else b
  if word == utf8 "inf" || word == utf8 "infinity" then some (signed infinity)
  else if s == body && word == utf8 "nan" then some notANumber
  else (readUnsigned? body).map fun d => signed d.toReal

end Pascaline.RealText
