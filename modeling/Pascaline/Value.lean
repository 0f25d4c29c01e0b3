import Pascaline.Text.Quoted
import Pascaline.Text.RealText

/-!
# Values

What constants denote and what a running program computes with.
-/

namespace Pascaline

/-- The address of a heap cell; 0 is nil and never a cell. -/
abbrev Handle := Nat

inductive ValueKind where
  | invalid | bool | int | real | char | string | ref | routine
deriving Repr, DecidableEq, Inhabited

namespace ValueKind

def render : ValueKind → String
  | invalid => "invalid"
  | bool => "boolean"
  | int => "integer"
  | real => "real"
  | char => "char"
  | string => "string"
  | ref => "ref"
  | routine => "routine"

end ValueKind

/-- A value. A boolean is true when its number is not zero; a char is a code point; a routine
with an empty unit name is nil. -/
inductive Value where
  | invalid
  | bool (n : Int64)
  | int (n : Int64)
  | real (x : Float)
  | char (n : Int64)
  | string (s : Bytes)
  | ref (h : Handle)
  | routine (unit : String) (index : Int64)
deriving Repr, Inhabited

namespace Value

def ofBool (b : Bool) : Value := .bool (if b then 1 else 0)

def nil : Value := .ref 0

/-- The routine value that calls nothing. -/
def nilRoutine : Value := .routine "" 0

def kind : Value → ValueKind
  | invalid => .invalid
  | bool _ => .bool
  | int _ => .int
  | real _ => .real
  | char _ => .char
  | string _ => .string
  | ref _ => .ref
  | routine _ _ => .routine

/-- The number a value carries, 0 when it carries none. -/
def number : Value → Int64
  | bool n | int n | char n | routine _ n => n
  | _ => 0

/-- The handle a value carries, nil when it carries none. -/
def handle : Value → Handle
  | ref h => h
  | _ => 0

def isTrue (v : Value) : Bool := v.number != 0

/-- A number as a real; 0 for what is no number. -/
def asReal : Value → Float
  | int n => n.toFloat
  | real x => x
  | _ => 0.0

/-- A nil reference or a nil routine. -/
def isNil : Value → Bool
  | ref h => h == 0
  | routine u _ => u == ""
  | _ => false

/-- The UTF-8 form of a char: the low 32 bits count, and what is no code point shows as the
replacement character. -/
def charText (n : Int64) : Bytes :=
  let c := n.toInt32.toInt
  if c < 0 then Utf8.encodeNat 0x110000 else Utf8.encodeNat c.toNat

/-- How a value is printed. -/
def print : Value → Bytes
  | bool n => utf8 (if n != 0 then "TRUE" else "FALSE")
  | int n => utf8 (signedDecimal n.toInt)
  | real x => utf8 (RealText.render x)
  | char n => charText n
  | string s => s
  | ref h => utf8 (if h = 0 then "nil" else "<ref #" ++ decimal h ++ ">")
  | routine u n =>
    utf8 (if u = "" then "nil" else "<routine " ++ u ++ "#" ++ signedDecimal n.toInt ++ ">")
  | invalid => utf8 "<invalid>"

/-- How a value is written in a listing: strings between quotes, chars by number. -/
def listing : Value → Bytes
  | string s => Quoted.encode s
  | char n => utf8 ("#" ++ signedDecimal n.toInt)
  | v => v.print

/-- Whether two values are equal: nil equals nil of any kind, a real makes both sides real, a
string compares printed forms, and otherwise kinds must agree. -/
def equal (a b : Value) : Bool :=
  if a.isNil || b.isNil then a.isNil && b.isNil
  else if a.kind = .real || b.kind = .real then a.asReal == b.asReal
  else if a.kind = .string || b.kind = .string then a.print == b.print
  else match a, b with
    | ref h, ref k => h == k
    | routine u i, routine v j => u == v && i == j
    | ref _, _ => false
    | routine _ _, _ => false
    | _, _ => a.kind == b.kind && a.number == b.number

/-- The order of numbers, chars and strings. -/
def compare (a b : Value) : Ordering :=
  if a.kind = .real || b.kind = .real then
    if a.asReal < b.asReal then .lt else if b.asReal < a.asReal then .gt else .eq
  else if a.kind = .string || b.kind = .string then
    if Bytes.lt a.print b.print then .lt else if Bytes.lt b.print a.print then .gt else .eq
  else if a.number < b.number then .lt
  else if b.number < a.number then .gt
  else .eq

end Value

end Pascaline
