import Pascaline.Text.LetterCase
import Pascaline.Text.Utf8
import Pascaline.Value

/-!
# Built-in routines

The routines every program can call without declaring them. A pure one depends on its arguments
only, so a call with constant arguments is worked out when the program is compiled.
-/

namespace Pascaline

/-- What a parameter of a built-in routine accepts. -/
inductive ArgKind where
  | any | int | real | numeric | char | string | bool | sized | ordinal | text
deriving Repr, DecidableEq

/-- The type of a built-in routine's result; `sameAsFirst` is that of the first argument. -/
inductive ResultKind where
  | void | int | real | char | string | bool | sameAsFirst
deriving Repr, DecidableEq

inductive Native where
  | write | writeln | readln | length | ord | chr | abs | sqr | sqrt | trunc | round
  | inttostr | strtoint | floattostr | copy | pos | upcase | halt
deriving Repr, DecidableEq, Inhabited

/-- Why a built-in routine has no result. -/
inductive NativeError where
  | noInput
  | lengthOutsideProgram
  | lengthOf (kind : ValueKind)
  | lengthOfNoArray
  | notACodePoint (n : Int64)
  | sqrtOfNegative (x : Float)
  | notAnInteger (text : Bytes)
deriving Repr

def NativeError.message : NativeError → Bytes
  | noInput => utf8 "readln: no input"
  | lengthOutsideProgram => utf8 "length: array outside a running program"
  | lengthOf k => utf8 ("length of " ++ k.render)
  | lengthOfNoArray => utf8 "length of a non-array reference"
  | notACodePoint n => utf8 ("chr: " ++ signedDecimal n.toInt ++ " is not a code point")
  | sqrtOfNegative x => utf8 ("sqrt of negative number " ++ RealText.render x)
  | notAnInteger t => utf8 "strtoint: " ++ Quoted.encode t ++ utf8 " is not an integer"

/-- How a call of a built-in routine ends without a value. -/
inductive NativeStop where
  /-- The program asked to end with this code. -/
  | halt (code : Int64)
  | error (e : NativeError)
  /-- The routine itself breaks down. -/
  | breakdown
deriving Repr

/-- What a built-in routine sees of the running program: the input still unread, absent when
there is none, and the length of arrays, absent when nothing runs. -/
structure NativeHost where
  input : Option Bytes := none
  lengthOf : Option (Value → Except NativeError Nat) := none

/-- What a call yields: a value, the bytes written, and the input left. -/
structure NativeReturn where
  value : Value := .invalid
  output : Bytes := []
  input : Option Bytes := none

namespace Native

def all : List Native :=
  [write, writeln, readln, length, ord, chr, abs, sqr, sqrt, trunc, round, inttostr, strtoint,
   floattostr, copy, pos, upcase, halt]

def name : Native → String
  | write => "write" | writeln => "writeln" | readln => "readln" | length => "length"
  | ord => "ord" | chr => "chr" | abs => "abs" | sqr => "sqr" | sqrt => "sqrt"
  | trunc => "trunc" | round => "round" | inttostr => "inttostr" | strtoint => "strtoint"
  | floattostr => "floattostr" | copy => "copy" | pos => "pos" | upcase => "upcase"
  | halt => "halt"

def ofName? (s : String) : Option Native := all.find? (·.name == s)

/-- The parameters; the last one of a variadic routine repeats any number of times. -/
def params : Native → List ArgKind
  | write | writeln => [.any]
  | readln => []
  | length => [.sized]
  | ord => [.ordinal]
  | chr | inttostr | halt => [.int]
  | abs | sqr => [.numeric]
  | sqrt | trunc | round | floattostr => [.real]
  | strtoint => [.string]
  | copy => [.string, .int, .int]
  | pos => [.string, .string]
  | upcase => [.text]

def variadic : Native → Bool
  | write | writeln => true
  | _ => false

def result : Native → ResultKind
  | write | writeln | halt => .void
  | readln | inttostr | floattostr | copy => .string
  | length | ord | trunc | round | strtoint | pos => .int
  | chr => .char
  | abs | sqr | upcase => .sameAsFirst
  | sqrt => .real

/-- Pure routines are folded over constants. -/
def isPure : Native → Bool
  | write | writeln | readln | halt => false
  | _ => true

/-- Whether a call may have this many arguments. -/
def arity (n : Native) (count : Nat) : Bool :=
  if n.variadic then n.params.length ≤ count + 1 else count == n.params.length

/-- What argument `i` must be. -/
def param (n : Native) (i : Nat) : ArgKind :=
  n.params.getD (if n.variadic then min i (n.params.length - 1) else i) .any

/-! ## What they do -/

/-- Toward zero; what does not fit becomes the least integer. -/
def truncate (x : Float) : Int64 :=
  if x < 9223372036854775808.0 && -9223372036854775808.0 ≤ x then x.toInt64 else Int64.minValue

/-- The characters from `start` on, at most `count` of them. A negative start counts as 0. The
end of the range is a 64-bit sum: one that wraps around makes the routine break down. -/
def substring (cs : List Char) (start count : Int64) : Except NativeStop (List Char) :=
  let start := if start < 0 then 0 else start
  if (cs.length : Int) ≤ start.toInt || count ≤ 0 then .ok []
  else
    let stop := start + count
    if stop < start then .error .breakdown
    else .ok ((cs.drop start.toInt.toNat).take count.toInt.toNat)

/-- Splits the input after its first newline. -/
def splitLine : Bytes → Bytes × Bytes
  | [] => ([], [])
  | b :: rest =>
    if b = 10 then ([b], rest)
    else
      let (line, left) := splitLine rest
      (b :: line, left)

/-- A line without the line end characters behind it. -/
def trimLineEnd (line : Bytes) : Bytes :=
  (line.reverse.dropWhile (fun b => b = 10 || b = 13)).reverse

/-- Upper case, character by character; malformed bytes become replacement characters. -/
def upperBytes (s : Bytes) : Bytes := Utf8.encode ((Utf8.chars s).map upperChar)

def upperCodePoint (n : Int64) : Int64 :=
  let c := n.toInt32.toInt
  if h : 0 ≤ c ∧ c.toNat.isValidChar then
    Int64.ofNat (upperChar (Char.ofNatAux c.toNat h.2)).toNat
  else Int64.ofInt c

/-- Calls a routine with as many arguments as its arity allows. -/
def call (n : Native) (host : NativeHost) (args : List Value) : Except NativeStop NativeReturn :=
  let arg := fun (i : Nat) => args.getD i .invalid
  let return_ := fun (v : Value) => Except.ok { value := v, input := host.input }
  let fail := fun (e : NativeError) => Except.error (NativeStop.error e)
  match n with
  | write => .ok { output := args.flatMap Value.print, input := host.input }
  | writeln => .ok { output := args.flatMap Value.print ++ [10], input := host.input }
  | readln =>
    match host.input with
    | none => fail .noInput
    | some s =>
      let (line, left) := splitLine s
      .ok { value := .string (trimLineEnd line), input := some left }
  | length =>
    match arg 0 with
    | .string s => return_ (.int (Int64.ofNat (Utf8.length s)))
    | .char _ => return_ (.int 1)
    | v =>
      match host.lengthOf with
      | none => fail .lengthOutsideProgram
      | some f =>
        match f v with
        | .ok k => return_ (.int (Int64.ofNat k))
        | .error e => fail e
  | ord => return_ (.int (arg 0).number)
  | chr =>
    let k := (arg 0).number
    if k < 0 || 0x10ffff < k then fail (.notACodePoint k) else return_ (.char k)
  | abs =>
    match arg 0 with
    | .real x => return_ (.real x.abs)
    | v => if v.number < 0 then return_ (.int (-v.number)) else return_ v
  | sqr =>
    match arg 0 with
    | .real x => return_ (.real (x * x))
    | v => return_ (.int (v.number * v.number))
  | sqrt =>
    let x := (arg 0).asReal
    if x < 0.0 then fail (.sqrtOfNegative x) else return_ (.real x.sqrt)
  | trunc => return_ (.int (truncate (arg 0).asReal))
  | round => return_ (.int (truncate (arg 0).asReal.round))
  | inttostr => return_ (.string (utf8 (signedDecimal (arg 0).number.toInt)))
  | strtoint =>
    match Bytes.int64? ((arg 0).print.trim) with
    | some k => return_ (.int (Int64.ofInt k))
    | none => fail (.notAnInteger (arg 0).print)
  | floattostr => return_ (.string (utf8 (RealText.render (arg 0).asReal)))
  | copy =>
    match substring (Utf8.chars (arg 0).print) (arg 1).number (arg 2).number with
    | .ok cs => return_ (.string (Utf8.encode cs))
    | .error e => .error e
  | pos =>
    let s := (arg 1).print
    match Bytes.find? (arg 0).print s with
    | some k => return_ (.int (Int64.ofNat (Utf8.length (s.take k))))
    | none => return_ (.int (-1))
  | upcase =>
    match arg 0 with
    | .char k => return_ (.char (upperCodePoint k))
    | .string s => return_ (.string (upperBytes s))
    | .routine u _ => return_ (.string (upperBytes u))
    | _ => return_ (.string [])
  | halt => .error (.halt (arg 0).number)

end Native

/-- The names under which routines are registered, in the order of registration. -/
structure NativeRegistry where
  names : List String

namespace NativeRegistry

def standard : NativeRegistry := ⟨Native.all.map Native.name⟩

/-- Adds a name, unless it is taken. -/
def register (r : NativeRegistry) (name : String) : Except String NativeRegistry :=
  if r.names.contains name then .error (name ++ ": native already registered")
  else .ok ⟨r.names ++ [name]⟩

end NativeRegistry

end Pascaline
