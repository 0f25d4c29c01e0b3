import Pascaline.Value

/-!
# Operators on values

Integers are 64 bits wide and wrap around. An operation on an integer and a real is done on reals.
Each operator says what it accepts; on anything else it fails.
-/

namespace Pascaline

/-- Why an operator has no result. -/
inductive ArithmeticError where
  | divisionByZero
  | binaryOperands (op : String) (left right : ValueKind)
  | negOperand (kind : ValueKind)
  | notOperand (kind : ValueKind)
  | succOperand (kind : ValueKind)
  | predOperand (kind : ValueKind)
deriving Repr, DecidableEq

def ArithmeticError.message : ArithmeticError → String
  | divisionByZero => "division by zero"
  | binaryOperands op l r => "invalid operand: " ++ l.render ++ " " ++ op ++ " " ++ r.render
  | negOperand k => "invalid operand: -" ++ k.render
  | notOperand k => "invalid operand: not " ++ k.render
  | succOperand k => "invalid operand: succ of " ++ k.render
  | predOperand k => "invalid operand: pred of " ++ k.render

namespace Value

abbrev Outcome := Except ArithmeticError Value

def isNumber (v : Value) : Bool := v.kind = .int || v.kind = .real

def isText (v : Value) : Bool := v.kind = .string || v.kind = .char

/-- An operation that both integers and reals have. -/
def numeric (op : String) (onInts : Int64 → Int64 → Int64) (onReals : Float → Float → Float)
    (a b : Value) : Outcome :=
  match a, b with
  | int m, int n => .ok (int (onInts m n))
  | _, _ =>
    if a.isNumber && b.isNumber then .ok (real (onReals a.asReal b.asReal))
    else .error (.binaryOperands op a.kind b.kind)

def add : Value → Value → Outcome := numeric "+" (· + ·) (· + ·)

def sub : Value → Value → Outcome := numeric "-" (· - ·) (· - ·)

def mul : Value → Value → Outcome := numeric "*" (· * ·) (· * ·)

/-- Division of numbers as reals. -/
def quot (a b : Value) : Outcome :=
  if a.isNumber && b.isNumber then
    if b.asReal == 0.0 then .error .divisionByZero else .ok (real (a.asReal / b.asReal))
  else .error (.binaryOperands "/" a.kind b.kind)

/-- Integer division toward zero. -/
def div (a b : Value) : Outcome :=
  match a, b with
  | int m, int n => if n = 0 then .error .divisionByZero else .ok (int (m / n))
  | _, _ => .error (.binaryOperands "div" a.kind b.kind)

/-- The remainder, which has the sign of the dividend. -/
def mod (a b : Value) : Outcome :=
  match a, b with
  | int m, int n => if n = 0 then .error .divisionByZero else .ok (int (m % n))
  | _, _ => .error (.binaryOperands "mod" a.kind b.kind)

def neg : Value → Outcome
  | int n => .ok (int (-n))
  | real x => .ok (real (-x))
  | v => .error (.negOperand v.kind)

/-- Logical on booleans, bit by bit on integers. -/
def not : Value → Outcome
  | bool n => .ok (ofBool (n == 0))
  | int n => .ok (int (~~~n))
  | v => .error (.notOperand v.kind)

/-- An operation on the bits of two integers or of two booleans. -/
def bitwise (op : String) (f : Int64 → Int64 → Int64) (a b : Value) : Outcome :=
  match a, b with
  | bool m, bool n => .ok (ofBool (f m n != 0))
  | int m, int n => .ok (int (f m n))
  | _, _ => .error (.binaryOperands op a.kind b.kind)

def and : Value → Value → Outcome := bitwise "and" (· &&& ·)

def or : Value → Value → Outcome := bitwise "or" (· ||| ·)

def xor : Value → Value → Outcome := bitwise "xor" (· ^^^ ·)

/-- Shifts left; a negative count shifts by nothing, and from 64 on no bit is left. -/
def shiftLeft (m n : Int64) : Int64 :=
  if n ≤ 0 then m else if 64 ≤ n then 0 else m <<< n

/-- Shifts right and fills with zeros; counts as in `shiftLeft`. -/
def shiftRight (m n : Int64) : Int64 :=
  if n ≤ 0 then m else if 64 ≤ n then 0 else (m.toUInt64 >>> n.toUInt64).toInt64

def shl (a b : Value) : Outcome :=
  match a, b with
  | int m, int n => .ok (int (shiftLeft m n))
  | _, _ => .error (.binaryOperands "shl" a.kind b.kind)

def shr (a b : Value) : Outcome :=
  match a, b with
  | int m, int n => .ok (int (shiftRight m n))
  | _, _ => .error (.binaryOperands "shr" a.kind b.kind)

/-- Joins chars and strings into a string. -/
def concat (a b : Value) : Outcome :=
  if a.isText && b.isText then .ok (string (a.print ++ b.print))
  else .error (.binaryOperands "+" a.kind b.kind)

/-- The next ordinal. -/
def succ : Value → Outcome
  | int n => .ok (int (n + 1))
  | char n => .ok (char (n + 1))
  | bool n => .ok (bool (n + 1))
  | v => .error (.succOperand v.kind)

/-- The ordinal before. -/
def pred : Value → Outcome
  | int n => .ok (int (n - 1))
  | char n => .ok (char (n - 1))
  | bool n => .ok (bool (n - 1))
  | v => .error (.predOperand v.kind)

end Value

end Pascaline
