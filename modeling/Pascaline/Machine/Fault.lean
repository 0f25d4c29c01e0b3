import Pascaline.Code
import Pascaline.Native
import Pascaline.Source.File
import Pascaline.Value.Arithmetic

/-!
# Faults

A run ends early with a fault: what went wrong, where, and through which routines the program came
there.
-/

namespace Pascaline

/-- What a nil was used as. -/
inductive Referent where
  | object | reference | routine
deriving Repr, DecidableEq

def Referent.render : Referent → String
  | object => "object"
  | reference => "reference"
  | routine => "routine"

/-- An operand of the wrong kind. -/
inductive Mismatch where
  | operands (e : ArithmeticError)
  | arrayLength
  | index
  | object (got : ValueKind)
  | array (got : ValueKind)
  | routine (got : ValueKind)
deriving Repr, DecidableEq

def Mismatch.message : Mismatch → String
  | operands e => e.message
  | arrayLength => "array length is not an integer"
  | index => "index is not ordinal"
  | object k => "object expected, got " ++ k.render
  | array k => "array expected, got " ++ k.render
  | routine k => "routine expected, got " ++ k.render

/-- Code that no compiler makes. -/
inductive BadCode where
  | loadChar (got : ValueKind)
  | noReceiver
  | vmtSlot (slot : Int)
  | noRoutineValue
  | unknownOp (op : Op)
  | notAnObject (h : Handle)
  | notAnArray (h : Handle)
  | fieldOffset (offset : Int)
  | routineOfUnknownUnit (unit : String)
  | noSuchRoutine (unit : String) (index : Int)
  | noInstruction (routine : String) (block : Int) (ip : Nat)
  | noEntry (index : Int)
  | underflow (routine : String)
  | argumentCount (routine : String) (expected : Int) (got : Nat)
  | noResult (routine : String)
  | hollowArray
deriving Repr, DecidableEq

def BadCode.message : BadCode → String
  | loadChar k => "load.char on " ++ k.render
  | noReceiver => "call.virtual without receiver"
  | vmtSlot i => "vmt slot " ++ signedDecimal i ++ " out of range"
  | noRoutineValue => "call.indirect without routine"
  | unknownOp op => "unknown opcode " ++ op.render
  | notAnObject h => "handle " ++ decimal h ++ " is not an object"
  | notAnArray h => "handle " ++ decimal h ++ " is not an array"
  | fieldOffset i => "field offset " ++ signedDecimal i ++ " out of range"
  | routineOfUnknownUnit u => "routine of unknown unit " ++ u
  | noSuchRoutine u i => u ++ " has no routine " ++ signedDecimal i
  | noInstruction r b i => r ++ ": no instruction at bb" ++ signedDecimal b ++ ":ip" ++ decimal i
  | noEntry i => "missing entry routine " ++ signedDecimal i
  | underflow r => r ++ ": operand stack underflow"
  | argumentCount r n k =>
    r ++ " expects " ++ signedDecimal n ++ " arguments, got " ++ decimal k
  | noResult r => r ++ " returns a result it does not have"
  | hollowArray => "array shape without element"

/-- What went wrong. -/
inductive FaultCause where
  | outOfBounds (index : Int64) (length : Nat)
  | nilReference (what : Referent)
  | divisionByZero
  | heapExhausted (need budget : Int)
  | stopped
  | nativeError (routine : String) (e : NativeError)
  | stackOverflow (frames : Nat)
  | typeMismatch (m : Mismatch)
  | invalidCode (b : BadCode)
deriving Repr

namespace FaultCause

def code : FaultCause → Nat
  | outOfBounds _ _ => 1001
  | nilReference _ => 1002
  | divisionByZero => 1003
  | heapExhausted _ _ => 1004
  | stopped => 1005
  | nativeError _ _ => 1006
  | stackOverflow _ => 1007
  | typeMismatch _ => 1008
  | invalidCode _ => 1999

def name : FaultCause → String
  | outOfBounds _ _ => "IndexOutOfBounds"
  | nilReference _ => "NullReference"
  | divisionByZero => "DivisionByZero"
  | heapExhausted _ _ => "HeapExhausted"
  | stopped => "Stopped"
  | nativeError _ _ => "NativeError"
  | stackOverflow _ => "StackOverflow"
  | typeMismatch _ => "TypeMismatch"
  | invalidCode _ => "InvalidCode"

def message : FaultCause → Bytes
  | outOfBounds i n =>
    utf8 ("index " ++ signedDecimal i.toInt ++ " out of bounds for length " ++ decimal n)
  | nilReference what => utf8 ("nil " ++ what.render ++ " dereferenced")
  | divisionByZero => utf8 "division by zero"
  | heapExhausted need budget =>
    utf8 ("allocation of " ++ signedDecimal need ++ " words exceeds heap budget of " ++
      signedDecimal budget ++ " words")
  | stopped => utf8 "execution stopped by host"
  | nativeError r e => utf8 (r ++ ": ") ++ e.message
  | stackOverflow n => utf8 ("call depth exceeds " ++ decimal n ++ " frames")
  | typeMismatch m => utf8 m.message
  | invalidCode b => utf8 b.message

end FaultCause

/-- A fault with the place of the instruction and the routines entered, the innermost first. -/
structure Fault where
  cause : FaultCause
  span : Span := ⟨0, 0, 0⟩
  backtrace : List (String × Span) := []

/-- The place of a span. Without sources, and for the empty span at the start, there is none. -/
def Span.place (s : Span) (sources : Option SourceLibrary) : String :=
  match sources with
  | none => "<no-span>"
  | some lib => if s.start = 0 && s.stop = 0 then "<no-span>" else lib.position s

namespace Fault

def code (f : Fault) : String := "VM" ++ decimal f.cause.code

/-- One line. -/
def summary (f : Fault) : Bytes :=
  utf8 (f.cause.name ++ " " ++ f.code ++ ": ") ++ f.cause.message

/-- The fault as it is shown to the user. -/
def report (f : Fault) (sources : Option SourceLibrary) : Bytes :=
  let frame := fun ((name, span), i) =>
    "  " ++ decimal i ++ ": " ++ name ++ " at " ++ Span.place span sources ++ "\n"
  utf8 ("runtime error " ++ f.code ++ " (" ++ f.cause.name ++ "): ") ++ f.cause.message ++
    utf8 ("\nat " ++ f.span.place sources ++ "\n" ++
      (if f.backtrace.isEmpty then ""
       else "backtrace:\n" ++ String.join (f.backtrace.zipIdx.map frame)))

end Fault

end Pascaline
