import Pascaline.Source.File

/-!
# Diagnostics

What the toolchain reports about a source: a severity, a numbered kind, a place and a message,
with further places as notes. The thousands of a number tell which stage reports it.
-/

namespace Pascaline

/-- The rank of a report. -/
structure Severity where
  rank : UInt8
deriving Repr, DecidableEq, Inhabited

namespace Severity

def info : Severity := ⟨0⟩

def warning : Severity := ⟨1⟩

def error : Severity := ⟨2⟩

def isError (s : Severity) : Bool := 2 ≤ s.rank

def render (s : Severity) : String :=
  if s = info then "INFO" else if s = warning then "WARNING" else if s = error then "ERROR"
  else "UNKNOWN"

end Severity

/-- The number of a kind of report. -/
structure Code where
  number : UInt16
deriving Repr, DecidableEq, Inhabited

namespace Code

/-- The kinds that have a name. -/
def names : List (Nat × String) :=
  [(0, "Unknown"),
   (1001, "UnknownChar"), (1002, "UnterminatedString"), (1003, "UnterminatedComment"),
   (1004, "BadNumber"), (1005, "BadCharCode"),
   (2001, "UnexpectedToken"), (2002, "ExpectIdentifier"), (2003, "ExpectType"),
   (2004, "ExpectExpression"), (2005, "ExpectSemicolon"), (2006, "ExpectEnd"),
   (2007, "BadHeader"), (2008, "TrailingInput"),
   (3001, "DuplicateType"), (3002, "UnknownBase"), (3003, "CyclicInheritance"),
   (3004, "UnknownMember"), (3005, "NoMatchingOverload"), (3006, "NotAConstantExpression"),
   (3007, "ThisOutsideMethod"), (3008, "BaseWithoutInheritance"), (3009, "UnresolvedIdentifier"),
   (3010, "DuplicateSymbol"), (3011, "TypeMismatch"), (3012, "NotAssignable"),
   (3013, "BadOverride"), (3014, "NotAType"), (3015, "NotCallable"), (3016, "MissingBody"),
   (3017, "BadLoopControl"), (3018, "BadArrayLength"), (3019, "NotAClass"), (3020, "BadOperand"),
   (4001, "CircularImport"), (4002, "UnknownModule"), (4003, "ImportProgram"),
   (4004, "DependencyFailed"), (4005, "NameMismatch"), (4006, "DuplicateModule"),
   (4007, "LoadFailed")]

/-- The name of the kind. -/
def name (c : Code) : String :=
  match names.lookup c.number.toNat with
  | some s => s
  | none => "Code(" ++ decimal c.number.toNat ++ ")"

/-- The short form, such as `SEM3004`. -/
def id (c : Code) : String :=
  let n := c.number.toNat
  if 4000 ≤ n then "MOD" ++ decimal n
  else if 3000 ≤ n then "SEM" ++ decimal n
  else if 2000 ≤ n then "SYN" ++ decimal n
  else if 1000 ≤ n then "LEX" ++ decimal n
  else "E0000"

end Code

/-- A further place that explains a diagnostic. -/
structure Note where
  span : Span
  message : Bytes
deriving Repr, DecidableEq, Inhabited

structure Diagnostic where
  severity : Severity
  code : Code
  span : Span
  message : Bytes
  notes : List Note := []
deriving Repr, DecidableEq, Inhabited

namespace Diagnostic

def error (code : Code) (span : Span) (message : Bytes) (notes : List Note := []) : Diagnostic :=
  ⟨.error, code, span, message, notes⟩

def isError (d : Diagnostic) : Bool := d.severity.isError

/-- The kind and the message. -/
def summary (d : Diagnostic) : Bytes := utf8 (d.code.name ++ ": ") ++ d.message

/-- The order of presentation: by place, the gravest first at one place, then by kind. -/
def precedes (a b : Diagnostic) : Bool :=
  if a.span.file ≠ b.span.file then a.span.file < b.span.file
  else if a.span.start ≠ b.span.start then a.span.start < b.span.start
  else if a.span.stop ≠ b.span.stop then a.span.stop < b.span.stop
  else if a.severity ≠ b.severity then b.severity.rank < a.severity.rank
  else a.code.number < b.code.number

/-- Two reports that say the same thing at the same place. -/
def same (a b : Diagnostic) : Bool :=
  a.code == b.code && a.span == b.span && a.message == b.message

end Diagnostic

/-- Collected diagnostics. A full report takes no more warnings, but every error: a limit must
not hide that compilation failed. -/
structure Report where
  limit : Nat := 100
  items : List Diagnostic := []
deriving Repr, Inhabited

namespace Report

/-- The largest limit. -/
def maxLimit : Nat := 65535

/-- A report with the given limit; a limit out of range means the largest one. -/
def withLimit (n : Int) : Report :=
  ⟨if n < 0 || maxLimit < n.toNat then maxLimit else n.toNat, []⟩

/-- Whether a diagnostic gets in. -/
def accepts (r : Report) (d : Diagnostic) : Bool := d.isError || r.items.length < r.limit

def add (r : Report) (d : Diagnostic) : Report :=
  if r.accepts d then { r with items := r.items ++ [d] } else r

def hasErrors (r : Report) : Bool := r.items.any (·.isError)

def firstError? (r : Report) : Option Diagnostic := r.items.find? (·.isError)

def hasCode (r : Report) (c : Code) : Bool := r.items.any (·.code == c)

/-- Takes over everything the other report holds. -/
def merge (r other : Report) : Report := { r with items := r.items ++ other.items }

/-- Sorts by place, keeping the order of reports that rank alike. -/
def sort (r : Report) : Report :=
  { r with items := r.items.mergeSort (fun a b => !b.precedes a) }

/-- Keeps the first of the reports that say the same. -/
def dedup (r : Report) : Report :=
  { r with items := (r.items.foldl
      (fun kept d => if kept.any (Diagnostic.same · d) then kept else d :: kept) []).reverse }

end Report

end Pascaline
