import Pascaline.Text.Calendar
import Pascaline.Text.Json
import Pascaline.Text.LetterCase

/-!
# Journals

A journal records where a session of the toolchain spends its time: spans with a begin and an end,
and single points. Events are written one a line, as text or as JSON.
-/

namespace Pascaline

/-- Tells the time in microseconds since the start of 1970. -/
class Clock (m : Type → Type) where
  now : m Nat

namespace Journal

/-- How much is recorded. -/
inductive Level where
  | off
  /-- Commands and passes. -/
  | phase
  /-- Single units too. -/
  | detail
deriving Repr, DecidableEq, Inhabited

inductive Format where
  /-- JSON for files that are named so, text otherwise. -/
  | auto
  | text
  | json
deriving Repr, DecidableEq, Inhabited

/-- A word that an option does not know. -/
inductive OptionError where
  | level (word : String)
  | format (word : String)
deriving Repr, DecidableEq

def OptionError.message : OptionError → String
  | level w => "invalid trace level: " ++ quoted w ++ " (expected: off|phase|detail)"
  | format w => "invalid trace format: " ++ quoted w ++ " (expected: auto|text|ndjson)"

namespace Level

def render : Level → String
  | off => "off"
  | phase => "phase"
  | detail => "detail"

def parse (s : String) : Except OptionError Level :=
  match lowerText s with
  | "off" | "" => .ok off
  | "phase" => .ok phase
  | "detail" => .ok detail
  | _ => .error (.level s)

end Level

namespace Format

def number : Format → Nat
  | auto => 0
  | text => 1
  | json => 2

def parse (s : String) : Except OptionError Format :=
  match lowerText s with
  | "auto" | "" => .ok auto
  | "text" => .ok text
  | "ndjson" | "json" => .ok json
  | _ => .error (.format s)

/-- What is written to a file of this name. -/
def resolve (f : Format) (path : String) : Format :=
  if f = auto then (if path.endsWith ".ndjson" then json else text) else f

end Format

/-- What an event is: 1 begins a span, 2 ends it, 3 is a point. -/
structure Kind where
  number : Nat
deriving Repr, DecidableEq

/-- What an event is about: 1 a command, 2 a pass, 3 a unit. -/
structure Scope where
  number : Nat
deriving Repr, DecidableEq

namespace Kind

def spanBegin : Kind := ⟨1⟩

def spanEnd : Kind := ⟨2⟩

def point : Kind := ⟨3⟩

def render (k : Kind) : String :=
  if k = spanBegin then "begin" else if k = spanEnd then "end" else if k = point then "point"
  else "unknown"

/-- What stands in front of the name. -/
def arrow (k : Kind) : String :=
  if k = spanBegin then "-> " else if k = spanEnd then "<- " else if k = point then "*  " else ""

end Kind

namespace Scope

def command : Scope := ⟨1⟩

def pass : Scope := ⟨2⟩

def module : Scope := ⟨3⟩

def render (s : Scope) : String :=
  if s = command then "driver" else if s = pass then "pass" else if s = module then "module"
  else "unknown"

end Scope

/-- Whether events of a scope are recorded. -/
def Level.records (l : Level) (s : Scope) : Bool :=
  match l with
  | .off => false
  | .phase => s.number ≤ Scope.pass.number
  | .detail => true

/-- When an event happened: the time of day, and how long ago the journal was opened. -/
structure Moment where
  seconds : Int := 0
  micros : Int := 0
  /-- Microseconds since the start. -/
  since : Int := 0
deriving Repr, DecidableEq, Inhabited

/-- A reading of the clock, for a journal that was opened at another. -/
def Moment.ofClock (opened now : Nat) : Moment :=
  ⟨now / 1000000, now % 1000000, (now : Int) - opened⟩

/-- One record. Extra values are kept in the order of their keys. -/
structure Event where
  moment : Moment := {}
  seq : Nat
  kind : Kind
  scope : Scope
  span : Nat
  parent : Nat
  name : String
  detail : String := ""
  extra : List (String × String) := []

namespace Event

/-- Milliseconds with three decimals, in eight columns. -/
def millis (micros : Int) : String :=
  let text := (if micros < 0 then "-" else "") ++ decimal (micros.natAbs / 1000) ++ "." ++
    zeroPadded 3 (micros.natAbs % 1000)
  String.ofList (List.replicate (8 - text.length) ' ') ++ text

def toText (e : Event) : String :=
  let detail := if e.detail = "" then "" else " (" ++ e.detail ++ ")"
  let extra := if e.extra.isEmpty then ""
    else " \x7b" ++ ", ".intercalate (e.extra.map fun (k, v) => k ++ "=" ++ v) ++ "\x7d"
  "[" ++ millis e.moment.since ++ "ms] " ++ (if 0 < e.parent then "  " else "") ++ e.kind.arrow ++
    e.name ++ detail ++ extra ++ "\n"

def toJson (e : Event) : String :=
  let parent := if e.parent = 0 then [] else [("parent_id", JsonDoc.int e.parent)]
  let detail := if e.detail = "" then [] else [("detail", JsonDoc.str e.detail)]
  let extra := if e.extra.isEmpty then []
    else [("extra", JsonDoc.object (e.extra.map fun (k, v) => (k, JsonDoc.str v)))]
  (JsonDoc.object ([("time", JsonDoc.str (timestamp e.moment.seconds e.moment.micros)),
    ("seq", JsonDoc.int e.seq), ("kind", JsonDoc.str e.kind.render),
    ("scope", JsonDoc.str e.scope.render), ("span_id", JsonDoc.int e.span)] ++ parent ++
    [("name", JsonDoc.str e.name)] ++ detail ++ extra)).compact ++ "\n"

def render (f : Format) (e : Event) : String := if f = .json then e.toJson else e.toText

end Event

/-- A span that has begun. One that is not recorded has no number. -/
structure OpenSpan where
  id : Nat := 0
  level : Level := .off
  scope : Scope := ⟨0⟩
  name : String := ""
  parent : Nat := 0
  extra : List (String × String) := []

/-- A journal that is being written. Events and spans are numbered from one on. The moment is that of
the next event. -/
structure Recorder where
  level : Level := .off
  opened : Nat := 0
  moment : Moment := {}
  seq : Nat := 0
  spans : Nat := 0
  events : Array Event := #[]

namespace Recorder

def push (r : Recorder) (s : OpenSpan) (kind : Kind) (detail : String)
    (extra : List (String × String)) : Recorder :=
  { r with seq := r.seq + 1
           events := r.events.push { moment := r.moment, seq := r.seq + 1, kind, scope := s.scope,
                                     span := s.id, parent := s.parent, name := s.name, detail,
                                     extra } }

/-- Sets the moment of the next event. -/
def atTime (r : Recorder) (now : Nat) : Recorder := { r with moment := .ofClock r.opened now }

/-- Begins a span, which is silent if its scope is not recorded. -/
def openSpan (r : Recorder) (scope : Scope) (name : String) (parent : Nat) : OpenSpan × Recorder :=
  if r.level.records scope then
    let s : OpenSpan := { id := r.spans + 1, level := r.level, scope, name, parent }
    (s, { r with spans := r.spans + 1 }.push s .spanBegin "" [])
  else ({}, r)

/-- Ends a span. -/
def closeSpan (r : Recorder) (s : OpenSpan) (detail : String) : Recorder :=
  if s.level = .off then r
  else if s.level.records s.scope then r.push s .spanEnd detail s.extra
  else r

def point (r : Recorder) (scope : Scope) (name detail : String) (parent : Nat) : Recorder :=
  if r.level.records scope then r.push { scope, name, parent } .point detail [] else r

end Recorder

/-- Enters a value under its key, in the order of keys. -/
def insertExtra (key value : String) : List (String × String) → List (String × String)
  | [] => [(key, value)]
  | (k, v) :: rest =>
    if key = k then (key, value) :: rest
    else if key < k then (key, value) :: (k, v) :: rest
    else (k, v) :: insertExtra key value rest

/-- Attaches a value to the end of a span that is recorded. -/
def OpenSpan.note (s : OpenSpan) (key value : String) : OpenSpan :=
  if s.level = .off then s else { s with extra := insertExtra key value s.extra }

end Journal

end Pascaline
