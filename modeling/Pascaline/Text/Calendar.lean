import Pascaline.Text.Bytes

/-!
# Points in time

Seconds since the start of 1970 as a date of the Gregorian calendar, in universal time.
-/

namespace Pascaline

structure CalendarDate where
  year : Int
  month : Nat
  day : Nat
deriving Repr, DecidableEq

namespace CalendarDate

/-- The date so many days after the first of January 1970. A cycle of the calendar has 146097 days;
years are counted from March, so that a leap day comes last. -/
def ofDays (days : Int) : CalendarDate :=
  let z := days + 719468
  let cycle := Int.fdiv z 146097
  let dayOfCycle := (z - cycle * 146097).toNat
  let yearOfCycle := (dayOfCycle - dayOfCycle / 1460 + dayOfCycle / 36524 - dayOfCycle / 146096) / 365
  let dayOfYear := dayOfCycle - (365 * yearOfCycle + yearOfCycle / 4 - yearOfCycle / 100)
  let marchMonth := (5 * dayOfYear + 2) / 153
  let month := if marchMonth < 10 then marchMonth + 3 else marchMonth - 9
  { year := (yearOfCycle : Int) + cycle * 400 + (if month ≤ 2 then 1 else 0)
    month
    day := dayOfYear - (153 * marchMonth + 2) / 5 + 1 }

end CalendarDate

/-- The digits of a number, filled up with zeros in front. -/
def zeroPadded (width n : Nat) : String :=
  let digits := decimal n
  String.ofList (List.replicate (width - digits.length) '0') ++ digits

/-- A point in time, to the microsecond. -/
def timestamp (seconds micros : Int) : String :=
  let seconds := seconds + Int.fdiv micros 1000000
  let micros := (Int.fmod micros 1000000).toNat
  let days := Int.fdiv seconds 86400
  let rest := (Int.fmod seconds 86400).toNat
  let date := CalendarDate.ofDays days
  (if date.year < 0 then "-" else "") ++ zeroPadded 4 date.year.natAbs ++ "-" ++
    zeroPadded 2 date.month ++ "-" ++ zeroPadded 2 date.day ++ "T" ++
    zeroPadded 2 (rest / 3600) ++ ":" ++ zeroPadded 2 (rest / 60 % 60) ++ ":" ++
    zeroPadded 2 (rest % 60) ++ "." ++ zeroPadded 6 micros ++ "Z"

end Pascaline
