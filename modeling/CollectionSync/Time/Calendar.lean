/-! The proleptic Gregorian calendar: days counted from 1970-01-01 and the date of each.
Years start in March inside the arithmetic, so that the leap day is the last of its year. -/

namespace CollectionSync

/-- A date of the proleptic Gregorian calendar. -/
structure CivilDate where
  year : Int
  month : Nat
  day : Nat
  deriving DecidableEq, Repr

namespace CivilDate

def isLeapYear (year : Int) : Bool :=
  year % 4 == 0 && (year % 100 != 0 || year % 400 == 0)

def daysInMonth (year : Int) (month : Nat) : Nat :=
  match month with
  | 2 => if isLeapYear year then 29 else 28
  | 4 | 6 | 9 | 11 => 30
  | _ => 31

/-- Years for which dates are kept. -/
def firstYear : Int := -262143
def lastYear : Int := 262142

def isValid (d : CivilDate) : Bool :=
  firstYear ≤ d.year && d.year ≤ lastYear && 1 ≤ d.month && d.month ≤ 12 &&
    1 ≤ d.day && d.day ≤ daysInMonth d.year d.month

/-- Months since the March that opens the year. -/
def monthFromMarch (month : Nat) : Nat := (month + 9) % 12

/-- The year whose March comes last before the date. -/
def marchYear (d : CivilDate) : Int := if d.month ≤ 2 then d.year - 1 else d.year

/-- Days since 1970-01-01. -/
def dayNumber (d : CivilDate) : Int :=
  365 * d.marchYear + d.marchYear / 4 - d.marchYear / 100 + d.marchYear / 400
    + ((153 * monthFromMarch d.month + 2) / 5 + d.day : Nat) - 719469

/-- The date that lies `n` days after 1970-01-01. -/
def ofDayNumber (n : Int) : CivilDate :=
  let shifted := n + 719468
  let era := shifted / 146097
  let dayOfEra := (shifted % 146097).toNat
  let yearOfEra :=
    (dayOfEra - dayOfEra / 1460 + dayOfEra / 36524 - dayOfEra / 146096) / 365
  let dayOfYear := dayOfEra - (365 * yearOfEra + yearOfEra / 4 - yearOfEra / 100)
  let monthIndex := (5 * dayOfYear + 2) / 153
  let month := if monthIndex < 10 then monthIndex + 3 else monthIndex - 9
  { year := yearOfEra + era * 400 + (if month ≤ 2 then 1 else 0)
    month
    day := dayOfYear - (153 * monthIndex + 2) / 5 + 1 }

/-- Days since Monday. -/
def weekday (d : CivilDate) : Nat := ((d.dayNumber + 3) % 7).toNat

end CivilDate

end CollectionSync
