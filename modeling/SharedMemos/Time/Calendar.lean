/-!
# Calendar dates

The proleptic Gregorian calendar: days counted from the first of January 1970, and the year, month
and day of a count. Years are counted from the first of March, so that a leap day ends a year.
-/

namespace SharedMemos.Calendar

/-- A day of the proleptic Gregorian calendar. -/
structure Date where
  year : Int
  /-- From 1 to 12. -/
  month : Nat
  /-- From 1 to 31. -/
  day : Nat
deriving Repr, DecidableEq

/-- Days from the first of March of the year zero to the first of January 1970. -/
def epochDay : Int := 719468

/-- Days in four hundred years. -/
def daysPerEra : Int := 146097

/-- Does the year have a leap day? -/
def isLeapYear (year : Int) : Bool :=
  year % 4 == 0 && (year % 100 != 0 || year % 400 == 0)

/-- How many days the month of a year has. -/
def daysInMonth (year : Int) (month : Nat) : Nat :=
  if month = 2 then (if isLeapYear year then 29 else 28)
  else if month = 4 ∨ month = 6 ∨ month = 9 ∨ month = 11 then 30
  else 31

/-- Is there such a day? -/
def Date.isValid (d : Date) : Bool :=
  decide (1 ≤ d.month) && decide (d.month ≤ 12) && decide (1 ≤ d.day)
    && decide (d.day ≤ daysInMonth d.year d.month)

/-- Days from the first of January 1970 to a date. -/
def Date.toDays (d : Date) : Int :=
  let year : Int := if d.month ≤ 2 then d.year - 1 else d.year
  let era := year.fdiv 400
  let yearOfEra := year - era * 400
  let month : Int := if d.month > 2 then d.month - 3 else d.month + 9
  let dayOfYear := (153 * month + 2) / 5 + d.day - 1
  let dayOfEra := yearOfEra * 365 + yearOfEra / 4 - yearOfEra / 100 + dayOfYear
  era * daysPerEra + dayOfEra - epochDay

/-- The date that is `n` days after the first of January 1970. -/
def Date.ofDays (n : Int) : Date :=
  let shifted := n + epochDay
  let era := shifted.fdiv daysPerEra
  let dayOfEra := shifted - era * daysPerEra
  let yearOfEra := (dayOfEra - dayOfEra / 1460 + dayOfEra / 36524 - dayOfEra / 146096) / 365
  let dayOfYear := dayOfEra - (365 * yearOfEra + yearOfEra / 4 - yearOfEra / 100)
  let month := (5 * dayOfYear + 2) / 153
  let day := (dayOfYear - (153 * month + 2) / 5 + 1).toNat
  let civilMonth := (if month < 10 then month + 3 else month - 9).toNat
  let year := yearOfEra + era * 400
  { year := if civilMonth ≤ 2 then year + 1 else year, month := civilMonth, day := day }

end SharedMemos.Calendar
