/-
Days of the Gregorian calendar, extended to all years.
-/

namespace Nearby.Time

/-! ## The calendar -/

/-- A year of 366 days. -/
def isLeapYear (year : Int) : Bool := year % 4 = 0 && (year % 100 ≠ 0 || year % 400 = 0)

/-- The number of days in a month, months counted from one. -/
def daysInMonth (year : Int) (month : Nat) : Nat :=
  if month = 2 then if isLeapYear year then 29 else 28
  else if month = 4 ∨ month = 6 ∨ month = 9 ∨ month = 11 then 30
  else 31

/-- The first and the last year that a date can have. -/
def yearRange : Int × Int := (-262143, 262142)

/-- The numbers name a day. -/
def isDay (year : Int) (month day : Nat) : Bool :=
  yearRange.1 ≤ year && year ≤ yearRange.2 && 1 ≤ month && month ≤ 12 && 1 ≤ day
    && day ≤ daysInMonth year month

/-- A day of the calendar. -/
structure Date where
  year : Int
  month : Nat
  day : Nat
  isDay : isDay year month day = true
  deriving DecidableEq, Repr

namespace Date

/-- The date with the given numbers, if they name a day. -/
def ofNumbers (year : Int) (month day : Nat) : Option Date :=
  if h : Time.isDay year month day = true then some ⟨year, month, day, h⟩ else none

/-- The day after, unless the calendar ends. -/
def next (d : Date) : Option Date :=
  if d.day < daysInMonth d.year d.month then ofNumbers d.year d.month (d.day + 1)
  else if d.month < 12 then ofNumbers d.year (d.month + 1) 1
  else ofNumbers (d.year + 1) 1 1

/-- The day before, unless the calendar begins. -/
def previous (d : Date) : Option Date :=
  if 1 < d.day then ofNumbers d.year d.month (d.day - 1)
  else if 1 < d.month then ofNumbers d.year (d.month - 1) (daysInMonth d.year (d.month - 1))
  else ofNumbers (d.year - 1) 12 31

end Date

end Nearby.Time
