/-
Moments from a clock that counts seconds since the beginning of 1970. A day's date is found in
eras of four hundred years, in which years begin in March, so that a leap day comes last.
-/
import Nearby.Time.Timestamp

namespace Nearby.Time

/-! ## Dates from a count of days -/

/-- The days of four hundred years. -/
def daysPerEra : Int := 146097

/-- The days from the first of March of the year zero to the beginning of 1970. -/
def daysToEpoch : Int := 719468

/-- The year, month and day that is the given number of days after the beginning of 1970. -/
def numbersOfDay (days : Int) : Int × Nat × Nat :=
  let shifted := days + daysToEpoch
  let era := shifted.fdiv daysPerEra
  let dayOfEra := (shifted - era * daysPerEra).toNat
  let yearOfEra := (dayOfEra - dayOfEra / 1460 + dayOfEra / 36524 - dayOfEra / 146096) / 365
  let dayOfYear := dayOfEra - (365 * yearOfEra + yearOfEra / 4 - yearOfEra / 100)
  let fromMarch := (5 * dayOfYear + 2) / 153
  let day := dayOfYear - (153 * fromMarch + 2) / 5 + 1
  let month := if fromMarch < 10 then fromMarch + 3 else fromMarch - 9
  let year := yearOfEra + era * 400
  (if month ≤ 2 then year + 1 else year, month, day)

/-- The date that is the given number of days after the beginning of 1970. -/
def Date.ofDays (days : Int) : Option Date :=
  let (year, month, day) := numbersOfDay days
  ofNumbers year month day

/-! ## Moments from a count of nanoseconds -/

/-- The moment that is the given number of nanoseconds after the beginning of 1970. -/
def Timestamp.ofNanoseconds (nanoseconds : Int) : Option Timestamp :=
  let seconds := nanoseconds.fdiv 1000000000
  let ofDay := (seconds.fmod 86400).toNat
  (Date.ofDays (seconds.fdiv 86400)).map fun date =>
    { date
      hour := ⟨ofDay / 3600 % 24, by omega⟩
      minute := ⟨ofDay / 60 % 60, by omega⟩
      second := ⟨ofDay % 60, by omega⟩
      nano := ⟨(nanoseconds.fmod 1000000000).toNat % 1000000000, by omega⟩ }

end Nearby.Time
