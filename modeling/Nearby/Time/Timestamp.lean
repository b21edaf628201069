/-
Moments in universal time. A moment is a day and a clock reading; second sixty is a leap second.
A local reading becomes a moment by taking its offset off.
-/
import Nearby.Time.Date

namespace Nearby.Time

/-! ## Moments -/

/-- A moment in universal time, exact to the nanosecond. -/
structure Timestamp where
  date : Date
  hour : Fin 24
  minute : Fin 60
  second : Fin 61
  nano : Fin 1000000000
  deriving DecidableEq, Repr

namespace Timestamp

/-- The minutes of a day. -/
def minutesPerDay : Int := 24 * 60

/-- The moment at the same day with the given number of minutes since midnight. -/
def atMinute (t : Timestamp) (minutes : Int) : Timestamp :=
  { t with
    hour := ⟨minutes.toNat / 60 % 24, by omega⟩
    minute := ⟨minutes.toNat % 60, by omega⟩ }

/-- The moment that a local reading names, where local time is ahead by the given minutes, less
than a day either way. There is none past the ends of the calendar. -/
def takeOffset (t : Timestamp) (offset : Int) : Option Timestamp :=
  let minutes : Int := t.hour * 60 + t.minute - offset
  if minutes < 0 then
    t.date.previous.map fun day => { t with date := day }.atMinute (minutes + minutesPerDay)
  else if minutesPerDay ≤ minutes then
    t.date.next.map fun day => { t with date := day }.atMinute (minutes - minutesPerDay)
  else some (t.atMinute minutes)

end Timestamp

end Nearby.Time
