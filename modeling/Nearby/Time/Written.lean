/-
The written form of a moment: `2024-02-29T12:34:56.789Z`. A fraction has three, six or nine
digits, the fewest that lose nothing, and is left out where it is zero. Years before 0 and after
9999 carry a sign.
-/
import Nearby.Decimal.Fixed
import Nearby.Time.Timestamp

namespace Nearby.Time

open Decimal (paddedDigits)

/-! ## The written form -/

/-- A year: four digits from 0 to 9999, a sign and at least four digits elsewhere. -/
def yearChars (year : Int) : List Char :=
  if 0 ≤ year ∧ year ≤ 9999 then paddedDigits 4 year.toNat
  else (if year < 0 then '-' else '+') :: paddedDigits 4 year.natAbs

/-- A fraction of a second with its point. -/
def fractionChars (nano : Nat) : List Char :=
  if nano = 0 then []
  else if nano % 1000000 = 0 then '.' :: paddedDigits 3 (nano / 1000000)
  else if nano % 1000 = 0 then '.' :: paddedDigits 6 (nano / 1000)
  else '.' :: paddedDigits 9 nano

/-- The written form of a day. -/
def Date.chars (d : Date) : List Char :=
  yearChars d.year ++ '-' :: paddedDigits 2 d.month ++ '-' :: paddedDigits 2 d.day

/-- The characters of a moment's written form. -/
def Timestamp.chars (t : Timestamp) : List Char :=
  t.date.chars ++ 'T' :: paddedDigits 2 t.hour ++ ':' :: paddedDigits 2 t.minute
    ++ ':' :: paddedDigits 2 t.second ++ fractionChars t.nano ++ ['Z']

/-- The written form of a moment. -/
def Timestamp.text (t : Timestamp) : String := .ofList t.chars

end Nearby.Time
