/-
Doubles written with a fixed number of places. The exact value is rounded to the grid, a tie
going to the even neighbour, and all digits are written however large the value is.
-/
import Nearby.Decimal.Binary

namespace Nearby.Decimal

/-! ## Rounding a quotient -/

/-- `num / den` rounded to the nearest integer, ties to even. -/
def roundHalfEven (num den : Nat) : Nat :=
  let q := num / den
  let r := num % den
  if 2 * r < den then q
  else if den < 2 * r then q + 1
  else if q % 2 = 0 then q else q + 1

/-! ## Layout -/

/-- The decimal digits of a natural number. -/
def digits (n : Nat) : List Char := Nat.toDigits 10 n

/-- The digits of `n`, with zeros in front up to the given width. -/
def paddedDigits (width n : Nat) : List Char :=
  List.replicate (width - (digits n).length) '0' ++ digits n

/-- The number `n / 10 ^ places` written out: at least one digit, the point, `places` digits. -/
def placedText (places n : Nat) : String :=
  let ds := paddedDigits (places + 1) n
  let whole := ds.take (ds.length - places)
  let part := ds.drop (ds.length - places)
  if places = 0 then .ofList whole else .ofList (whole ++ '.' :: part)

/-- A double with the given number of places. The sign of a negative zero stays, also when a
negative value rounds to zero. -/
def fixed (places : Nat) (x : Float) : String :=
  match Double.ofFloat x with
  | .nan => "NaN"
  | .infinite negative => signText negative ++ "inf"
  | .finite d =>
    let (num, den) := d.quotientAt (-places)
    signText d.negative ++ placedText places (roundHalfEven num den)

end Nearby.Decimal
