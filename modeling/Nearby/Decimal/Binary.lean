/-
Doubles taken apart: a finite double is a sign and an exact dyadic magnitude
`mantissa * 2 ^ exponent`. All number text of the library is computed from this form in exact
integers.
-/

namespace Nearby.Decimal

/-! ## Powers -/

/-- A power of two. -/
def twoTo (n : Nat) : Nat := Nat.pow 2 n

/-- A power of ten. -/
def tenTo (n : Nat) : Nat := Nat.pow 10 n

/-! ## The parts of a double -/

/-- A finite double as sign and magnitude `mantissa * 2 ^ exponent`. -/
structure Dyadic where
  negative : Bool
  mantissa : Nat
  exponent : Int
  deriving DecidableEq, Repr

/-- What the bits of a double stand for. -/
inductive Double where
  | nan
  | infinite (negative : Bool)
  | finite (value : Dyadic)
  deriving DecidableEq, Repr

/-- Reads the sign, exponent and fraction fields of the sixty-four bits. -/
def Double.ofBits (bits : Nat) : Double :=
  let negative := decide (twoTo 63 ≤ bits)
  let biased := bits / twoTo 52 % twoTo 11
  let fraction := bits % twoTo 52
  if biased = twoTo 11 - 1 then
    if fraction = 0 then .infinite negative else .nan
  else if biased = 0 then
    .finite ⟨negative, fraction, -1074⟩
  else
    .finite ⟨negative, fraction + twoTo 52, (biased : Int) - 1075⟩

/-- The parts of a double. -/
def Double.ofFloat (x : Float) : Double := .ofBits x.toBits.toNat

/-- The sign as it is written: a minus or nothing. -/
def signText (negative : Bool) : String := if negative then "-" else ""

/-- The magnitude as a quotient of naturals. -/
def Dyadic.quotient (d : Dyadic) : Nat × Nat :=
  (d.mantissa * twoTo d.exponent.toNat, twoTo (-d.exponent).toNat)

/-- The magnitude over a power of ten, `mantissa * 2 ^ exponent / 10 ^ scale`, as a quotient of
naturals. -/
def Dyadic.quotientAt (d : Dyadic) (scale : Int) : Nat × Nat :=
  (d.quotient.1 * tenTo (-scale).toNat, d.quotient.2 * tenTo scale.toNat)

/-! ## An order on all doubles -/

/-- Doubles with their sixty-four bits. -/
class Binary64 (δ : Type) where
  bits : δ → UInt64

/-- Doubles to compute with, among which there is one not-a-number. -/
instance : Binary64 Float := ⟨Float.toBits⟩

/-- Doubles by nothing but their bits: every not-a-number, of either sign, is one of its own. -/
instance : Binary64 UInt64 := ⟨id⟩

/-- An integer key under which patterns of bits stand in the IEEE total order of what they spell:
negative values before positive ones, `-0.0` before `0.0`, infinities outside the finite values,
and the not-a-numbers of either sign outside its infinity. -/
def patternKey (bits : UInt64) : Int :=
  if bits.toNat < twoTo 63 then bits.toNat else (twoTo 63 : Int) - 1 - bits.toNat

/-- The key of a double. -/
def totalKey {δ : Type} [Binary64 δ] (x : δ) : Int := patternKey (Binary64.bits x)

end Nearby.Decimal
