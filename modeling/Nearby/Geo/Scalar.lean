/-
The numbers that geodesy is written over. Distances, bearings and envelopes need the field
operations, a few trigonometric functions and comparisons, and nothing else, so they are stated
once for every such kind of number. Doubles are the kind that runs.
-/

namespace Nearby.Geo

/-! ## Numbers for geodesy -/

/-- Numbers with the operations of spherical trigonometry. -/
class Scalar (α : Type) extends Add α, Sub α, Mul α, Div α, Neg α where
  ofNat : Nat → α
  pi : α
  degreesPerRadian : α
  sin : α → α
  cos : α → α
  arcsin : α → α
  arctan2 : α → α → α
  sqrt : α → α
  abs : α → α
  le : α → α → Bool
  lt : α → α → Bool
  /-- Equality of representations, which for doubles tells `0.0` from `-0.0`. -/
  same : α → α → Bool

namespace Scalar

variable {α : Type} [Scalar α]

/-- Numerals stand for themselves in every kind of number. -/
instance (priority := low) {n : Nat} : OfNat α n := ⟨Scalar.ofNat n⟩

/-- Degrees as radians. -/
def radians (degrees : α) : α := degrees * (pi / 180)

/-- Radians as degrees. -/
def degrees (radians : α) : α := radians * degreesPerRadian

/-- The square. -/
def squared (x : α) : α := x * x

/-- The smaller of two numbers. What is not comparable to itself loses. -/
def lesser (x y : α) : α := if lt y x || ! le x x then y else x

/-- The greater of two numbers. What is not comparable to itself loses. -/
def greater (x y : α) : α := if lt x y || ! le x x then y else x

/-- The number moved into `[low, high]`. -/
def clamp (low high x : α) : α := if lt x low then low else if lt high x then high else x

/-- The number lies in `[low, high]`. -/
def within (low high x : α) : Bool := le low x && le x high

end Scalar

/-! ## Doubles -/

/-- The functions of trigonometry on doubles. Their last digits are the platform's own. -/
class Trigonometry where
  sin : Float → Float
  cos : Float → Float
  arcsin : Float → Float
  arctan2 : Float → Float → Float

/-- The functions of the platform at hand. -/
instance : Trigonometry where
  sin := Float.sin
  cos := Float.cos
  arcsin := Float.asin
  arctan2 := Float.atan2

instance [Trigonometry] : Scalar Float where
  ofNat := Float.ofNat
  pi := 3.141592653589793
  degreesPerRadian := 57.29577951308232
  sin := Trigonometry.sin
  cos := Trigonometry.cos
  arcsin := Trigonometry.arcsin
  arctan2 := Trigonometry.arctan2
  sqrt := Float.sqrt
  abs := Float.abs
  le x y := x ≤ y
  lt x y := x < y
  same x y := x.toBits == y.toBits

end Nearby.Geo
