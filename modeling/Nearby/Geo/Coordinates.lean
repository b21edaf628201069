/-
A latitude and a longitude in degrees, and the part of all such pairs that is on the globe.
-/
import Nearby.Decimal.Fixed
import Nearby.Geo.Scalar

namespace Nearby.Geo

/-! ## Pairs of degrees -/

/-- A latitude and a longitude in degrees. -/
structure Coordinates (α : Type) where
  latitude : α
  longitude : α
  deriving Repr

namespace Coordinates

variable {α : Type} [Scalar α]

/-- The latitude is in `[-90, 90]` and the longitude in `[-180, 180]`. -/
def onGlobe (c : Coordinates α) : Bool :=
  Scalar.within (-90) 90 c.latitude && Scalar.within (-180) 180 c.longitude

/-- The same latitude and longitude, representation for representation. -/
def same (a b : Coordinates α) : Bool :=
  Scalar.same a.latitude b.latitude && Scalar.same a.longitude b.longitude

/-- The pair in a message, with six places each. -/
def text (c : Coordinates Float) : String :=
  "(" ++ Decimal.fixed 6 c.latitude ++ ", " ++ Decimal.fixed 6 c.longitude ++ ")"

end Coordinates

end Nearby.Geo
