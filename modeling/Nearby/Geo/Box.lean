/-
Rectangles of latitude and longitude, given by two corners. A box may be put together from any
two points; `Box.check` refuses one whose corners are the wrong way round.
-/
import Nearby.Geo.Envelope
import Nearby.Geo.Point

namespace Nearby.Geo

/-! ## Boxes -/

/-- A rectangle by its north-east and south-west corners. -/
structure Box where
  northEast : Point
  southWest : Point

namespace Box

/-- The box itself, unless the first corner is south or west of the second. The latitudes are
looked at first. -/
def check (b : Box) : Except Fault Box :=
  let ne := b.northEast.coordinates
  let sw := b.southWest.coordinates
  if ne.latitude < sw.latitude then .error (.invalidQuery (.southOf ne sw))
  else if ne.longitude < sw.longitude then .error (.invalidQuery (.westOf ne sw))
  else .ok b

/-- The box between two corners. -/
def ofCorners (northEast southWest : Point) : Except Fault Box :=
  check ⟨northEast, southWest⟩

/-- The point is in the box, edges included. -/
def contains (b : Box) (p : Point) : Bool :=
  Scalar.within b.southWest.latitude b.northEast.latitude p.latitude &&
    Scalar.within b.southWest.longitude b.northEast.longitude p.longitude

end Box

/-- The part of the globe that an envelope holds, as a box. -/
def Envelope.toBox (e : Envelope Float) : Except Fault Box := do
  let northEast ← Point.ofDegrees (Scalar.lesser e.maxLat 90) (Scalar.lesser e.maxLon 180)
  let southWest ← Point.ofDegrees (Scalar.greater e.minLat (-90)) (Scalar.greater e.minLon (-180))
  Box.ofCorners northEast southWest

end Nearby.Geo
