/-
Places on the globe. A point carries the proof that its coordinates are in range, so whatever
holds one need not check again.
-/
import Nearby.Fault
import Nearby.Geo.Coordinates

namespace Nearby.Geo

/-! ## Points -/

/-- A place on the globe. -/
structure Point where
  coordinates : Coordinates Float
  onGlobe : coordinates.onGlobe = true

namespace Point

/-- The latitude in degrees. -/
def latitude (p : Point) : Float := p.coordinates.latitude

/-- The longitude in degrees. -/
def longitude (p : Point) : Float := p.coordinates.longitude

/-- The point at the given degrees. Numbers out of range, among them everything that is not a
number, are refused. -/
def ofDegrees (latitude longitude : Float) : Except Fault Point :=
  let c : Coordinates Float := ⟨latitude, longitude⟩
  if h : c.onGlobe = true then .ok ⟨c, h⟩ else .error (.invalidCoordinate c)

/-- The point in a message. -/
def text (p : Point) : String := p.coordinates.text

/-- Points are equal when their coordinates are, bit for bit. -/
instance : BEq Point := ⟨fun a b => a.coordinates.same b.coordinates⟩

end Point

end Nearby.Geo
