/-
Great circles on a sphere of the earth's mean radius: the distance between two places by the
haversine formula, and the bearing at which the way to the other place starts.
-/
import Nearby.Geo.Coordinates

namespace Nearby.Geo

open Scalar

variable {α : Type} [Scalar α]

/-! ## Distance -/

/-- The earth's mean radius in kilometres. -/
def earthRadius : α := 6371

/-- The haversine of the angle between two places, up to rounding a number in `[0, 1]`. -/
def haversine (a b : Coordinates α) : α :=
  let lat₁ := radians a.latitude
  let lat₂ := radians b.latitude
  let dLat := lat₂ - lat₁
  let dLon := radians (b.longitude - a.longitude)
  squared (sin (dLat / 2)) + cos lat₁ * cos lat₂ * squared (sin (dLon / 2))

/-- The angle whose haversine is given, after rounding noise outside `[0, 1]` is cut off. -/
def angleOfHaversine (h : α) : α :=
  let h := clamp 0 1 h
  2 * arctan2 (sqrt h) (sqrt (1 - h))

/-- The great-circle distance in kilometres. It is exactly zero from a place to itself. -/
def distanceKm (a b : Coordinates α) : α :=
  if a.same b then 0 else earthRadius * angleOfHaversine (haversine a b)

/-- The great-circle distance in metres. -/
def distanceMeters (a b : Coordinates α) : α := distanceKm a b * 1000

/-! ## Bearing -/

/-- An angle in degrees from `[-180, 180]` turned into `[0, 360)`. -/
def compass (degrees : α) : α :=
  let turned := if lt degrees 0 then degrees + 360 else degrees
  if le 360 turned then 0 else turned

/-- The bearing in degrees, clockwise from north, at which the great circle to the second place
leaves the first. -/
def bearingDegrees (a b : Coordinates α) : α :=
  let lat₁ := radians a.latitude
  let lat₂ := radians b.latitude
  let dLon := radians (b.longitude - a.longitude)
  let east := sin dLon * cos lat₂
  let north := cos lat₁ * sin lat₂ - sin lat₁ * cos lat₂ * cos dLon
  compass (degrees (arctan2 east north))

end Nearby.Geo
