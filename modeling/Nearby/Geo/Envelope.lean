/-
Ranges of latitude and longitude around a centre. An envelope is not clamped to the globe, so it
shows when a circle reaches over a pole or the antimeridian.
-/
import Nearby.Geo.Sphere

namespace Nearby.Geo

open Scalar

/-! ## Envelopes -/

/-- A range of latitudes and a range of longitudes, in degrees. -/
structure Envelope (α : Type) where
  minLat : α
  minLon : α
  maxLat : α
  maxLon : α
  deriving Repr

namespace Envelope

variable {α : Type} [Scalar α]

/-- The place lies in both ranges, edges included. -/
def contains (e : Envelope α) (c : Coordinates α) : Bool :=
  within e.minLat e.maxLat c.latitude && within e.minLon e.maxLon c.longitude

/-- Neither range leaves the globe. -/
def isWithinGlobe (e : Envelope α) : Bool :=
  le (-90) e.minLat && le e.maxLat 90 && le (-180) e.minLon && le e.maxLon 180

/-- The envelope that reaches the given numbers of degrees to each side of a centre. -/
def around (center : Coordinates α) (latDelta lonDelta : α) : Envelope α where
  minLat := center.latitude - latDelta
  minLon := center.longitude - lonDelta
  maxLat := center.latitude + latDelta
  maxLon := center.longitude + lonDelta

/-! ## Circles -/

/-- An approximate envelope of a circle: 111 kilometres to a degree, the degrees of longitude
widened by the cosine of the centre's latitude. At a pole every longitude counts. -/
def approximate (center : Coordinates α) (radius : α) : Envelope α :=
  let latDelta := radius * (1 / 111)
  let shrink := abs (cos (radians center.latitude))
  let lonDelta := if lt shrink (1 / 4503599627370496) then 360 else latDelta / shrink
  around center latDelta lonDelta

/-- A margin in degrees, about a tenth of a millimetre, that outweighs rounding. -/
def margin : α := 1 / 1000000000

/-- An envelope that holds the whole circle wherever it stays within the globe. The widest
longitude of a circle is reached off the centre's latitude, where the great circle through the
pole touches it. A circle over a pole takes every longitude. -/
def covering (center : Coordinates α) (radius : α) : Envelope α :=
  let angle := radius / earthRadius
  let latDelta := degrees angle + margin
  let overPole := le (center.latitude - latDelta) (-90) || le 90 (center.latitude + latDelta)
  let lonDelta :=
    if overPole then 360
    else degrees (arcsin (lesser (sin angle / cos (radians center.latitude)) 1)) + margin
  around center latDelta lonDelta

end Envelope

end Nearby.Geo
