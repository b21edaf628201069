/-
Branches, and what a search says about one: how far it is, and in which direction.
-/
import Nearby.Branch.Kind
import Nearby.Branch.Status
import Nearby.Geo.Box
import Nearby.Time.Timestamp

namespace Nearby

open Geo Time

/-! ## Branches -/

/-- A branch of the network. -/
structure Branch where
  id : String
  name : String
  location : Point
  kind : Kind
  address : String
  status : Status
  createdAt : Timestamp
  updatedAt : Timestamp

/-! ## Hits -/

/-- A branch as seen from the origin of a search, with doubles of the given type. -/
structure Hit (δ : Type := Float) where
  branch : Branch
  distanceKm : δ
  bearingDegrees : Option δ

namespace Hit

/-- The branch measured from an origin, with its bearing if it is asked for. -/
def measure [Trigonometry] (origin : Point) (withBearing : Bool) (branch : Branch) : Hit where
  branch := branch
  distanceKm := Geo.distanceKm origin.coordinates branch.location.coordinates
  bearingDegrees :=
    if withBearing then some (Geo.bearingDegrees origin.coordinates branch.location.coordinates)
    else none

end Hit

end Nearby
