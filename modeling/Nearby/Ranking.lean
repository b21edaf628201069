/-
The order of hits: nearest first, and of equally near ones the smaller identifier first. The
order is total on all doubles, each not-a-number included, so ranking is defined whatever the
distances are.
-/
import Nearby.Filter

namespace Nearby

open Geo Decimal

variable {δ : Type} [Binary64 δ]

/-! ## The order -/

/-- Compares hits by distance in the total order of doubles, then by identifier. -/
def Hit.compare (a b : Hit δ) : Ordering :=
  (Ord.compare (totalKey a.distanceKm) (totalKey b.distanceKm)).then
    (Ord.compare a.branch.id b.branch.id)

/-- The first hit does not come after the second. -/
def Hit.notAfter (a b : Hit δ) : Bool := a.compare b != .gt

/-! ## Ranked lists -/

/-- The limit itself, unless it is zero. -/
def checkLimit (limit : Nat) : Except Fault Nat :=
  if limit = 0 then .error (.invalidQuery .zeroLimit) else .ok limit

/-- The first hits in order. Hits that compare equal keep the order they come in. -/
def topHits (hits : List (Hit δ)) (limit : Nat) : List (Hit δ) :=
  (hits.mergeSort Hit.notAfter).take limit

/-- The first hits in order, if any are asked for. -/
def rank (hits : List (Hit δ)) (limit : Nat) : Except Fault (List (Hit δ)) :=
  (checkLimit limit).map fun limit => topHits hits limit

/-- The candidates nearest to an origin, without bearings. -/
def rankNearest (origin : Point) (candidates : List Branch) (limit : Nat) :
    Except Fault (List Hit) :=
  rank (candidates.map (Hit.measure origin false)) limit

end Nearby
