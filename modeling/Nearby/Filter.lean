/-
The filters of a query. A branch matches when every filter that is present lets it through.
-/
import Nearby.Branch.Basic

namespace Nearby

open Geo

/-! ## Radius -/

/-- The radius itself, unless it is infinite, not a number, or not above zero. -/
def checkRadius (radius : Float) : Except Fault Float :=
  if ! radius.isFinite || radius ≤ 0 then .error (.invalidQuery (.badRadius radius))
  else .ok radius

/-- The point is at most the radius away from the centre. -/
def withinRadius [Trigonometry] (point center : Point) (radius : Float) : Except Fault Bool :=
  (checkRadius radius).map fun radius =>
    decide (distanceKm point.coordinates center.coordinates ≤ radius)

/-! ## Kinds -/

/-- The set of kinds itself, unless it is empty. -/
def checkKinds (kinds : List Kind) : Except Fault (List Kind) :=
  if kinds.isEmpty then .error (.invalidQuery .noKinds) else .ok kinds

/-! ## Filters together -/

/-- The filters on status, kind and box. An absent one lets everything through. -/
structure Filter where
  status : StatusFilter := .activeOnly
  kinds : Option (List Kind) := none
  box : Option Box := none

namespace Filter

/-- The status filter lets the branch through. -/
def matchesStatus (f : Filter) (b : Branch) : Bool := f.status.allows b.status

/-- The set of kinds lets the branch through. An empty set restricts nothing. -/
def matchesKind (f : Filter) (b : Branch) : Bool :=
  match f.kinds with
  | some (kind :: kinds) => (kind :: kinds).contains b.kind
  | some [] => true
  | none => true

/-- The box lets the branch through. -/
def matchesBox (f : Filter) (b : Branch) : Bool := f.box.all fun box => box.contains b.location

/-- Every filter lets the branch through. -/
def holds (f : Filter) (b : Branch) : Bool :=
  f.matchesStatus b && f.matchesKind b && f.matchesBox b

end Filter

end Nearby
