/-
Where branches come from. A source answers four kinds of fetch, may fail, and may change its
state on the way. What a fetch asks for is a condition on branches.
-/
import Nearby.Branch.Basic

namespace Nearby

open Geo

/-! ## Fetches -/

/-- A request for a part of the dataset. -/
inductive Fetch where
  | all
  | active
  | approximate (center : Point) (radius : Float)
  | box (bounds : Box)

/-- The branch belongs to what the fetch asks for. An approximate radius asks for the whole
envelope of the circle. -/
def Fetch.admits [Trigonometry] : Fetch → Branch → Bool
  | all, _ => true
  | active, b => b.status = .active
  | approximate center radius, b =>
    (Envelope.covering center.coordinates radius).contains b.location.coordinates
  | box bounds, b => bounds.contains b.location

/-! ## Sources -/

/-- The answer to a fetch, with the state after it. -/
abbrev Answer (σ : Type) := Except Fault (List Branch) × σ

/-- A source of branches with states `σ`. -/
structure Source (σ : Type) where
  fetch : Fetch → σ → Answer σ

end Nearby
