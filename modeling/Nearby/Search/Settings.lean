/-
The settings of the search engine.
-/

namespace Nearby

/-! ## Search settings -/

/-- How searches are carried out. -/
structure SearchSettings where
  /-- No ranked answer is longer. -/
  maxResults : Nat := 100
  /-- The first radius of a search for the nearest, in kilometres. -/
  radius : Float := 25
  /-- What the radius is multiplied by when too few branches are within it. -/
  factor : Float := 4
  /-- How often the radius is widened before all branches are looked at. -/
  steps : Nat := 3
  /-- Hits carry their bearings. -/
  bearing : Bool := false

namespace SearchSettings

/-- The greatest limit that is honoured; it is never zero. -/
def mostResults (s : SearchSettings) : Nat := max s.maxResults 1

end SearchSettings

end Nearby
