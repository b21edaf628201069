/-
The settings of the program: how to search, and where the data is.
-/
import Nearby.Search.Settings
import Nearby.Settings.Check

namespace Nearby

/-! ## Settings -/

/-- Where the data is, and whether a snapshot of it is kept. -/
structure DataSettings where
  path : String
  cache : Option Bool := none

/-- The settings of the program. -/
structure Settings where
  search : SearchSettings := {}
  data : Option DataSettings := none

namespace Settings

/-- The path of the data file, if the settings name one. -/
def dataPath (s : Settings) : Option String := s.data.map DataSettings.path

/-- A snapshot of the data is kept. -/
def keepsSnapshot (s : Settings) : Bool := (s.data.bind DataSettings.cache).getD false

/-- The greatest number of widening steps; past it a look at all branches costs less. -/
def mostSteps : Nat := 16

/-- The settings themselves, unless a value is out of bounds. The first one that is counts. -/
def check (s : Settings) : Except Fault Settings := do
  let _ ← Check.atLeast "search.max_results" s.search.maxResults 1
  let _ ← Check.finiteAbove "search.default_search_radius_km" s.search.radius 0
  let _ ← Check.finiteAbove "search.widening_factor" s.search.factor 1
  let _ ← Check.between toString "search.max_widening_steps" s.search.steps 0 mostSteps
  match s.data with
  | none => return s
  | some data =>
    let _ ← Check.path "data.path" data.path
    return s

end Settings

end Nearby
