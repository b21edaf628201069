/-
The program: an invocation is carried out against a host, which knows the files, the variables and
the time, and comes to an outcome.
-/
import Nearby.CommandLine.Basic
import Nearby.Dataset.Reader
import Nearby.Json.Printer
import Nearby.Search.Queries
import Nearby.Settings.Document
import Nearby.Store.Cache
import Nearby.Store.Memory

namespace Nearby

open Geo Time

/-! ## Hosts and outcomes -/

/-- What the program asks of its surroundings. -/
structure Host (m : Type → Type) where
  /-- The text of a file. -/
  fileText : String → m (Except Fault String)
  /-- The value of a variable. -/
  valueOf : String → m (Option String)
  /-- The time. -/
  now : m Timestamp

/-- How a run of the program ends. -/
structure Outcome where
  status : Nat
  output : String
  complaint : List String

namespace Program

variable {m : Type → Type} [Monad m]

/-! ## Parts of a run -/

/-- The values of the given variables. -/
def valuesOf (host : Host m) : List String → m (List (String × String))
  | [] => pure []
  | name :: rest => do
    let found ← host.valueOf name
    let others ← valuesOf host rest
    match found with
    | some value => pure ((name, value) :: others)
    | none => pure others

/-- The settings in a file. -/
def loadSettings (host : Host m) (path : String) : ExceptT Fault m Settings := do
  let text ← ExceptT.mk (host.fileText path)
  let values ← (valuesOf host (Text.placeholderNames text) : m (List (String × String)))
  ExceptT.mk (pure (Settings.read (fun name => values.lookup name) text))

/-- The settings of an invocation. -/
def settingsOf (host : Host m) (i : Invocation) : ExceptT Fault m Settings := do
  let settings ← match i.config with
    | some path => loadSettings host path
    | none => pure {}
  let bearing := i.bearing || settings.search.bearing
  ExceptT.mk (pure { settings with search := { settings.search with bearing } }.check)

/-- The branches in a data file. Each is made at the time that the clock shows then. -/
def loadBranches (host : Host m) (path : String) : ExceptT Fault m (List Branch) := do
  let format ← ExceptT.mk (pure (DataFormat.ofPath path))
  let text ← ExceptT.mk (host.fileText path)
  let records ← ExceptT.mk (pure (Dataset.records format text))
  records.mapM fun record => do
    let now ← host.now
    ExceptT.mk (pure (record.toBranch now))

/-! ## Answers -/

/-- A point for a place, if it is on the globe. -/
def pointAt (place : Coordinates Float) : Except Fault Point :=
  Point.ofDegrees place.latitude place.longitude

/-- Distance and bearing between two places. -/
def measureWay (style : Style) (start finish : Coordinates Float) : Except Fault Json := do
  let a ← pointAt start
  let b ← pointAt finish
  return .ofMembers
    [("bearing_degrees", style.numeral (bearingDegrees a.coordinates b.coordinates)),
      ("distance_km", style.numeral (distanceKm a.coordinates b.coordinates)),
      ("distance_meters", style.numeral (distanceMeters a.coordinates b.coordinates)),
      ("from", a.toJson style), ("to", b.toJson style)]

/-- The hits as an array. -/
def hitsJson (style : Style) (hits : List Hit) : Json := .array (hits.map (Hit.toJson style))

/-- The branches as an array. -/
def branchesJson (style : Style) (branches : List Branch) : Json :=
  .array (branches.map (Branch.toJson style))

/-- No kinds named means no restriction. -/
def kindFilter (kinds : List Kind) : Option (List Kind) :=
  if kinds.isEmpty then none else some kinds

/-- No statuses named means the active ones. -/
def statusFilter (statuses : List Status) : StatusFilter :=
  if statuses.isEmpty then .activeOnly else .oneOf statuses

/-- Puts a search to the dataset, behind a snapshot if the settings ask for one. -/
def answer {α : Type} (settings : Settings) (dataset : Memory) (search : Search α) :
    Except Fault α :=
  if settings.keepsSnapshot then
    let cache : Cache Memory := { inner := dataset }
    (search.run (Cache.source Memory.source) cache).1
  else (search.run Memory.source dataset).1

/-- The answer to a command that looks at branches. -/
def query (style : Style) (settings : Settings) (dataset : Memory) (status : StatusFilter) :
    Command → Except Fault Json
  | .nearest place limit kinds => do
    let origin ← pointAt place
    return hitsJson style (← answer settings dataset
      (.nearest settings.search origin (kindFilter kinds) limit status))
  | .radius place radius kinds limit => do
    let origin ← pointAt place
    let request : Query :=
      { origin, limit, radius := some radius, kinds := kindFilter kinds, status }
    return hitsJson style (← answer settings dataset (.matching settings.search request))
  | .box northEast southWest => do
    let bounds ← Box.ofCorners (← pointAt northEast) (← pointAt southWest)
    return branchesJson style (← answer settings dataset (.inBox bounds status))
  | .distance start finish => measureWay style start finish

/-- The answer to an invocation. Distances need no data. -/
def run (host : Host m) (style : Style) (i : Invocation) : ExceptT Fault m Json := do
  let i ← ExceptT.mk (pure i.check)
  let settings ← settingsOf host i
  match i.command with
  | .distance start finish => ExceptT.mk (pure (measureWay style start finish))
  | command =>
    let path ← ExceptT.mk (pure (Check.present "data" (i.data <|> settings.dataPath)))
    let branches ← loadBranches host path
    let dataset ← ExceptT.mk (pure (Memory.ofBranches branches))
    ExceptT.mk (pure (query style settings dataset (statusFilter i.status) command))

/-! ## Outcomes -/

/-- The outcome for an answer or a fault. -/
def outcome : Except Fault Json → Outcome
  | .ok answer => ⟨0, answer.pretty ++ "\n", []⟩
  | .error fault =>
    ⟨fault.severity.exitStatus, "", ["❌ " ++ fault.friendlyMessage, "💡 " ++ fault.suggestion]⟩

/-- How the program is called. -/
def usage : String :=
  String.intercalate "\n"
    ["Find branches, ATMs and kiosks near a coordinate",
      "",
      "Usage: nearby [OPTIONS] <COMMAND>",
      "",
      "Commands:",
      "  nearest   --lat --lon [--limit 5] [--types A,B]",
      "  radius    --lat --lon --radius-km [--types A,B] [--limit 100]",
      "  box       --ne-lat --ne-lon --sw-lat --sw-lon",
      "  distance  --from-lat --from-lon --to-lat --to-lon",
      "",
      "Options:",
      "  --data PATH    branch data, a JSON array or CSV with a header row",
      "  --config PATH  settings in TOML",
      "  --status A,B   eligible statuses (default: ACTIVE)",
      "  --bearing      attach the bearing to every result",
      "  --verbose      verbose output",
      "  --json-logs    logs as JSON lines",
      ""]

/-- The variable that names the data file when no argument does. -/
def dataVariable : String := "BRANCH_LOCATOR_DATA"

/-- Runs the program with the given arguments. -/
def perform (host : Host m) (style : Style) (args : List String) : m Outcome := do
  match Invocation.read (← host.valueOf dataVariable) args with
  | .error .help => return ⟨0, usage, []⟩
  | .error .misuse => return ⟨2, "", [usage]⟩
  | .ok i => return outcome (← (run host style i).run)

end Program

end Nearby
