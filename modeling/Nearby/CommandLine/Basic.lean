/-
The command line of the program: options for all commands, then a command with its own.
-/
import Nearby.Branch.Kind
import Nearby.Branch.Status
import Nearby.CommandLine.Arguments
import Nearby.Decimal.Numeral
import Nearby.Geo.Coordinates
import Nearby.Settings.Check

namespace Nearby

open Geo CommandLine

/-! ## Commands -/

/-- What the program is asked to do. Places are as given and may be off the globe. -/
inductive Command where
  /-- Nearest eligible branches, closest first. -/
  | nearest (origin : Coordinates Float) (limit : Nat) (kinds : List Kind)
  /-- Eligible branches within a radius, closest first. -/
  | radius (origin : Coordinates Float) (radius : Float) (kinds : List Kind) (limit : Nat)
  /-- Eligible branches in a rectangle. -/
  | box (northEast southWest : Coordinates Float)
  /-- Distance and bearing between two places. -/
  | distance (start finish : Coordinates Float)

/-- The command looks at branches. -/
def Command.needsData : Command → Bool
  | distance _ _ => false
  | _ => true

/-- A command with the options that hold for all commands. -/
structure Invocation where
  data : Option String
  config : Option String
  status : List Status
  bearing : Bool
  verbose : Bool
  jsonLogs : Bool
  command : Command

namespace Invocation

/-! ## Options -/

/-- The greatest count that an option takes. -/
def mostCount : Nat := Decimal.twoTo 64 - 1

/-- An option for a coordinate, which may be negative. -/
def coordinateOption (name : String) : OptionSpec :=
  { name, shape := .single, dashes := true, accepts := fun s => (Decimal.readFloat s).isSome }

/-- An option for a number. -/
def numberOption (name : String) : OptionSpec :=
  { name, shape := .single, accepts := fun s => (Decimal.readFloat s).isSome }

/-- An option for a count. -/
def countOption (name : String) : OptionSpec :=
  { name, shape := .single, accepts := fun s => (Decimal.readBounded mostCount s).isSome }

/-- The option for kinds of branch. -/
def kindsOption : OptionSpec :=
  { name := "types", shape := .list, accepts := fun s => (Kind.read s).toBool }

/-- The options for all commands. -/
def commonLevel : Level where
  options :=
    [{ name := "data", shape := .single }, { name := "config", shape := .single },
      { name := "status", shape := .list, accepts := fun s => (Status.read s).toBool },
      { name := "bearing", shape := .flag }, { name := "verbose", shape := .flag },
      { name := "json-logs", shape := .flag }]
  commands := ["nearest", "radius", "box", "distance", "help"]

/-- The options of each command. -/
def commandLevel (command : String) : Level where
  options :=
    if command = "nearest" then
      ["lat", "lon"].map coordinateOption ++ [countOption "limit", kindsOption]
    else if command = "radius" then
      ["lat", "lon"].map coordinateOption ++
        [numberOption "radius-km", kindsOption, countOption "limit"]
    else if command = "box" then ["ne-lat", "ne-lon", "sw-lat", "sw-lon"].map coordinateOption
    else ["from-lat", "from-lon", "to-lat", "to-lon"].map coordinateOption

/-! ## Values -/

/-- A number that has to be given. -/
def number (g : Given) (name : String) : Option Float := (g.valueOf name).bind Decimal.readFloat

/-- A place that has to be given, by the names of its two options. -/
def place (g : Given) (latitude longitude : String) : Option (Coordinates Float) := do
  return ⟨← number g latitude, ← number g longitude⟩

/-- The limit, or another one where none is given. -/
def limit (g : Given) (default : Nat) : Nat :=
  ((g.valueOf "limit").bind (Decimal.readBounded mostCount)).getD default

/-- The kinds that are named. -/
def kinds (g : Given) : List Kind := (g.valuesOf "types").filterMap fun s => (Kind.read s).toOption

/-- The statuses that are named. -/
def statuses (g : Given) : List Status :=
  (g.valuesOf "status").filterMap fun s => (Status.read s).toOption

/-- The command that the options of its level make up, unless one that it needs is missing. -/
def commandOf (command : String) (g : Given) : Option Command :=
  if command = "nearest" then do return .nearest (← place g "lat" "lon") (limit g 5) (kinds g)
  else if command = "radius" then do
    return .radius (← place g "lat" "lon") (← number g "radius-km") (kinds g) (limit g 100)
  else if command = "box" then do
    return .box (← place g "ne-lat" "ne-lon") (← place g "sw-lat" "sw-lon")
  else do return .distance (← place g "from-lat" "from-lon") (← place g "to-lat" "to-lon")

/-! ## Reading -/

/-- Help is shown for the program or for one of its commands. -/
def readHelp : List String → Refusal
  | [] => .help
  | [command] => if commonLevel.commands.contains command then .help else .misuse
  | _ => .misuse

/-- The command that the arguments after its name make up. -/
def readCommand (command : String) (args : List String) : Except Refusal Command := do
  let (given, _) ← (commandLevel command).readArguments {} args
  let given ← given.settle
  match commandOf command given with
  | some command => return command
  | none => .error .misuse

/-- The invocation that arguments make up. The path of the data may come from elsewhere when no
argument gives it. -/
def read (otherData : Option String) (args : List String) : Except Refusal Invocation := do
  match ← commonLevel.readArguments {} args with
  | (_, none) => .error .misuse
  | (given, some (name, rest)) =>
    if name = "help" then .error (readHelp rest)
    else
      let command ← readCommand name rest
      let given ← given.settle
      return {
        data := given.valueOf "data" <|> otherData
        config := given.valueOf "config"
        status := statuses given
        bearing := given.has "bearing"
        verbose := given.has "verbose"
        jsonLogs := given.has "json-logs"
        command }

/-! ## Checking -/

/-- The invocation itself, unless one of its paths cannot be one. -/
def check (i : Invocation) : Except Fault Invocation := do
  if let some path := i.data then
    let _ ← Check.path "data" path
  if let some path := i.config then
    let _ ← Check.path "config" path
  return i

end Invocation

end Nearby
