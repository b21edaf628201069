/-
Settings in TOML. Placeholders in the text are filled in first. What the document does not say
keeps its default, and what it says beyond the settings is passed over.
-/
import Nearby.Settings.Basic
import Nearby.Text.Template
import Nearby.Toml.Reader

namespace Nearby

namespace Toml

/-! ## Single values -/

/-- The count that a value is, up to a bound. -/
def count? (most : Nat) : Toml → Option Nat
  | integer n => if 0 ≤ n ∧ n ≤ most then some n.toNat else none
  | _ => none

/-- The double that a value is. An integer counts as one while it has a sixty-four bit form. -/
def float? : Toml → Option Float
  | float x => some x
  | integer n =>
    if -(Decimal.twoTo 63 : Int) ≤ n ∧ n < Decimal.twoTo 64 then
      some (Decimal.signed (n < 0) n.natAbs.toUInt64.toFloat)
    else none
  | _ => none

/-- The truth value that a value is. -/
def bool? : Toml → Option Bool
  | bool b => some b
  | _ => none

/-- The text that a value is. -/
def text? : Toml → Option String
  | string s => some s
  | _ => none

/-! ## Records -/

/-- The known fields of a record: those of a table by name, those of an array by position. What a
table has beyond them must at least be representable. A moment is a record without any of them. -/
def fields (names : List String) : Toml → Option Entries
  | table _ entries =>
    if entriesRepresentable (entries.filter fun entry => ! names.contains entry.1) then
      some (entries.filter fun entry => names.contains entry.1)
    else none
  | array items => some (names.zip items)
  | tables items => some (names.zip items)
  | moment => some []
  | _ => none

/-- The value of a field that may be absent. -/
def optional {α : Type} (read : Toml → Option α) (fields : Entries) (name : String) :
    Option (Option α) :=
  match fields.lookup name with
  | none => some none
  | some value => (read value).map some

/-- The value of a field, or another one where it is absent. -/
def withDefault {α : Type} (read : Toml → Option α) (default : α) (fields : Entries)
    (name : String) : Option α :=
  (optional read fields name).map fun found => found.getD default

end Toml

/-! ## Settings -/

/-- The fields of the search settings, in order. -/
def SearchSettings.fieldNames : List String :=
  ["max_results", "default_search_radius_km", "widening_factor", "max_widening_steps",
    "include_bearing"]

/-- The search settings that a value describes. -/
def SearchSettings.ofToml (value : Toml) : Option SearchSettings := do
  let given ← value.fields fieldNames
  let standard : SearchSettings := {}
  return {
    maxResults := ←
      Toml.withDefault (Toml.count? (Decimal.twoTo 64 - 1)) standard.maxResults given "max_results"
    radius := ← Toml.withDefault Toml.float? standard.radius given "default_search_radius_km"
    factor := ← Toml.withDefault Toml.float? standard.factor given "widening_factor"
    steps := ←
      Toml.withDefault (Toml.count? (Decimal.twoTo 32 - 1)) standard.steps given
        "max_widening_steps"
    bearing := ← Toml.withDefault Toml.bool? standard.bearing given "include_bearing" }

/-- The fields of the data settings, in order. -/
def DataSettings.fieldNames : List String := ["path", "cache"]

/-- The value is written by position, so that it has all fields or is incomplete. -/
def Toml.isPositional : Toml → Bool
  | array _ | tables _ => true
  | _ => false

/-- The data settings that a value describes. -/
def DataSettings.ofToml (value : Toml) : Option DataSettings := do
  let given ← value.fields fieldNames
  if value.isPositional ∧ given.length < fieldNames.length then none
  let path ← (given.lookup "path").bind Toml.text?
  return { path, cache := ← Toml.optional Toml.bool? given "cache" }

namespace Settings

/-- The sections of the settings. -/
def sectionNames : List String := ["search", "data"]

/-- The settings that the entries of a document describe. -/
def ofEntries (entries : Toml.Entries) : Option Settings := do
  let given ← (Toml.table .header entries).fields sectionNames
  return {
    search := ← Toml.withDefault SearchSettings.ofToml {} given "search"
    data := ← Toml.optional DataSettings.ofToml given "data" }

/-- The settings that a text describes, with the given values for its placeholders. -/
def read (valueOf : String → Option String) (text : String) : Except Fault Settings :=
  match (Toml.read (Text.fill valueOf text)).bind ofEntries with
  | some settings => .ok settings
  | none =>
    .error (.badSettings "toml_parsing"
      "TOML parsing error: the text does not describe the settings")

end Settings

end Nearby
