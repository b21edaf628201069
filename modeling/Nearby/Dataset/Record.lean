/-
Records of a data file. A record is what a file says about one branch, with the parts that may be
left out; it becomes a branch when its coordinates are on the globe. Whatever its format, a file
gives a record as entries, one after another, each a value under a key. The first entry that
cannot be part of a record is its flaw, and if there is none the first field that is missing.
-/
import Nearby.Branch.Document

namespace Nearby

open Geo Time

/-! ## Records -/

/-- What a data file says about one branch. -/
structure Record where
  id : String
  name : String
  place : Coordinates Float
  kind : Kind
  address : String
  status : Status
  createdAt : Option Timestamp
  updatedAt : Option Timestamp

/-- The branch of a record. What was never created was created now, and what was never updated
was last updated when it was created. -/
def Record.toBranch (now : Timestamp) (r : Record) : Except Fault Branch :=
  (Point.ofDegrees r.place.latitude r.place.longitude).map fun location =>
    let createdAt := r.createdAt.getD now
    { id := r.id, name := r.name, location, kind := r.kind, address := r.address,
      status := r.status, createdAt, updatedAt := r.updatedAt.getD createdAt }

/-! ## Fields -/

/-- The fields of a record. -/
inductive Field where
  | id
  | name
  | latitude
  | longitude
  | kind
  | address
  | status
  | createdAt
  | updatedAt
  deriving DecidableEq, Repr

namespace Field

/-- The fields in order. -/
def all : List Field :=
  [.id, .name, .latitude, .longitude, .kind, .address, .status, .createdAt, .updatedAt]

/-- The key of a field. -/
def key : Field → String
  | id => "id"
  | name => "name"
  | latitude => "latitude"
  | longitude => "longitude"
  | kind => "type"
  | address => "address"
  | status => "status"
  | createdAt => "created_at"
  | updatedAt => "updated_at"

/-- The field with a key. -/
def ofKey (key : String) : Option Field := all.find? fun field => field.key = key

/-- The value of the field is one of several names. -/
def isChoice : Field → Bool
  | kind | status => true
  | _ => false

end Field

/-! ## Values -/

/-- How a format reads the values of a record. -/
structure Decoder (α : Type) where
  text : α → Option String
  number : α → Option Float
  kind : α → Option Kind
  status : α → Option Status
  moment : α → Option (Option Timestamp)

namespace Decoder

/-- A moment may be null. -/
def json : Decoder Json :=
  ⟨Json.text?, Json.float?, Json.choice Kind.ofName, Json.choice Status.ofName,
    Json.nullable Timestamp.ofJson⟩

/-- A moment in a cell, where an empty cell names none. -/
def cellMoment (cell : String) : Option (Option Timestamp) :=
  if cell.isEmpty then some none else (Timestamp.read cell).map some

/-- A cell is a text as it stands. -/
def cell : Decoder String :=
  ⟨some, Decimal.readFloat, Kind.ofName, Status.ofName, cellMoment⟩

/-- The field may have the value. -/
def accepts {α : Type} (decoder : Decoder α) (field : Field) (value : α) : Bool :=
  match field with
  | .id | .name | .address => (decoder.text value).isSome
  | .latitude | .longitude => (decoder.number value).isSome
  | .kind => (decoder.kind value).isSome
  | .status => (decoder.status value).isSome
  | .createdAt | .updatedAt => (decoder.moment value).isSome

end Decoder

namespace Record

/-! ## Records from entries -/

section Entries

variable {α β : Type} (decoder : Decoder α)

/-- Enters a value under its key, after those that are given already. Keys of other names are
passed over. -/
def enter (given : List (Field × α)) :
    Option String × α → Except RecordFlaw (List (Field × α))
  | (none, _) => .error .form
  | (some key, value) =>
    match Field.ofKey key with
    | none => .ok given
    | some field =>
      if (given.lookup field).isSome then .error (.repeated key)
      else if decoder.accepts field value then .ok ((field, value) :: given)
      else .error (.invalid key)

/-- The value of a field, if it is given. -/
def value? (read : α → Option β) (given : List (Field × α)) (field : Field) : Option β :=
  (given.lookup field).bind read

/-- The value of a field that must be given. -/
def required (read : α → Option β) (given : List (Field × α)) (field : Field) :
    Except RecordFlaw β :=
  match value? read given field with
  | some value => .ok value
  | none => .error (.missing field.key)

/-- The record that has the given values. -/
def ofGiven (given : List (Field × α)) : Except RecordFlaw Record := do
  return {
    id := ← required decoder.text given .id
    name := ← required decoder.text given .name
    place := ⟨← required decoder.number given .latitude,
      ← required decoder.number given .longitude⟩
    kind := ← required decoder.kind given .kind
    address := (value? decoder.text given .address).getD ""
    status := (value? decoder.status given .status).getD .active
    createdAt := (value? decoder.moment given .createdAt).getD none
    updatedAt := (value? decoder.moment given .updatedAt).getD none }

/-- The record that the entries describe. -/
def ofEntries (entries : List (Option String × α)) : Except RecordFlaw Record :=
  entries.foldlM (enter decoder) [] >>= ofGiven decoder

end Entries

/-! ## Records of the two formats -/

/-- The entries of an object are its members, and those of an array its items, which have the keys
of the fields in order. -/
def entries? : Json → Option (List (Option String × Json))
  | .object members => some (members.map fun (key, value) => ((Json.string key).text?, value))
  | .array items => some (items.mapIdx fun i value => (Field.all[i]?.map Field.key, value))
  | _ => none

/-- The record that a document describes. -/
def ofJson (j : Json) : Except RecordFlaw Record :=
  match entries? j with
  | none => .error .form
  | some entries => ofEntries .json entries

/-- The record that a row of cells describes, by the names of their columns. -/
def ofCells (header row : List String) : Except RecordFlaw Record :=
  ofEntries .cell ((header.map some).zip row)

end Record

end Nearby
