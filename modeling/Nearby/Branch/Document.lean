/-
Points, branches and hits as JSON documents. How numbers and moments are spelled is a style, so
that the same document can be written for other programs or with fixed places.
-/
import Nearby.Branch.Basic
import Nearby.Decimal.Shortest
import Nearby.Json.Reader
import Nearby.Json.Record
import Nearby.Time.Reader
import Nearby.Time.Written

namespace Nearby

open Geo Time

/-! ## Style -/

/-- How numbers and moments are spelled. -/
structure Style where
  number : Float → String
  moment : Timestamp → String

namespace Style

/-- Numbers by their shortest digits, moments in full. -/
def standard : Style := ⟨Decimal.document, Timestamp.text⟩

/-- A number as a document. -/
def numeral (style : Style) (x : Float) : Json := .ofNumeral (style.number x)

/-- A moment as a document. -/
def timestamp (style : Style) (t : Timestamp) : Json := .ofText (style.moment t)

end Style

/-! ## Writing -/

/-- A point as an object. -/
def Geo.Point.toJson (style : Style) (p : Point) : Json :=
  .ofMembers
    [("latitude", style.numeral p.latitude), ("longitude", style.numeral p.longitude)]

/-- A branch as an object. -/
def Branch.toJson (style : Style) (b : Branch) : Json :=
  .ofMembers
    [("id", .ofText b.id), ("name", .ofText b.name), ("location", b.location.toJson style),
      ("type", .ofText b.kind.name), ("address", .ofText b.address),
      ("status", .ofText b.status.name), ("created_at", style.timestamp b.createdAt),
      ("updated_at", style.timestamp b.updatedAt)]

/-- A hit as an object. The bearing is left out where there is none. -/
def Hit.toJson (style : Style) (h : Hit) : Json :=
  let bearing := match h.bearingDegrees with
    | some x => [("bearing_degrees", style.numeral x)]
    | none => []
  .ofMembers
    ([("branch", h.branch.toJson style), ("distance_km", style.numeral h.distanceKm)] ++ bearing)

/-! ## Reading -/

/-- The fields of a point, in order. -/
def Geo.Point.fieldNames : List String := ["latitude", "longitude"]

/-- The point that a document describes. Coordinates out of range describe none. -/
def Geo.Point.ofJson (j : Json) : Option Point := do
  let fields ← j.fields fieldNames
  let latitude ← Json.required Json.float? fields "latitude"
  let longitude ← Json.required Json.float? fields "longitude"
  (ofDegrees latitude longitude).toOption

/-- The moment that a document names. -/
def Time.Timestamp.ofJson (j : Json) : Option Timestamp := j.text?.bind Timestamp.read

/-- The fields of a branch, in order. -/
def Branch.fieldNames : List String :=
  ["id", "name", "location", "type", "address", "status", "created_at", "updated_at"]

/-- The branch that a document describes. -/
def Branch.ofJson (j : Json) : Option Branch := do
  let fields ← j.fields fieldNames
  return {
    id := ← Json.required Json.text? fields "id"
    name := ← Json.required Json.text? fields "name"
    location := ← Json.required Point.ofJson fields "location"
    kind := ← Json.required (Json.choice Kind.ofName) fields "type"
    address := ← Json.required Json.text? fields "address"
    status := ← Json.required (Json.choice Status.ofName) fields "status"
    createdAt := ← Json.required Timestamp.ofJson fields "created_at"
    updatedAt := ← Json.required Timestamp.ofJson fields "updated_at" }

/-- The value that a JSON text describes, by a reader of documents. -/
def decodeWith {α : Type} (ofJson : Json → Option α) (text : String) : Except Fault α :=
  match (Json.read text).bind ofJson with
  | none => .error (.malformedDocument .value)
  | some value => .ok value

/-- The point that a JSON text describes. -/
def Geo.Point.decode (text : String) : Except Fault Point := decodeWith ofJson text

/-- The branch that a JSON text describes. -/
def Branch.decode (text : String) : Except Fault Branch := decodeWith ofJson text

end Nearby
