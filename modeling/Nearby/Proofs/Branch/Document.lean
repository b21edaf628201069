/-
Branches are read back from their documents. Each field is read from what is written for it: a
text from its spelling, a choice from its name, a moment from its written form and a coordinate
from a number in range. Only the coordinates may change, to other doubles in range, and only where
their numbers are not read back exactly.
-/
import Nearby.Branch.Document
import Nearby.Proofs.Dataset.Media
import Nearby.Proofs.Geo.Envelope
import Nearby.Proofs.Json.Document
import Nearby.Proofs.Json.Number
import Nearby.Proofs.Time.Written

namespace Nearby

open Geo Time

/-! ## Fields -/

namespace Json

theorem text?_ofText (s : String) : (ofText s).text? = some s := by
  show (unescape (escape s.toList)).map String.ofList = some s
  rw [(spells_escape _).unescape, Option.map_some, String.ofList_toList]

theorem choice_ofText {α : Type} (ofName : String → Option α) (s : String) :
    choice ofName (ofText s) = ofName s := by
  show ((unescape (escape s.toList)).bind fun cs => ofName (.ofList cs)) = ofName s
  rw [(spells_escape _).unescape, Option.bind_some, String.ofList_toList]

section Members

variable {members : List (String × Json)} {names : List String}

theorem knownMembers_escape (names : List String) (members : List (String × Json)) :
    knownMembers names (members.map fun (key, value) => (escape key.toList, value)) =
      some (members.filter fun member => names.contains member.1) := by
  induction members with
  | nil => rfl
  | cons member members ih =>
    obtain ⟨key, value⟩ := member
    rw [List.map_cons, knownMembers, (spells_escape _).unescape, ih]
    show some _ = _
    rw [String.ofList_toList, List.filter_cons]

/-- The fields of an object are its members, where these have known names and no name twice. -/
theorem fields_ofMembers (distinct : (members.map Prod.fst).Nodup)
    (known : ∀ member ∈ members, member.1 ∈ names) :
    (ofMembers members).fields names = some members := by
  have all : (members.filter fun entry => names.contains entry.1) = members := by
    refine List.filter_eq_self.2 ?_
    intro member mem
    exact List.contains_iff_mem.2 (known member mem)
  show (knownMembers names _).bind _ = _
  rw [knownMembers_escape, all]
  exact if_pos distinct

theorem required_of_mem {α : Type} {read : Json → Option α} {name : String} {j : Json} {a : α}
    (distinct : (members.map Prod.fst).Nodup) (mem : (name, j) ∈ members)
    (value : read j = some a) : required read members name = some a := by
  unfold required
  rw [lookup_of_mem distinct mem]
  exact value

end Members

end Json

theorem Style.float?_numeral (x : Float) : Json.float? (Style.standard.numeral x) =
    Json.numberValue (Decimal.document x).toList := rfl

theorem Time.Timestamp.ofJson_timestamp (t : Timestamp) :
    Timestamp.ofJson (Style.standard.timestamp t) = some t := by
  have written : Style.standard.timestamp t = .ofText t.text := rfl
  unfold Timestamp.ofJson
  rw [written, Json.text?_ofText, Option.bind_some, t.read_text]

/-! ## Points -/

namespace Geo.Point

/-- The numbers that are written for the coordinates are read as these coordinates. -/
def ReadsBack (p : Point) : Prop :=
  Json.numberValue (Decimal.document p.latitude).toList = some p.latitude ∧
    Json.numberValue (Decimal.document p.longitude).toList = some p.longitude

/-- The members of a point's document. -/
def members (p : Point) : List (String × Json) :=
  [("latitude", Style.standard.numeral p.latitude),
    ("longitude", Style.standard.numeral p.longitude)]

theorem toJson_eq (p : Point) : p.toJson .standard = .ofMembers p.members := rfl

theorem legal_toJson (p : Point) : (p.toJson .standard).Legal := by
  obtain ⟨latitude, longitude⟩ := p.between
  refine Json.legal_ofMembers ?_
  simp only [List.forall_mem_cons]
  exact ⟨Json.limit_ninety.spelling_document latitude,
    Json.limit_straight.spelling_document longitude, nofun⟩

theorem ofDegrees_self (p : Point) : ofDegrees p.latitude p.longitude = .ok p := dif_pos p.onGlobe

/-- A point is always read from its document, and as itself if its coordinates are. -/
theorem ofJson_toJson (p : Point) : ∃ place, ofJson (p.toJson .standard) = some place ∧
    (p.ReadsBack → place = p) := by
  obtain ⟨latitude, longitude⟩ := p.between
  obtain ⟨lat, readLat, withinLat⟩ := Json.limit_ninety.numberValue_document latitude
  obtain ⟨lon, readLon, withinLon⟩ := Json.limit_straight.numberValue_document longitude
  obtain ⟨place, made, -⟩ := ofDegrees_ok withinLat withinLon
  -- both numbers are read as degrees in range, though maybe not as those that were written
  refine ⟨place, ?_, ?_⟩
  · have distinct : (p.members.map Prod.fst).Nodup := by simp [members]
    have fields : (Json.ofMembers p.members).fields fieldNames = some p.members :=
      Json.fields_ofMembers distinct (by simp [members, fieldNames])
    have first : Json.required Json.float? p.members "latitude" = some lat :=
      Json.required_of_mem distinct (by simp [members]) ((Style.float?_numeral _).trans readLat)
    have second : Json.required Json.float? p.members "longitude" = some lon :=
      Json.required_of_mem distinct (by simp [members]) ((Style.float?_numeral _).trans readLon)
    rw [toJson_eq]
    unfold ofJson
    simp only [fields, first, second, made, Option.bind_eq_bind, Option.bind_some]
    rfl
  · rintro ⟨backLat, backLon⟩
    rw [readLat] at backLat
    rw [readLon] at backLon
    obtain rfl := Option.some.inj backLat
    obtain rfl := Option.some.inj backLon
    rw [ofDegrees_self] at made
    exact (Except.ok.inj made).symm

end Geo.Point

/-! ## Branches -/

namespace Branch

/-- The members of a branch's document. -/
def members (b : Branch) : List (String × Json) :=
  [("id", .ofText b.id), ("name", .ofText b.name), ("location", b.location.toJson .standard),
    ("type", .ofText b.kind.name), ("address", .ofText b.address),
    ("status", .ofText b.status.name), ("created_at", Style.standard.timestamp b.createdAt),
    ("updated_at", Style.standard.timestamp b.updatedAt)]

theorem toJson_eq (b : Branch) : b.toJson .standard = .ofMembers b.members := rfl

theorem legal_toJson (b : Branch) : (b.toJson .standard).Legal := by
  refine Json.legal_ofMembers ?_
  simp only [List.forall_mem_cons]
  exact ⟨Json.legal_ofText _, Json.legal_ofText _, b.location.legal_toJson, Json.legal_ofText _,
    Json.legal_ofText _, Json.legal_ofText _, Json.legal_ofText _, Json.legal_ofText _, nofun⟩

/-- A branch is read from its document with the place that is read for its location. -/
theorem ofJson_toJson (b : Branch) {place : Point}
    (located : Point.ofJson (b.location.toJson .standard) = some place) :
    Branch.ofJson (b.toJson .standard) = some { b with location := place } := by
  have distinct : (b.members.map Prod.fst).Nodup := by simp [members]
  have fields : (Json.ofMembers b.members).fields fieldNames = some b.members :=
    Json.fields_ofMembers distinct (by simp [members, fieldNames])
  have id : Json.required Json.text? b.members "id" = some b.id :=
    Json.required_of_mem distinct (by simp [members]) (Json.text?_ofText _)
  have name : Json.required Json.text? b.members "name" = some b.name :=
    Json.required_of_mem distinct (by simp [members]) (Json.text?_ofText _)
  have location : Json.required Point.ofJson b.members "location" = some place :=
    Json.required_of_mem distinct (by simp [members]) located
  have kind : Json.required (Json.choice Kind.ofName) b.members "type" = some b.kind :=
    Json.required_of_mem distinct (by simp [members])
      ((Json.choice_ofText _ _).trans (Kind.ofName_name _))
  have address : Json.required Json.text? b.members "address" = some b.address :=
    Json.required_of_mem distinct (by simp [members]) (Json.text?_ofText _)
  have status : Json.required (Json.choice Status.ofName) b.members "status" = some b.status :=
    Json.required_of_mem distinct (by simp [members])
      ((Json.choice_ofText _ _).trans (Status.ofName_name _))
  have created : Json.required Timestamp.ofJson b.members "created_at" = some b.createdAt :=
    Json.required_of_mem distinct (by simp [members]) (Timestamp.ofJson_timestamp _)
  have updated : Json.required Timestamp.ofJson b.members "updated_at" = some b.updatedAt :=
    Json.required_of_mem distinct (by simp [members]) (Timestamp.ofJson_timestamp _)
  rw [toJson_eq]
  unfold Branch.ofJson
  simp only [fields, id, name, location, kind, address, status, created, updated,
    Option.bind_eq_bind, Option.bind_some]
  rfl

theorem decode_compact {j : Json} (legal : j.Legal) {b : Branch}
    (read : Branch.ofJson j = some b) : Branch.decode (Json.compact j) = .ok b := by
  unfold Branch.decode decodeWith
  rw [Json.read_compact legal, Option.bind_some, read]

/-- A branch is read back from its text: always, with all that it has but its location, and with
its location too where the coordinates are read back. What is read from any text is on the globe,
and is read back in the same way. -/
theorem decode_toJson :
    (∀ b : Branch, ∃ place : Point,
      Branch.decode (Json.compact (b.toJson .standard)) = .ok { b with location := place } ∧
        (b.location.ReadsBack → place = b.location)) ∧
    ∀ (text : String) (b : Branch), Branch.decode text = .ok b →
      (b.location.ReadsBack → Branch.decode (Json.compact (b.toJson .standard)) = .ok b) ∧
        (-90 ≤ b.location.latitude ∧ b.location.latitude ≤ 90) ∧
          -180 ≤ b.location.longitude ∧ b.location.longitude ≤ 180 := by
  have written : ∀ b : Branch, ∃ place : Point,
      Branch.decode (Json.compact (b.toJson .standard)) = .ok { b with location := place } ∧
        (b.location.ReadsBack → place = b.location) := by
    intro b
    obtain ⟨place, located, same⟩ := b.location.ofJson_toJson
    exact ⟨place, decode_compact b.legal_toJson (b.ofJson_toJson located), same⟩
  refine ⟨written, fun text b _ => ⟨fun back => ?_, b.location.between⟩⟩
  obtain ⟨place, decoded, same⟩ := written b
  rw [decoded, same back]

/-- A branch with a leap second, years of five digits and before zero, and texts that need
escapes. -/
def sample : Branch where
  id := "b\"1\\"
  name := "Caja\tNorte\x01 𝄞"
  location := ⟨⟨4.6097, -74.0817⟩, by decide +kernel⟩
  kind := .atmOnly
  address := "Carrera 7\nBogotá"
  status := .underMaintenance
  createdAt := (Timestamp.read "+12345-06-30T23:59:60.123456789Z").get (by decide +kernel)
  updatedAt := (Timestamp.read "-0004-02-29T00:00:01.5Z").get (by decide +kernel)

theorem decode_toJson_of_sample : sample.location.ReadsBack ∧
    Branch.decode (Json.compact (sample.toJson .standard)) = .ok sample ∧
      -90 ≤ sample.location.latitude ∧ sample.location.longitude ≤ 180 := by
  have back : sample.location.ReadsBack := ⟨by decide +kernel, by decide +kernel⟩
  obtain ⟨place, decoded, same⟩ := decode_toJson.1 sample
  rw [same back] at decoded
  obtain ⟨again, latitude, longitude⟩ := decode_toJson.2 _ sample decoded
  exact ⟨back, again back, latitude.1, longitude.2⟩

end Branch

end Nearby
