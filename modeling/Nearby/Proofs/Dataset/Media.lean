/-
Records as they are entered in either format: what stands for a text, a number and nothing, and
which entries a record has, in any order and among others. Such entries describe the record to
the decoder of the format, and there are some of every record whose values can be spelled.
-/
import Nearby.Proofs.Dataset.Entries

namespace Nearby

open Time

/-! ## Media -/

/-- What stands for the values of a record in a format. -/
structure Medium (α : Type) where
  text : α → String → Prop
  number : α → Float → Prop
  nothing : α → Prop

/-- A string stands for a text, however it is spelled, and null for nothing. -/
def Medium.json : Medium Json where
  text j s := ∃ spelling, j = .string spelling ∧ Json.Spells spelling s.toList
  number j x := ∃ spelling, j = .number spelling ∧ Json.numberValue spelling = some x
  nothing j := j = .null

/-- A cell stands for itself, and an empty one for nothing. -/
def Medium.cell : Medium String where
  text cell s := cell = s
  number cell x := Decimal.readFloat cell = some x
  nothing cell := cell = ""

/-- A decoder reads what stands for a value as this value. -/
structure Decoder.Follows {α : Type} (decoder : Decoder α) (medium : Medium α) : Prop where
  text : ∀ a s, medium.text a s → decoder.text a = some s
  number : ∀ a x, medium.number a x → decoder.number a = some x
  kind : ∀ a (kind : Kind), medium.text a kind.name → decoder.kind a = some kind
  status : ∀ a (status : Status), medium.text a status.name → decoder.status a = some status
  moment : ∀ a s t, medium.text a s → Timestamp.read s = some t →
    decoder.moment a = some (some t)
  nothing : ∀ a, medium.nothing a → decoder.moment a = some none

theorem Kind.ofName_name (kind : Kind) : Kind.ofName kind.name = some kind := by
  cases kind <;> decide

theorem Status.ofName_name (status : Status) : Status.ofName status.name = some status := by
  cases status <;> decide

theorem follows_json : Decoder.json.Follows .json where
  text := by
    rintro _ s ⟨spelling, rfl, spells⟩
    show (Json.unescape spelling).map String.ofList = some s
    rw [spells.unescape, Option.map_some, String.ofList_toList]
  number := by
    rintro _ x ⟨spelling, rfl, value⟩
    exact value
  kind := by
    rintro _ kind ⟨spelling, rfl, spells⟩
    show ((Json.unescape spelling).bind fun cs => Kind.ofName (.ofList cs)) = some kind
    rw [spells.unescape, Option.bind_some, String.ofList_toList, kind.ofName_name]
  status := by
    rintro _ status ⟨spelling, rfl, spells⟩
    show ((Json.unescape spelling).bind fun cs => Status.ofName (.ofList cs)) = some status
    rw [spells.unescape, Option.bind_some, String.ofList_toList, status.ofName_name]
  moment := by
    rintro _ s t ⟨spelling, rfl, spells⟩ read
    show (((Json.unescape spelling).map String.ofList).bind Timestamp.read).map some = _
    rw [spells.unescape, Option.map_some, Option.bind_some, String.ofList_toList, read]
    rfl
  nothing := by
    rintro _ rfl
    rfl

theorem follows_cell : Decoder.cell.Follows .cell where
  text := by
    rintro _ s rfl
    rfl
  number _ _ value := value
  kind := by
    rintro _ kind rfl
    exact kind.ofName_name
  status := by
    rintro _ status rfl
    exact status.ofName_name
  moment := by
    rintro cell _ t rfl read
    have visible : cell.isEmpty = false := by
      cases empty : cell.isEmpty with
      | false => rfl
      | true =>
        obtain rfl := String.isEmpty_iff.1 empty
        cases read
    show Decoder.cellMoment cell = _
    unfold Decoder.cellMoment
    rw [visible, read]
    rfl
  nothing := by
    rintro _ rfl
    rfl

namespace Record

/-! ## Entries -/

/-- The values of a record that are texts, by name. -/
def texts (r : Record) : List (String × String) :=
  [("id", r.id), ("name", r.name), ("type", r.kind.name), ("address", r.address),
    ("status", r.status.name)]

/-- The values of a record that are numbers, by name. -/
def numbers (r : Record) : List (String × Float) :=
  [("latitude", r.place.latitude), ("longitude", r.place.longitude)]

/-- The values of a record that are moments and may be absent, by name. -/
def moments (r : Record) : List (String × Option Timestamp) :=
  [("created_at", r.createdAt), ("updated_at", r.updatedAt)]

/-- The entries with the key of a field. -/
def known {α : Type} (entries : List (String × α)) : List (String × α) :=
  entries.filter fun entry => (Field.ofKey entry.1).isSome

/-- The record is entered: each field once, in any order, among entries of other names. An absent
moment is not entered, or as nothing. -/
structure Entered {α : Type} (medium : Medium α) (r : Record) (entries : List (String × α)) :
    Prop where
  distinct : ((known entries).map Prod.fst).Nodup
  texts : ∀ field ∈ r.texts, ∃ a, (field.1, a) ∈ entries ∧ medium.text a field.2
  numbers : ∀ field ∈ r.numbers, ∃ a, (field.1, a) ∈ entries ∧ medium.number a field.2
  moments : ∀ field ∈ r.moments, ∀ moment, field.2 = some moment →
    ∃ a s, (field.1, a) ∈ entries ∧ medium.text a s ∧ Timestamp.read s = some moment
  absent : ∀ field ∈ r.moments, field.2 = none → ∀ a, (field.1, a) ∈ entries → medium.nothing a

/-- The entries, all of which have a key. -/
def keyed {α : Type} (entries : List (String × α)) : List (Option String × α) :=
  entries.map fun entry => (some entry.1, entry.2)

section Entered

variable {α β : Type} {medium : Medium α} {r : Record} {entries : List (String × α)}

theorem gives_keyed {field : Field} {a : α} :
    Gives (keyed entries) field a ↔ (field.key, a) ∈ entries := by
  unfold Gives keyed
  simp

theorem Entered.unique (entered : r.Entered medium entries) {field : Field} {a b : α}
    (gives : Gives (keyed entries) field a) (gives' : Gives (keyed entries) field b) : a = b := by
  have lookup : ∀ {c}, Gives (keyed entries) field c →
      (known entries).lookup field.key = some c := fun gives =>
    lookup_of_mem entered.distinct
      (List.mem_filter.2 ⟨gives_keyed.1 gives, by simp [Field.ofKey_key]⟩)
  exact Option.some.inj ((lookup gives).symm.trans (lookup gives'))

/-- What is entered for the field, and all that is, is read so. -/
def Means (entries : List (Option String × α)) (field : Field) (read : α → Option β) (b : β) :
    Prop :=
  ∀ a, Gives entries field a → read a = some b

theorem Entered.means (entered : r.Entered medium entries) {field : Field} {read : α → Option β}
    {b : β} (given : ∃ a, (field.key, a) ∈ entries ∧ read a = some b) :
    Stated (keyed entries) field read b ∧ Means (keyed entries) field read b := by
  obtain ⟨a, mem, is⟩ := given
  have gives := gives_keyed.2 mem
  exact ⟨⟨a, gives, is⟩, fun a' gives' => entered.unique gives gives' ▸ is⟩

theorem Entered.text (entered : r.Entered medium entries) (field : Field) (s : String)
    (mem : (field.key, s) ∈ r.texts) {read : α → Option β} {b : β}
    (reads : ∀ a, medium.text a s → read a = some b) :
    Stated (keyed entries) field read b ∧ Means (keyed entries) field read b :=
  entered.means ((entered.texts _ mem).imp fun a h => ⟨h.1, reads a h.2⟩)

section Decoder

variable {decoder : Decoder α} (follows : decoder.Follows medium)
  (entered : r.Entered medium entries)
include follows entered

theorem Entered.number (field : Field) (x : Float) (mem : (field.key, x) ∈ r.numbers) :
    Stated (keyed entries) field decoder.number x ∧
      Means (keyed entries) field decoder.number x :=
  entered.means ((entered.numbers _ mem).imp fun a h => ⟨h.1, follows.number a x h.2⟩)

theorem Entered.moment (field : Field) (moment : Option Timestamp)
    (mem : (field.key, moment) ∈ r.moments) :
    StatedOr (keyed entries) field decoder.moment none moment ∧
      Means (keyed entries) field decoder.moment moment := by
  cases moment with
  | some t =>
    obtain ⟨a, s, given, stands, read⟩ := entered.moments _ mem t rfl
    exact (entered.means ⟨a, given, follows.moment a s t stands read⟩).imp_left .inl
  | none =>
    have reads : Means (keyed entries) field decoder.moment none :=
      fun a gives => follows.nothing a (entered.absent _ mem rfl a (gives_keyed.1 gives))
    refine ⟨?_, reads⟩
    by_cases absent : Absent (keyed entries) field
    · exact .inr ⟨absent, rfl⟩
    · unfold Absent at absent
      push Not at absent
      obtain ⟨a, gives⟩ := absent
      exact .inl ⟨a, gives, reads a gives⟩

/-- What enters a record describes it. -/
theorem Entered.describes : Describes decoder (keyed entries) r := by
  have id := entered.text .id r.id (by simp [Record.texts, Field.key]) fun a => follows.text a _
  have name := entered.text .name r.name (by simp [Record.texts, Field.key])
    fun a => follows.text a _
  have latitude := entered.number follows .latitude r.place.latitude
    (by simp [Record.numbers, Field.key])
  have longitude := entered.number follows .longitude r.place.longitude
    (by simp [Record.numbers, Field.key])
  have kind := entered.text .kind r.kind.name (by simp [Record.texts, Field.key])
    fun a => follows.kind a r.kind
  have address := entered.text .address r.address (by simp [Record.texts, Field.key])
    fun a => follows.text a _
  have status := entered.text .status r.status.name (by simp [Record.texts, Field.key])
    fun a => follows.status a r.status
  have created := entered.moment follows .createdAt r.createdAt
    (by simp [Record.moments, Field.key])
  have updated := entered.moment follows .updatedAt r.updatedAt
    (by simp [Record.moments, Field.key])
  have accepted : ∀ {β : Type} {field : Field} {read : α → Option β} {b : β},
      decoder.Reads field read → Means (keyed entries) field read b →
      ∀ a, Gives (keyed entries) field a → decoder.accepts field a = true :=
    fun reads means a gives => by rw [reads, means a gives]; rfl
  refine ⟨⟨List.forall_mem_map.2 fun _ _ => nofun, ?_, fun field => ?_⟩, id.1, name.1, latitude.1,
    longitude.1, kind.1, .inl address.1, .inl status.1, created.1, updated.1⟩
  · -- keys that occur twice would be known twice
    unfold keyed
    refine List.pairwise_map.2 ((List.pairwise_filter.1 (List.pairwise_map.1
      entered.distinct)).imp ?_)
    intro a b apart field is is'
    have named : (Field.ofKey a.1).isSome = true := by
      rw [Option.some.inj is, Field.ofKey_key]; rfl
    have named' : (Field.ofKey b.1).isSome = true := by
      rw [Option.some.inj is', Field.ofKey_key]; rfl
    exact apart named named' ((Option.some.inj is).trans (Option.some.inj is').symm)
  · cases field with
    | id => exact accepted (fun _ => rfl) id.2
    | name => exact accepted (fun _ => rfl) name.2
    | latitude => exact accepted (fun _ => rfl) latitude.2
    | longitude => exact accepted (fun _ => rfl) longitude.2
    | kind => exact accepted (fun _ => rfl) kind.2
    | address => exact accepted (fun _ => rfl) address.2
    | status => exact accepted (fun _ => rfl) status.2
    | createdAt => exact accepted (fun _ => rfl) created.2
    | updatedAt => exact accepted (fun _ => rfl) updated.2

end Decoder

end Entered

/-- The values of the record have texts that are read back: its own texts without blanks around
them, a spelling and a cell for a number, and a text for a moment that is not absent. -/
structure Spellable (r : Record) : Prop where
  texts : ∀ field ∈ r.texts, Text.trim field.2 = field.2
  numbers : ∀ field ∈ r.numbers,
    (∃ spelling, Json.NumberSpelling spelling ∧ Json.numberValue spelling = some field.2) ∧
      ∃ cell, Text.trim cell = cell ∧ Decimal.readFloat cell = some field.2
  moments : ∀ field ∈ r.moments, ∀ moment, field.2 = some moment →
    ∃ s, Text.trim s = s ∧ Timestamp.read s = some moment

/-- The keys of a record, in order. -/
def keys : List String := Field.all.map Field.key

theorem known_zip {α : Type} {values : List α} (length : values.length = keys.length) :
    (known (keys.zip values)).map Prod.fst = keys := by
  have all : known (keys.zip values) = keys.zip values := by
    refine List.filter_eq_self.2 ?_
    rintro ⟨name, a⟩ mem
    obtain ⟨field, -, rfl⟩ := List.mem_map.1 (List.of_mem_zip mem).1
    simp [Field.ofKey_key]
  rw [all, List.map_fst_zip length.ge]

/-- Where each value can be entered there are entries of the record, one for each field. -/
theorem exists_entered {α : Type} {medium : Medium α} {P : α → Prop} {r : Record}
    (texts : ∀ field ∈ r.texts, ∃ a, medium.text a field.2 ∧ P a)
    (numbers : ∀ field ∈ r.numbers, ∃ a, medium.number a field.2 ∧ P a)
    (moments : ∀ field ∈ r.moments, ∃ a, (∀ moment, field.2 = some moment →
      ∃ s, medium.text a s ∧ Timestamp.read s = some moment) ∧
        (field.2 = none → medium.nothing a) ∧ P a) :
    ∃ values : List α, values.length = keys.length ∧ (∀ a ∈ values, P a) ∧
      r.Entered medium (keys.zip values) := by
  unfold Record.texts at texts
  unfold Record.numbers at numbers
  unfold Record.moments at moments
  simp only [List.forall_mem_cons] at texts numbers moments
  obtain ⟨⟨id, hid, pid⟩, ⟨name, hname, pname⟩, ⟨kind, hkind, pkind⟩, ⟨address, haddress, paddress⟩,
    ⟨status, hstatus, pstatus⟩, -⟩ := texts
  obtain ⟨⟨lat, hlat, plat⟩, ⟨lon, hlon, plon⟩, -⟩ := numbers
  obtain ⟨⟨created, given, absent, pcreated⟩, ⟨updated, given', absent', pupdated⟩, -⟩ := moments
  refine ⟨[id, name, lat, lon, kind, address, status, created, updated], rfl, ?_, ?_⟩
  · simp only [List.forall_mem_cons]
    exact ⟨pid, pname, plat, plon, pkind, paddress, pstatus, pcreated, pupdated, nofun⟩
  constructor
  case distinct =>
    rw [known_zip (by rfl)]
    decide
  case texts =>
    unfold Record.texts
    simp only [List.forall_mem_cons]
    refine ⟨⟨id, ?_, hid⟩, ⟨name, ?_, hname⟩, ⟨kind, ?_, hkind⟩, ⟨address, ?_, haddress⟩,
      ⟨status, ?_, hstatus⟩, nofun⟩
    all_goals simp [keys, Field.all, Field.key]
  case numbers =>
    unfold Record.numbers
    simp only [List.forall_mem_cons]
    refine ⟨⟨lat, ?_, hlat⟩, ⟨lon, ?_, hlon⟩, nofun⟩
    all_goals simp [keys, Field.all, Field.key]
  case moments =>
    unfold Record.moments
    simp only [List.forall_mem_cons]
    refine ⟨fun moment is => ?_, fun moment is => ?_, by simp⟩
    · obtain ⟨s, stands, read⟩ := given moment is
      exact ⟨created, s, by simp [keys, Field.all, Field.key], stands, read⟩
    · obtain ⟨s, stands, read⟩ := given' moment is
      exact ⟨updated, s, by simp [keys, Field.all, Field.key], stands, read⟩
  case absent =>
    unfold Record.moments
    simp only [List.forall_mem_cons]
    refine ⟨fun none a entry => ?_, fun none a entry => ?_, by simp⟩
    · obtain rfl : a = created := by simpa [keys, Field.all, Field.key] using entry
      exact absent none
    · obtain rfl : a = updated := by simpa [keys, Field.all, Field.key] using entry
      exact absent' none

/-! ## Formats -/

/-- The members of an object, by what their keys stand for. -/
def Keys (members : List (List Char × Json)) (entries : List (String × Json)) : Prop :=
  List.Forall₂ (fun member entry => Json.Spells member.1 entry.1.toList ∧ member.2 = entry.2)
    members entries

theorem keys_escape (entries : List (String × Json)) :
    Keys (entries.map fun (name, value) => (Json.escape name.toList, value)) entries :=
  List.forall₂_map_left_iff.2 (List.forall₂_same.2 fun _ _ => ⟨Json.spells_escape _, rfl⟩)

/-- Members are read by what their keys stand for. -/
theorem Keys.keyed_eq {members : List (List Char × Json)} {entries : List (String × Json)}
    (keys : Keys members entries) :
    (members.map fun (key, value) => ((Json.string key).text?, value)) = keyed entries := by
  unfold keyed
  induction keys with
  | nil => rfl
  | @cons member entry _ _ key _ ih =>
    obtain ⟨spelling, value⟩ := member
    obtain ⟨name, value'⟩ := entry
    obtain ⟨spells, rfl⟩ := key
    have text : (Json.string spelling).text? = some name := by
      show (Json.unescape spelling).map String.ofList = _
      rw [spells.unescape, Option.map_some, String.ofList_toList]
    rw [List.map_cons, List.map_cons, ih]
    exact congrArg (fun key => (key, value) :: _) text

/-- An object describes the record that its members enter. -/
theorem Entered.ofJson {r : Record} {entries : List (String × Json)}
    (entered : r.Entered .json entries) {members : List (List Char × Json)}
    (keys : Keys members entries) : Record.ofJson (.object members) = .ok r := by
  have same : entries? (.object members) = some (keyed entries) := congrArg some keys.keyed_eq
  unfold Record.ofJson
  rw [same]
  exact ofEntries_eq_ok_iff.2 (entered.describes follows_json)

/-- A row describes the record that its cells enter. -/
theorem Entered.ofCells {r : Record} {header row : List String}
    (entered : r.Entered .cell (header.zip row)) : Record.ofCells header row = .ok r := by
  have same : (header.map some).zip row = keyed (header.zip row) := by
    rw [List.zip_map_left]
    rfl
  unfold Record.ofCells
  rw [same]
  exact ofEntries_eq_ok_iff.2 (entered.describes follows_cell)

end Record

end Nearby
