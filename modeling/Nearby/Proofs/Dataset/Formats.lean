/-
The two formats mean the same. A list of records may be written as an array of objects or as a
table, with everything that either format leaves open: the order of fields, fields of other names,
blanks, escapes, quotes and line ends. There are such texts of all records whose values can be
spelled. Either text is read as those records, so both give the same branches, or the same fault of
the first record off the globe.
-/
import Nearby.Proofs.Dataset.Loading
import Nearby.Proofs.Dataset.Media

namespace Nearby

open Geo Time

namespace Dataset

/-! ## Texts of records -/

/-- The text is an array of objects, one for each record in turn, laid out in any way. -/
def WrittenAsJson (text : String) (records : List Record) : Prop :=
  ∃ objects : List (List (List Char × Json)),
    Json.LaysOut text.toList (Json.array (objects.map .object)).toTokens ∧
    List.Forall₂ (fun record members => ∃ entries,
      Record.Keys members entries ∧ Record.Entered .json record entries) records objects

/-- The text is a table with a header and a row for each record in turn. Blanks around names and
cells do not count. -/
def WrittenAsCsv (text : String) (records : List Record) : Prop :=
  ∃ header rows, Table.Spells text (header :: rows) ∧
    List.Forall₂ (fun record row => row.length = header.length ∧
      Record.Entered .cell record ((header.map Text.trim).zip (row.map Text.trim))) records rows

/-! ## Writing the records -/

theorem exists_members {r : Record} (spellable : r.Spellable) :
    ∃ members, (∃ entries, Record.Keys members entries ∧ Record.Entered .json r entries) ∧
      Json.Legal (.object members) := by
  have values : ∃ values : List Json, values.length = Record.keys.length ∧
      (∀ j ∈ values, Json.Legal j) ∧ r.Entered .json (Record.keys.zip values) := by
    refine Record.exists_entered ?_ ?_ ?_
    · intro field mem
      exact ⟨.ofText field.2, ⟨_, rfl, Json.spells_escape _⟩, Json.legal_ofText _⟩
    · intro field mem
      obtain ⟨⟨spelling, number, value⟩, -⟩ := spellable.numbers field mem
      exact ⟨.number spelling, ⟨spelling, rfl, value⟩, number⟩
    · intro field mem
      cases given : field.2 with
      | none => exact ⟨.null, by simp, fun _ => rfl, trivial⟩
      | some moment =>
        obtain ⟨s, -, read⟩ := spellable.moments field mem moment given
        refine ⟨.ofText s, ?_, by simp, Json.legal_ofText s⟩
        intro moment' same
        cases same
        exact ⟨s, ⟨_, rfl, Json.spells_escape _⟩, read⟩
  obtain ⟨values, -, legal, entered⟩ := values
  refine ⟨_, ⟨_, Record.keys_escape _, entered⟩, Json.legal_ofMembers ?_⟩
  rintro ⟨name, value⟩ mem
  exact legal value (List.of_mem_zip mem).2

/-- Records can be written as JSON. -/
theorem exists_writtenAsJson {records : List Record} (spellable : ∀ r ∈ records, r.Spellable) :
    ∃ text, WrittenAsJson text records := by
  choose! members keys legal using fun r mem => exists_members (spellable r mem)
  have written : Json.Legal (.array ((records.map members).map .object)) := by
    refine Json.legal_array ?_
    simpa using legal
  refine ⟨_, records.map members, Json.laysOut_toList_compact written, ?_⟩
  exact List.forall₂_map_right_iff.2 (List.forall₂_same.2 keys)

theorem exists_row {r : Record} (spellable : r.Spellable) :
    ∃ row : List String, row.length = Record.keys.length ∧ row.map Text.trim = row ∧
      r.Entered .cell (Record.keys.zip row) := by
  have values : ∃ row : List String, row.length = Record.keys.length ∧
      (∀ cell ∈ row, Text.trim cell = cell) ∧ r.Entered .cell (Record.keys.zip row) := by
    refine Record.exists_entered ?_ ?_ ?_
    · intro field mem
      exact ⟨field.2, rfl, spellable.texts field mem⟩
    · intro field mem
      obtain ⟨-, cell, trimmed, value⟩ := spellable.numbers field mem
      exact ⟨cell, value, trimmed⟩
    · intro field mem
      cases given : field.2 with
      | none => exact ⟨"", by simp, fun _ => rfl, by decide⟩
      | some moment =>
        obtain ⟨s, trimmed, read⟩ := spellable.moments field mem moment given
        refine ⟨s, ?_, by simp, trimmed⟩
        intro moment' same
        cases same
        exact ⟨s, rfl, read⟩
  obtain ⟨row, length, trimmed, entered⟩ := values
  have same : row.map Text.trim = row.map id := List.map_congr_left trimmed
  exact ⟨row, length, same.trans (List.map_id row), entered⟩

/-- Records can be written as a table. -/
theorem exists_writtenAsCsv {records : List Record} (spellable : ∀ r ∈ records, r.Spellable) :
    ∃ text, WrittenAsCsv text records := by
  choose! row length trimmed entered using fun r mem => exists_row (spellable r mem)
  have header : Record.keys.map Text.trim = Record.keys := by decide +kernel
  have nonempty : ∀ fields ∈ Record.keys :: records.map row, fields ≠ [] := by
    simp only [List.forall_mem_cons, List.forall_mem_map]
    refine ⟨List.cons_ne_nil _ _, fun r mem empty => ?_⟩
    have none := length r mem
    rw [empty] at none
    cases none
  obtain ⟨text, spells⟩ := Table.exists_spells nonempty
  refine ⟨text, Record.keys, records.map row, spells, ?_⟩
  refine List.forall₂_map_right_iff.2 (List.forall₂_same.2 fun r mem => ⟨length r mem, ?_⟩)
  rw [header, trimmed r mem]
  exact entered r mem

/-! ## Reading the records -/

/-- An array of objects gives its records. -/
theorem WrittenAsJson.records {text : String} {rs : List Record} (written : WrittenAsJson text rs) :
    records .json text = .ok rs := by
  obtain ⟨objects, laid, each⟩ := written
  have hold : Hold (objects.map .object) rs := by
    refine List.forall₂_map_left_iff.2 (List.Forall₂.flip (each.imp ?_))
    rintro record members ⟨entries, keys, entered⟩
    exact entered.ofJson keys
  exact fileGives_iff.1 (.json (.records laid (.records (hold_iff.2 hold))))

/-- A table gives its records. -/
theorem WrittenAsCsv.records {text : String} {rs : List Record} (written : WrittenAsCsv text rs) :
    records .csv text = .ok rs := by
  obtain ⟨header, rows, spells, each⟩ := written
  refine fileGives_iff.1 (.csv spells (.records ?_))
  refine List.forall₂_map_left_iff.2 (List.Forall₂.flip (each.imp ?_))
  rintro record row ⟨same, entered⟩
  refine ⟨?_, Record.ofEntries_eq_ok_iff.1 entered.ofCells⟩
  rw [List.length_map, List.length_map, same]

/-! ## Two formats -/

/-- Records on the globe become branches one by one. -/
theorem mapM_toBranch_onGlobe {records : List Record} (clock : Clock)
    (on : ∀ r ∈ records, r.place.onGlobe = true) : ∃ found,
      (records.zipIdx.mapM fun p => p.1.toBranch (clock.reading p.2)) = .ok found ∧
        List.Forall₂ (fun p b => p.1.Becomes (clock.reading p.2) b) records.zipIdx found := by
  cases made : records.zipIdx.mapM fun p => p.1.toBranch (clock.reading p.2) with
  | ok found =>
    refine ⟨found, rfl, (mapM_eq_ok_iff.1 made).imp fun p b is => ?_⟩
    exact (toBranch_eq_ok_iff.1 is).2
  | error fault =>
    obtain ⟨before, r, after, rfl, -, fails⟩ := mapM_zipIdx_eq_error_iff.1 made
    exact absurd (located_iff.2 (on r (by simp))) (toBranch_eq_error_iff.1 fails).1

/-- The first record off the globe is the one that is refused. -/
theorem mapM_toBranch_offGlobe {records : List Record} (clock : Clock) {r : Record}
    (first : records.find? (! ·.place.onGlobe) = some r) :
    (records.zipIdx.mapM fun p => p.1.toBranch (clock.reading p.2)) =
      .error (.invalidCoordinate r.place) := by
  obtain ⟨off, before, after, rfl, on⟩ := List.find?_eq_some_iff_append.1 first
  refine mapM_zipIdx_eq_error_iff.2 ⟨before, r, after, rfl, ?_, ?_⟩
  · simp only [exists_toBranch_iff]
    refine (forall_mem_zipIdx fun r : Record => Located r.place).2 fun s mem => ?_
    exact located_iff.2 (by simpa using on s mem)
  · exact toBranch_eq_error_iff.2 ⟨fun located => by simp [located_iff.1 located] at off, rfl⟩

/-- Records whose values can be spelled can be written in both formats, and mean the same in both,
however they are written in either: if all of them are on the globe, as many branches with the same
values in the same order, and else the fault of the first one that is not. -/
theorem formats_agree (records : List Record) (clock : Clock) :
    ((∀ r ∈ records, r.Spellable) →
      (∃ json, WrittenAsJson json records) ∧ ∃ csv, WrittenAsCsv csv records) ∧
    ∀ json csv, WrittenAsJson json records → WrittenAsCsv csv records →
      branches clock .csv csv = branches clock .json json ∧
      ((∀ r ∈ records, r.place.onGlobe = true) → ∃ found, branches clock .json json = .ok found ∧
        List.Forall₂ (fun p b => p.1.Becomes (clock.reading p.2) b) records.zipIdx found) ∧
      ∀ r, records.find? (! ·.place.onGlobe) = some r →
        branches clock .json json = .error (.invalidCoordinate r.place) := by
  refine ⟨fun spellable => ⟨exists_writtenAsJson spellable, exists_writtenAsCsv spellable⟩, ?_⟩
  intro json csv asJson asCsv
  have placed : ∀ {format text}, Dataset.records format text = .ok records →
      branches clock format text =
        records.zipIdx.mapM fun p => p.1.toBranch (clock.reading p.2) := by
    intro format text read
    show (Dataset.records format text >>= _) = _
    rw [read]
    rfl
  rw [placed asJson.records, placed asCsv.records]
  exact ⟨rfl, mapM_toBranch_onGlobe clock, fun r => mapM_toBranch_offGlobe clock⟩

end Dataset

/-! ## A record in both formats -/

namespace Sample

theorem read_noon : Timestamp.read "2024-01-10T12:00:00Z" = some noon := (Option.some_get _).symm

/-- A record with a comma, quotes and a line break in its texts. -/
def record : Record where
  id := "a,1"
  name := "say \"hi\""
  place := ⟨1.5, -0.5⟩
  kind := .atmOnly
  address := "1st\r\nfloor"
  status := .planned
  createdAt := some noon
  updatedAt := none

/-- The record by the keys of an object, among them one that is no field. -/
def members : List (String × Json) :=
  [("note", .array [.bool true, .null]), ("updated_at", .null),
    ("created_at", .ofText "2024-01-10T12:00:00Z"), ("status", .ofText "PLANNED"),
    ("address", .ofText "1st\r\nfloor"), ("type", .ofText "ATM_ONLY"),
    ("longitude", .number ['-', '0', '.', '5']), ("latitude", .number ['1', '5', 'e', '-', '1']),
    ("name", .ofText "say \"hi\""), ("id", .string "a\\u002c1".toList)]

def document : Json := .array [.ofMembers members]

/-- The array of the one object, with blanks around it. -/
def json : String := .ofList ('\n' :: ' ' :: (document.compactChars ++ ['\t']))

/-- A table with a byte-order mark, empty lines, two kinds of line end and a column that is no
field; the column of the absent moment is missing. -/
def csv : String :=
  "\ufeff\r\nname,note,id,\"type\",latitude, longitude ,address,created_at,status\r" ++
    "\"say \"\"hi\"\"\",,\"a,1\",ATM_ONLY,1.5,-5e-1,\"1st\r\nfloor\"," ++
    "2024-01-10T12:00:00Z,PLANNED\n\n"

theorem spells_id : Json.Spells "a\\u002c1".toList "a,1".toList :=
  .plain (by decide) (by decide) (by decide)
    (.unit (n := 0x2c) (by decide) (by decide) (.plain (by decide) (by decide) (by decide) .nil))

theorem digits_of_all {ds : List Char} (some : ds ≠ []) (all : ds.all Char.isDigit = true) :
    Json.Digits ds :=
  ⟨some, List.all_eq_true.1 all⟩

theorem latitude_spelling : Json.NumberSpelling ['1', '5', 'e', '-', '1'] :=
  ⟨[], ['1', '5'], [], ['e', '-', '1'], rfl, .inl rfl,
    ⟨digits_of_all (by decide) (by decide), by decide⟩, .inl rfl,
    .inr ⟨'e', ['-'], ['1'], rfl, .inl rfl, .inr (.inr rfl),
      digits_of_all (by decide) (by decide)⟩⟩

theorem longitude_spelling : Json.NumberSpelling ['-', '0', '.', '5'] :=
  ⟨['-'], ['0'], ['.', '5'], [], rfl, .inr rfl,
    ⟨digits_of_all (by decide) (by decide), by decide⟩,
    .inr ⟨['5'], rfl, digits_of_all (by decide) (by decide)⟩, .inl rfl⟩

theorem spellable : record.Spellable where
  texts := by decide +kernel
  numbers := by
    unfold Record.numbers
    simp only [List.forall_mem_cons]
    exact ⟨⟨⟨_, latitude_spelling, by decide +kernel⟩, "1.5", by decide +kernel,
      show Decimal.readFloat _ = _ by decide +kernel⟩,
      ⟨⟨_, longitude_spelling, by decide +kernel⟩, "-0.5", by decide +kernel,
        show Decimal.readFloat _ = _ by decide +kernel⟩, nofun⟩
  moments := by
    intro field mem moment given
    simp only [Record.moments, List.mem_cons, List.not_mem_nil, or_false] at mem
    rcases mem with rfl | rfl
    · cases given
      exact ⟨"2024-01-10T12:00:00Z", by decide +kernel, read_noon⟩
    · cases given

theorem legal_document : document.Legal := by
  refine Json.legal_array (List.forall_mem_singleton.2 (Json.legal_ofMembers ?_))
  unfold members
  simp only [List.forall_mem_cons, Json.legal_ofText, true_and]
  exact ⟨⟨trivial, trivial, trivial⟩, trivial, longitude_spelling, latitude_spelling,
    spells_id.spelling, nofun⟩

theorem entered_json : record.Entered .json members where
  distinct := by decide +kernel
  texts := by
    have text : ∀ s : String, Medium.json.text (.ofText s) s :=
      fun s => ⟨_, rfl, Json.spells_escape _⟩
    unfold Record.texts
    simp only [List.forall_mem_cons]
    refine ⟨⟨_, ?_, _, rfl, spells_id⟩, ⟨_, ?_, text _⟩, ⟨_, ?_, text _⟩, ⟨_, ?_, text _⟩,
      ⟨_, ?_, text _⟩, nofun⟩
    all_goals simp [members, record, Kind.name, Status.name]
  numbers := by
    unfold Record.numbers
    simp only [List.forall_mem_cons]
    exact ⟨⟨.number ['1', '5', 'e', '-', '1'], by simp [members], _, rfl, by decide +kernel⟩,
      ⟨.number ['-', '0', '.', '5'], by simp [members], _, rfl, by decide +kernel⟩, nofun⟩
  moments := by
    intro field mem moment given
    simp only [Record.moments, List.mem_cons, List.not_mem_nil, or_false] at mem
    rcases mem with rfl | rfl
    · cases given
      exact ⟨.ofText "2024-01-10T12:00:00Z", "2024-01-10T12:00:00Z", by simp [members],
        ⟨_, rfl, Json.spells_escape _⟩, read_noon⟩
    · cases given
  absent := by
    intro field mem missing j entry
    simp only [Record.moments, List.mem_cons, List.not_mem_nil, or_false] at mem
    rcases mem with rfl | rfl
    · cases missing
    · simpa [members, Medium.json] using entry

theorem written_json : Dataset.WrittenAsJson json [record] := by
  refine ⟨[_], ?_, .cons ⟨members, Record.keys_escape members, entered_json⟩ .nil⟩
  have tab : Json.LaysOut ['\t'] [] := .nil (by decide)
  have laid := (Json.laysOut_compact _ legal_document tab).after
    (show Json.Gap ['\n', ' '] by decide)
  rw [List.append_nil] at laid
  unfold json
  rw [String.toList_ofList]
  exact laid

def header : List String :=
  ["name", "note", "id", "type", "latitude", " longitude ", "address", "created_at", "status"]

def row : List String :=
  ["say \"hi\"", "", "a,1", "ATM_ONLY", "1.5", "-5e-1", "1st\r\nfloor", "2024-01-10T12:00:00Z",
    "PLANNED"]

theorem spells_csv : Table.Spells csv [header, row] := by
  refine Table.spells_iff.2 ?_
  decide +kernel

theorem entered_cell : record.Entered .cell ((header.map Text.trim).zip (row.map Text.trim)) where
  distinct := by decide +kernel
  texts := fun field given => ⟨field.2, by revert field; decide +kernel, rfl⟩
  numbers := by
    unfold Record.numbers
    simp only [List.forall_mem_cons]
    exact ⟨⟨"1.5", by decide +kernel, show Decimal.readFloat _ = _ by decide +kernel⟩,
      ⟨"-5e-1", by decide +kernel, show Decimal.readFloat _ = _ by decide +kernel⟩, nofun⟩
  moments := by
    intro field mem moment given
    simp only [Record.moments, List.mem_cons, List.not_mem_nil, or_false] at mem
    rcases mem with rfl | rfl
    · cases given
      exact ⟨_, "2024-01-10T12:00:00Z", by decide +kernel, rfl, read_noon⟩
    · cases given
  absent := by
    have no_column : "updated_at" ∉ (header.map Text.trim) := by decide +kernel
    intro field mem missing cell entry
    simp only [Record.moments, List.mem_cons, List.not_mem_nil, or_false] at mem
    rcases mem with rfl | rfl
    · cases missing
    · exact absurd (List.of_mem_zip entry).1 no_column

theorem written_csv : Dataset.WrittenAsCsv csv [record] :=
  ⟨header, [row], spells_csv, .cons ⟨by decide, entered_cell⟩ .nil⟩

end Sample

/-- The record is given by an object with its fields in reverse, and by a table in an order of its
own. -/
theorem Dataset.formats_agree_of_sample :
    Sample.record.Spellable ∧ (∃ csv, WrittenAsCsv csv [Sample.record]) ∧
      WrittenAsJson Sample.json [Sample.record] ∧ WrittenAsCsv Sample.csv [Sample.record] ∧
      branches Sample.noon .csv Sample.csv = branches Sample.noon .json Sample.json ∧
      ∃ found, branches Sample.noon .json Sample.json = .ok found ∧
        List.Forall₂ (fun p b => p.1.Becomes Sample.noon b) [(Sample.record, 0)] found := by
  obtain ⟨written, agree⟩ := formats_agree [Sample.record] Sample.noon
  obtain ⟨same, onGlobe, -⟩ := agree _ _ Sample.written_json Sample.written_csv
  refine ⟨Sample.spellable, (written ?_).2, Sample.written_json, Sample.written_csv, same,
    onGlobe ?_⟩
  · exact List.forall_mem_singleton.2 Sample.spellable
  · exact List.forall_mem_singleton.2 (by decide +kernel)

end Nearby
