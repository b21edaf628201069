/-
Loading is all or nothing. What a file gives is said by the grammars of the two formats: the rows
that a text spells, and the documents whose tokens it begins with. The first row or record that
the format refuses is what counts, before any coordinates are looked at; then the first record off
the globe; and if there is none, each record becomes one branch, in order. A text that breaks off
is refused where it does, unless a record before that is refused whatever follows.
-/
import Nearby.Dataset.Reader
import Nearby.Proofs.Dataset.Completion
import Nearby.Proofs.Geo.Envelope
import Nearby.Proofs.Table.Rows

namespace Nearby

open Geo Time

/-! ## Records become branches -/

namespace Record

/-- The branch says what the record says; what was never created was created when it was read, and
what was never updated was last updated when it was created. -/
structure Becomes (now : Timestamp) (r : Record) (b : Branch) : Prop where
  id : b.id = r.id
  name : b.name = r.name
  location : b.location.coordinates = r.place
  kind : b.kind = r.kind
  address : b.address = r.address
  status : b.status = r.status
  createdAt : b.createdAt = r.createdAt.getD now
  updatedAt : b.updatedAt = r.updatedAt.getD (r.createdAt.getD now)

/-- A record becomes one branch only. -/
theorem Becomes.unique {now : Timestamp} {r : Record} {a b : Branch} (ha : r.Becomes now a)
    (hb : r.Becomes now b) : a = b := by
  obtain ⟨_, _, ⟨_, _⟩, _, _, _, _, _⟩ := a
  obtain ⟨_, _, ⟨_, _⟩, _, _, _, _, _⟩ := b
  obtain ⟨rfl, rfl, rfl, rfl, rfl, rfl, rfl, rfl⟩ := ha
  obtain ⟨rfl, rfl, rfl, rfl, rfl, rfl, rfl, rfl⟩ := hb
  rfl

theorem toBranch_onGlobe {r : Record} (on : r.place.onGlobe = true) (now : Timestamp) :
    ∃ b, r.toBranch now = .ok b ∧ r.Becomes now b := by
  have located : Point.ofDegrees r.place.latitude r.place.longitude = .ok ⟨r.place, on⟩ :=
    dif_pos on
  unfold toBranch
  rw [located]
  exact ⟨_, rfl, ⟨rfl, rfl, rfl, rfl, rfl, rfl, rfl, rfl⟩⟩

theorem toBranch_offGlobe {r : Record} (off : r.place.onGlobe = false) (now : Timestamp) :
    r.toBranch now = .error (.invalidCoordinate r.place) := by
  have refused : Point.ofDegrees r.place.latitude r.place.longitude =
      .error (.invalidCoordinate r.place) := dif_neg (by rw [off]; exact Bool.false_ne_true)
  unfold toBranch
  rw [refused]
  rfl

end Record

namespace Dataset

open Json Record

/-- The coordinates are numbers within the bounds of the globe. -/
def Located (c : Coordinates Float) : Prop :=
  (c.latitude.isFinite = true ∧ c.longitude.isFinite = true) ∧
    (-90 ≤ c.latitude ∧ c.latitude ≤ 90) ∧ -180 ≤ c.longitude ∧ c.longitude ≤ 180

theorem located_iff {c : Coordinates Float} : Located c ↔ c.onGlobe = true := by
  constructor
  · rintro ⟨-, latitude, longitude⟩
    unfold Coordinates.onGlobe Scalar.within
    simp only [Bool.and_eq_true, Scalar.le, decide_eq_true_eq]
    exact ⟨latitude, longitude⟩
  · intro on
    exact ⟨(⟨c, on⟩ : Point).isFinite_degrees, (⟨c, on⟩ : Point).between⟩

theorem toBranch_eq_ok_iff {now : Timestamp} {r : Record} {b : Branch} :
    r.toBranch now = .ok b ↔ Located r.place ∧ r.Becomes now b := by
  rw [located_iff]
  cases on : r.place.onGlobe with
  | false => simp [Record.toBranch_offGlobe on now]
  | true =>
    obtain ⟨made, is, becomes⟩ := Record.toBranch_onGlobe on now
    rw [is, and_iff_right rfl]
    constructor
    · intro same
      cases same
      exact becomes
    · intro becomes'
      exact congrArg _ (becomes.unique becomes')

theorem toBranch_eq_error_iff {now : Timestamp} {r : Record} {fault : Fault} :
    r.toBranch now = .error fault ↔
      ¬ Located r.place ∧ .invalidCoordinate r.place = fault := by
  rw [located_iff, Bool.not_eq_true]
  cases on : r.place.onGlobe with
  | true =>
    obtain ⟨b, made, -⟩ := Record.toBranch_onGlobe on now
    simp [made]
  | false => simp [Record.toBranch_offGlobe on now]

theorem exists_toBranch_iff {now : Timestamp} {r : Record} :
    (∃ b, r.toBranch now = .ok b) ↔ Located r.place := by
  constructor
  · rintro ⟨b, made⟩
    exact (toBranch_eq_ok_iff.1 made).1
  · intro located
    obtain ⟨b, made, -⟩ := Record.toBranch_onGlobe (located_iff.1 located) now
    exact ⟨b, made⟩

/-! ## Tables -/

/-- The row says what the record says. It has a cell under each name of the header. -/
def RowHolds (header row : List String) (r : Record) : Prop :=
  row.length = header.length ∧ Describes .cell ((header.map some).zip row) r

/-- What is wrong with the row of this number, if it says no record. -/
inductive RowFails (header row : List String) (number : Nat) : RowFlaw → Prop where
  | width : row.length ≠ header.length →
      RowFails header row number (@RowFlaw.width number header.length row.length)
  | content {flaw : RecordFlaw} : row.length = header.length →
      Flawed .cell ((header.map some).zip row) flaw →
      RowFails header row number (@RowFlaw.content flaw number)

/-- What the rows of a table give. The first one is the header. -/
inductive TableGives : List (List String) → Except RowFlaw (List Record) → Prop where
  | empty : TableGives [] (.ok [])
  | records {header : List String} {rows : List (List String)} {records : List Record} :
      List.Forall₂ (RowHolds header) rows records → TableGives (header :: rows) (.ok records)
  /-- The first row that says no record is what counts. -/
  | row {header row : List String} {before after : List (List String)} {flaw : RowFlaw} :
      (∀ other ∈ before, ∃ r, RowHolds header other r) →
      RowFails header row (1 + before.length) flaw →
      TableGives (header :: (before ++ row :: after)) (.error flaw)

section Table

variable {header row : List String} {number : Nat}

theorem rowRecord_eq_ok_iff {r : Record} :
    rowRecord header row number = .ok r ↔ RowHolds header row r := by
  unfold rowRecord RowHolds
  rw [← ofEntries_eq_ok_iff]
  by_cases wide : row.length = header.length
  · rw [if_neg (not_not.2 wide), mapError_eq_ok_iff, and_iff_right wide]
    rfl
  · simp [wide]

theorem rowRecord_eq_error_iff {flaw : RowFlaw} :
    rowRecord header row number = .error flaw ↔ RowFails header row number flaw := by
  unfold rowRecord
  by_cases wide : row.length = header.length
  · rw [if_neg (not_not.2 wide), mapError_eq_error_iff]
    constructor
    · rintro ⟨flaw, refused, rfl⟩
      exact .content wide (ofEntries_eq_error_iff.1 refused)
    · rintro (narrow | ⟨-, flawed⟩)
      · exact absurd wide narrow
      · exact ⟨_, ofEntries_eq_error_iff.2 flawed, rfl⟩
  · rw [if_pos wide, Except.error.injEq]
    constructor
    · rintro rfl
      exact .width wide
    · rintro (_ | ⟨wide', -⟩)
      · rfl
      · exact absurd wide' wide

/-- A table is read as what it gives. -/
theorem tableGives_iff {text : String} {answer : Except RowFlaw (List Record)} :
    TableGives ((Table.rows text).map (·.map Text.trim)) answer ↔ tableRecords text = answer := by
  unfold tableRecords
  cases (Table.rows text).map (·.map Text.trim) with
  | nil =>
    constructor
    · rintro ⟨⟩
      rfl
    · rintro rfl
      exact .empty
  | cons header rows =>
    have pointwise : ∀ {rows : List (List String)} {records : List Record},
        List.Forall₂ (fun (p : List String × Nat) r => rowRecord header p.1 p.2 = .ok r)
          (rows.zipIdx 1) records ↔ List.Forall₂ (RowHolds header) rows records := by
      intro rows records
      simp only [rowRecord_eq_ok_iff]
      rw [← List.forall₂_map_left_iff, List.zipIdx_map_fst]
    have each : ∀ {rows : List (List String)},
        (∀ p ∈ rows.zipIdx 1, ∃ r, rowRecord header p.1 p.2 = .ok r) ↔
          ∀ row ∈ rows, ∃ r, RowHolds header row r := by
      intro rows
      simp only [rowRecord_eq_ok_iff]
      exact forall_mem_zipIdx fun row => ∃ r, RowHolds header row r
    constructor
    · rintro (_ | holds | ⟨fine, fails⟩)
      · exact mapM_eq_ok_iff.2 (pointwise.2 holds)
      · exact mapM_zipIdx_eq_error_iff.2
          ⟨_, _, _, rfl, each.2 fine, rowRecord_eq_error_iff.2 fails⟩
    · intro read
      cases answer with
      | ok records => exact .records (pointwise.1 (mapM_eq_ok_iff.1 read))
      | error flaw =>
        obtain ⟨before, row, after, rfl, fine, fails⟩ := mapM_zipIdx_eq_error_iff.1 read
        exact .row (each.1 fine) (rowRecord_eq_error_iff.1 fails)

end Table

/-! ## Documents -/

/-- The document says what the record says. -/
def ItemHolds (item : Json) (r : Record) : Prop :=
  ∃ entries, entries? item = some entries ∧ Describes .json entries r

/-- What is wrong with the document, if it says no record. -/
inductive ItemFails (item : Json) : RecordFlaw → Prop where
  | form : entries? item = none → ItemFails item .form
  | entries {entries : List (Option String × Json)} {flaw : RecordFlaw} :
      entries? item = some entries → Flawed .json entries flaw → ItemFails item flaw

/-- What a document gives. It has to be an array. -/
inductive DocumentGives : Json → Except DocumentFlaw (List Record) → Prop where
  | records {items : List Json} {records : List Record} :
      List.Forall₂ ItemHolds items records → DocumentGives (.array items) (.ok records)
  /-- The first item that says no record is what counts. -/
  | item {before after : List Json} {item : Json} {flaw : RecordFlaw} :
      (∀ other ∈ before, ∃ r, ItemHolds other r) → ItemFails item flaw →
      DocumentGives (.array (before ++ item :: after)) (.error (.after before.length flaw))
  | other {j : Json} : (∀ items, j ≠ .array items) →
      DocumentGives j (.error (.after 0 .form))

section Document

variable {item : Json}

theorem itemHolds_iff {r : Record} : ItemHolds item r ↔ Record.ofJson item = .ok r :=
  ofJson_eq_ok_iff.symm

theorem itemFails_iff {flaw : RecordFlaw} :
    ItemFails item flaw ↔ Record.ofJson item = .error flaw := by
  rw [ofJson_eq_error_iff]
  constructor
  · rintro (none | ⟨is, flawed⟩)
    · exact .inl ⟨none, rfl⟩
    · exact .inr ⟨_, is, flawed⟩
  · rintro (⟨none, rfl⟩ | ⟨_, is, flawed⟩)
    · exact .form none
    · exact .entries is flawed

theorem hold_iff {items : List Json} {records : List Record} :
    List.Forall₂ ItemHolds items records ↔ Hold items records :=
  ⟨.imp fun _ _ => itemHolds_iff.1, .imp fun _ _ => itemHolds_iff.2⟩

theorem exists_hold_of_fine {items : List Json} (fine : ∀ item ∈ items, ∃ r, ItemHolds item r) :
    ∃ records, Hold items records :=
  exists_hold fun item mem => (fine item mem).imp fun _ => itemHolds_iff.1

/-- Any document gives something. -/
theorem exists_gives (j : Json) : ∃ answer, DocumentGives j answer := by
  cases j with
  | array items =>
    cases read : items.mapM Record.ofJson with
    | ok records => exact ⟨_, .records (hold_iff.2 (mapM_eq_ok_iff.1 read))⟩
    | error flaw =>
      obtain ⟨before, item, after, rfl, fine, fails⟩ := mapM_eq_error_iff.1 read
      refine ⟨_, .item (fun other mem => ?_) (itemFails_iff.2 fails)⟩
      exact (fine other mem).imp fun r => itemHolds_iff.2
  | _ => exact ⟨_, .other nofun⟩

/-- A document gives what the reader comes to over its tokens. -/
theorem documentGives_iff {j : Json} {answer : Except DocumentFlaw (List Record)} :
    DocumentGives j answer ↔
      (run (toTokens j) {}).map (fun intake => intake.records.reverse) = answer := by
  have forward : ∀ {answer}, DocumentGives j answer →
      (run (toTokens j) {}).map (fun intake => intake.records.reverse) = answer := by
    intro answer gives
    cases gives with
    | records holds =>
      rw [run_array (hold_iff.1 holds)]
      exact congrArg Except.ok (List.reverse_reverse _)
    | @item before after item flaw fine fails =>
      obtain ⟨found, hold⟩ := exists_hold_of_fine fine
      obtain ⟨more, longer⟩ := itemTokens_longer before item after
      have refused := run_spoiled hold (itemFails_iff.1 fails) (more ++ [.closeArray])
      rw [toTokens, ← longer]
      simp only [List.append_assoc] at refused ⊢
      rw [refused]
      rfl
    | other other =>
      rw [run_other other]
      rfl
  refine ⟨forward, ?_⟩
  rintro rfl
  obtain ⟨answer, gives⟩ := exists_gives j
  rwa [forward gives]

theorem DocumentGives.unique {j : Json} {answer answer' : Except DocumentFlaw (List Record)}
    (gives : DocumentGives j answer) (gives' : DocumentGives j answer') : answer = answer' :=
  (documentGives_iff.1 gives).symm.trans (documentGives_iff.1 gives')

theorem run_of_refused {j : Json} {flaw : DocumentFlaw} (refused : DocumentGives j (.error flaw)) :
    run (toTokens j) {} = .error flaw := by
  have mapped := documentGives_iff.1 refused
  cases all : run (toTokens j) {} with
  | ok intake => rw [all] at mapped; cases mapped
  | error flaw' => rw [all] at mapped; cases mapped; rfl

end Document

/-! ## Texts of documents -/

/-- The tokens settle the flaw: all documents that begin with them have it, and there are some. -/
def Settles (part : List Token) (flaw : DocumentFlaw) : Prop :=
  (∃ j, part <+: toTokens j) ∧ ∀ j, part <+: toTokens j → DocumentGives j (.error flaw)

/-- What a JSON text gives. -/
inductive TextGives (text : String) : Except DocumentFlaw (List Record) → Prop where
  /-- The text is that of an array of records. -/
  | records {j : Json} {records : List Record} : LaysOut text.toList (toTokens j) →
      DocumentGives j (.ok records) → TextGives text (.ok records)
  /-- The text begins like a document that is refused, whatever follows. -/
  | settled {part : List Token} {flaw : DocumentFlaw} : Begins text.toList part →
      Settles part flaw → TextGives text (.error flaw)
  /-- The text is that of no document, and nothing that it begins with settles a flaw. It breaks
  off behind the items that are complete. -/
  | broken {n : Nat} : (∀ j, ¬ LaysOut text.toList (toTokens j)) →
      (∀ part flaw, Begins text.toList part → ¬ Settles part flaw) →
      (n = 0 ∨ ∃ items : List Json, items.length = n ∧
        Begins text.toList (.openArray :: itemTokens items)) →
      (∀ items : List Json, Begins text.toList (.openArray :: itemTokens items) →
        items.length ≤ n) →
      TextGives text (.error (.after n .broken))

section Text

variable {text : String} {part : List Token} {intake : Intake}

/-- What has been read without a flaw settles none. -/
theorem not_settles (legal : ∀ token ∈ part, token.Legal) (read : run part {} = .ok intake)
    (flaw : DocumentFlaw) : ¬ Settles part flaw := by
  rintro ⟨-, refused⟩
  obtain ⟨items, found, hold, longer⟩ := (Sound.start.run legal read).completes
  rw [tokens_of_run legal read] at longer
  have gives := DocumentGives.records (hold_iff.2 hold)
  cases gives.unique (refused _ longer)

/-- A token that is refused for a flaw settles it. -/
theorem settles_of_run {flaw : DocumentFlaw} (begins : ∃ j, part <+: toTokens j)
    (refused : run part {} = .error flaw) : Settles part flaw := by
  refine ⟨begins, ?_⟩
  rintro j ⟨more, all⟩
  refine documentGives_iff.2 ?_
  rw [← all, run_append_error refused]
  rfl

/-- Where the reader can go no further, and has met no flaw, the text breaks off. -/
theorem TextGives.of_stuck (begins : Begins text.toList part) (read : run part {} = .ok intake)
    (none : ∀ j, ¬ LaysOut text.toList (toTokens j))
    (most : ∀ longer, Begins text.toList longer → (∃ j, longer <+: toTokens j) → longer <+: part) :
    TextGives text (.error (.after intake.records.length .broken)) := by
  refine .broken none (fun longer flaw begins' settles => ?_) ?_ fun items begins' => ?_
  · obtain ⟨more, rfl⟩ := most longer begins' settles.1
    obtain ⟨between, read', -⟩ := of_run_append read
    exact not_settles begins'.legal read' flaw settles
  · obtain ⟨items, length, rfl | ⟨more, all⟩⟩ := (Sound.start.run begins.legal read).counted
    · exact .inl length.symm
    · rw [tokens_of_run begins.legal read] at all
      exact .inr ⟨items, length, (all ▸ begins).left⟩
  · have longer : .openArray :: itemTokens items <+: toTokens (.array items) := by
      rw [toTokens]
      exact (List.prefix_cons_inj _).2 (List.prefix_append _ _)
    exact length_le_records (most _ begins' ⟨_, longer⟩) read

theorem documentRecords_eq (text : String) : documentRecords text =
    (run (scan text.toList).tokens {} >>= fun intake => intake.finish (scan text.toList).whole) :=
  rfl

/-- No document goes on where the reader cannot. -/
theorem not_longer {token : Token} (read : run part {} = .ok intake)
    (stuck : intake.reading.step token = none) (j : Json) : ¬ part ++ [token] <+: toTokens j := by
  rintro ⟨more, all⟩
  have folded := foldlM_toTokens j
  rw [← all, List.append_assoc, List.foldlM_append, (of_run read).1] at folded
  change (token :: more).foldlM Reading.step intake.reading = _ at folded
  rw [List.foldlM_cons, stuck] at folded
  cases folded

/-- A text is refused on the first token that settles a flaw or fits no document. -/
theorem TextGives.of_refused {token : Token} {rest : List Token} {flaw : DocumentFlaw}
    (split : (scan text.toList).tokens = part ++ token :: rest) (read : run part {} = .ok intake)
    (refused : intake.step token = .error flaw) : TextGives text (.error flaw) := by
  have begins : Begins text.toList (part ++ [token]) :=
    begins_iff.2 ⟨rest, by rw [split, List.append_assoc]; rfl⟩
  cases stepped : intake.reading.step token with
  | none =>
    have broken : flaw = .after intake.records.length .broken := by
      unfold Intake.step at refused
      rw [stepped] at refused
      exact (Except.error.inj refused).symm
    rw [broken]
    refine .of_stuck begins.left read (fun j laid => ?_) fun longer begins' fits => ?_
    · refine not_longer read stepped j ⟨rest, ?_⟩
      rw [List.append_assoc, List.singleton_append, ← split, laid.scan (parted_toTokens j)]
    · obtain ⟨j, fits⟩ := fits
      rcases List.prefix_or_prefix_of_prefix (begins_iff.1 begins') (begins_iff.1 begins) with
        shorter | longer
      · rcases List.prefix_concat_iff.1 shorter with rfl | shorter
        · exact absurd fits (not_longer read stepped j)
        · exact shorter
      · exact absurd (longer.trans fits) (not_longer read stepped j)
  | some r' =>
    have folded : (part ++ [token]).foldlM Reading.step (.value []) = some r' := by
      rw [List.foldlM_append, (of_run read).1]
      show (intake.reading.step token >>= pure) = _
      rw [stepped]
      rfl
    obtain ⟨j, longer⟩ := exists_begun r'
    rw [tokens_of_foldlM begins.legal folded] at longer
    refine .settled begins (settles_of_run ⟨j, longer⟩ ?_)
    rw [run_append read]
    show (intake.step token >>= pure) = _
    rw [refused]
    rfl

/-- A text gives what is read from it. -/
theorem textGives_documentRecords (text : String) : TextGives text (documentRecords text) := by
  have begins : Begins text.toList (scan text.toList).tokens := begins_iff.2 List.prefix_rfl
  rw [documentRecords_eq]
  cases read : run (scan text.toList).tokens {} with
  | error flaw =>
    obtain ⟨part, token, rest, intake, split, read, refused⟩ := foldlM_eq_error_iff.1 read
    exact .of_refused split read refused
  | ok intake =>
    show TextGives text (intake.finish (scan text.toList).whole)
    by_cases done : (∃ value, intake.reading = .complete [] value) ∧ (scan text.toList).whole = true
    · obtain ⟨⟨value, is⟩, whole⟩ := done
      obtain ⟨records, reading⟩ := intake
      obtain rfl : reading = .complete [] value := is
      obtain ⟨items, rfl, hold⟩ := (Sound.start.run begins.legal read).of_complete
      have all : toTokens (.array items) = _ := tokens_of_run begins.legal read
      rw [whole]
      refine .records ?_ (.records (hold_iff.2 hold))
      rw [all]
      exact laysOut_of_whole whole
    · have refused : intake.finish (scan text.toList).whole =
          .error (.after intake.records.length .broken) := by
        unfold Intake.finish
        split
        case h_1 value is whole => exact absurd ⟨⟨value, is⟩, whole⟩ done
        case h_2 => rfl
      rw [refused]
      refine .of_stuck begins read (fun j laid => done ?_) fun longer begins' _ =>
        begins_iff.1 begins'
      have same := laid.scan (parted_toTokens j)
      have folded := (of_run read).1
      rw [same] at folded ⊢
      exact ⟨⟨j, (Option.some.inj ((foldlM_toTokens j).symm.trans folded)).symm⟩, rfl⟩

/-- A text gives one answer. -/
theorem textGives_iff {answer : Except DocumentFlaw (List Record)} :
    TextGives text answer ↔ documentRecords text = answer := by
  refine ⟨fun gives => ?_, fun is => is ▸ textGives_documentRecords text⟩
  cases gives with
  | records laid gives =>
    rw [documentRecords_eq, laid.scan (parted_toTokens _)]
    cases gives with
    | records holds =>
      rw [run_array (hold_iff.1 holds)]
      exact congrArg Except.ok (List.reverse_reverse _)
  | @settled part flaw begins settles =>
    obtain ⟨more, all⟩ := begins_iff.1 begins
    obtain ⟨j, more', longer⟩ := settles.1
    have refused := run_of_refused (settles.2 j ⟨more', longer⟩)
    rw [documentRecords_eq, ← all]
    cases read : run part {} with
    | ok intake => exact absurd settles (not_settles begins.legal read flaw)
    | error flaw' =>
      rw [← longer, run_append_error read] at refused
      rw [run_append_error read, refused]
      rfl
  | @broken n none unsettled some most =>
    have gives := textGives_documentRecords text
    generalize documentRecords text = answer at gives
    cases gives with
    | records laid => exact absurd laid (none _)
    | settled begins settles => exact absurd settles (unsettled _ _ begins)
    | @broken n' _ _ some' most' =>
      have le : n ≤ n' := by
        rcases some with rfl | ⟨items, rfl, begins⟩
        · exact Nat.zero_le _
        · exact most' items begins
      have le' : n' ≤ n := by
        rcases some' with rfl | ⟨items, rfl, begins⟩
        · exact Nat.zero_le _
        · exact most items begins
      rw [Nat.le_antisymm le le']

/-- The first item of an array that says no record is refused, whatever follows it. -/
theorem TextGives.of_item {before : List Json} {item : Json} {flaw : RecordFlaw}
    (fine : ∀ other ∈ before, ∃ r, ItemHolds other r) (fails : ItemFails item flaw)
    (begins : Begins text.toList (.openArray :: (listed before ++ toTokens item))) :
    TextGives text (.error (.after before.length flaw)) := by
  obtain ⟨found, hold⟩ := exists_hold_of_fine fine
  refine .settled begins (settles_of_run ⟨.array (before ++ [item]), ?_⟩ ?_)
  · rw [toTokens, itemTokens_append]
    exact (List.prefix_cons_inj _).2 (List.prefix_append _ _)
  · have refused := run_spoiled hold (itemFails_iff.1 fails) []
    rwa [List.append_nil] at refused

end Text

/-! ## Files -/

/-- What a file gives. Blanks around the names and the cells of a table do not count. -/
inductive FileGives (text : String) : DataFormat → Except Fault (List Record) → Prop where
  | json {answer : Except DocumentFlaw (List Record)} : TextGives text answer →
      FileGives text .json (answer.mapError .malformedDocument)
  | csv {rows : List (List String)} {answer : Except RowFlaw (List Record)} :
      Table.Spells text rows → TableGives (rows.map (·.map Text.trim)) answer →
      FileGives text .csv (answer.mapError .malformedTable)

/-- What becomes of a file. -/
inductive Loads (clock : Clock) (format : DataFormat) (text : String) :
    Except Fault (List Branch) → Prop where
  /-- What the format refuses is refused, even behind a record off the globe. -/
  | refused {fault : Fault} : FileGives text format (.error fault) →
      Loads clock format text (.error fault)
  /-- If there are records, the first one off the globe is what counts. -/
  | offGlobe {before after : List Record} {r : Record} :
      FileGives text format (.ok (before ++ r :: after)) → (∀ s ∈ before, Located s.place) →
      ¬ Located r.place → Loads clock format text (.error (.invalidCoordinate r.place))
  /-- If there is none, each record becomes one branch on the globe, in order. The clock is read
  for each. -/
  | loaded {records : List Record} {found : List Branch} : FileGives text format (.ok records) →
      List.Forall₂ (fun (p : Record × Nat) b =>
        Located p.1.place ∧ p.1.Becomes (clock.reading p.2) b) records.zipIdx found →
      Loads clock format text (.ok found)

section File

variable {clock : Clock} {format : DataFormat} {text : String}

theorem fileGives_iff {answer : Except Fault (List Record)} :
    FileGives text format answer ↔ records format text = answer := by
  constructor
  · rintro (gives | ⟨spells, gives⟩)
    · exact congrArg (Except.mapError _) (textGives_iff.1 gives)
    · rw [← Table.spells_iff.1 spells] at gives
      exact congrArg (Except.mapError _) (tableGives_iff.1 gives)
  · rintro rfl
    cases format with
    | json => exact .json (textGives_iff.2 rfl)
    | csv => exact .csv (Table.spells_iff.2 rfl) (tableGives_iff.2 rfl)

/-- A file gives what it loads as, and nothing else. -/
theorem branches_eq_iff_loads (clock : Clock) (format : DataFormat) (text : String)
    (answer : Except Fault (List Branch)) :
    branches clock format text = answer ↔ Loads clock format text answer := by
  have staged : branches clock format text = (records format text >>= fun records =>
      records.zipIdx.mapM fun p => p.1.toBranch (clock.reading p.2)) := rfl
  have placed : ∀ {records : List Record},
      (∀ p ∈ records.zipIdx, ∃ b, p.1.toBranch (clock.reading p.2) = .ok b) ↔
        ∀ r ∈ records, Located r.place := by
    intro records
    simp only [exists_toBranch_iff]
    exact forall_mem_zipIdx fun r : Record => Located r.place
  rw [staged]
  constructor
  · intro loaded
    cases read : records format text with
    | error fault =>
      rw [read] at loaded
      cases loaded
      exact .refused (fileGives_iff.2 read)
    | ok records =>
      rw [read] at loaded
      change records.zipIdx.mapM _ = answer at loaded
      cases answer with
      | error fault =>
        obtain ⟨before, r, after, rfl, fine, fails⟩ := mapM_zipIdx_eq_error_iff.1 loaded
        obtain ⟨off, rfl⟩ := toBranch_eq_error_iff.1 fails
        exact .offGlobe (fileGives_iff.2 read) (placed.1 fine) off
      | ok found =>
        have become := (mapM_eq_ok_iff.1 loaded).imp fun p b => toBranch_eq_ok_iff.1
        exact .loaded (fileGives_iff.2 read) become
  · rintro (gives | ⟨gives, fine, off⟩ | ⟨gives, become⟩)
    · rw [fileGives_iff.1 gives]
      rfl
    · rw [fileGives_iff.1 gives]
      exact mapM_zipIdx_eq_error_iff.2
        ⟨_, _, _, rfl, placed.2 fine, toBranch_eq_error_iff.2 ⟨off, rfl⟩⟩
    · rw [fileGives_iff.1 gives]
      exact mapM_eq_ok_iff.2 (become.imp fun p b => toBranch_eq_ok_iff.2)

end File

end Dataset

/-! ## Two bad entries behind a record off the globe -/

namespace Sample

open Dataset Json Record

def noon : Timestamp := (Timestamp.read "2024-01-10T12:00:00Z").get (by decide +kernel)

/-- The first row is off the globe, the second one too short, and the third has no latitude. -/
def badRows : List (List String) :=
  [["id", "name", "latitude", "longitude", "type"], ["a", "A", "95", "0", "ATM_ONLY"],
    ["b", "B", "0", "0"], ["c", "C", "x", "0", "ATM_ONLY"]]

def badTable : String :=
  "id,name,latitude,longitude,type\na,A,95,0,ATM_ONLY\nb,B,0,0\nc,C,x,0,ATM_ONLY\n"

def farMembers : List (String × Json) :=
  [("id", .ofText "a"), ("name", .ofText "A"), ("latitude", .number ['9', '5']),
    ("longitude", .number ['0']), ("type", .ofText "ATM_ONLY")]

def shortMembers : List (String × Json) := [("id", .ofText "b"), ("name", .ofText "B")]

/-- The first item is off the globe, the second one has no latitude, and the third is a number. -/
def badItems : List Json := [.ofMembers farMembers, .ofMembers shortMembers, .number ['7']]

/-- The items of an array that breaks off behind them. -/
def badDocument : String := .ofList ('[' :: (compactItems badItems ++ [',']))

theorem spells_badTable : Table.Spells badTable badRows := by
  refine Table.spells_iff.2 ?_
  decide +kernel

theorem exists_of_isOk {ε α : Type} {x : Except ε α} (ok : x.isOk = true) : ∃ a, x = .ok a := by
  cases x with
  | ok a => exact ⟨a, rfl⟩
  | error => cases ok

theorem far_row : ∃ r, RowHolds ["id", "name", "latitude", "longitude", "type"]
    ["a", "A", "95", "0", "ATM_ONLY"] r := by
  obtain ⟨r, read⟩ : ∃ r, rowRecord ["id", "name", "latitude", "longitude", "type"]
      ["a", "A", "95", "0", "ATM_ONLY"] 1 = .ok r := exists_of_isOk (by decide +kernel)
  exact ⟨r, rowRecord_eq_ok_iff.1 read⟩

theorem far_item : ∃ r, ItemHolds (.ofMembers farMembers) r := by
  obtain ⟨r, read⟩ : ∃ r, Record.ofJson (.ofMembers farMembers) = .ok r :=
    exists_of_isOk (by decide +kernel)
  exact ⟨r, itemHolds_iff.2 read⟩

theorem short_item : ItemFails (.ofMembers shortMembers) (.missing "latitude") := by
  refine itemFails_iff.2 ?_
  rfl

theorem whole_spelling {ds : List Char} (some : ds ≠ []) (all : ds.all Char.isDigit = true)
    (zero : ds.head? = Option.some '0' → ds.length = 1) : NumberSpelling ds :=
  ⟨[], ds, [], [], by simp, .inl rfl, ⟨⟨some, List.all_eq_true.1 all⟩, zero⟩, .inl rfl, .inl rfl⟩

theorem legal_badItems : LegalItems badItems := by
  refine (legal_array ?_ : Legal (.array badItems))
  unfold badItems
  simp only [List.forall_mem_cons]
  refine ⟨legal_ofMembers ?_, legal_ofMembers ?_, ?_, nofun⟩
  · unfold farMembers
    simp only [List.forall_mem_cons, legal_ofText, true_and]
    exact ⟨whole_spelling (by decide) (by decide) (by decide),
      whole_spelling (by decide) (by decide) (by decide), nofun⟩
  · unfold shortMembers
    simp only [List.forall_mem_cons, legal_ofText, true_and]
    exact nofun
  · exact whole_spelling (by decide) (by decide) (by decide)

theorem begins_badDocument : Begins badDocument.toList
    (.openArray :: (listed [.ofMembers farMembers] ++ toTokens (.ofMembers shortMembers))) := by
  have comma : LaysOut [','] [.comma] := LaysOut.next .comma trivial (.nil nofun)
  have laid := (laysOut_items badItems legal_badItems comma).next .openArray trivial
  have parted : Parted (.openArray :: (itemTokens badItems ++ [.comma])) :=
    parted_cons nofun (parted_items badItems (by simp [Token.isMark]) (.singleton _))
  have chars : badDocument.toList = Token.openArray.chars ++ (compactItems badItems ++ [',']) :=
    String.toList_ofList
  obtain ⟨more, longer⟩ :=
    itemTokens_longer [.ofMembers farMembers] (.ofMembers shortMembers) [.number ['7']]
  have begins := laid.begins parted
  rw [← chars, show itemTokens badItems = _ from longer.symm, List.append_assoc] at begins
  exact begins.left

/-- The first bad entry is refused, not the record before it nor the entry or the end behind. -/
theorem branches_of_bad_entries :
    Dataset.branches noon .csv badTable = .error (.malformedTable (@RowFlaw.width 2 5 4)) ∧
      Dataset.branches noon .json badDocument =
        .error (.malformedDocument (.after 1 (.missing "latitude"))) := by
  have rows : TableGives (badRows.map (·.map Text.trim)) (.error (@RowFlaw.width 2 5 4)) := by
    have trimmed : badRows.map (·.map Text.trim) = badRows := by decide +kernel
    rw [trimmed]
    exact .row (List.forall_mem_singleton.2 far_row) (.width (by decide))
  have items := TextGives.of_item (List.forall_mem_singleton.2 far_item) short_item
    begins_badDocument
  exact ⟨(branches_eq_iff_loads noon .csv badTable _).2 (.refused (.csv spells_badTable rows)),
    (branches_eq_iff_loads noon .json badDocument _).2 (.refused (.json items))⟩

end Sample

end Nearby
