/-
Records of a JSON array, read as the text goes on. The text is taken in token by token; each
record is complete as soon as its last token has been read, and a record that can no longer become
one is refused at once, whatever stands behind it.
-/
import Nearby.Dataset.Record

namespace Nearby.Dataset

open Json

/-! ## Flaws on the way -/

/-- The flaw of a key of an object, after the members before it. -/
def keyFlaw (before : List (List Char × Json)) (key : List Char) : Option RecordFlaw :=
  match (Json.string key).text? with
  | none => some .form
  | some name =>
    let taken := before.any fun member => (Json.string member.1).text? = some name
    if (Field.ofKey name).isSome ∧ taken then some (.repeated name) else none

/-- The field of a record whose value comes next, where the record has been read so far. -/
def fieldIn : Frame → Option Field
  | .member _ key => (Json.string key).text?.bind Field.ofKey
  | .items before => Field.all[before.length]?

/-- The flaw of a field whose value is bad. -/
def valueFlaw (frame : Frame) (bad : Field → Bool) : Option RecordFlaw :=
  ((fieldIn frame).filter bad).map fun field => .invalid field.key

/-- The flaw of a record that goes on where the frame ends, in front of its next value. -/
def lengthFlaw : Frame → Option RecordFlaw
  | .items before => if before.length < Field.all.length then none else some .form
  | .member _ _ => none

/-- What is wrong with the array as far as it has been read, inside its last record or in front of
it. What is open is the array itself, which comes last, then a record in it, and then an object
that names the value of a field. -/
def flaw? : Reading → Option RecordFlaw
  -- the text is no array
  | .firstKey [] => some .form
  | .complete [] (.array _) => none
  | .complete [] _ => some .form
  -- an entry of a record begins
  | .colon [_] before key => keyFlaw before key
  | .value [frame, _] => lengthFlaw frame
  -- a value of a record
  | .complete [frame, _] value => valueFlaw frame fun field => !Decoder.json.accepts field value
  | .firstItem [frame, _] => valueFlaw frame fun _ => true
  | .firstKey [frame, _] => valueFlaw frame fun field => !field.isChoice
  -- an object that names a value
  | .colon [frame, _] before key =>
    valueFlaw frame fun field => !(before.isEmpty && Decoder.json.accepts field (.string key))
  | .key [frame, _] _ => valueFlaw frame fun _ => true
  | .complete [_, _, _] .null => none
  | .complete [_, frame, _] _ => valueFlaw frame fun _ => true
  | .firstItem [_, frame, _] => valueFlaw frame fun _ => true
  | .firstKey [_, frame, _] => valueFlaw frame fun _ => true
  | _ => none

/-! ## Reading -/

/-- The records so far, last one first, and what has been read. -/
structure Intake where
  records : List Record := []
  reading : Reading := .value []

namespace Intake

/-- Refuses the record that comes next. -/
def refuse {α : Type} (intake : Intake) (flaw : RecordFlaw) : Except DocumentFlaw α :=
  .error (.after intake.records.length flaw)

/-- Goes on to what has been read now. An item of the array that is complete is a record. -/
def advance (intake : Intake) (reading : Reading) : Except RecordFlaw Intake :=
  match reading with
  | .complete [_] item =>
    (Record.ofJson item).map fun record => ⟨record :: intake.records, reading⟩
  | _ =>
    match flaw? reading with
    | some flaw => .error flaw
    | none => .ok { intake with reading }

/-- Takes in one token. -/
def step (intake : Intake) (token : Token) : Except DocumentFlaw Intake :=
  match intake.reading.step token with
  | none => intake.refuse .broken
  | some reading =>
    match intake.advance reading with
    | .error flaw => intake.refuse flaw
    | .ok next => .ok next

/-- The records, if the array is complete. -/
def finish (intake : Intake) (whole : Bool) : Except DocumentFlaw (List Record) :=
  match intake.reading, whole with
  | .complete [] _, true => .ok intake.records.reverse
  | _, _ => intake.refuse .broken

end Intake

/-- The records of a JSON array. -/
def documentRecords (text : String) : Except DocumentFlaw (List Record) := do
  let scan := Json.scan text.toList
  (← scan.tokens.foldlM Intake.step {}).finish scan.whole

end Nearby.Dataset
