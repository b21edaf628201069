/-
Reading a dataset. All records are read before the first one becomes a branch, so a record that
does not have the form of one is reported even when an earlier one has coordinates out of range.
-/
import Nearby.Dataset.Document
import Nearby.Dataset.Format
import Nearby.Table.Rows

namespace Nearby

open Time

/-! ## Clocks -/

/-- What a clock shows as each record of a file becomes a branch. -/
structure Clock where
  reading : Nat → Timestamp

/-- A clock that stands still. -/
instance : Coe Timestamp Clock := ⟨fun now => ⟨fun _ => now⟩⟩

namespace Dataset

/-! ## Records of a text -/

/-- The record of a row, where the header has the given names. -/
def rowRecord (header : List String) (row : List String) (number : Nat) :
    Except RowFlaw Record :=
  if row.length ≠ header.length then .error (@RowFlaw.width number header.length row.length)
  else (Record.ofCells header row).mapError fun flaw => @RowFlaw.content flaw number

/-- The records of a table. Its first row names the columns; blanks around names and cells do not
count. -/
def tableRecords (text : String) : Except RowFlaw (List Record) :=
  match (Table.rows text).map (·.map Text.trim) with
  | [] => .ok []
  | header :: rows => (rows.zipIdx 1).mapM fun (row, number) => rowRecord header row number

/-- The records of a text in the given format. -/
def records (format : DataFormat) (text : String) : Except Fault (List Record) :=
  match format with
  | .json => (documentRecords text).mapError .malformedDocument
  | .csv => (tableRecords text).mapError .malformedTable

/-! ## Branches of a text -/

/-- The branches of a text in the given format, where the clock is read for each. -/
def branches (clock : Clock) (format : DataFormat) (text : String) :
    Except Fault (List Branch) := do
  (← records format text).zipIdx.mapM fun (record, i) => record.toBranch (clock.reading i)

end Dataset

end Nearby
