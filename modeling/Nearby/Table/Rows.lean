/-
Rows of comma-separated text. A field that begins with a quote runs to the closing quote, and two
quotes inside it stand for one; what follows the closing quote belongs to the field as it stands.
A row ends at a line feed, a carriage return or both, and empty lines are no rows.
-/

namespace Nearby.Table

/-! ## States of the reader -/

/-- Where in a row the reader is. -/
inductive Place where
  /-- Before a row, or on an empty line. -/
  | rowStart
  /-- Before a field that follows a comma. -/
  | fieldStart
  /-- In a field, outside quotes. -/
  | plain
  /-- Inside quotes. -/
  | quoted
  /-- After a quote inside quotes, which closes them unless another one follows. -/
  | quoteInQuoted
  deriving DecidableEq, Repr

/-- What has been read: complete rows and complete fields of the current row, both last one
first, and the characters of the current field, last one first. -/
structure Progress where
  place : Place := .rowStart
  rows : List (List String) := []
  fields : List String := []
  field : List Char := []

namespace Progress

/-- Adds a character to the field. -/
def put (p : Progress) (place : Place) (c : Char) : Progress :=
  { p with place := place, field := c :: p.field }

/-- Completes the field. -/
def endField (p : Progress) : Progress :=
  { p with place := .fieldStart, fields := .ofList p.field.reverse :: p.fields, field := [] }

/-- Completes the row with its last field. -/
def endRow (p : Progress) : Progress :=
  let p := p.endField
  { p with place := .rowStart, rows := p.fields.reverse :: p.rows, fields := [] }

/-- Takes in a character outside quotes, where a quote stands for itself. -/
def stepPlain (p : Progress) (c : Char) : Progress :=
  if c = ',' then p.endField
  else if c = '\n' ∨ c = '\r' then p.endRow
  else p.put .plain c

/-- Takes in one character. -/
def step (p : Progress) (c : Char) : Progress :=
  match p.place with
  | .rowStart =>
    if c = '\n' ∨ c = '\r' then p
    else if c = '"' then { p with place := .quoted }
    else p.stepPlain c
  | .fieldStart => if c = '"' then { p with place := .quoted } else p.stepPlain c
  | .plain => p.stepPlain c
  | .quoted => if c = '"' then { p with place := .quoteInQuoted } else p.put .quoted c
  | .quoteInQuoted => if c = '"' then p.put .quoted c else p.stepPlain c

/-- Completes what is open at the end of the text. -/
def finish (p : Progress) : List (List String) :=
  if p.place = .rowStart then p.rows.reverse else p.endRow.rows.reverse

end Progress

/-! ## Rows of a text -/

/-- The byte-order mark. -/
def byteOrderMark : Char := '\ufeff'

/-- The rows of a text, each a list of fields. A byte-order mark at the start is dropped. -/
def rows (s : String) : List (List String) :=
  let cs := match s.toList with
    | c :: rest => if c = byteOrderMark then rest else c :: rest
    | [] => []
  (cs.foldl Progress.step {}).finish

end Nearby.Table
