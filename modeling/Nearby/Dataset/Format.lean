/-
The formats of data files. A path's extension says which one a file has.
-/
import Nearby.Fault
import Nearby.Text.Blank

namespace Nearby

/-! ## Parts of a path -/

namespace Path

/-- The names that a path goes through, without empty ones and single dots. -/
def segments (path : String) : List String :=
  (path.splitOn "/").filter fun segment => segment ≠ "" ∧ segment ≠ "."

/-- What follows the last dot of a file name, if something precedes that dot. -/
def nameExtension (name : String) : Option String :=
  let reversed := name.toList.reverse
  let extension := (reversed.takeWhile (· ≠ '.')).reverse
  let stem := (reversed.dropWhile (· ≠ '.')).drop 1
  if stem.isEmpty ∨ name = ".." then none else some (.ofList extension)

/-- The extension of the last name of a path. -/
def extension (path : String) : Option String := (segments path).getLast?.bind nameExtension

end Path

/-! ## Formats -/

/-- How a data file is written. -/
inductive DataFormat where
  | json
  | csv
  deriving DecidableEq, Repr

/-- The format that a path's extension names, in letters of any case. -/
def DataFormat.ofPath (path : String) : Except Fault DataFormat :=
  match (Path.extension path).map Text.lower with
  | some "json" => .ok json
  | some "csv" => .ok csv
  | _ =>
    .error (.badValue "data" path "Unsupported file extension. Allowed extensions: json, csv")

end Nearby
