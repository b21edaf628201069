/-
What can go wrong. A fault is the cause of a refusal with the values that caused it; its wording,
its weight and the advice that goes with it are functions of the cause.
-/
import Nearby.Decimal.Shortest
import Nearby.Geo.Coordinates

namespace Nearby

open Geo

/-! ## Causes -/

/-- What is wrong with a query. -/
inductive Flaw where
  | zeroLimit
  | badRadius (radius : Float)
  | noKinds
  | southOf (northEast southWest : Coordinates Float)
  | westOf (northEast southWest : Coordinates Float)
  | unknownKind (name : String)
  | unknownStatus (name : String)
  | stated (text : String)

/-- What is wrong with a record of a data file. -/
inductive RecordFlaw where
  /-- The text breaks off, or goes on as no text may. -/
  | broken
  /-- What stands there does not have the form of a record. -/
  | form
  | repeated (field : String)
  | invalid (field : String)
  | missing (field : String)
  deriving DecidableEq, Repr

/-- What is wrong with a row of a table. Rows count from one, the header is row zero. -/
inductive RowFlaw where
  | width {row : Nat} (expected found : Nat)
  | content {flaw : RecordFlaw} (row : Nat)
  | stated (text : String)

/-- What is wrong with a document. -/
inductive DocumentFlaw where
  /-- The flaw is in the record that comes after so many others. -/
  | after (records : Nat) (flaw : RecordFlaw)
  /-- The text is not that of the one value it should be. -/
  | value
  | stated (text : String)

instance : Coe String DocumentFlaw := ⟨.stated⟩

/-- The cause of a refusal. -/
inductive Fault where
  | invalidCoordinate (place : Coordinates Float)
  | invalidQuery (flaw : Flaw)
  | storageUnavailable (cause : String)
  | branchNotFound (id : String)
  | duplicateBranch (id : String)
  | unreadable (cause : String)
  | malformedTable (flaw : RowFlaw)
  | malformedDocument (flaw : DocumentFlaw)
  | badSettings (field cause : String)
  | badValue (field value reason : String)
  | missing (field : String)

/-! ## Wording -/

/-- The wording of a flaw in a query. -/
def Flaw.message : Flaw → String
  | zeroLimit => "limit must be at least 1"
  | badRadius r => "radius must be a positive number of kilometres, got " ++ Decimal.plain r
  | noKinds => "branch type filter must name at least one type"
  | southOf ne sw =>
    "bounding box north-east corner " ++ ne.text ++ " is south of south-west corner " ++ sw.text
  | westOf ne sw =>
    "bounding box north-east corner " ++ ne.text ++ " is west of south-west corner " ++ sw.text
  | unknownKind name => "unknown branch type '" ++ name ++ "'"
  | unknownStatus name => "unknown branch status '" ++ name ++ "'"
  | stated text => text

/-- The wording of a flaw in a record. -/
def RecordFlaw.message : RecordFlaw → String
  | broken => "the text does not go on as it may"
  | form => "there is no record"
  | repeated field => "field '" ++ field ++ "' is there twice"
  | invalid field => "field '" ++ field ++ "' does not have a value that it may have"
  | missing field => "field '" ++ field ++ "' is missing"

/-- The wording of a flaw in a table. -/
def RowFlaw.message : RowFlaw → String
  | @width row expected found =>
    "row " ++ toString row ++ " has " ++ toString found ++ " fields where the header has "
      ++ toString expected
  | @content flaw row => "row " ++ toString row ++ ": " ++ flaw.message
  | stated text => text

/-- The wording of a flaw in a document. -/
def DocumentFlaw.message : DocumentFlaw → String
  | after records flaw => "after " ++ toString records ++ " records: " ++ flaw.message
  | value => "the text is not that of the value asked for"
  | stated text => text

/-- The wording of a fault. -/
def Fault.message : Fault → String
  | invalidCoordinate c =>
    "Invalid coordinate: latitude=" ++ Decimal.plain c.latitude ++ ", longitude="
      ++ Decimal.plain c.longitude
  | invalidQuery flaw => "Invalid query: " ++ flaw.message
  | storageUnavailable cause => "Storage unavailable: " ++ cause
  | branchNotFound id => "Branch not found: " ++ id
  | duplicateBranch id => "Branch already exists: " ++ id
  | unreadable cause => "IO error: " ++ cause
  | malformedTable flaw => "CSV processing error: " ++ flaw.message
  | malformedDocument flaw => "Serialization error: " ++ flaw.message
  | badSettings field cause => "Configuration error in '" ++ field ++ "': " ++ cause
  | badValue field value reason =>
    "Invalid value '" ++ value ++ "' for '" ++ field ++ "': " ++ reason
  | missing field => "Missing required configuration: " ++ field

/-! ## Weight and advice -/

/-- The part of the program that a fault belongs to. -/
inductive Category where
  | query
  | storage
  | data
  | configuration
  deriving DecidableEq, Repr

/-- How much a fault weighs. -/
inductive Severity where
  | low
  | medium
  | high
  | critical
  deriving DecidableEq, Repr

/-- The category of a fault. -/
def Fault.category : Fault → Category
  | invalidCoordinate _ | invalidQuery _ => .query
  | storageUnavailable _ | unreadable _ => .storage
  | branchNotFound _ | duplicateBranch _ | malformedTable _ | malformedDocument _ => .data
  | badSettings _ _ | badValue _ _ _ | missing _ => .configuration

/-- The severity of a category's faults. -/
def Category.severity : Category → Severity
  | query | data => .high
  | storage | configuration => .critical

/-- The severity of a fault. -/
def Fault.severity (fault : Fault) : Severity := fault.category.severity

/-- The status with which a program ends on a fault of this severity. -/
def Severity.exitStatus : Severity → Nat
  | low => 0
  | medium => 2
  | high => 1
  | critical => 3

/-- What to do about a fault. -/
def Fault.suggestion : Fault → String
  | invalidCoordinate _ => "Latitude must be within [-90, 90] and longitude within [-180, 180]"
  | invalidQuery _ =>
    "Check that radius and limit are positive and that type filters are not empty"
  | storageUnavailable _ => "Verify the branch data source is reachable and retry"
  | branchNotFound _ => "Check the branch id against the loaded dataset"
  | duplicateBranch _ => "Branch ids must be unique across the dataset"
  | unreadable _ => "Make sure the data file exists and is readable"
  | malformedTable _ | malformedDocument _ =>
    "Check the branch data file format (JSON array or CSV with a header row)"
  | badSettings _ _ | badValue _ _ _ | missing _ => "Fix the configuration file and run again"

/-- How a category's faults are introduced. -/
def Category.introduction : Category → String
  | query => "The search request was rejected: "
  | storage => "Branch data could not be read: "
  | data => "Branch data problem: "
  | configuration => "Configuration problem: "

/-- The wording of a fault with its introduction. -/
def Fault.friendlyMessage (fault : Fault) : String :=
  fault.category.introduction ++ fault.message

end Nearby
