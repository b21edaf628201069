/-
The states of operation of a branch, and the filters on them.
-/
import Nearby.Fault
import Nearby.Text.Blank

namespace Nearby

/-! ## Statuses -/

/-- Whether and how a branch operates. -/
inductive Status where
  | active
  | temporarilyClosed
  | permanentlyClosed
  | planned
  | underMaintenance
  deriving DecidableEq, Repr

namespace Status

/-- Every status, in order. -/
def all : List Status := [active, temporarilyClosed, permanentlyClosed, planned, underMaintenance]

/-- The name of a status in data and in queries. -/
def name : Status → String
  | active => "ACTIVE"
  | temporarilyClosed => "TEMPORARILY_CLOSED"
  | permanentlyClosed => "PERMANENTLY_CLOSED"
  | planned => "PLANNED"
  | underMaintenance => "UNDER_MAINTENANCE"

/-- The status with exactly this name. -/
def ofName (name : String) : Option Status := all.find? fun status => status.name = name

/-- The status that a request names, in letters of any case and with blanks around it. -/
def read (s : String) : Except Fault Status :=
  let name := Text.upper (Text.trim s)
  match ofName name with
  | some status => .ok status
  | none => .error (.invalidQuery (.unknownStatus name))

end Status

/-! ## Status filters -/

/-- Which statuses a query admits. The filter for active branches is told apart from one that
happens to admit the same, because a store may serve it from its active set. -/
inductive StatusFilter where
  | activeOnly
  | custom (admits : Status → Bool)

namespace StatusFilter

/-- The filter that admits every status. -/
def any : StatusFilter := custom fun _ => true

/-- The filter that admits the listed statuses. -/
def oneOf (statuses : List Status) : StatusFilter := custom fun status => statuses.contains status

/-- The filter of a query that names none. -/
instance : Inhabited StatusFilter := ⟨activeOnly⟩

/-- The filter admits the status. -/
def allows : StatusFilter → Status → Bool
  | activeOnly, status => status = .active
  | custom admits, status => admits status

/-- The filter is the one for active branches. -/
def isActiveOnly : StatusFilter → Bool
  | activeOnly => true
  | custom _ => false

/-- The filter in a log. -/
def text : StatusFilter → String
  | activeOnly => "StatusFilter(ActiveOnly)"
  | custom _ => "StatusFilter(Custom)"

end StatusFilter

end Nearby
