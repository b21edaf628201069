/-
The kinds of branch.
-/
import Nearby.Fault
import Nearby.Text.Blank

namespace Nearby

/-! ## Kinds -/

/-- What a branch is. -/
inductive Kind where
  | traditional
  | premium
  | atmOnly
  | express
  | digital
  deriving DecidableEq, Repr

namespace Kind

/-- Every kind, in order. -/
def all : List Kind := [traditional, premium, atmOnly, express, digital]

/-- The name of a kind in data and in queries. -/
def name : Kind → String
  | traditional => "TRADITIONAL"
  | premium => "PREMIUM"
  | atmOnly => "ATM_ONLY"
  | express => "EXPRESS"
  | digital => "DIGITAL"

/-- The kind with exactly this name. -/
def ofName (name : String) : Option Kind := all.find? fun kind => kind.name = name

/-- The kind that a request names, in letters of any case and with blanks around it. -/
def read (s : String) : Except Fault Kind :=
  let name := Text.upper (Text.trim s)
  match ofName name with
  | some kind => .ok kind
  | none => .error (.invalidQuery (.unknownKind name))

end Kind

end Nearby
