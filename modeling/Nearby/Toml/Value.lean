/-
TOML values. A table remembers how it came about, because that decides what may still be added
to it.
-/

namespace Nearby

/-! ## Values -/

/-- How a table came about. -/
inductive TableForm where
  /-- By a header of its own, or as the whole document. -/
  | header
  /-- As a step on the way to a header's table. -/
  | implicit
  /-- As a step of a dotted key. -/
  | dotted
  /-- In braces; nothing may be added to it. -/
  | inline
  deriving DecidableEq, Repr

/-- A TOML value. -/
inductive Toml where
  | bool (value : Bool)
  | integer (value : Int)
  | float (value : Float)
  /-- A number that has no representation. -/
  | outOfRange
  | string (value : String)
  /-- A date, a time or both. -/
  | moment
  | array (items : List Toml)
  /-- An array that grows by a table with each of its headers. -/
  | tables (items : List Toml)
  | table (form : TableForm) (entries : List (String × Toml))
  deriving Inhabited

namespace Toml

/-! ## Entries -/

/-- The entries of a table. -/
abbrev Entries := List (String × Toml)

/-- Puts a value under a key, in the place of the one that is there. -/
def put (key : String) (value : Toml) : Entries → Entries
  | [] => [(key, value)]
  | (other, old) :: rest =>
    if other = key then (key, value) :: rest else (other, old) :: put key value rest

/-! ## Representable values -/

mutual

/-- No number in the value is out of range. -/
def isRepresentable : Toml → Bool
  | outOfRange => false
  | array items => itemsRepresentable items
  | tables items => itemsRepresentable items
  | table _ entries => entriesRepresentable entries
  | _ => true

/-- No number in the items is out of range. -/
def itemsRepresentable : List Toml → Bool
  | [] => true
  | item :: rest => isRepresentable item && itemsRepresentable rest

/-- No number in the entries is out of range. -/
def entriesRepresentable : List (String × Toml) → Bool
  | [] => true
  | (_, value) :: rest => isRepresentable value && entriesRepresentable rest

end

end Toml

end Nearby
