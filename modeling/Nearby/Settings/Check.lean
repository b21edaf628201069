/-
Checks of single settings. Each lets the value through or says what is wrong with it.
-/
import Nearby.Fault

namespace Nearby.Check

/-! ## Checks -/

/-- A path has to have characters, and none of them may be null. -/
def path (field path : String) : Except Fault String :=
  if path.isEmpty then .error (.badValue field path "Path cannot be empty")
  else if path.contains '\x00' then .error (.badValue field path "Path contains null bytes")
  else .ok path

/-- A count has to be at least the given one. -/
def atLeast (field : String) (value least : Nat) : Except Fault Nat :=
  if value < least then
    .error (.badValue field (toString value) ("Value must be at least " ++ toString least))
  else .ok value

/-- A number has to be finite and greater than the given one. -/
def finiteAbove (field : String) (value bound : Float) : Except Fault Float :=
  if ! value.isFinite || value ≤ bound then
    .error (.badValue field (Decimal.plain value)
      ("Value must be a finite number greater than " ++ Decimal.plain bound))
  else .ok value

/-- A value must be neither below the least one nor above the greatest one. -/
def between {α : Type} [LT α] [DecidableLT α] (text : α → String) (field : String)
    (value least greatest : α) : Except Fault α :=
  if value < least ∨ greatest < value then
    .error (.badValue field (text value)
      ("Value must be between " ++ text least ++ " and " ++ text greatest))
  else .ok value

/-- What is required has to be there. -/
def present {α : Type} (field : String) : Option α → Except Fault α
  | some value => .ok value
  | none => .error (.missing field)

end Nearby.Check
