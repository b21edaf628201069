/-
Records in JSON. A record with known fields is written as an object, whose unknown members are
passed over, or as an array of the fields in their order. A known field may occur once.
-/
import Nearby.Json.Number

namespace Nearby.Json

/-! ## Members -/

/-- The known fields among the members of an object. Every key has to stand for a text. -/
def knownMembers (names : List String) : List (List Char × Json) → Option (List (String × Json))
  | [] => some []
  | (spelling, value) :: rest => do
    let key := String.ofList (← unescape spelling)
    let known ← knownMembers names rest
    return if names.contains key then (key, value) :: known else known

/-- The fields of a record, by name. -/
def fields (names : List String) : Json → Option (List (String × Json))
  | object members =>
    (knownMembers names members).bind fun known =>
      if (known.map Prod.fst).Nodup then some known else none
  | array items => if items.length ≤ names.length then some (names.zip items) else none
  | _ => none

/-! ## Field values -/

/-- The value of a field that must be there. -/
def required {α : Type} (read : Json → Option α) (fields : List (String × Json)) (name : String) :
    Option α :=
  (fields.lookup name).bind read

/-- A value or null. -/
def nullable {α : Type} (read : Json → Option α) : Json → Option (Option α)
  | null => some none
  | value => (read value).map some

/-- One of several names: a string, or an object whose only member has the name as its key and
null as its value. -/
def choice {α : Type} (ofName : String → Option α) : Json → Option α
  | string spelling => (unescape spelling).bind fun cs => ofName (.ofList cs)
  | object [(key, null)] => (unescape key).bind fun cs => ofName (.ofList cs)
  | _ => none

end Nearby.Json
