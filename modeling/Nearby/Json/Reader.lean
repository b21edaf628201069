/-
Reading JSON. The reader goes over the tokens once and keeps the arrays and objects that are
still open on a stack, so that no nesting is too deep for it.
-/
import Nearby.Json.Token

namespace Nearby.Json

/-! ## States of the reader -/

/-- An array or object that is still open, with its parts so far, last part first. -/
inductive Frame where
  | items (before : List Json)
  | member (before : List (List Char × Json)) (key : List Char)

/-- What the reader has seen and what may come next. -/
inductive Reading where
  /-- A value must come. -/
  | value (stack : List Frame)
  /-- An array was opened: a value must come, or its end. -/
  | firstItem (stack : List Frame)
  /-- An object was opened: a key must come, or its end. -/
  | firstKey (stack : List Frame)
  /-- A key must come. -/
  | key (stack : List Frame) (before : List (List Char × Json))
  /-- The colon after a key must come. -/
  | colon (stack : List Frame) (before : List (List Char × Json)) (key : List Char)
  /-- A value is complete. -/
  | complete (stack : List Frame) (value : Json)

/-! ## Steps -/

/-- Begins a value with a token. -/
def beginValue (stack : List Frame) : Token → Option Reading
  | .word value => some (.complete stack value)
  | .number spelling => some (.complete stack (.number spelling))
  | .string spelling => some (.complete stack (.string spelling))
  | .openArray => some (.firstItem stack)
  | .openObject => some (.firstKey stack)
  | _ => none

/-- Goes on after a complete value. -/
def continueAfter (value : Json) : List Frame → Token → Option Reading
  | .items before :: stack, .comma => some (.value (.items (value :: before) :: stack))
  | .items before :: stack, .closeArray =>
    some (.complete stack (.array (value :: before).reverse))
  | .member before key :: stack, .comma => some (.key stack ((key, value) :: before))
  | .member before key :: stack, .closeObject =>
    some (.complete stack (.object ((key, value) :: before).reverse))
  | _, _ => none

/-- Takes in one token. -/
def Reading.step : Reading → Token → Option Reading
  | value stack, token => beginValue stack token
  | firstItem stack, .closeArray => some (complete stack (.array []))
  | firstItem stack, token => beginValue (.items [] :: stack) token
  | firstKey stack, .closeObject => some (complete stack (.object []))
  | firstKey stack, .string spelling => some (colon stack [] spelling)
  | firstKey _, _ => none
  | key stack before, .string spelling => some (colon stack before spelling)
  | key _ _, _ => none
  | colon stack before name, .colon => some (value (.member before name :: stack))
  | colon _ _ _, _ => none
  | complete stack done, token => continueAfter done stack token

/-! ## Documents -/

/-- The document that the tokens make up. -/
def ofTokens (tokens : List Token) : Option Json :=
  match tokens.foldlM Reading.step (.value []) with
  | some (.complete [] value) => some value
  | _ => none

/-- The document that a text is. -/
def read (s : String) : Option Json := (tokens s.toList).bind ofTokens

end Nearby.Json
