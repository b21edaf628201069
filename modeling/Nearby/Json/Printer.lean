/-
Writing JSON, on one line or over several lines with an indentation of two blanks.
-/
import Nearby.Json.Basic

namespace Nearby.Json

/-! ## On one line -/

/-- A string between its quotes. -/
def quoted (spelling : List Char) : List Char := '"' :: spelling ++ ['"']

/-- The words for truth values. -/
def boolChars (value : Bool) : List Char := if value then "true".toList else "false".toList

mutual

/-- A document without blanks. -/
def compactChars : Json → List Char
  | null => "null".toList
  | bool value => boolChars value
  | number spelling => spelling
  | string spelling => quoted spelling
  | array items => '[' :: compactItems items ++ [']']
  | object members => '{' :: compactMembers members ++ ['}']

/-- Items with commas between them. -/
def compactItems : List Json → List Char
  | [] => []
  | [item] => compactChars item
  | item :: next :: rest => compactChars item ++ ',' :: compactItems (next :: rest)

/-- Members with commas between them. -/
def compactMembers : List (List Char × Json) → List Char
  | [] => []
  | [(key, value)] => quoted key ++ ':' :: compactChars value
  | (key, value) :: next :: rest =>
    quoted key ++ ':' :: compactChars value ++ ',' :: compactMembers (next :: rest)

end

/-- A document on one line. -/
def compact (j : Json) : String := .ofList (compactChars j)

/-! ## Over several lines -/

/-- A new line at the given depth. -/
def lineBreak (depth : Nat) : List Char := '\n' :: List.replicate (2 * depth) ' '

mutual

/-- A document with each part on a line of its own. What is empty stays on its line. -/
def prettyChars (depth : Nat) : Json → List Char
  | null => "null".toList
  | bool value => boolChars value
  | number spelling => spelling
  | string spelling => quoted spelling
  | array [] => "[]".toList
  | array (item :: items) =>
    '[' :: prettyItems (depth + 1) (item :: items) ++ lineBreak depth ++ [']']
  | object [] => "\x7b\x7d".toList
  | object (member :: members) =>
    '{' :: prettyMembers (depth + 1) (member :: members) ++ lineBreak depth ++ ['}']

/-- Items on lines of their own. -/
def prettyItems (depth : Nat) : List Json → List Char
  | [] => []
  | [item] => lineBreak depth ++ prettyChars depth item
  | item :: next :: rest =>
    lineBreak depth ++ prettyChars depth item ++ ',' :: prettyItems depth (next :: rest)

/-- Members on lines of their own. -/
def prettyMembers (depth : Nat) : List (List Char × Json) → List Char
  | [] => []
  | [(key, value)] => lineBreak depth ++ quoted key ++ ':' :: ' ' :: prettyChars depth value
  | (key, value) :: next :: rest =>
    lineBreak depth ++ quoted key ++ ':' :: ' ' :: prettyChars depth value ++
      ',' :: prettyMembers depth (next :: rest)

end

/-- A document over several lines. -/
def pretty (j : Json) : String := .ofList (prettyChars 0 j)

end Nearby.Json
