/-
Texts with placeholders `${NAME}`. A placeholder begins at a dollar sign and an opening brace that
some characters and a closing brace follow; its name goes up to the first closing brace. Filling
in is one pass from left to right, so what is filled in is never looked at again.
-/

namespace Nearby.Text

/-! ## Pieces -/

/-- A piece of a template. -/
inductive Piece where
  | char (c : Char)
  | placeholder (name : List Char)
  deriving DecidableEq, Repr

/-- Splits off a name and the brace that closes it. -/
def splitName (cs : List Char) : Option (List Char × List Char) :=
  match cs.takeWhile (· ≠ '}'), cs.dropWhile (· ≠ '}') with
  | c :: name, _ :: rest => some (c :: name, rest)
  | _, _ => none

theorem length_of_splitName {cs name rest : List Char}
    (h : splitName cs = some (name, rest)) : rest.length < cs.length := by
  have hle := (List.dropWhile_sublist (fun c => decide (c ≠ '}')) (l := cs)).length_le
  rw [splitName] at h
  split at h
  · rename_i htail
    simp only [htail, List.length_cons] at hle
    simp only [Option.some.injEq, Prod.mk.injEq] at h
    simp only [← h.2]
    omega
  · simp at h

/-- The pieces of a template. -/
def pieces (cs : List Char) : List Piece :=
  match cs with
  | [] => []
  | '$' :: '{' :: rest =>
    match _name : splitName rest with
    | some (name, left) => .placeholder name :: pieces left
    | none => .char '$' :: pieces ('{' :: rest)
  | c :: rest => .char c :: pieces rest
termination_by cs.length
decreasing_by
  · have := length_of_splitName _name
    simp only [List.length_cons]
    omega
  · simp
  · simp

/-! ## Filling in -/

/-- How a placeholder is written. -/
def written (name : List Char) : List Char := '$' :: '{' :: name ++ ['}']

/-- What a piece becomes. A placeholder whose name stands for nothing stays as it is written. -/
def fillPiece (valueOf : String → Option String) : Piece → List Char
  | .char c => [c]
  | .placeholder name =>
    match valueOf (.ofList name) with
    | some value => value.toList
    | none => written name

/-- The template with its placeholders filled in. -/
def fill (valueOf : String → Option String) (template : String) : String :=
  .ofList ((pieces template.toList).flatMap (fillPiece valueOf))

/-- The names of the placeholders of a template. -/
def placeholderNames (template : String) : List String :=
  (pieces template.toList).filterMap fun
    | .char _ => none
    | .placeholder name => some (.ofList name)

end Nearby.Text
