/-
Reading TOML documents: lines of headers and entries, and values that may nest.
-/
import Nearby.Toml.Scalar
import Nearby.Toml.Table
import Nearby.Toml.Text

namespace Nearby.Toml

/-! ## Between the parts -/

/-- The character is a blank within a line. -/
def isInlineBlank (c : Char) : Bool := c = ' ' || c = '\t'

/-- Drops blanks within a line. -/
def dropBlanks (cs : List Char) : List Char := cs.dropWhile isInlineBlank

theorem length_dropBlanks_le (cs : List Char) : (dropBlanks cs).length ≤ cs.length :=
  (List.dropWhile_sublist isInlineBlank).length_le

/-- Drops blanks, line ends and comments. -/
def dropGap (inComment : Bool) : List Char → Option (List Char)
  | [] => some []
  | '\r' :: '\n' :: rest => dropGap false rest
  | c :: rest =>
    if c = '\n' then dropGap false rest
    else if inComment then if isPrintable c then dropGap true rest else none
    else if isInlineBlank c then dropGap false rest
    else if c = '#' then dropGap true rest
    else some (c :: rest)

/-- Drops the rest of a comment up to the line end. -/
def dropComment : List Char → Option (List Char)
  | [] => some []
  | '\n' :: rest => some rest
  | '\r' :: '\n' :: rest => some rest
  | c :: rest => if isPrintable c then dropComment rest else none

/-- Drops what may follow on a line: blanks and a comment. -/
def dropLineEnd (cs : List Char) : Option (List Char) :=
  match dropBlanks cs with
  | [] => some []
  | '\n' :: rest => some rest
  | '\r' :: '\n' :: rest => some rest
  | '#' :: rest => dropComment rest
  | _ => none

/-! ## Keys -/

/-- A character of a key without quotes. -/
def isBareChar (c : Char) : Bool := c.isAlphanum || c = '_' || c = '-'

/-- One part of a key. -/
def readKeyPart : List Char → Option (String × List Char)
  | [] => none
  | c :: rest =>
    if c = '"' ∨ c = '\'' then
      (readShortText (c :: rest)).map fun (key, rest) => (.ofList key, rest)
    else if isBareChar c then
      some (.ofList (c :: rest.takeWhile isBareChar), rest.dropWhile isBareChar)
    else none

theorem length_of_readKeyPart {cs rest : List Char} {key : String}
    (h : readKeyPart cs = some (key, rest)) : rest.length < cs.length := by
  fun_cases readKeyPart cs with
  | case1 => simp [readKeyPart] at h
  | case2 c tail hc =>
    rw [readKeyPart, if_pos hc] at h
    obtain ⟨⟨text, left⟩, hread, he⟩ := Option.map_eq_some_iff.1 h
    have := length_of_readShortText hread
    simp only [Prod.mk.injEq] at he
    simp only [← he.2]
    omega
  | case3 c tail hc hbare =>
    have := (List.dropWhile_sublist isBareChar (l := tail)).length_le
    simp only [readKeyPart, if_neg hc, if_pos hbare, Option.some.injEq, Prod.mk.injEq] at h
    simp only [← h.2, List.length_cons]
    omega
  | case4 c tail hc hbare => simp [readKeyPart, if_neg hc, if_neg hbare] at h

/-- The parts of a key with points between them, and the characters after it and any blanks. The
parts before are given last one first. -/
def readKeyAfter (before : List String) (cs : List Char) :
    Option (List String × String × List Char) :=
  match _read : readKeyPart (dropBlanks cs) with
  | none => none
  | some (key, rest) =>
    match _point : dropBlanks rest with
    | '.' :: more => readKeyAfter (key :: before) more
    | rest => some (before.reverse, key, rest)
termination_by cs.length
decreasing_by
  have := length_of_readKeyPart _read
  have := length_dropBlanks_le cs
  have := length_dropBlanks_le rest
  simp only [_point, List.length_cons] at this
  omega

/-- A key: the path before its last part, its last part, and the characters after it. -/
def readKey (cs : List Char) : Option (List String × String × List Char) := readKeyAfter [] cs

/-! ## Values -/

/-- The greatest depth to which arrays and tables in braces may nest. -/
def deepest : Nat := 80

mutual

/-- A value, read in at most the given number of steps, with room for so many more levels. -/
def readValueIn : (steps room : Nat) → List Char → Option (Toml × List Char)
  | 0, _, _ => none
  | steps + 1, room, cs =>
    match cs with
    | [] => none
    | '[' :: rest => if room = 0 then none else readItemsIn steps (room - 1) [] rest
    | '{' :: rest => if room = 0 then none else readMembersIn steps (room - 1) [] rest
    | c :: rest =>
      if c = '"' ∨ c = '\'' then
        (readText (c :: rest)).map fun (text, rest) => (.string (.ofList text), rest)
      else
        let (scalar, rest) := splitScalar (c :: rest)
        (ofScalar scalar).map (·, rest)

/-- The items of an array, after those already read, up to its end. -/
def readItemsIn : (steps room : Nat) → List Toml → List Char → Option (Toml × List Char)
  | 0, _, _, _ => none
  | steps + 1, room, before, cs =>
    match dropGap false cs with
    | none => none
    | some (']' :: rest) => some (.array before.reverse, rest)
    | some cs =>
      match readValueIn steps room cs with
      | none => none
      | some (item, rest) =>
        match dropGap false rest with
        | some (',' :: rest) => readItemsIn steps room (item :: before) rest
        | some (']' :: rest) => some (.array (item :: before).reverse, rest)
        | _ => none

/-- The entries of a table in braces, after those already read, up to its end. -/
def readMembersIn : (steps room : Nat) → List Assignment → List Char → Option (Toml × List Char)
  | 0, _, _, _ => none
  | steps + 1, room, before, cs =>
    match dropGap false cs with
    | none => none
    | some ('}' :: rest) => (ofAssignments before.reverse).map (·, rest)
    | some cs =>
      match readKey cs with
      | some (path, key, '=' :: rest) =>
        match readValueIn steps room (dropBlanks rest) with
        | none => none
        | some (value, rest) =>
          let read := ⟨path, key, value⟩ :: before
          match dropGap false rest with
          | some (',' :: rest) => readMembersIn steps room read rest
          | some ('}' :: rest) => (ofAssignments read.reverse).map (·, rest)
          | _ => none
      | _ => none

end

/-! ## Lines -/

/-- An entry, up to the end of its line. Its value is read in at most the given number of steps. -/
def readAssignment (steps : Nat) (cs : List Char) : Option (Assignment × List Char) :=
  match readKey cs with
  | some (path, key, '=' :: rest) =>
    match readValueIn steps deepest (dropBlanks rest) with
    | some (value, rest) => (dropLineEnd rest).map (⟨path, key, value⟩, ·)
    | none => none
  | _ => none

/-- A header after its first bracket, up to the end of its line. -/
def readHeader (cs : List Char) : Option (Section × List Char) :=
  match cs with
  | '[' :: rest =>
    match readKey rest with
    | some (path, key, ']' :: ']' :: rest) => (dropLineEnd rest).map (⟨true, path, key, []⟩, ·)
    | _ => none
  | _ =>
    match readKey cs with
    | some (path, key, ']' :: rest) => (dropLineEnd rest).map (⟨false, path, key, []⟩, ·)
    | _ => none

/-- A line of a document. -/
inductive Line where
  | header (opened : Section)
  | assignment (entry : Assignment)

/-- At most the given number of lines, after those already read, which are given last one first.
Each value is read in at most the given number of steps. -/
def readLinesIn (steps : Nat) : (lines : Nat) → List Line → List Char → Option (List Line)
  | 0, _, _ => none
  | lines + 1, before, cs =>
    match dropGap false cs with
    | none => none
    | some [] => some before.reverse
    | some ('[' :: rest) =>
      match readHeader rest with
      | none => none
      | some (opened, left) => readLinesIn steps lines (.header opened :: before) left
    | some line =>
      match readAssignment steps line with
      | none => none
      | some (entry, left) => readLinesIn steps lines (.assignment entry :: before) left

/-- The lines of a document. A line takes a character, and so do every two steps of a value, so
the bounds are never reached. -/
def readLines (cs : List Char) : Option (List Line) :=
  readLinesIn (2 * cs.length + 2) (cs.length + 1) [] cs

/-! ## Documents -/

/-- The entries before the first header, and the sections. -/
def sections : List Line → List Assignment × List Section
  | [] => ([], [])
  | .assignment entry :: rest =>
    let (top, opened) := sections rest
    (entry :: top, opened)
  | .header opened :: rest =>
    let (own, later) := sections rest
    ([], { opened with assignments := own } :: later)

/-- The entries of a document. A byte-order mark at its start is dropped. -/
def read (s : String) : Option Entries := do
  let cs := match s.toList with
    | '\ufeff' :: rest => rest
    | cs => cs
  let (top, opened) := sections (← readLines cs)
  ofSections top opened

end Nearby.Toml
