/-
The quoted texts of TOML, with or without escapes, on one line or over several.
-/
import Nearby.Json.Basic
import Nearby.Text.Blank

namespace Nearby.Toml

open Json (hexValue hexUnit)

/-! ## Characters -/

/-- A character that may stand for itself in a text or a comment: no control character but the
tabulator. -/
def isPrintable (c : Char) : Bool := c = '\t' || (0x20 ≤ c.toNat && c.toNat ≠ 0x7f)

/-- The characters that a backslash and a letter stand for. -/
def shortEscapes : List (Char × Char) :=
  [('"', '"'), ('\\', '\\'), ('b', '\x08'), ('t', '\t'), ('n', '\n'), ('f', '\x0c'), ('r', '\r'),
    ('e', '\x1b')]

/-- The character with the given code, if it is one. -/
def charOfCode (code : Nat) : Option Char :=
  if h : code.isValidChar then some (Char.ofNatAux code h) else none

/-- The character that an escape stands for, given what follows its backslash. -/
def readEscape : Text.Part Char
  | 'x' :: a :: b :: rest =>
    (hexUnit '0' '0' a b).bind fun code => (charOfCode code).map (·, rest)
  | 'u' :: a :: b :: c :: d :: rest =>
    (hexUnit a b c d).bind fun code => (charOfCode code).map (·, rest)
  | 'U' :: a :: b :: c :: d :: e :: f :: g :: h :: rest => do
    let code := (← hexUnit a b c d) * 0x10000 + (← hexUnit e f g h)
    return (← charOfCode code, rest)
  | c :: rest => (shortEscapes.lookup c).map (·, rest)
  | [] => none

theorem length_of_readEscape {cs rest : List Char} {c : Char}
    (h : readEscape cs = some (c, rest)) : rest.length < cs.length := by
  fun_cases readEscape cs with
  | case5 => simp [readEscape] at h
  | _ =>
    simp_all only [readEscape, Option.bind_eq_some_iff, Option.map_eq_some_iff,
      Option.bind_eq_bind, Option.pure_def, Option.some.injEq, Prod.mk.injEq, List.length_cons]
    grind

/-! ## On one line -/

/-- A text in double quotes, after the opening one. What has been read is given last character
first. -/
def readBasic (before : List Char) (cs : List Char) : Option (List Char × List Char) :=
  match cs with
  | [] => none
  | '"' :: rest => some (before.reverse, rest)
  | '\\' :: escape =>
    match _read : readEscape escape with
    | none => none
    | some (c, rest) => readBasic (c :: before) rest
  | c :: rest => if isPrintable c then readBasic (c :: before) rest else none
termination_by cs.length
decreasing_by
  · have := length_of_readEscape _read
    simp only [List.length_cons]
    omega
  · simp

/-- A text in single quotes, after the opening one. -/
def readLiteral (before : List Char) : List Char → Option (List Char × List Char)
  | [] => none
  | '\'' :: rest => some (before.reverse, rest)
  | c :: rest => if isPrintable c then readLiteral (c :: before) rest else none

theorem length_of_readBasic {before cs text rest : List Char}
    (h : readBasic before cs = some (text, rest)) : rest.length < cs.length := by
  fun_induction readBasic before cs with
  | case1 => simp at h
  | case2 => simp_all
  | case3 => simp at h
  | case4 before escape c left hread ih =>
    have := ih h
    have := length_of_readEscape hread
    simp only [List.length_cons]
    omega
  | case5 _ _ _ _ _ _ ih => have := ih h; simp; omega
  | case6 => simp at h

theorem length_of_readLiteral {before cs text rest : List Char}
    (h : readLiteral before cs = some (text, rest)) : rest.length < cs.length := by
  fun_induction readLiteral before cs with
  | case1 => simp at h
  | case2 => simp_all
  | case3 _ _ _ _ _ ih => have := ih h; simp; omega
  | case4 => simp at h

/-! ## Over several lines -/

/-- Drops a line end that follows the opening quotes at once. -/
def dropFirstBreak : List Char → List Char
  | '\n' :: rest => rest
  | '\r' :: '\n' :: rest => rest
  | cs => cs

/-- Drops blanks and line ends. -/
def dropLines : List Char → List Char
  | '\r' :: '\n' :: rest => dropLines rest
  | c :: rest => if c = ' ' ∨ c = '\t' ∨ c = '\n' then dropLines rest else c :: rest
  | [] => []

theorem length_dropLines_le (cs : List Char) : (dropLines cs).length ≤ cs.length := by
  fun_induction dropLines cs <;> simp_all <;> omega

/-- What follows a backslash at the end of a line: the next character that is not blank. -/
def afterLineEscape (cs : List Char) : Option (List Char) :=
  match cs.dropWhile fun c => c = ' ' ∨ c = '\t' with
  | '\n' :: rest => some (dropLines rest)
  | '\r' :: '\n' :: rest => some (dropLines rest)
  | _ => none

theorem length_of_afterLineEscape {cs rest : List Char} (h : afterLineEscape cs = some rest) :
    rest.length < cs.length := by
  have hle := (List.dropWhile_sublist (fun c => decide (c = ' ' ∨ c = '\t')) (l := cs)).length_le
  rw [afterLineEscape] at h
  split at h
  · rename_i tail hd
    have := length_dropLines_le tail
    simp only [hd, List.length_cons] at hle
    obtain rfl := Option.some.inj h
    omega
  · rename_i tail hd
    have := length_dropLines_le tail
    simp only [hd, List.length_cons] at hle
    obtain rfl := Option.some.inj h
    omega
  · simp at h

/-- Up to two quotes that belong to the text although the closing ones follow at once. -/
def extraQuotes (quote : Char) (cs : List Char) : List Char × List Char :=
  let extra := (cs.takeWhile (· = quote)).take 2
  (extra, cs.drop extra.length)

/-- A text in three double quotes, after the opening ones. -/
def readLongBasic (before : List Char) (cs : List Char) : Option (List Char × List Char) :=
  match cs with
  | [] => none
  | '"' :: '"' :: '"' :: rest =>
    let (extra, rest) := extraQuotes '"' rest
    some (before.reverse ++ extra, rest)
  | '\\' :: escape =>
    match _line : afterLineEscape escape with
    | some rest => readLongBasic before rest
    | none =>
      match _read : readEscape escape with
      | none => none
      | some (c, rest) => readLongBasic (c :: before) rest
  | '\r' :: '\n' :: rest => readLongBasic ('\n' :: before) rest
  | c :: rest =>
    if c = '\n' ∨ isPrintable c then readLongBasic (c :: before) rest else none
termination_by cs.length
decreasing_by
  · have := length_of_afterLineEscape _line
    simp only [List.length_cons]
    omega
  · have := length_of_readEscape _read
    simp only [List.length_cons]
    omega
  · simp only [List.length_cons]
    omega
  · simp

/-- A text in three single quotes, after the opening ones. -/
def readLongLiteral (before : List Char) : List Char → Option (List Char × List Char)
  | [] => none
  | '\'' :: '\'' :: '\'' :: rest =>
    let (extra, rest) := extraQuotes '\'' rest
    some (before.reverse ++ extra, rest)
  | '\r' :: '\n' :: rest => readLongLiteral ('\n' :: before) rest
  | c :: rest =>
    if c = '\n' ∨ isPrintable c then readLongLiteral (c :: before) rest else none

/-! ## Quoted texts -/

/-- A text on one line, with its quotes. -/
def readShortText : Text.Part (List Char)
  | '"' :: rest => readBasic [] rest
  | '\'' :: rest => readLiteral [] rest
  | _ => none

theorem length_of_readShortText {cs text rest : List Char}
    (h : readShortText cs = some (text, rest)) : rest.length < cs.length := by
  fun_cases readShortText cs with
  | case1 => have := length_of_readBasic h; simp; omega
  | case2 => have := length_of_readLiteral h; simp; omega
  | case3 => simp_all [readShortText]

/-- A text with its quotes. -/
def readText : Text.Part (List Char)
  | '"' :: '"' :: '"' :: rest => readLongBasic [] (dropFirstBreak rest)
  | '\'' :: '\'' :: '\'' :: rest => readLongLiteral [] (dropFirstBreak rest)
  | cs => readShortText cs

end Nearby.Toml
