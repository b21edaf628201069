/-
JSON documents. Strings and numbers are kept as they are spelled, so reading a document settles
its form only; what a string or a number stands for is asked where it is needed.
-/

namespace Nearby

/-! ## Documents -/

/-- A JSON document. A string's spelling is what stands between its quotes. -/
inductive Json where
  | null
  | bool (value : Bool)
  | number (spelling : List Char)
  | string (spelling : List Char)
  | array (items : List Json)
  | object (members : List (List Char × Json))
  deriving Inhabited

namespace Json

/-! ## Spelling of strings -/

/-- The value of a hexadecimal digit. -/
def hexValue (c : Char) : Option Nat :=
  if c.isDigit then some (c.toNat - '0'.toNat)
  else if 'a' ≤ c ∧ c ≤ 'f' then some (c.toNat - 'a'.toNat + 10)
  else if 'A' ≤ c ∧ c ≤ 'F' then some (c.toNat - 'A'.toNat + 10)
  else none

/-- The number that four hexadecimal digits spell. -/
def hexUnit (a b c d : Char) : Option Nat := do
  return (((← hexValue a) * 16 + (← hexValue b)) * 16 + (← hexValue c)) * 16 + (← hexValue d)

/-- The characters that a backslash and a letter stand for. -/
def shortEscapes : List (Char × Char) :=
  [('"', '"'), ('\\', '\\'), ('/', '/'), ('b', '\x08'), ('f', '\x0c'), ('n', '\n'), ('r', '\r'),
    ('t', '\t')]

/-- The character that a backslash and a letter stand for. -/
def shortEscape (letter : Char) : Option Char := shortEscapes.lookup letter

/-- The characters that a spelling stands for. Two escaped surrogates that belong together stand
for one character; a surrogate by itself stands for none. -/
def unescape : List Char → Option (List Char)
  | [] => some []
  | '\\' :: 'u' :: a :: b :: c :: d :: rest =>
    match hexUnit a b c d with
    | none => none
    | some unit =>
      if unit < 0xd800 ∨ 0xe000 ≤ unit then (unescape rest).map (Char.ofNat unit :: ·)
      else if 0xdc00 ≤ unit then none
      else match rest with
        | '\\' :: 'u' :: e :: f :: g :: h :: rest =>
          match hexUnit e f g h with
          | none => none
          | some low =>
            if 0xdc00 ≤ low ∧ low < 0xe000 then
              (unescape rest).map
                (Char.ofNat (0x10000 + (unit - 0xd800) * 0x400 + (low - 0xdc00)) :: ·)
            else none
        | _ => none
  | '\\' :: letter :: rest =>
    match shortEscape letter with
    | none => none
    | some c => (unescape rest).map (c :: ·)
  | c :: rest => if c = '\\' then none else (unescape rest).map (c :: ·)

/-- The digit for a number below sixteen. -/
def hexDigit (n : Nat) : Char := Nat.digitChar n

/-- The spelling of one character: quotes, backslashes and control characters are escaped. -/
def escapeChar (c : Char) : List Char :=
  if c = '"' then ['\\', '"']
  else if c = '\\' then ['\\', '\\']
  else if c = '\x08' then ['\\', 'b']
  else if c = '\x0c' then ['\\', 'f']
  else if c = '\n' then ['\\', 'n']
  else if c = '\r' then ['\\', 'r']
  else if c = '\t' then ['\\', 't']
  else if c.toNat < 0x20 then
    ['\\', 'u', '0', '0', hexDigit (c.toNat / 16), hexDigit (c.toNat % 16)]
  else [c]

/-- The spelling of a text. -/
def escape (cs : List Char) : List Char := cs.flatMap escapeChar

/-! ## Texts as documents -/

/-- A text as a document. -/
def ofText (s : String) : Json := .string (escape s.toList)

/-- The text that a document is, if it is a string that stands for one. -/
def text? : Json → Option String
  | string spelling => (unescape spelling).map String.ofList
  | _ => none

/-- An object with the given members. -/
def ofMembers (members : List (String × Json)) : Json :=
  .object (members.map fun (key, value) => (escape key.toList, value))

/-- A number as a document, by its spelling. -/
def ofNumeral (spelling : String) : Json := .number spelling.toList

end Json

end Nearby
