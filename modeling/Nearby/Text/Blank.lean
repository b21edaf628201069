/-
Blank characters, texts without the blanks around them, and what a reader of a part of a text is. A
character is blank when it has the Unicode property `White_Space`.
-/

namespace Nearby.Text

/-! ## The property -/

/-- The ranges of code points with the property `White_Space`, ends included. -/
def blankRanges : List (Nat × Nat) :=
  [(0x09, 0x0d), (0x20, 0x20), (0x85, 0x85), (0xa0, 0xa0), (0x1680, 0x1680), (0x2000, 0x200a),
    (0x2028, 0x2029), (0x202f, 0x202f), (0x205f, 0x205f), (0x3000, 0x3000)]

/-- The character is blank. -/
def isBlank (c : Char) : Bool :=
  blankRanges.any fun range => range.1 ≤ c.toNat && c.toNat ≤ range.2

/-! ## Trimming -/

/-- The characters after the leading blanks. -/
def trimStart (cs : List Char) : List Char := cs.dropWhile isBlank

/-- The characters before the trailing blanks. -/
def trimEnd (cs : List Char) : List Char := (trimStart cs.reverse).reverse

/-- The characters between the blanks at both ends. -/
def trimChars (cs : List Char) : List Char := trimEnd (trimStart cs)

/-- The text between the blanks at both ends. -/
def trim (s : String) : String := .ofList (trimChars s.toList)

/-- The text with its small Latin letters made capital; all else stays. -/
def upper (s : String) : String := .ofList (s.toList.map Char.toUpper)

/-- The text with its capital Latin letters made small; all else stays. -/
def lower (s : String) : String := .ofList (s.toList.map Char.toLower)

/-! ## Parts -/

/-- A reader of one part: the value and the characters after it. -/
abbrev Part (α : Type) := List Char → Option (α × List Char)

end Nearby.Text
