/-
The tokens of JSON text: marks, words, numbers and strings, with blanks between them. Each reader
of a token splits the text in two and takes at least one character, so that lexing ends.
-/
import Nearby.Decimal.Numeral
import Nearby.Json.Basic

namespace Nearby.Json

open Decimal (spanDigits length_spanDigits)

/-! ## Tokens -/

/-- A token. Numbers and strings carry their spelling. -/
inductive Token where
  | openArray
  | closeArray
  | openObject
  | closeObject
  | comma
  | colon
  | word (value : Json)
  | number (spelling : List Char)
  | string (spelling : List Char)

/-- The four blanks of JSON. -/
def isGap (c : Char) : Bool := c = ' ' || c = '\t' || c = '\n' || c = '\r'

/-! ## Strings -/

/-- Four hexadecimal digits. -/
def isHexUnit (a b c d : Char) : Bool := (hexUnit a b c d).isSome

/-- Splits the characters after an opening quote at the closing one. The spelling collected so
far is given last character first. -/
def splitString (before : List Char) : List Char → Option (List Char × List Char)
  | [] => none
  | '"' :: rest => some (before.reverse, rest)
  | '\\' :: 'u' :: a :: b :: c :: d :: rest =>
    if isHexUnit a b c d then splitString (d :: c :: b :: a :: 'u' :: '\\' :: before) rest
    else none
  | '\\' :: letter :: rest =>
    if (shortEscape letter).isSome then splitString (letter :: '\\' :: before) rest else none
  | c :: rest => if c = '\\' ∨ c.toNat < 0x20 then none else splitString (c :: before) rest

theorem length_of_splitString {before cs spelling rest : List Char}
    (h : splitString before cs = some (spelling, rest)) : rest.length < cs.length := by
  fun_induction splitString before cs with
  | case1 => simp at h
  | case2 => simp_all
  | case3 _ _ _ _ _ _ _ ih => have := ih h; simp; omega
  | case4 => simp at h
  | case5 _ _ _ _ _ ih => have := ih h; simp; omega
  | case6 => simp at h
  | case7 => simp at h
  | case8 _ _ _ _ _ _ _ ih => have := ih h; simp; omega

/-! ## Numbers -/

/-- Splits off digits, of which there is at least one. -/
def splitDigits (cs : List Char) : Option (List Char × List Char) :=
  let split := spanDigits cs
  if split.1.isEmpty then none else some split

theorem length_of_splitDigits {cs ds rest : List Char} (h : splitDigits cs = some (ds, rest)) :
    rest.length < cs.length := by
  have hlen := length_spanDigits cs
  rw [splitDigits] at h
  cases hds : (spanDigits cs).1 with
  | nil => simp [hds] at h
  | cons d ds' =>
    simp only [hds, List.isEmpty_cons, Bool.false_eq_true, if_false, Option.some.injEq] at h
    simp only [h] at hlen hds
    simp only [hds, List.length_cons] at hlen
    omega

/-- Splits off the digits before the point. A zero stands alone. -/
def splitWhole (cs : List Char) : Option (List Char × List Char) :=
  (splitDigits cs).filter fun split => ! (split.1.head? = some '0' && split.1.length ≠ 1)

theorem length_of_splitWhole {cs ds rest : List Char} (h : splitWhole cs = some (ds, rest)) :
    rest.length < cs.length :=
  length_of_splitDigits (Option.filter_eq_some_iff.1 h).1

/-- Splits off a point and digits, if there is a point. -/
def splitFraction : List Char → Option (List Char × List Char)
  | '.' :: rest => (splitDigits rest).map fun (ds, rest) => ('.' :: ds, rest)
  | rest => some ([], rest)

theorem length_of_splitFraction {cs part rest : List Char}
    (h : splitFraction cs = some (part, rest)) : rest.length ≤ cs.length := by
  fun_cases splitFraction cs with
  | case1 tail =>
    obtain ⟨⟨ds, left⟩, hs, he⟩ := Option.map_eq_some_iff.1 h
    have := length_of_splitDigits hs
    simp only [Prod.mk.injEq] at he
    simp only [← he.2, List.length_cons]
    omega
  | case2 => simp_all [splitFraction]

/-- Splits off a sign, if there is one. -/
def splitMark (marks : List Char) : List Char → List Char × List Char
  | c :: rest => if marks.contains c then ([c], rest) else ([], c :: rest)
  | [] => ([], [])

theorem length_of_splitMark (marks cs : List Char) : (splitMark marks cs).2.length ≤ cs.length := by
  fun_cases splitMark marks cs <;> simp

/-- Splits off an exponent, if there is one. -/
def splitExponent : List Char → Option (List Char × List Char)
  | [] => some ([], [])
  | c :: rest =>
    if c = 'e' ∨ c = 'E' then
      let split := splitMark ['+', '-'] rest
      (splitDigits split.2).map fun digits => (c :: split.1 ++ digits.1, digits.2)
    else some ([], c :: rest)

theorem length_of_splitExponent {cs part rest : List Char}
    (h : splitExponent cs = some (part, rest)) : rest.length ≤ cs.length := by
  fun_cases splitExponent cs with
  | case1 => simp_all [splitExponent]
  | case2 c tail hc =>
    rw [splitExponent, if_pos hc] at h
    obtain ⟨⟨ds, left⟩, hs, he⟩ := Option.map_eq_some_iff.1 h
    have hd := length_of_splitDigits hs
    have hl := length_of_splitMark ['+', '-'] tail
    simp only [Prod.mk.injEq] at he
    simp only [← he.2, List.length_cons]
    omega
  | case3 => simp_all [splitExponent]

/-- Splits off a number. -/
def splitNumber (cs : List Char) : Option (List Char × List Char) := do
  let (sign, rest) := splitMark ['-'] cs
  let (whole, rest) ← splitWhole rest
  let (fraction, rest) ← splitFraction rest
  let (exponent, rest) ← splitExponent rest
  return (sign ++ whole ++ fraction ++ exponent, rest)

theorem length_of_splitNumber {cs spelling rest : List Char}
    (h : splitNumber cs = some (spelling, rest)) : rest.length < cs.length := by
  simp only [splitNumber, Option.bind_eq_bind, Option.bind_eq_some_iff, Option.pure_def,
    Option.some.injEq, Prod.mk.injEq] at h
  obtain ⟨⟨whole, r₁⟩, h₁, ⟨part, r₂⟩, h₂, ⟨exponent, r₃⟩, h₃, -, rfl⟩ := h
  have := length_of_splitMark ['-'] cs
  have := length_of_splitWhole h₁
  have := length_of_splitFraction h₂
  have := length_of_splitExponent h₃
  simp only at *
  omega

/-! ## Lexing -/

/-- Splits off one of the words of JSON. -/
def splitWord : List Char → Option (Token × List Char)
  | 'n' :: 'u' :: 'l' :: 'l' :: rest => some (.word .null, rest)
  | 't' :: 'r' :: 'u' :: 'e' :: rest => some (.word (.bool true), rest)
  | 'f' :: 'a' :: 'l' :: 's' :: 'e' :: rest => some (.word (.bool false), rest)
  | _ => none

theorem length_of_splitWord {cs rest : List Char} {token : Token}
    (h : splitWord cs = some (token, rest)) : rest.length < cs.length := by
  fun_cases splitWord cs <;> simp_all [splitWord] <;> omega

/-- Splits off the token at the front, where there is no blank. -/
def splitToken : List Char → Option (Token × List Char)
  | [] => none
  | '[' :: rest => some (.openArray, rest)
  | ']' :: rest => some (.closeArray, rest)
  | '{' :: rest => some (.openObject, rest)
  | '}' :: rest => some (.closeObject, rest)
  | ',' :: rest => some (.comma, rest)
  | ':' :: rest => some (.colon, rest)
  | '"' :: rest => (splitString [] rest).map fun (spelling, rest) => (.string spelling, rest)
  | c :: rest =>
    if c = '-' ∨ c.isDigit then
      (splitNumber (c :: rest)).map fun (spelling, rest) => (.number spelling, rest)
    else splitWord (c :: rest)

theorem length_of_splitToken {cs rest : List Char} {token : Token}
    (h : splitToken cs = some (token, rest)) : rest.length < cs.length := by
  fun_cases splitToken cs with
  | case8 tail =>
    obtain ⟨⟨spelling, left⟩, hs, he⟩ := Option.map_eq_some_iff.1 h
    have := length_of_splitString hs
    simp only [Prod.mk.injEq] at he
    simp only [← he.2, List.length_cons]
    omega
  | case9 c tail _ _ _ _ _ _ _ hc =>
    rw [splitToken, if_pos hc] at h
    · obtain ⟨⟨spelling, left⟩, hs, he⟩ := Option.map_eq_some_iff.1 h
      have := length_of_splitNumber hs
      simp only [Prod.mk.injEq] at he
      simp only [← he.2]
      omega
    all_goals simp_all
  | case10 c tail _ _ _ _ _ _ _ hc =>
    rw [splitToken, if_neg hc] at h
    · exact length_of_splitWord h
    all_goals simp_all
  | _ => simp_all [splitToken]

/-- The tokens at the front of a text, and whether they are all of it. -/
structure Scan where
  tokens : List Token
  whole : Bool

/-- The tokens at the front of a text, after those already found, which are given last one first.
Where no token begins, the rest of the text is left. -/
def scanAfter (before : List Token) (cs : List Char) : Scan :=
  match _gap : cs.dropWhile isGap with
  | [] => ⟨before.reverse, true⟩
  | c :: rest =>
    match _split : splitToken (c :: rest) with
    | none => ⟨before.reverse, false⟩
    | some (token, left) => scanAfter (token :: before) left
termination_by cs.length
decreasing_by
  have := length_of_splitToken _split
  have := (List.dropWhile_sublist isGap (l := cs)).length_le
  simp only [_gap] at this
  omega

/-- The tokens at the front of a text. -/
def scan (cs : List Char) : Scan := scanAfter [] cs

/-- The tokens of a text, if it is made of them. -/
def tokens (cs : List Char) : Option (List Token) :=
  if (scan cs).whole then some (scan cs).tokens else none

end Nearby.Json
