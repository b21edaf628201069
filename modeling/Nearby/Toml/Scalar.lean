/-
The unquoted values of TOML: truth values, integers, floats, dates and times.
-/
import Nearby.Decimal.Numeral
import Nearby.Time.Date
import Nearby.Toml.Value

namespace Nearby.Toml

open Decimal (ofDigits splitSign readUnsigned signed twoTo)

/-! ## Digits with underscores -/

/-- The digits of a run in which single underscores may stand between digits. -/
def groupedDigits (isDigit : Char → Bool) : List Char → Option (List Char)
  | [] => none
  | [c] => if isDigit c then some [c] else none
  | c :: '_' :: rest => if isDigit c then (groupedDigits isDigit rest).map (c :: ·) else none
  | c :: rest => if isDigit c then (groupedDigits isDigit rest).map (c :: ·) else none

/-- The digits of a decimal integer. Only zero itself begins with a zero. -/
def wholeDigits (cs : List Char) : Option (List Char) :=
  (groupedDigits Char.isDigit cs).bind fun ds =>
    if ds.head? = some '0' ∧ ds.length ≠ 1 then none else some ds

/-! ## Integers -/

/-- The value of a digit in a base up to sixteen. -/
def baseDigit (c : Char) : Nat :=
  if c.isDigit then c.toNat - '0'.toNat else c.toLower.toNat - 'a'.toNat + 10

/-- The character is a digit of the base. -/
def isBaseDigit (base : Nat) (c : Char) : Bool :=
  (c.isDigit || ('a' ≤ c.toLower && c.toLower ≤ 'f')) && baseDigit c < base

/-- The integer that digits of a base spell, with single underscores between them. -/
def basedInteger (base : Nat) (cs : List Char) : Option Int :=
  (groupedDigits (isBaseDigit base) cs).map fun ds =>
    ds.foldl (fun (n : Int) c => n * base + baseDigit c) 0

/-- The integer that a text spells. -/
def readInteger : List Char → Option Int
  | '0' :: 'x' :: cs => basedInteger 16 cs
  | '0' :: 'o' :: cs => basedInteger 8 cs
  | '0' :: 'b' :: cs => basedInteger 2 cs
  | cs =>
    let (negative, cs) := splitSign cs
    (wholeDigits cs).map fun ds => if negative then -(ofDigits ds : Int) else ofDigits ds

/-- An integer as a value. Integers past 128 bits have no representation. -/
def ofInteger (n : Int) : Toml :=
  if -(twoTo 127 : Int) ≤ n ∧ n < twoTo 128 then .integer n else .outOfRange

/-! ## Floats -/

/-- The text without the marks that do not begin an exponent or a fraction. -/
def untilMark (cs : List Char) : List Char × List Char :=
  (cs.takeWhile fun c => c ≠ '.' ∧ c ≠ 'e' ∧ c ≠ 'E',
    cs.dropWhile fun c => c ≠ '.' ∧ c ≠ 'e' ∧ c ≠ 'E')

/-- The exponent of a float, spelled without underscores. -/
def floatExponent : List Char → Option (List Char)
  | [] => some []
  | c :: cs =>
    let (negative, ds) := splitSign cs
    (groupedDigits Char.isDigit ds).map fun ds => c :: (if negative then '-' :: ds else ds)

/-- The fraction and exponent of a float, spelled without underscores. -/
def floatTail : List Char → Option (List Char)
  | '.' :: cs => do
    let (part, rest) := untilMark cs
    if rest.head? = some '.' then none
    let part ← groupedDigits Char.isDigit part
    return '.' :: part ++ (← floatExponent rest)
  | cs => floatExponent cs

/-- The magnitude that a text spells. -/
def readMagnitude (cs : List Char) : Option Toml := do
  let (whole, tail) := untilMark cs
  let whole ← wholeDigits whole
  let numeral ← readUnsigned (whole ++ (← floatTail tail))
  return .float numeral.nearest

/-- A float with its sign. What is too large for a float has no representation. -/
def withSign (negative : Bool) : Toml → Toml
  | .float x => if x.isInf then .outOfRange else .float (signed negative x)
  | value => value

/-- The float that a text spells. -/
def readFloat (cs : List Char) : Option Toml :=
  let (negative, magnitude) := splitSign cs
  if magnitude = "inf".toList then some (.float (signed negative (1 / 0)))
  else if magnitude = "nan".toList then some (.float (0 / 0))
  else (readMagnitude magnitude).map (withSign negative)

/-! ## Dates and times -/

/-- Splits off a number of exactly the given count of digits. -/
def exactDigits (count : Nat) (cs : List Char) : Option (Nat × List Char) :=
  let ds := cs.take count
  if ds.length = count ∧ ds.all Char.isDigit then some (ofDigits ds, cs.drop count) else none

/-- Splits off a given character. -/
def mark (c : Char) : List Char → Option (List Char)
  | d :: rest => if d = c then some rest else none
  | [] => none

/-- Splits off a date. -/
def splitDate (cs : List Char) : Option (List Char) := do
  let (year, cs) ← exactDigits 4 cs
  let (month, cs) ← exactDigits 2 (← mark '-' cs)
  let (day, cs) ← exactDigits 2 (← mark '-' cs)
  if Time.isDay year month day then some cs else none

/-- Splits off a fraction of a second, if there is one. -/
def splitFraction : List Char → Option (List Char)
  | '.' :: cs =>
    if (cs.head?.map Char.isDigit).getD false then some (cs.dropWhile Char.isDigit) else none
  | cs => some cs

/-- Splits off the seconds of a time, if it has any. -/
def splitSeconds : List Char → Option (List Char)
  | ':' :: cs => do
    let (second, cs) ← exactDigits 2 cs
    if second ≤ 60 then splitFraction cs else none
  | cs => some cs

/-- Splits off a time. -/
def splitTime (cs : List Char) : Option (List Char) := do
  let (hour, cs) ← exactDigits 2 cs
  let (minute, cs) ← exactDigits 2 (← mark ':' cs)
  if hour < 24 ∧ minute < 60 then splitSeconds cs else none

/-- The characters are an offset from universal time, or nothing. -/
def isOffset : List Char → Bool
  | [] => true
  | c :: cs =>
    if c = 'Z' ∨ c = 'z' then cs.isEmpty
    else (c = '+' || c = '-') && (splitTime cs = some [] && cs.length = 5)

/-- The characters are a date, a time or both. -/
def isMoment (cs : List Char) : Bool :=
  match splitDate cs with
  | some [] => true
  | some (c :: cs) =>
    (c = 'T' || c = 't' || c = ' ') && ((splitTime cs).map isOffset).getD false
  | none => splitTime cs = some []

/-! ## Unquoted values -/

/-- A character of an unquoted value. -/
def isScalarChar (c : Char) : Bool :=
  c.isAlphanum || c = '+' || c = '-' || c = '_' || c = '.' || c = ':'

/-- Splits off the characters of an unquoted value. A blank belongs to it between a date and a
time. -/
def splitScalar (cs : List Char) : List Char × List Char :=
  let (first, rest) := (cs.takeWhile isScalarChar, cs.dropWhile isScalarChar)
  match rest with
  | ' ' :: c :: more =>
    if splitDate first = some [] ∧ c.isDigit then
      (first ++ ' ' :: (c :: more).takeWhile isScalarChar, (c :: more).dropWhile isScalarChar)
    else (first, rest)
  | _ => (first, rest)

/-- The value that unquoted characters spell. -/
def ofScalar (cs : List Char) : Option Toml :=
  if cs = "true".toList then some (.bool true)
  else if cs = "false".toList then some (.bool false)
  else match readInteger cs with
    | some n => some (ofInteger n)
    | none => if isMoment cs then some .moment else readFloat cs

end Nearby.Toml
