/-
Reading decimal numerals: an optional sign, digits with at most one point, an optional exponent,
and the words for the infinities and for not-a-number. The value is the nearest double.
-/
import Nearby.Decimal.Binary

namespace Nearby.Decimal

/-! ## Digits -/

/-- The value of a digit. -/
def digitValue (c : Char) : Nat := c.toNat - '0'.toNat

/-- Appends decimal digits to a number. -/
def appendDigits (start : Nat) (ds : List Char) : Nat :=
  ds.foldl (fun n c => 10 * n + digitValue c) start

/-- The number that a run of digits spells. -/
def ofDigits (ds : List Char) : Nat := appendDigits 0 ds

/-- Splits off the leading digits. -/
def spanDigits (cs : List Char) : List Char × List Char :=
  (cs.takeWhile Char.isDigit, cs.dropWhile Char.isDigit)

theorem length_spanDigits (cs : List Char) :
    (spanDigits cs).1.length + (spanDigits cs).2.length = cs.length := by
  rw [spanDigits, ← List.length_append, List.takeWhile_append_dropWhile]

/-- A sign in front of a number; none means plus. -/
def splitSign : List Char → Bool × List Char
  | '-' :: rest => (true, rest)
  | '+' :: rest => (false, rest)
  | cs => (false, cs)

/-! ## Nearest double -/

/-- The unsigned decimal `coefficient * 10 ^ exponent`. -/
structure Numeral where
  coefficient : Nat
  exponent : Int
  deriving DecidableEq, Repr

/-- The double nearest to a decimal, ties to even. Decimals far outside the range of doubles are
answered without forming the power. -/
def Numeral.nearest (a : Numeral) : Float :=
  let size : Int := (Nat.toDigits 10 a.coefficient).length + a.exponent
  if a.coefficient = 0 then 0
  else if 310 < size then 1 / 0
  else if size < -330 then 0
  else Float.ofScientific a.coefficient (a.exponent < 0) a.exponent.natAbs

/-- The sign put in front of a double. -/
def signed (negative : Bool) (x : Float) : Float := if negative then -x else x

/-! ## Numerals -/

/-- The exponent part: nothing, or `e` and a signed run of digits up to the end. -/
def readExponent : List Char → Option Int
  | [] => some 0
  | c :: rest =>
    if c = 'e' ∨ c = 'E' then
      let (negative, ds) := splitSign rest
      if ds.isEmpty ∨ ¬ ds.all Char.isDigit then none
      else some (if negative then -(ofDigits ds : Int) else ofDigits ds)
    else none

/-- The unsigned numeral: digits before and after an optional point, at least one of them. -/
def readUnsigned (cs : List Char) : Option Numeral :=
  let (whole, rest) := spanDigits cs
  let (part, rest) : List Char × List Char := match rest with
    | '.' :: more => spanDigits more
    | _ => ([], rest)
  if whole.isEmpty && part.isEmpty then none
  else (readExponent rest).map fun e => ⟨ofDigits (whole ++ part), e - part.length⟩

/-- The words that stand for a value, in any case. -/
def readWord (cs : List Char) : Option Float :=
  let word := String.ofList (cs.map Char.toLower)
  if word = "inf" ∨ word = "infinity" then some (1 / 0)
  else if word = "nan" then some (0 / 0)
  else none

/-- The double that a text spells, without blanks or separators. -/
def readFloat (s : String) : Option Float :=
  let (negative, cs) := splitSign s.toList
  ((readUnsigned cs).map Numeral.nearest <|> readWord cs).map (signed negative)

/-- The natural number that a text of digits spells, with an optional plus, up to a bound. -/
def readBounded (limit : Nat) (s : String) : Option Nat :=
  let ds := match s.toList with
    | '+' :: rest => rest
    | cs => cs
  if ds.isEmpty || ! ds.all Char.isDigit then none
  else
    let n := ofDigits ds
    if n ≤ limit then some n else none

end Nearby.Decimal
