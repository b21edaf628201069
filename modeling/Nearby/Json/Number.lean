/-
The doubles that JSON numbers stand for. A number is read as a significand of at most sixty-four
bits, further digits being dropped, and a power of ten that is then multiplied on or divided off.
This is fast and for long numerals not always the nearest double, but it is the same value each
time.
-/
import Nearby.Decimal.Numeral
import Nearby.Json.Token

namespace Nearby.Json

open Decimal (digitValue ofDigits splitSign spanDigits Numeral signed twoTo)

/-! ## Significands -/

/-- Appends digits while the number stays below `2 ^ 64`. Answers the number and how many digits
are left over. -/
def absorb (n : Nat) : List Char → Nat × Nat
  | [] => (n, 0)
  | c :: rest =>
    let more := 10 * n + digitValue c
    if more < twoTo 64 then absorb more rest else (n, rest.length + 1)

/-! ## Scaling -/

/-- A power of ten as a double. -/
def powerOfTen (n : Nat) : Float := Numeral.nearest ⟨1, n⟩

/-- The double times a power of ten, in steps that stay in the range of doubles. There is none
when the result is too large. -/
def scale (x : Float) (exponent : Int) : Option Float :=
  if 308 < exponent then if x == 0 then some x else none
  else if 0 ≤ exponent then
    let scaled := x * powerOfTen exponent.toNat
    if scaled.isInf then none else some scaled
  else if -308 ≤ exponent then some (x / powerOfTen (-exponent).toNat)
  else if x == 0 then some x
  else scale (x / powerOfTen 308) (exponent + 308)
termination_by exponent.natAbs

/-- The significand times a power of ten whose exponent is spelled out. An exponent beyond
thirty-one bits makes the number zero or too large. -/
def scaleSpelled (significand : Nat) (start : Int) : List Char → Option Float
  | [] => scale significand.toUInt64.toFloat start
  | _ :: spelled =>
    let (negative, ds) := splitSign spelled
    let exponent := ofDigits ds
    if twoTo 31 ≤ exponent then if significand = 0 ∨ negative then some 0 else none
    else
      let exponent := if negative then start - exponent else start + exponent
      scale significand.toUInt64.toFloat exponent

/-! ## Numbers -/

/-- The double that an unsigned spelling stands for. -/
def unsignedValue (cs : List Char) : Option Float :=
  let (whole, rest) := spanDigits cs
  let (significand, dropped) := absorb 0 whole
  match rest with
  | '.' :: rest =>
    let (part, rest) := spanDigits rest
    let (significand, ignored) := absorb significand part
    scaleSpelled significand (dropped - (part.length - ignored : Nat)) rest
  | rest => scaleSpelled significand dropped rest

/-- The double that a number's spelling stands for. -/
def numberValue (spelling : List Char) : Option Float :=
  let (negative, cs) := splitSign spelling
  (unsignedValue cs).map (signed negative)

/-- The double that a document is, if it is a number in range. -/
def float? : Json → Option Float
  | number spelling => numberValue spelling
  | _ => none

end Nearby.Json
