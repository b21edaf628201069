/-
The shortest decimal of a double: the fewest digits that still round to the value, and of those
the decimal nearest to it. Two layouts of the digits are given, the plain positional one of
messages and the one of JSON text.
-/
import Nearby.Decimal.Fixed
import Nearby.Decimal.Numeral

namespace Nearby.Decimal

/-! ## The rounding interval -/

/-- Compares `a.coefficient * 10 ^ a.exponent` with `m * 2 ^ e` exactly. -/
def Numeral.compareDyadic (a : Numeral) (m : Nat) (e : Int) : Ordering :=
  compare (a.coefficient * tenTo a.exponent.toNat * twoTo (-e).toNat)
    (m * twoTo e.toNat * tenTo (-a.exponent).toNat)

/-- The reals that round to a positive dyadic, as numerators over `2 ^ (exponent - 2)`: halfway
to the neighbour below, halfway to the neighbour above. The lower neighbour is closer where the
mantissa is the least of its binade. -/
def Dyadic.interval (d : Dyadic) : Nat × Nat :=
  let below := if d.mantissa = twoTo 52 ∧ -1074 < d.exponent then 1 else 2
  (4 * d.mantissa - below, 4 * d.mantissa + 2)

/-- The decimal rounds to the dyadic. The ends of the interval belong to it exactly when the
mantissa is even. -/
def Numeral.roundsTo (a : Numeral) (d : Dyadic) : Bool :=
  let (low, high) := d.interval
  let even := d.mantissa % 2 = 0
  match a.compareDyadic low (d.exponent - 2), a.compareDyadic high (d.exponent - 2) with
  | .lt, _ => false
  | _, .gt => false
  | .eq, _ => even
  | _, .eq => even
  | .gt, .lt => true

/-! ## The search -/

/-- How far a positive dyadic's leading digit stands left of the units: `10 ^ p ≤ value` and
`value < 10 ^ (p + 1)`. -/
def Dyadic.magnitude (d : Dyadic) : Int :=
  let (num, den) := d.quotient
  let guess : Int := (digits num).length - (digits den).length
  if den * tenTo guess.toNat ≤ num * tenTo (-guess).toNat then guess else guess - 1

/-- The decimal on the grid `10 ^ scale` that rounds to the dyadic, if there is one. Only the
grid's two neighbours of the value come into question. Of two the nearer one is taken, and the
greater one of a tie. -/
def Dyadic.onGrid (d : Dyadic) (scale : Int) : Option Numeral :=
  let (num, den) := d.quotientAt scale
  let low : Numeral := ⟨num / den, scale⟩
  let high : Numeral := ⟨num / den + 1, scale⟩
  match low.roundsTo d, high.roundsTo d with
  | true, true => some (if 2 * (num % den) < den then low else high)
  | true, false => some low
  | false, true => some high
  | false, false => none

/-- Divides trailing zeros off the digits. -/
def Numeral.trimmed (a : Numeral) : Numeral :=
  let ds := (digits a.coefficient).reverse
  let zeros := (ds.takeWhile (· = '0')).length
  ⟨a.coefficient / tenTo zeros, a.exponent + zeros⟩

/-- The shortest decimal of a positive dyadic: the coarsest of the grids with one to seventeen
digits that holds one. -/
def Dyadic.shortest (d : Dyadic) : Numeral :=
  let found := (List.range 17).findSome? fun (n : Nat) => d.onGrid (d.magnitude - n)
  (found.getD ⟨d.mantissa, d.exponent⟩).trimmed

/-! ## Layouts -/

/-- The decimal in positional notation, with a point only where digits follow it. -/
def Numeral.positional (a : Numeral) : String :=
  if 0 ≤ a.exponent then placedText 0 (a.coefficient * tenTo a.exponent.toNat)
  else placedText (-a.exponent).toNat a.coefficient

/-- A double in a message: the shortest digits, in positional notation however long. -/
def plain (x : Float) : String :=
  match Double.ofFloat x with
  | .nan => "NaN"
  | .infinite negative => signText negative ++ "inf"
  | .finite d => signText d.negative ++ if d.mantissa = 0 then "0" else d.shortest.positional

/-- The decimal with an exponent: one digit before the point, no sign on a positive exponent. -/
def Numeral.scientific (a : Numeral) : String :=
  match digits a.coefficient with
  | [] => ""
  | first :: rest =>
    let fraction := if rest.isEmpty then "" else "." ++ .ofList rest
    .singleton first ++ fraction ++ "e" ++ toString (a.exponent + rest.length)

/-- A double in a document: the shortest digits, in positional notation with at least one place
where the leading digit stands from the fifth place after the point to the sixteenth before it,
and with an exponent elsewhere. Only finite doubles have a text. -/
def document (x : Float) : String :=
  match Double.ofFloat x with
  | .nan => "null"
  | .infinite _ => "null"
  | .finite d =>
    signText d.negative ++
      if d.mantissa = 0 then "0.0"
      else
        let a := d.shortest
        let lead := a.exponent + (digits a.coefficient).length - 1
        if -5 ≤ lead ∧ lead ≤ 15 then
          if 0 ≤ a.exponent then a.positional ++ ".0" else a.positional
        else a.scientific

end Nearby.Decimal
