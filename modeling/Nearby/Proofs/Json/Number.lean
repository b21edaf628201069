/-
Reading numbers up to a bound. The reader drops the digits that are too many for it, so what it
takes for the significand is no more than what is written, and a quotient of doubles does not pass
a double that the exact quotient does not pass. So a number up to a bound is read, and as a double
up to the bound, even where it is not read as the nearest one.
-/
import Nearby.Json.Number
import Nearby.Proofs.Decimal.Arithmetic
import Nearby.Proofs.Json.Numeral

namespace Nearby.Json

open Decimal
open Float.Model (Format UnpackedFloat)

/-! ## Significands -/

/-- What is absorbed, shifted by what is left over, is no more than what is written. -/
theorem absorb_spec {n : Nat} (start : n < 2 ^ 64) (ds : List Char) :
    (absorb n ds).1 < 2 ^ 64 ∧ (absorb n ds).2 ≤ ds.length ∧
      (absorb n ds).1 * 10 ^ (absorb n ds).2 ≤ appendDigits n ds := by
  induction ds generalizing n with
  | nil => exact ⟨start, le_rfl, (Nat.mul_one n).le⟩
  | cons d ds ih =>
    unfold absorb
    dsimp only
    split_ifs with fits
    · obtain ⟨small, short, units⟩ := ih fits
      exact ⟨small, Nat.le_succ_of_le short, units⟩
    · -- this digit and all after it are left over, which takes the number down
      refine ⟨start, le_rfl, ?_⟩
      rw [appendDigits_eq]
      exact Nat.le_add_right _ _

theorem absorb_of_lt {n : Nat} {ds : List Char} (fits : appendDigits n ds < 2 ^ 64) :
    absorb n ds = (appendDigits n ds, 0) := by
  induction ds generalizing n with
  | nil => rfl
  | cons d ds ih =>
    have more : 10 * n + digitValue d ≤ appendDigits (10 * n + digitValue d) ds := by
      rw [appendDigits_eq]
      exact le_trans (Nat.le_mul_of_pos_right _ (Nat.pow_pos (by decide))) (Nat.le_add_right _ _)
    change appendDigits (10 * n + digitValue d) ds < 2 ^ 64 at fits
    unfold absorb
    dsimp only
    rw [if_pos (show _ < twoTo 64 from Nat.lt_of_le_of_lt more fits), ih fits]
    rfl

/-! ## Powers of ten -/

theorem powerOfTen_exact :
    ∀ n ≤ 22, (powerOfTen n).isFinite = true ∧ value (powerOfTen n) = 10 ^ n := by
  decide +kernel

/-- Beyond the table a power is taken as a product of significands. -/
theorem powerOfTen_eq_mul {n : Nat} (large : 22 < n) (range : n ≤ 308) : powerOfTen n =
    packed (UnpackedFloat.mul Format.binary64 (.finite .positive (1 <<< 53) (-53) (by decide))
      (.finite .positive (10 ^ n) 0 (Nat.pow_pos (by decide)))) := by
  have exponent : ¬ (n : Int) < 0 := by omega
  have length : (Nat.toDigits 10 1).length = 1 := rfl
  have read : powerOfTen n = Float.ofScientific 1 false n := by
    unfold powerOfTen Numeral.nearest
    dsimp only
    rw [length, if_neg (by decide), if_neg (by omega), if_neg (by omega),
      decide_eq_false exponent, Int.natAbs_natCast]
  have widest : (2 : Int) ^ Format.binary64.exponentBits = 2048 := rfl
  rw [read]
  unfold Float.ofScientific
  rw [dif_neg (by omega)]
  show packed (UnpackedFloat.ofScientific Format.binary64 1 n) = _
  unfold UnpackedFloat.ofScientific
  rw [dif_neg (by decide), widest, if_neg (by omega), if_neg (by omega), if_pos (by omega)]
  rfl

/-- Every power of ten in the range of doubles is rounded. -/
theorem rounded_powerOfTen {n : Nat} (range : n ≤ 308) : RoundedFrom (10 ^ n) (powerOfTen n) := by
  rcases le_or_gt n 22 with small | large
  · obtain ⟨finite, exact'⟩ := powerOfTen_exact n small
    rw [← exact']
    exact rounded_self finite
  · have full : 2 ^ 52 ≤ (1 <<< 53) * 10 ^ n := by
      have := Nat.le_mul_of_pos_right (1 <<< 53) (Nat.pow_pos (n := n) (by decide : 0 < 10))
      omega
    have rounded := roundedFrom_mul .positive .positive (m := 1 <<< 53) (n := 10 ^ n) (by decide)
      (Nat.pow_pos (by decide)) (-53) 0 (.inl full)
    -- a power beyond the table is the product of one and itself, each with a full significand
    have exact' : withSign .positive (((1 <<< 53 : Nat) : ℚ) * 2 ^ (-53 : Int)) *
        withSign .positive (((10 ^ n : Nat) : ℚ) * 2 ^ (0 : Int)) = 10 ^ n := by
      have shifted : 1 <<< 53 = 2 ^ 53 := rfl
      unfold withSign
      rw [shifted]
      norm_num
    rw [unpackedValue_finite, unpackedValue_finite, exact'] at rounded
    rw [powerOfTen_eq_mul large range]
    exact rounded

theorem isFinite_powerOfTen {n : Nat} (range : n ≤ 308) :
    (powerOfTen n).isFinite = true ∧ 1 ≤ value (powerOfTen n) := by
  have large : (17e307 : Float).isFinite = true ∧ 10 ^ 308 ≤ value 17e307 := by decide +kernel
  have one : (1 : Float).isFinite = true ∧ value 1 = 1 := by decide +kernel
  have rounded := rounded_powerOfTen range
  have above : 1 ≤ powerOfTen n := by
    refine rounded.above one.1 ?_
    rw [one.2]
    exact one_le_pow₀ (by norm_num)
  have below : powerOfTen n ≤ 17e307 := by
    refine rounded.below large.1 (le_trans ?_ large.2)
    exact pow_le_pow_right₀ (by norm_num) range
  have finite := isFinite_of_between one.1 large.1 above below
  refine ⟨finite, ?_⟩
  rw [← one.2]
  exact (le_iff_value one.1 finite).1 above

theorem le_powerOfTen {n : Nat} (least : 18 ≤ n) (range : n ≤ 308) :
    10 ^ 18 ≤ value (powerOfTen n) := by
  obtain ⟨finite, exact'⟩ := powerOfTen_exact 18 (by decide)
  rw [← exact', ← le_iff_value finite (isFinite_powerOfTen range).1]
  refine (rounded_powerOfTen range).above finite ?_
  rw [exact']
  exact pow_le_pow_right₀ (by norm_num) least

/-! ## Scaling down -/

/-- Dividing by a power of ten leads down, and not below zero. -/
theorem div_powerOfTen {x : Float} (finite : x.isFinite = true) (least : 0 ≤ x) {n : Nat}
    (range : n ≤ 308) : (x / powerOfTen n).isFinite = true ∧ 0 ≤ x / powerOfTen n ∧
      x / powerOfTen n ≤ x := by
  obtain ⟨power, one⟩ := isFinite_powerOfTen range
  have nonneg := (nonneg_iff_value finite).1 least
  have rounded := rounded_div finite power (by linarith)
  have above : 0 ≤ x / powerOfTen n := by
    refine rounded.above isFinite_zero ?_
    rw [value_zero]
    positivity
  have below : x / powerOfTen n ≤ x := rounded.below finite (div_le_self nonneg one)
  exact ⟨isFinite_of_between isFinite_zero finite above below, above, below⟩

/-- A negative exponent scales down, in however many steps. -/
theorem scale_le {x : Float} (finite : x.isFinite = true) (least : 0 ≤ x) {e : Int}
    (negative : e < 0) : ∃ y, scale x e = some y ∧ 0 ≤ y ∧ y ≤ x := by
  generalize size : e.natAbs = n
  induction n using Nat.strongRecOn generalizing x e with
  | _ n ih =>
    rw [scale, if_neg (by omega), if_neg (by omega)]
    split_ifs with near zero
    · obtain ⟨-, above, below⟩ := div_powerOfTen finite least (n := (-e).toNat) (by omega)
      exact ⟨_, rfl, above, below⟩
    · exact ⟨x, rfl, least, le_self (isNaN_of_isFinite finite)⟩
    · obtain ⟨finite', above, below⟩ := div_powerOfTen finite least (n := 308) le_rfl
      obtain ⟨y, scaled, least', most⟩ :=
        ih (e + 308).natAbs (by omega) finite' above (by omega) rfl
      exact ⟨y, scaled, least', le_of_le_of_le most below⟩

/-! ## Numbers up to a bound -/

/-- The bound is a double, as are its multiples by the lesser powers of ten; by the greater ones it
exceeds all significands. -/
structure Limit (b k q : Nat) (top : Float) : Prop where
  bound : Bound b k q
  bits : signedBits top = place (b * 2 ^ k) q
  finite : top.isFinite = true
  same : value top = b
  exact : ∀ n < 18, (b * 10 ^ n).toUInt64.toFloat.isFinite = true ∧
    value (b * 10 ^ n).toUInt64.toFloat = (b * 10 ^ n : Nat)
  wide : 2 ^ 64 ≤ b * 10 ^ 18

theorem limit_ninety : Limit 90 46 1028 90 where
  bound := bound_ninety
  bits := by decide +kernel
  finite := by decide +kernel
  same := by decide +kernel
  exact := by decide +kernel
  wide := by decide

theorem limit_straight : Limit 180 45 1029 180 where
  bound := bound_straight
  bits := by decide +kernel
  finite := by decide +kernel
  same := by decide +kernel
  exact := by decide +kernel
  wide := by decide

section Limit

variable {b k q : Nat} {top : Float}

theorem Limit.nonneg (limit : Limit b k q top) : 0 ≤ top := by
  rw [nonneg_iff_value limit.finite, limit.same]
  exact Nat.cast_nonneg b

/-- A significand is rounded, and is at most the double that its bound is. -/
theorem toFloat_le {s : Nat} (fits : s < 2 ^ 64) : s.toUInt64.toFloat.isFinite = true ∧
    0 ≤ s.toUInt64.toFloat ∧ ∀ {z : Float}, z.isFinite = true → (s : ℚ) ≤ value z →
      value s.toUInt64.toFloat ≤ value z := by
  have rounded := rounded_toFloat s.toUInt64
  have same : s.toUInt64.toNat = s := UInt64.toNat_ofNat_of_lt' fits
  rw [same] at rounded
  have widest : (18446744073709551616 : Float).isFinite = true ∧
      value 18446744073709551616 = 2 ^ 64 := by decide +kernel
  have above : 0 ≤ s.toUInt64.toFloat := by
    refine rounded.above isFinite_zero ?_
    rw [value_zero]
    exact Nat.cast_nonneg s
  have below : s.toUInt64.toFloat ≤ 18446744073709551616 := by
    refine rounded.below widest.1 ?_
    rw [widest.2]
    exact_mod_cast fits.le
  have finite := isFinite_of_between isFinite_zero widest.1 above below
  exact ⟨finite, above, fun fz le => (le_iff_value finite fz).1 (rounded.below fz le)⟩

/-- A significand up to a multiple of the bound stays so as a double, where the multiple is that by
a power of ten as a double. -/
theorem Limit.value_toFloat_le (limit : Limit b k q top) {s n : Nat} (fits : s < 2 ^ 64)
    (most : n < 18 → s ≤ b * 10 ^ n) (range : n ≤ 308) :
    value s.toUInt64.toFloat ≤ b * value (powerOfTen n) := by
  obtain ⟨-, -, le⟩ := toFloat_le fits
  rcases lt_or_ge n 18 with small | large
  · -- the multiple is a double itself, and rounding does not pass a double
    obtain ⟨finite, multiple⟩ := limit.exact n small
    rw [(powerOfTen_exact n (by omega)).2]
    have bounded := le finite (by rw [multiple]; exact_mod_cast most small)
    rw [multiple] at bounded
    exact_mod_cast bounded
  · have widest : (18446744073709551616 : Float).isFinite = true ∧
        value 18446744073709551616 = 2 ^ 64 := by decide +kernel
    have bounded := le widest.1 (by rw [widest.2]; exact_mod_cast fits.le)
    have wide : (2 : ℚ) ^ 64 ≤ b * 10 ^ 18 := by exact_mod_cast limit.wide
    calc value s.toUInt64.toFloat ≤ 2 ^ 64 := by rw [← widest.2]; exact bounded
      _ ≤ b * 10 ^ 18 := wide
      _ ≤ b * value (powerOfTen n) :=
        mul_le_mul_of_nonneg_left (le_powerOfTen large range) (Nat.cast_nonneg b)

theorem Limit.div_powerOfTen_le (limit : Limit b k q top) {s n : Nat} (fits : s < 2 ^ 64)
    (most : n < 18 → s ≤ b * 10 ^ n) (range : n ≤ 308) :
    s.toUInt64.toFloat / powerOfTen n ≤ top := by
  obtain ⟨finite, -, -⟩ := toFloat_le fits
  obtain ⟨power, one⟩ := isFinite_powerOfTen range
  refine (rounded_div finite power (by linarith)).below limit.finite ?_
  rw [limit.same, div_le_iff₀ (by linarith)]
  exact limit.value_toFloat_le fits most range

theorem Limit.scale_zero (limit : Limit b k q top) {s : Nat} (fits : s < 2 ^ 64) (most : s ≤ b) :
    ∃ y, scale s.toUInt64.toFloat 0 = some y ∧ 0 ≤ y ∧ y ≤ top := by
  obtain ⟨finite, least, -⟩ := toFloat_le fits
  obtain ⟨power, one⟩ := powerOfTen_exact 0 (by decide)
  have nonneg := (nonneg_iff_value finite).1 least
  have rounded := rounded_mul finite power
  have units := limit.value_toFloat_le fits (n := 0) (fun _ => by omega) (by decide)
  rw [one, pow_zero, mul_one] at units rounded
  have above : 0 ≤ s.toUInt64.toFloat * powerOfTen 0 :=
    rounded.above isFinite_zero (by rwa [value_zero])
  have below : s.toUInt64.toFloat * powerOfTen 0 ≤ top :=
    rounded.below limit.finite (by rwa [limit.same])
  have inRange := isInf_of_isFinite (isFinite_of_between isFinite_zero limit.finite above below)
  refine ⟨_, ?_, above, below⟩
  rw [scale, if_neg (by decide), if_pos (by decide)]
  exact if_neg (ne_true_of_eq_false inRange)

/-- A significand over a power of ten, up to the bound, is scaled to a double up to the bound. -/
theorem Limit.scale_places (limit : Limit b k q top) {s places : Nat} (fits : s < 2 ^ 64)
    (most : s ≤ b * 10 ^ places) : ∃ y, scale s.toUInt64.toFloat (-(places : Int)) = some y ∧
      0 ≤ y ∧ y ≤ top := by
  obtain ⟨finite, least, -⟩ := toFloat_le fits
  rcases Nat.eq_zero_or_pos places with rfl | behind
  · exact limit.scale_zero fits (by omega)
  · rw [scale, if_neg (by omega), if_neg (by omega)]
    split_ifs with near zero
    · have range : (-(-(places : Int))).toNat = places := by omega
      obtain ⟨-, above, -⟩ := div_powerOfTen finite least (n := places) (by omega)
      rw [range]
      exact ⟨_, rfl, above, limit.div_powerOfTen_le fits (fun _ => most) (by omega)⟩
    · exact ⟨_, rfl, least, le_of_le_of_le (le_of_beq zero) limit.nonneg⟩
    · -- the first of several steps leads below the bound, whatever the significand is
      have first := limit.div_powerOfTen_le fits (n := 308) (by omega) le_rfl
      obtain ⟨finite', least', -⟩ := div_powerOfTen finite least (n := 308) le_rfl
      obtain ⟨y, scaled, above, below⟩ := scale_le finite' least' (e := -(places : Int) + 308)
        (by omega)
      exact ⟨y, scaled, above, le_of_le_of_le below first⟩

/-! ## Literals up to a bound -/

theorem noDigit_power (t : Literal) : NoDigit t.power := by
  unfold Literal.power
  cases t.exponent with
  | none => nofun
  | some n => rintro c ⟨⟩; rfl

theorem noDigit_fraction (t : Literal) : NoDigit (t.fraction ++ t.power) := by
  by_cases none : t.part = []
  · rw [Literal.fraction_of_nil none]
    exact noDigit_power t
  · rw [Literal.fraction_of_ne_nil none]
    rintro c ⟨⟩
    rfl

/-- The exponent of the literal takes further places off. -/
theorem Limit.scaleSpelled_power (limit : Limit b k q top) (t : Literal) {s places : Nat}
    (fits : s < 2 ^ 64) (most : s ≤ b * 10 ^ (places + t.exponent.getD 0)) :
    ∃ y, scaleSpelled s (-(places : Int)) t.power = some y ∧ 0 ≤ y ∧ y ≤ top := by
  unfold Literal.power
  cases exponent : t.exponent with
  | none =>
    rw [exponent] at most
    exact limit.scale_places fits most
  | some n =>
    rw [exponent] at most
    have sign : splitSign ('-' :: digits n) = (true, digits n) := rfl
    dsimp only
    unfold scaleSpelled
    simp only [sign, ofDigits_digits]
    split_ifs with far zero
    · exact ⟨0, rfl, le_of_beq rfl, limit.nonneg⟩
    · exact absurd (.inr trivial) zero
    · have sum : -(places : Int) - n = -((places + n : Nat) : Int) := by omega
      rw [sum]
      exact limit.scale_places fits most

/-- The digits before the point are few enough to be taken whole; of those behind it some may be
dropped. -/
theorem unsignedValue_eq {t : Literal} (fits : ofDigits t.whole < 2 ^ 64) :
    unsignedValue t.chars = scaleSpelled (absorb (ofDigits t.whole) t.part).1
      (-((t.part.length - (absorb (ofDigits t.whole) t.part).2 : Nat) : Int)) t.power := by
  have span := spanDigits_append t.isWhole.1.2 (noDigit_fraction t)
  have absorbed : absorb 0 t.whole = (ofDigits t.whole, 0) := absorb_of_lt fits
  unfold unsignedValue Literal.chars
  rw [List.append_assoc, span]
  dsimp only
  rw [absorbed]
  dsimp only
  by_cases none : t.part = []
  · rw [Literal.fraction_of_nil none, none, List.nil_append]
    unfold Literal.power
    cases t.exponent <;> rfl
  · have span' := spanDigits_append t.isPart (noDigit_power t)
    rw [Literal.fraction_of_ne_nil none, List.cons_append]
    split
    case h_1 rest same =>
      obtain ⟨-, rfl⟩ := List.cons_eq_cons.1 same
      rw [span']
      show scaleSpelled _ (0 - _) _ = _
      rw [Int.zero_sub]
    case h_2 other => exact absurd rfl (other _)

/-- A literal up to the bound is read as a double up to the bound. -/
theorem Limit.unsignedValue (limit : Limit b k q top) {t : Literal} (most : t.AtMost b) :
    ∃ y, Json.unsignedValue t.chars = some y ∧ 0 ≤ y ∧ y ≤ top := by
  have whole := t.whole_le most
  have small := limit.bound.small
  have start : ofDigits t.whole < 2 ^ 64 := by omega
  obtain ⟨fits, short, units⟩ := absorb_spec start t.part
  rw [unsignedValue_eq start]
  unfold Literal.AtMost Literal.coefficient Literal.places at most
  rw [ofDigits_append, ← appendDigits_eq] at most
  generalize absorb (ofDigits t.whole) t.part = taken at fits short units
  refine limit.scaleSpelled_power t fits ?_
  -- the digits left over are places that need not be taken off
  refine Nat.le_of_mul_le_mul_right ?_ (Nat.pow_pos (n := taken.2) (by decide : 0 < 10))
  have split : t.part.length + t.exponent.getD 0 =
      t.part.length - taken.2 + t.exponent.getD 0 + taken.2 := by omega
  rw [split, Nat.pow_add, ← Nat.mul_assoc] at most
  exact le_trans units most

/-! ## Doubles up to a bound -/

/-- The double lies up to the bound on either side of zero. -/
def Within (top x : Float) : Prop := -top ≤ x ∧ x ≤ top

theorem Limit.within_iff (limit : Limit b k q top) {x : Float} : Within top x ↔
    x.isNaN = false ∧ (signedBits x).natAbs ≤ place (b * 2 ^ k) q := by
  have number := isNaN_of_isFinite limit.finite
  obtain ⟨number', negated⟩ := standsAt_neg number
  unfold Within
  rw [le_iff, le_iff, negated, limit.bits]
  constructor
  · rintro ⟨⟨-, hx, low⟩, -, -, high⟩
    exact ⟨hx, by omega⟩
  · rintro ⟨hx, near⟩
    exact ⟨⟨number', hx, by omega⟩, hx, number, by omega⟩

/-- A sign in front of a double up to the bound keeps it within the bound. -/
theorem Limit.within_signed (limit : Limit b k q top) {y : Float} (least : 0 ≤ y) (most : y ≤ top)
    (negative : Bool) : Within top (signed negative y) := by
  obtain ⟨number, above⟩ := nonneg_iff.1 least
  obtain ⟨-, -, below⟩ := le_iff.1 most
  rw [limit.bits] at below
  rw [limit.within_iff]
  cases negative with
  | false => exact ⟨number, by show (signedBits y).natAbs ≤ _; omega⟩
  | true =>
    obtain ⟨number', negated⟩ := standsAt_neg number
    exact ⟨number', by show (signedBits (-y)).natAbs ≤ _; omega⟩

theorem Limit.spelling_document (limit : Limit b k q top) {x : Float} (within : Within top x) :
    NumberSpelling (document x).toList := by
  obtain ⟨negative, t, chars, -⟩ := exists_document limit.bound (limit.within_iff.1 within).2
  rw [chars]
  refine t.spelling ?_
  cases negative with
  | false => exact .inl rfl
  | true => exact .inr rfl

/-- A double within the bound is written as a number that is read as one within the bound. -/
theorem Limit.numberValue_document (limit : Limit b k q top) {x : Float} (within : Within top x) :
    ∃ y, numberValue (document x).toList = some y ∧ Within top y := by
  obtain ⟨negative, t, chars, most⟩ := exists_document limit.bound (limit.within_iff.1 within).2
  obtain ⟨y, read, above, below⟩ := limit.unsignedValue most
  have split : splitSign ((signText negative).toList ++ t.chars) = (negative, t.chars) := by
    cases negative with
    | false =>
      show splitSign t.chars = _
      unfold Literal.chars
      rw [List.append_assoc]
      exact splitSign_digits t.isWhole.1.2 t.isWhole.1.1
    | true => rfl
  refine ⟨signed negative y, ?_, limit.within_signed above below negative⟩
  unfold numberValue
  rw [chars, split]
  dsimp only
  rw [read, Option.map_some]

end Limit

end Nearby.Json
