/-
How large the shortest decimal of a double can be. It need not be the double itself, but it rounds
to it, so it stays within half a unit above. Where the double is below a whole number that is a
double as well, a unit fits in between, and the decimal does not pass that number.
-/
import Nearby.Decimal.Shortest
import Nearby.Proofs.Decimal.Digits
import Nearby.Proofs.Decimal.Rounding

namespace Nearby.Decimal

/-! ## Decimals at most a whole number -/

/-- The decimal is at most the whole number. -/
def Numeral.AtMost (a : Numeral) (b : Nat) : Prop :=
  a.coefficient * 10 ^ a.exponent.toNat ≤ b * 10 ^ (-a.exponent).toNat

instance (a : Numeral) (b : Nat) : Decidable (a.AtMost b) := inferInstanceAs (Decidable (_ ≤ _))

/-! ## Trailing zeros -/

theorem eq_zeros_of_takeWhile (ds : List Char) :
    ds.takeWhile (· = '0') = List.replicate (ds.takeWhile (· = '0')).length '0' := by
  refine List.eq_replicate_iff.2 ⟨rfl, fun d mem => ?_⟩
  simpa using List.mem_takeWhile_imp mem

/-- The trailing zeros that are divided off leave no remainder. -/
theorem Numeral.exists_trimmed (a : Numeral) : ∃ (n zeros : Nat),
    a.coefficient = n * 10 ^ zeros ∧ a.trimmed = ⟨n, a.exponent + zeros⟩ := by
  obtain ⟨c, e⟩ := a
  generalize hds : (digits c).reverse = ds
  have split : digits c =
      (ds.dropWhile (· = '0')).reverse ++ (ds.takeWhile (· = '0')).reverse := by
    rw [← List.reverse_append, List.takeWhile_append_dropWhile, ← hds, List.reverse_reverse]
  have spelled := ofDigits_digits c
  rw [split, ofDigits_append, List.length_reverse, eq_zeros_of_takeWhile, List.reverse_replicate,
    ofDigits_zeros, List.length_replicate, Nat.add_zero] at spelled
  refine ⟨_, _, spelled.symm, ?_⟩
  show Numeral.mk (c / 10 ^ ((digits c).reverse.takeWhile (· = '0')).length)
    (e + ((digits c).reverse.takeWhile (· = '0')).length) = _
  rw [hds]
  generalize (ds.takeWhile (· = '0')).length = zeros at spelled
  rw [← spelled, Nat.mul_div_cancel _ (Nat.pow_pos (by decide))]

theorem Numeral.trimmed_pos {a : Numeral} (positive : 0 < a.coefficient) :
    0 < a.trimmed.coefficient := by
  obtain ⟨n, zeros, same, trimmed⟩ := a.exists_trimmed
  rw [trimmed]
  rw [same] at positive
  exact Nat.pos_of_mul_pos_right positive

theorem Numeral.AtMost.trimmed {a : Numeral} {b : Nat} (most : a.AtMost b) :
    a.trimmed.AtMost b := by
  obtain ⟨n, zeros, same, trimmed⟩ := a.exists_trimmed
  rw [trimmed]
  unfold AtMost at most ⊢
  rw [same] at most
  dsimp only
  -- both sides times the power of ten that they had before
  refine Nat.le_of_mul_le_mul_right ?_ (Nat.pow_pos (n := (-a.exponent).toNat) (by decide : 0 < 10))
  calc n * 10 ^ (a.exponent + zeros).toNat * 10 ^ (-a.exponent).toNat
      = n * 10 ^ zeros * 10 ^ a.exponent.toNat * 10 ^ (-(a.exponent + zeros)).toNat := by
        simp only [Nat.mul_assoc, ← Nat.pow_add]
        congr 2
        omega
    _ ≤ b * 10 ^ (-a.exponent).toNat * 10 ^ (-(a.exponent + zeros)).toNat :=
      Nat.mul_le_mul_right _ most
    _ = b * 10 ^ (-(a.exponent + zeros)).toNat * 10 ^ (-a.exponent).toNat := by ring

/-! ## Decimals that round to a double -/

theorem Numeral.roundsTo_bounds {a : Numeral} {d : Dyadic} (rounds : a.roundsTo d = true) :
    a.compareDyadic d.interval.1 (d.exponent - 2) ≠ .lt ∧
      a.compareDyadic d.interval.2 (d.exponent - 2) ≠ .gt := by
  unfold Numeral.roundsTo at rounds
  dsimp only at rounds
  constructor
  · intro below
    rw [below] at rounds
    cases rounds
  · intro above
    rw [above] at rounds
    generalize a.compareDyadic d.interval.1 (d.exponent - 2) = low at rounds
    cases low <;> cases rounds

theorem Numeral.pos_of_roundsTo {a : Numeral} {d : Dyadic} (positive : 0 < d.mantissa)
    (rounds : a.roundsTo d = true) : 0 < a.coefficient := by
  have low := (roundsTo_bounds rounds).1
  have least : 0 < d.interval.1 := by
    show 0 < 4 * d.mantissa - _
    split_ifs <;> omega
  rcases Nat.eq_zero_or_pos a.coefficient with zero | positive
  · refine absurd (compare_lt_iff_lt.2 ?_) low
    rw [zero, Nat.zero_mul, Nat.zero_mul]
    exact Nat.mul_pos (Nat.mul_pos least (Nat.two_pow_pos _)) (Nat.pow_pos (by decide))
  · exact positive

/-- A decimal that rounds to a double is at most half a unit above it. -/
theorem Numeral.le_of_roundsTo {a : Numeral} {d : Dyadic} (rounds : a.roundsTo d = true) :
    a.coefficient * 10 ^ a.exponent.toNat * 2 ^ (-(d.exponent - 2)).toNat ≤
      (4 * d.mantissa + 2) * 2 ^ (d.exponent - 2).toNat * 10 ^ (-a.exponent).toNat :=
  compare_le_iff_le.1 (roundsTo_bounds rounds).2

theorem Dyadic.roundsTo_of_onGrid {d : Dyadic} {scale : Int} {a : Numeral}
    (found : d.onGrid scale = some a) : a.roundsTo d = true := by
  unfold Dyadic.onGrid at found
  dsimp only at found
  split at found
  case h_1 low high =>
    obtain rfl := Option.some.inj found
    split_ifs
    · exact low
    · exact high
  case h_2 low _ => obtain rfl := Option.some.inj found; exact low
  case h_3 _ high => obtain rfl := Option.some.inj found; exact high
  case h_4 => cases found

/-- The shortest decimal is one that rounds to the double, without trailing zeros. The other case
is that no grid holds one. -/
theorem Dyadic.shortest_eq (d : Dyadic) : ∃ a : Numeral, d.shortest = a.trimmed ∧
    (a.roundsTo d = true ∨ a = ⟨d.mantissa, d.exponent⟩) := by
  refine ⟨_, rfl, ?_⟩
  cases found : (List.range 17).findSome? fun (n : Nat) => d.onGrid (d.magnitude - n) with
  | none => exact .inr rfl
  | some a =>
    obtain ⟨n, -, grid⟩ := List.exists_of_findSome?_eq_some found
    exact .inl (roundsTo_of_onGrid grid)

theorem Dyadic.shortest_pos {d : Dyadic} (positive : 0 < d.mantissa) :
    0 < d.shortest.coefficient := by
  obtain ⟨a, same, rounds | rfl⟩ := d.shortest_eq
  · rw [same]
    exact Numeral.trimmed_pos (Numeral.pos_of_roundsTo positive rounds)
  · rw [same]
    exact Numeral.trimmed_pos positive

/-! ## The parts of a double -/

/-- A double that stands before infinity is finite, with its magnitude as significand and
exponent. -/
theorem Double.ofFloat_eq {x : Float} (finite : ((signedBits x).natAbs : Int) < infinityBits) :
    ∃ (negative : Bool) (n r : Nat), Double.ofFloat x = .finite ⟨negative, n, (r : Int) - 1074⟩ ∧
      Canonical n r ∧ place n r = (signedBits x).natAbs := by
  have bound := x.toBits.toNat_lt
  have sign : twoTo 63 = 2 ^ 63 := rfl
  have field : twoTo 52 = 2 ^ 52 := rfl
  have full : twoTo 11 = 2 ^ 11 := rfl
  unfold signedBits infinityBits at finite
  unfold Double.ofFloat Double.ofBits signedBits place
  dsimp only at finite ⊢
  rw [sign] at finite
  rw [sign, field, full]
  generalize x.toBits.toNat = bits at bound finite ⊢
  have short : bits / 2 ^ 52 % 2 ^ 11 ≠ 2 ^ 11 - 1 := by split_ifs at finite <;> omega
  rw [if_neg short]
  refine ⟨decide (2 ^ 63 ≤ bits), ?_⟩
  by_cases least : bits / 2 ^ 52 % 2 ^ 11 = 0
  · rw [if_pos least]
    refine ⟨bits % 2 ^ 52, 0, rfl, ⟨by omega, nofun⟩, ?_⟩
    split_ifs <;> omega
  · rw [if_neg least]
    refine ⟨bits % 2 ^ 52 + 2 ^ 52, bits / 2 ^ 52 % 2 ^ 11 - 1, ?_, ⟨by omega, ?_⟩, ?_⟩
    · congr 2
      omega
    · exact fun _ => by omega
    · split_ifs <;> omega

/-! ## Below a bound -/

/-- A small whole number that is a double, with the shift and the exponent of its significand, and
is not exceeded by its own shortest decimal. -/
structure Bound (b k q : Nat) : Prop where
  small : b < 1000
  sum : k + q = 1074
  canonical : Canonical (b * 2 ^ k) q
  finite : (place (b * 2 ^ k) q : Int) < infinityBits
  itself : ∀ negative, (Dyadic.shortest ⟨negative, b * 2 ^ k, (q : Int) - 1074⟩).AtMost b

section Bound

variable {b k q n r : Nat}

/-- A decimal that rounds to a double below the bound does not pass the bound. -/
theorem Bound.atMost_of_roundsTo (bound : Bound b k q) (c : Canonical n r)
    (before : place n r < place (b * 2 ^ k) q) {negative : Bool} {a : Numeral}
    (rounds : a.roundsTo ⟨negative, n, (r : Int) - 1074⟩ = true) : a.AtMost b := by
  have half := Numeral.le_of_roundsTo rounds
  have unit := units_le_of_place_lt c bound.canonical before
  have sum := bound.sum
  dsimp only at half
  generalize hdown : (-((r : Int) - 1074 - 2)).toNat = down at half
  generalize hup : ((r : Int) - 1074 - 2).toNat = up at half
  have shift : 2 ^ down * 2 ^ r = 2 ^ up * 2 ^ 2 * (2 ^ k * 2 ^ q) := by
    simp only [← Nat.pow_add]
    congr 1
    omega
  unfold Numeral.AtMost
  generalize a.coefficient * 10 ^ a.exponent.toNat = x at half ⊢
  generalize 10 ^ (-a.exponent).toNat = y at half ⊢
  have scaled : 0 < 2 ^ down * 2 ^ r := Nat.mul_pos (Nat.two_pow_pos down) (Nat.two_pow_pos r)
  refine Nat.le_of_mul_le_mul_right ?_ scaled
  -- half a unit above is at most the next double, which the bound is not below
  calc x * (2 ^ down * 2 ^ r) = x * 2 ^ down * 2 ^ r := (Nat.mul_assoc ..).symm
    _ ≤ (4 * n + 2) * 2 ^ up * y * 2 ^ r := Nat.mul_le_mul_right _ half
    _ ≤ (4 * n + 4) * 2 ^ up * y * 2 ^ r := by gcongr; decide
    _ = (n + 1) * 2 ^ r * (4 * 2 ^ up * y) := by ring
    _ ≤ b * 2 ^ k * 2 ^ q * (4 * 2 ^ up * y) := Nat.mul_le_mul_right _ unit
    _ = b * y * (2 ^ up * 2 ^ 2 * (2 ^ k * 2 ^ q)) := by ring
    _ = b * y * (2 ^ down * 2 ^ r) := by rw [shift]

/-- The significand and exponent of a double up to the bound, taken as those of a decimal, do not
pass the bound either. -/
theorem Bound.atMost_of_units (bound : Bound b k q) (c : Canonical n r)
    (before : place n r ≤ place (b * 2 ^ k) q) : Numeral.AtMost ⟨n, (r : Int) - 1074⟩ b := by
  have units := units_le_of_place_le c bound.canonical before
  have small := bound.small
  have sum := bound.sum
  rw [Nat.mul_assoc, ← Nat.pow_add] at units
  unfold Numeral.AtMost
  dsimp only
  rcases le_or_gt r (k + q) with least | more
  · obtain ⟨j, hj⟩ := Nat.exists_eq_add_of_le least
    have up : ((r : Int) - 1074).toNat = 0 := by omega
    have down : (-((r : Int) - 1074)).toNat = j := by omega
    rw [hj, Nat.pow_add, ← Nat.mul_assoc, Nat.mul_right_comm] at units
    rw [up, down, Nat.pow_zero, Nat.mul_one]
    calc n ≤ b * 2 ^ j := Nat.le_of_mul_le_mul_right units (Nat.two_pow_pos r)
      _ ≤ b * 10 ^ j := Nat.mul_le_mul_left _ (Nat.pow_le_pow_left (by decide) j)
  · -- so large an exponent has a full significand, and the double is beyond the bound
    have full := c.normal (by omega)
    have less : b * 2 ^ (k + q) < n * 2 ^ r :=
      Nat.mul_lt_mul_of_lt_of_le (by omega) (Nat.pow_le_pow_right (by decide) more.le)
        (Nat.two_pow_pos r)
    omega

theorem eq_of_place_eq {m : Nat} (c : Canonical n r) (c' : Canonical m q)
    (same : place n r = place m q) : n = m ∧ r = q := by
  obtain ⟨small, normal⟩ := c
  obtain ⟨small', normal'⟩ := c'
  unfold place at same
  omega

/-- The shortest decimal of a double up to the bound does not pass the bound. -/
theorem Bound.atMost_shortest (bound : Bound b k q) (c : Canonical n r)
    (before : place n r ≤ place (b * 2 ^ k) q) (negative : Bool) :
    (Dyadic.shortest ⟨negative, n, (r : Int) - 1074⟩).AtMost b := by
  -- the bound itself has half a unit above it, so its shortest decimal is computed
  rcases before.lt_or_eq with less | same
  · obtain ⟨a, shortest, rounds | rfl⟩ := Dyadic.shortest_eq ⟨negative, n, (r : Int) - 1074⟩
    · rw [shortest]
      exact (bound.atMost_of_roundsTo c less rounds).trimmed
    · rw [shortest]
      exact (bound.atMost_of_units c before).trimmed
  · obtain ⟨rfl, rfl⟩ := eq_of_place_eq c bound.canonical same
    exact bound.itself negative

end Bound

theorem bound_ninety : Bound 90 46 1028 where
  small := by decide
  sum := rfl
  canonical := ⟨by decide, fun _ => by decide⟩
  finite := by decide
  itself := by decide +kernel

theorem bound_straight : Bound 180 45 1029 where
  small := by decide
  sum := rfl
  canonical := ⟨by decide, fun _ => by decide⟩
  finite := by decide
  itself := by decide +kernel

end Nearby.Decimal
