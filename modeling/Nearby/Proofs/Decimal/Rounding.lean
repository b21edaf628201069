/-
Rounding a magnitude. Whatever the exact magnitude is, the rounded one is a double with no other
double strictly between the two: every double on one side of the exact magnitude stays on that
side of the rounded one, overflow to infinity and underflow to zero included. A significand, an
exponent and a note on what was dropped stand for the exact magnitude; sums, products and
quotients come to rounding in this form.
-/
import Nearby.Proofs.Decimal.Order
import Mathlib.Algebra.Order.Field.Power
import Mathlib.Algebra.Order.Field.Rat
import Mathlib.Algebra.Order.Ring.Nat
import Mathlib.Data.Nat.Log
import Mathlib.Tactic.Linarith
import Mathlib.Tactic.NormNum
import Mathlib.Tactic.Ring

namespace Nearby.Decimal

open Float.Model Float.Model.UnpackedFloat

/-! ## Magnitudes -/

/-- The significand and exponent of a finite double, where exponents count from the least one: the
significand has fifty-three bits, or fewer at the least exponent. -/
structure Canonical (m q : Nat) : Prop where
  small : m < 2 ^ 53
  normal : 0 < q → 2 ^ 52 ≤ m

/-- Where a magnitude stands among the doubles. -/
def place (m q : Nat) : Nat := q * 2 ^ 52 + m

theorem canonical_zero : Canonical 0 0 := ⟨by decide, nofun⟩

/-- Between two neighbouring doubles there is a whole unit of the lesser one. -/
theorem units_le_of_place_lt {m q n r : Nat} (low : Canonical m q) (high : Canonical n r)
    (before : place m q < place n r) : (m + 1) * 2 ^ q ≤ n * 2 ^ r := by
  obtain ⟨small, normal⟩ := low
  obtain ⟨small', normal'⟩ := high
  unfold place at before
  rcases lt_trichotomy q r with less | rfl | more
  · obtain ⟨d, rfl⟩ := Nat.exists_eq_add_of_lt less
    have big := normal' (by omega)
    calc (m + 1) * 2 ^ q ≤ 2 ^ 53 * 2 ^ q := Nat.mul_le_mul_right _ (by omega)
      _ = 2 ^ 52 * 2 ^ (q + 1) := by ring
      _ ≤ 2 ^ 52 * 2 ^ (q + d + 1) :=
        Nat.mul_le_mul_left _ (Nat.pow_le_pow_right (by decide) (by omega))
      _ ≤ n * 2 ^ (q + d + 1) := Nat.mul_le_mul_right _ big
  · exact Nat.mul_le_mul_right _ (by omega)
  · have big := normal (by omega)
    omega

theorem units_le_of_place_le {m q n r : Nat} (low : Canonical m q) (high : Canonical n r)
    (before : place m q ≤ place n r) : m * 2 ^ q ≤ n * 2 ^ r := by
  rcases before.lt_or_eq with less | same
  · exact le_trans (Nat.mul_le_mul_right _ (by omega)) (units_le_of_place_lt low high less)
  · obtain ⟨small, normal⟩ := low
    obtain ⟨small', normal'⟩ := high
    unfold place at same
    obtain rfl : q = r := by omega
    exact Nat.mul_le_mul_right _ (by omega)

theorem place_le_of_units_lt {m q n r : Nat} (low : Canonical m q) (high : Canonical n r)
    (below : n * 2 ^ r < (m + 1) * 2 ^ q) : place n r ≤ place m q := by
  by_contra after
  have := units_le_of_place_lt low high (by omega)
  omega

theorem units_lt_succ (m q : Nat) : m * 2 ^ q < (m + 1) * 2 ^ q :=
  Nat.mul_lt_mul_of_pos_right (Nat.lt_succ_self m) (Nat.two_pow_pos q)

/-- Magnitudes are in the order of their places. -/
theorem place_le_iff {m q n r : Nat} (c : Canonical m q) (c' : Canonical n r) :
    place m q ≤ place n r ↔ m * 2 ^ q ≤ n * 2 ^ r := by
  constructor
  · exact units_le_of_place_le c c'
  · intro le
    exact place_le_of_units_lt c' c (Nat.lt_of_le_of_lt le (units_lt_succ n r))

/-! ## Dropping bits -/

/-- The significand, the exponent and the note on what was dropped stand for the exact magnitude,
which is counted in units of the least double. -/
structure Approximates (m : Nat) (e : Int) (accuracy : Accuracy) (exact : ℚ) : Prop where
  low : m * 2 ^ (e + 1074) ≤ exact
  high : exact < (m + 1) * 2 ^ (e + 1074)
  kept : exact = m * 2 ^ (e + 1074) → accuracy = .exact

theorem approximates_exact (m : Nat) (e : Int) :
    Approximates m e .exact (m * 2 ^ (e + 1074)) where
  low := le_rfl
  high := by
    have unit : (0 : ℚ) < 2 ^ (e + 1074) := by positivity
    linarith
  kept _ := rfl

theorem targetExponent_eq (m : Nat) (e : Int) :
    Format.binary64.targetExponent (totalExponent m e) = max (m.log2 + e - 52) (-1074) := by
  unfold Format.targetExponent totalExponent
  show max ((m.log2 : Int) + 1 + e - 53) (-1074) = _
  omega

theorem mantissa_ofMantissaAndAccuracy (m : Nat) (accuracy : Accuracy) :
    (ExtendedMantissa.ofMantissaAndAccuracy m accuracy).mantissa = m := by
  rcases accuracy with _ | ⟨_ | _ | _⟩ <;> rfl

theorem shift_mantissa (em : ExtendedMantissa) (k : Nat) :
    (em >>> k).mantissa = em.mantissa / 2 ^ k := by
  show (Nat.repeat ExtendedMantissa.shiftRightOne k em).mantissa = _
  induction k with
  | zero => simp [Nat.repeat]
  | succ k ih =>
    show (Nat.repeat ExtendedMantissa.shiftRightOne k em).mantissa / 2 = _
    rw [ih, Nat.div_div_eq_div_mul, ← Nat.pow_succ]

/-- Shifting out zeros loses nothing. -/
theorem shift_exact (m k : Nat) (divides : 2 ^ k ∣ m) :
    (ExtendedMantissa.mk m false false) >>> k = ⟨m / 2 ^ k, false, false⟩ := by
  show Nat.repeat ExtendedMantissa.shiftRightOne k _ = _
  induction k with
  | zero => simp [Nat.repeat]
  | succ k ih =>
    obtain ⟨n, rfl⟩ := divides
    have even : 2 ^ (k + 1) * n / 2 ^ k = 2 * n := by
      rw [Nat.pow_succ, Nat.mul_assoc, Nat.mul_div_cancel_left _ (Nat.two_pow_pos k)]
    show ExtendedMantissa.shiftRightOne (Nat.repeat ExtendedMantissa.shiftRightOne k _) = _
    rw [ih ⟨2 * n, by rw [Nat.pow_succ, Nat.mul_assoc]⟩, even,
      Nat.mul_div_cancel_left _ (Nat.two_pow_pos (k + 1))]
    simp [ExtendedMantissa.shiftRightOne]

theorem roundedMantissa_bounds (em : ExtendedMantissa) :
    em.mantissa ≤ em.roundedMantissa ∧ em.roundedMantissa ≤ em.mantissa + 1 := by
  obtain ⟨m, round, sticky⟩ := em
  cases round <;> cases sticky <;>
    simp only [ExtendedMantissa.roundedMantissa, ExtendedMantissa.accuracy,
      Accuracy.roundToNearestEven] <;> omega

theorem two_zpow_add (e : Int) (k : Nat) : (2 : ℚ) ^ (e + k + 1074) = 2 ^ k * 2 ^ (e + 1074) := by
  rw [← zpow_natCast, ← zpow_add₀ (by norm_num)]
  congr 1
  omega

/-- What the shifted significand keeps of the exact magnitude. -/
theorem Approximates.shift {m : Nat} {e : Int} {accuracy : Accuracy} {exact : ℚ}
    (h : Approximates m e accuracy exact) (k : Nat) :
    (m / 2 ^ k : Nat) * 2 ^ (e + k + 1074) ≤ exact ∧
      exact < ((m / 2 ^ k : Nat) + 1) * 2 ^ (e + k + 1074) := by
  obtain ⟨low, high, -⟩ := h
  have unit : (0 : ℚ) < 2 ^ (e + 1074) := by positivity
  have floor : ((m / 2 ^ k * 2 ^ k : Nat) : ℚ) ≤ m := by
    exact_mod_cast Nat.div_mul_le_self m (2 ^ k)
  have ceiling : (m + 1 : ℚ) ≤ ((m / 2 ^ k + 1) * 2 ^ k : Nat) := by
    have := Nat.lt_mul_div_succ m (Nat.two_pow_pos k)
    rw [Nat.mul_comm] at this
    exact_mod_cast this
  push_cast at floor ceiling
  rw [two_zpow_add, ← mul_assoc, ← mul_assoc]
  constructor
  · exact le_trans (mul_le_mul_of_nonneg_right floor unit.le) low
  · exact high.trans_le (mul_le_mul_of_nonneg_right ceiling unit.le)

/-- The shifted significand is rounded up by one at most, and not if nothing was lost. -/
theorem Approximates.roundedMantissa {m : Nat} {e : Int} {accuracy : Accuracy} {exact : ℚ}
    (h : Approximates m e accuracy exact) (k : Nat) :
    let r := (ExtendedMantissa.ofMantissaAndAccuracy m accuracy >>> k).roundedMantissa
    r = m / 2 ^ k ∨ r = m / 2 ^ k + 1 ∧ exact ≠ (m / 2 ^ k : Nat) * 2 ^ (e + k + 1074) := by
  intro r
  have bounds := roundedMantissa_bounds (ExtendedMantissa.ofMantissaAndAccuracy m accuracy >>> k)
  rw [shift_mantissa, mantissa_ofMantissaAndAccuracy] at bounds
  by_cases same : exact = (m / 2 ^ k : Nat) * 2 ^ (e + k + 1074)
  · left
    -- the magnitude is that of the shifted significand, so all bits below it are zero
    have unit : (0 : ℚ) < 2 ^ (e + 1074) := by positivity
    have le : (m : ℚ) ≤ (m / 2 ^ k * 2 ^ k : Nat) := by
      refine le_of_mul_le_mul_right ?_ unit
      have low := h.low
      rw [same, two_zpow_add, ← mul_assoc] at low
      push_cast
      exact low
    have whole : m / 2 ^ k * 2 ^ k = m :=
      le_antisymm (Nat.div_mul_le_self m (2 ^ k)) (by exact_mod_cast le)
    obtain rfl := h.kept (by
      rw [same, two_zpow_add, ← mul_assoc]
      exact_mod_cast congrArg (fun n : Nat => (n : ℚ) * 2 ^ (e + 1074)) whole)
    show ExtendedMantissa.roundedMantissa (ExtendedMantissa.mk m false false >>> k) = _
    rw [shift_exact m k ⟨m / 2 ^ k, by rw [Nat.mul_comm]; exact whole.symm⟩]
    rfl
  · have near : m / 2 ^ k ≤ r ∧ r ≤ m / 2 ^ k + 1 := bounds
    by_cases up : r = m / 2 ^ k
    · exact .inl up
    · exact .inr ⟨by omega, same⟩

/-! ## Packing -/

theorem toNat_packComponents (s : Sign) (e : BitVec 11) (m : BitVec 52) :
    (packComponents Format.binary64 s e m).toNat =
      s.toBitVec.toNat * 2 ^ 63 + (e.toNat * 2 ^ 52 + m.toNat) := by
  show (s.toBitVec ++ e ++ m).toNat = _
  have he := e.isLt
  have hm := m.isLt
  rw [BitVec.toNat_append, BitVec.toNat_append, ← Nat.shiftLeft_add_eq_or_of_lt hm,
    ← Nat.shiftLeft_add_eq_or_of_lt he, Nat.shiftLeft_eq, Nat.shiftLeft_eq]
  omega

/-- The double with the given parts. -/
def packed (u : UnpackedFloat) : Float := .ofModel (.pack u)

/-- The double is a number and stands at the integer. -/
structure StandsAt (x : Float) (k : Int) : Prop where
  number : x.isNaN = false
  bits : signedBits x = k

/-- A sign bit over the bits of a magnitude up to infinity makes a number. -/
theorem standsAt_of_toBits {x : Float} {s : Sign} {b : Nat} (le : (b : Int) ≤ infinityBits)
    (bits : x.toBits.toNat = s.toBitVec.toNat * 2 ^ 63 + b) : StandsAt x (s.apply b) := by
  unfold infinityBits at le
  constructor
  · cases notNumber : x.isNaN with
    | false => rfl
    | true =>
      have := toBits_of_isNaN notNumber
      cases s <;> simp only [Sign.toBitVec] at bits <;> omega
  · have power : twoTo 63 = 2 ^ 63 := rfl
    unfold signedBits
    rw [bits, power]
    cases s with
    | positive =>
      have zero : (Sign.positive.toBitVec).toNat = 0 := rfl
      simp only [zero, Sign.apply]
      omega
    | negative =>
      have one : (Sign.negative.toBitVec).toNat = 1 := rfl
      simp only [one, Sign.apply]
      omega

theorem packed_zero (s : Sign) : StandsAt (packed (.zero s)) 0 := by
  have at' : StandsAt (packed (.zero s)) (s.apply (0 : Nat)) := by
    refine standsAt_of_toBits (by decide) ?_
    cases s <;> decide
  cases s <;> exact at'

theorem packed_infinity (s : Sign) : StandsAt (packed (.infinity s)) (s.apply infinityBits) := by
  refine standsAt_of_toBits (b := 2047 * 2 ^ 52) (by decide) ?_
  cases s <;> decide

/-- The bits below the sign of a finite double, or of infinity if its exponent is too great. -/
def magnitudeBits (m biased : Nat) : Nat :=
  if 2 ^ 11 ≤ biased + 1 then 2047 * 2 ^ 52
  else if m.log2 + 1 = 53 then biased * 2 ^ 52 + m % 2 ^ 52
  else m % 2 ^ 52

theorem magnitudeBits_le (m biased : Nat) : (magnitudeBits m biased : Int) ≤ infinityBits := by
  unfold magnitudeBits infinityBits
  split_ifs <;> omega

theorem magnitudeBits_of_canonical {m q : Nat} (positive : 0 < m) (c : Canonical m q) :
    (magnitudeBits m (q + 1) : Int) = min (place m q : Int) infinityBits := by
  obtain ⟨small, normal⟩ := c
  have least := Nat.log2_self_le positive.ne'
  have short := (Nat.log2_lt positive.ne').2 small
  unfold magnitudeBits place infinityBits
  split_ifs with beyond full
  · have := normal (by omega)
    omega
  · have low : 2 ^ 52 ≤ m := by rwa [show m.log2 = 52 by omega] at least
    omega
  · have low : m < 2 ^ 52 := (Nat.log2_lt positive.ne').1 (by omega)
    omega

theorem toNat_pack_finite (s : Sign) (m : Nat) (e : Int) (positive : 0 < m) :
    (UnpackedFloat.pack Format.binary64 (.finite s m e positive)).toNat =
      s.toBitVec.toNat * 2 ^ 63 + magnitudeBits m (e + 1023 + 52).toNat := by
  show (if 2 ^ 11 ≤ (e + 1023 + 52).toNat + 1 then packComponents Format.binary64 s (-1#11) 0
    else if m.log2 + 1 = 53 then
      packComponents Format.binary64 s (BitVec.ofNat 11 (e + 1023 + 52).toNat) (BitVec.ofNat 52 m)
    else packComponents Format.binary64 s 0#11 (BitVec.ofNat 52 m)).toNat = _
  unfold magnitudeBits
  split_ifs with beyond full
  · rw [toNat_packComponents]; rfl
  · rw [toNat_packComponents, BitVec.toNat_ofNat, BitVec.toNat_ofNat, Nat.mod_eq_of_lt (by omega)]
  · rw [toNat_packComponents, BitVec.toNat_ofNat]; simp

/-- A canonical magnitude stands at its place, or at infinity if that comes first. -/
theorem packed_canonical (s : Sign) {m q : Nat} (positive : 0 < m) (c : Canonical m q) :
    StandsAt (packed (.finite s m ((q : Int) - 1074) positive))
      (s.apply (min (place m q : Int) infinityBits)) := by
  have biased : ((q : Int) - 1074 + 1023 + 52).toNat = q + 1 := by omega
  rw [← magnitudeBits_of_canonical positive c, ← biased]
  exact standsAt_of_toBits (magnitudeBits_le _ _) (toNat_pack_finite s m _ positive)

/-! ## Rounding a magnitude -/

/-- The place stands for the exact magnitude, in least units, without any double in between. -/
structure Rounds (exact : ℚ) (k : Nat) : Prop where
  above : ∀ {n r : Nat}, Canonical n r → ((n * 2 ^ r : Nat) : ℚ) ≤ exact → place n r ≤ k
  below : ∀ {n r : Nat}, Canonical n r → exact ≤ ((n * 2 ^ r : Nat) : ℚ) → k ≤ place n r

/-- Of the two doubles around an exact magnitude either one may stand for it, but the lower one
has to if it is the magnitude itself. -/
theorem rounds_of_neighbours {exact : ℚ} {f t k : Nat} (lower : Canonical f t)
    (low : ((f * 2 ^ t : Nat) : ℚ) ≤ exact) (high : exact < (((f + 1) * 2 ^ t : Nat) : ℚ))
    (near : k = place f t ∨ k = place f t + 1 ∧ exact ≠ ((f * 2 ^ t : Nat) : ℚ)) :
    Rounds exact k where
  above c le := by
    have lt := le.trans_lt high
    have := place_le_of_units_lt lower c (by exact_mod_cast lt)
    rcases near with same | ⟨next, -⟩ <;> omega
  below {n r} c le := by
    have units : f * 2 ^ t ≤ n * 2 ^ r := by exact_mod_cast le_trans low le
    have := (place_le_iff lower c).2 units
    rcases near with same | ⟨next, inexact⟩
    · omega
    · -- a double at the lower place would be at most the lower neighbour
      by_contra after
      have back := (place_le_iff c lower).1 (by omega)
      refine inexact (le_antisymm (le_trans le ?_) low)
      exact_mod_cast back

/-- A significand with fifty-three bits or fewer is left alone at an exponent in range. -/
theorem shiftToTarget_of_small {n : Nat} (small : n < 2 ^ 53) (t : Nat) :
    shiftToTargetExponent Format.binary64 n ((t : Int) - 1074) .exact =
      (ExtendedMantissa.mk n false false, (t : Int) - 1074) := by
  have short : n.log2 ≤ 52 := by
    rcases Nat.eq_zero_or_pos n with rfl | positive
    · simp
    · have := (Nat.log2_lt positive.ne').2 small
      omega
  unfold shiftToTargetExponent shiftToExponent
  rw [targetExponent_eq]
  have none : (max ((n.log2 : Int) + ((t : Int) - 1074) - 52) (-1074) - ((t : Int) - 1074)).toNat =
      0 := by omega
  dsimp only
  rw [none]
  show (ExtendedMantissa.mk n false false, (t : Int) - 1074 + 0) = _
  rw [Int.add_zero]

/-- A significand that was rounded up to fifty-four bits is halved. -/
theorem shiftToTarget_carry (t : Nat) :
    shiftToTargetExponent Format.binary64 (2 ^ 53) ((t : Int) - 1074) .exact =
      (⟨2 ^ 52, false, false⟩, ((t + 1 : Nat) : Int) - 1074) := by
  unfold shiftToTargetExponent shiftToExponent
  rw [targetExponent_eq, Nat.log2_two_pow]
  have one : (max (((53 : Nat) : Int) + ((t : Int) - 1074) - 52) (-1074) -
      ((t : Int) - 1074)).toNat = 1 := by omega
  dsimp only
  rw [one]
  congr 1
  omega

/-- What rounding makes of a shifted significand stands at its place. -/
theorem packed_roundWithAccuracy {m : Nat} {e : Int} {accuracy : Accuracy} (s : Sign)
    {em : ExtendedMantissa} {t : Nat}
    (shifted : shiftToTargetExponent Format.binary64 m e accuracy = (em, (t : Int) - 1074))
    (most : em.roundedMantissa ≤ 2 ^ 53) (normal : 0 < t → 2 ^ 52 ≤ em.roundedMantissa) :
    StandsAt (packed (roundWithAccuracy Format.binary64 s m e accuracy))
      (s.apply (min (place em.roundedMantissa t : Int) infinityBits)) := by
  have infinite : (0 : Int) < infinityBits := by decide
  unfold roundWithAccuracy
  rw [shifted]
  dsimp only
  generalize em.roundedMantissa = n at most normal ⊢
  rcases most.lt_or_eq with small | rfl
  · rw [shiftToTarget_of_small small]
    dsimp only
    by_cases zero : n = 0
    · rw [dif_pos zero]
      subst zero
      obtain rfl : t = 0 := by
        by_contra later
        have := normal (by omega)
        omega
      have none : s.apply (min (place 0 0 : Int) infinityBits) = 0 := by
        cases s <;> simp only [Sign.apply, place] <;> omega
      rw [none]
      exact packed_zero s
    · rw [dif_neg zero]
      exact packed_canonical s (Nat.pos_of_ne_zero zero) ⟨small, normal⟩
  · -- the carry makes a power of two, whose place is the next one as well
    rw [shiftToTarget_carry]
    dsimp only
    have same : place (2 ^ 53) t = place (2 ^ 52) (t + 1) := by unfold place; omega
    rw [same, dif_neg (by decide)]
    exact packed_canonical s (by decide) ⟨by decide, fun _ => le_rfl⟩

/-- A significand shifted down to fifty-three bits is that of a double, and one with fewer is at the
least exponent. -/
theorem canonical_shift {m k t : Nat} (short : m.log2 < 53 + k) (normal : 0 < t → m.log2 = 52 + k) :
    Canonical (m / 2 ^ k) t := by
  constructor
  · rw [Nat.div_lt_iff_lt_mul (Nat.two_pow_pos k), ← Nat.pow_add]
    exact Nat.lt_log2_self.trans_le (Nat.pow_le_pow_right (by decide) short)
  · intro later
    have exponent := normal later
    have nonzero : m ≠ 0 := by
      rintro rfl
      rw [Nat.log2_zero] at exponent
      omega
    rw [Nat.le_div_iff_mul_le (Nat.two_pow_pos k), ← Nat.pow_add, ← exponent]
    exact Nat.log2_self_le nonzero

/-- A magnitude that has bits enough, or lies below the least exponent, is rounded without passing
a double. -/
theorem roundWithAccuracy_rounds {m : Nat} {e : Int} {accuracy : Accuracy} {exact : ℚ} (s : Sign)
    (h : Approximates m e accuracy exact) (full : 2 ^ 52 ≤ m ∨ e ≤ -1074) :
    ∃ k : Nat, StandsAt (packed (roundWithAccuracy Format.binary64 s m e accuracy))
      (s.apply (min (k : Int) infinityBits)) ∧ Rounds exact k := by
  have log : 52 ≤ m.log2 ∨ e ≤ -1074 :=
    full.imp_left fun bits => (Nat.le_log2 (by rintro rfl; cases bits)).2 bits
  obtain ⟨t, ht⟩ : ∃ t : Nat, max ((m.log2 : Int) + e - 52) (-1074) = (t : Int) - 1074 :=
    ⟨(max ((m.log2 : Int) + e - 52) (-1074) + 1074).toNat, by omega⟩
  obtain ⟨k, hk⟩ : ∃ k : Nat, e + k = (t : Int) - 1074 := ⟨((t : Int) - 1074 - e).toNat, by omega⟩
  have shifted : shiftToTargetExponent Format.binary64 m e accuracy =
      (ExtendedMantissa.ofMantissaAndAccuracy m accuracy >>> k, (t : Int) - 1074) := by
    have amount : ((t : Int) - 1074 - e).toNat = k := by omega
    unfold shiftToTargetExponent shiftToExponent
    rw [targetExponent_eq, ht]
    dsimp only
    rw [amount, hk]
  have lower : Canonical (m / 2 ^ k) t := canonical_shift (by omega) (by omega)
  have unit : (2 : ℚ) ^ (e + k + 1074) = ((2 ^ t : Nat) : ℚ) := by
    rw [hk, Int.sub_add_cancel, zpow_natCast]
    push_cast
    rfl
  have between := h.shift k
  have near := h.roundedMantissa k
  dsimp only at near
  rw [unit] at between near
  have small := lower.small
  have normal := lower.normal
  refine ⟨_, packed_roundWithAccuracy s shifted (by omega) (fun later => ?_), ?_⟩
  · have := normal later
    omega
  · generalize (ExtendedMantissa.ofMantissaAndAccuracy m accuracy >>> k).roundedMantissa = n at near
    refine rounds_of_neighbours lower ?_ ?_ ?_
    · exact_mod_cast between.1
    · exact_mod_cast between.2
    · unfold place
      rcases near with rfl | ⟨rfl, inexact⟩
      · exact .inl rfl
      · exact .inr ⟨by omega, by exact_mod_cast inexact⟩

/-- Bits are added to a significand that is short of them, and then it is rounded. -/
theorem round_rounds (s : Sign) {m : Nat} (positive : 0 < m) (e : Int) :
    ∃ k : Nat, StandsAt (packed (UnpackedFloat.round Format.binary64 s m e))
      (s.apply (min (k : Int) infinityBits)) ∧ Rounds (m * 2 ^ (e + 1074)) k := by
  unfold UnpackedFloat.round decreaseExponent
  rw [targetExponent_eq]
  dsimp only
  generalize amount : (e - max ((m.log2 : Int) + e - 52) (-1074)).toNat = k
  rw [Nat.shiftLeft_eq]
  have same : (m : ℚ) * 2 ^ (e + 1074) = ((m * 2 ^ k : Nat) : ℚ) * 2 ^ (e - k + 1074) := by
    have split : e + 1074 = k + (e - k + 1074) := by omega
    rw [split, zpow_add₀ (by norm_num), zpow_natCast]
    push_cast
    ring
  rw [same]
  refine roundWithAccuracy_rounds s (approximates_exact _ _) ?_
  by_cases least : e - k ≤ -1074
  · exact .inr least
  · left
    calc 2 ^ 52 ≤ 2 ^ (m.log2 + k) := Nat.pow_le_pow_right (by decide) (by omega)
      _ = 2 ^ m.log2 * 2 ^ k := Nat.pow_add ..
      _ ≤ m * 2 ^ k := Nat.mul_le_mul_right _ (Nat.log2_self_le positive.ne')

end Nearby.Decimal
