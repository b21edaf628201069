/-
Arithmetic of doubles. A finite double is a rational number, and doubles are in the order of these
numbers. Sums, products and quotients of finite doubles and the doubles of naturals are rounded
from the exact result, with no finite double in between. So adding what is not negative leads
upwards, and a quotient stays below a double that the exact quotient does not exceed.
-/
import Nearby.Proofs.Decimal.Rounding
import Mathlib.Algebra.Order.Field.Basic
import Mathlib.Tactic.FieldSimp

namespace Nearby.Decimal

open Float.Model Float.Model.UnpackedFloat

/-! ## Values -/

/-- The number that an unpacked double is; zero stands in for infinities and not-a-number. -/
def unpackedValue : UnpackedFloat → ℚ
  | .finite s m e _ => s.apply m * 2 ^ e
  | _ => 0

/-- The number that a finite double is. -/
def value (x : Float) : ℚ := unpackedValue x.toModel.unpack

/-- The least positive double, as a number. -/
def leastUnit : ℚ := 2 ^ (-1074 : Int)

theorem leastUnit_pos : 0 < leastUnit := zpow_pos two_pos _

theorem two_zpow_eq (e : Int) : (2 : ℚ) ^ e = 2 ^ (e + 1074) * leastUnit := by
  unfold leastUnit
  rw [← zpow_add₀ (by norm_num), Int.add_neg_cancel_right]

/-- A magnitude in least units, as a number. -/
theorem mul_two_zpow (n q : Nat) :
    (n : ℚ) * 2 ^ ((q : Int) - 1074) = (n * 2 ^ q : Nat) * leastUnit := by
  rw [two_zpow_eq, Int.sub_add_cancel, zpow_natCast, Nat.cast_mul, Nat.cast_pow, Nat.cast_ofNat,
    mul_assoc]

/-- The number under a sign. -/
def withSign : Sign → ℚ → ℚ
  | .negative, v => -v
  | .positive, v => v

theorem apply_mul (s : Sign) (n : Nat) (v : ℚ) : (s.apply n : ℚ) * v = withSign s (n * v) := by
  cases s <;> simp [Sign.apply, withSign]

theorem unpackedValue_finite (s : Sign) {m : Nat} (e : Int) (positive : 0 < m) :
    unpackedValue (.finite s m e positive) = withSign s (m * 2 ^ e) :=
  apply_mul s m _

/-- A finite double has a magnitude, and stands where this stands under its sign. -/
theorem Reads.magnitude {k : Int} {u : UnpackedFloat} (h : Reads k u)
    (finite : u.isFinite = true) :
    ∃ (s : Sign) (n q : Nat), Canonical n q ∧ (place n q : Int) < infinityBits ∧
      k = s.apply (place n q) ∧ unpackedValue u = s.apply (n * 2 ^ q : Nat) * leastUnit := by
  cases h with
  | infinite s => cases finite
  | zero s =>
    refine ⟨.positive, 0, 0, canonical_zero, by decide, rfl, ?_⟩
    show (0 : ℚ) = ((0 * 2 ^ 0 : Nat) : Int) * leastUnit
    simp
  | finite s bits m e positive fields small low normal below =>
    obtain ⟨q, rfl⟩ : ∃ q : Nat, e = (q : Int) - 1074 := ⟨(e + 1074).toNat, by omega⟩
    have same : bits = (place m q : Int) := by unfold place; omega
    rw [same] at below ⊢
    refine ⟨s, m, q, ⟨small, fun later => normal (by omega)⟩, below, rfl, ?_⟩
    rw [unpackedValue_finite, mul_two_zpow, apply_mul]

theorem isNaN_of_isFinite {x : Float} (finite : x.isFinite = true) : x.isNaN = false := by
  show x.toModel.unpack.isNaN = false
  change x.toModel.unpack.isFinite = true at finite
  cases unpacked : x.toModel.unpack with
  | notANumber => rw [unpacked] at finite; cases finite
  | _ => rfl

/-- A test for what is not finite or not above a bound finds all but the finite numbers above it. -/
theorem not_finite_or_le_iff {x bound : Float} (number : bound.isNaN = false) :
    (! x.isFinite || decide (x ≤ bound)) = true ↔ ¬ (x.isFinite = true ∧ bound < x) := by
  cases finite : x.isFinite with
  | false => simp
  | true => simp [← not_le_iff_lt (isNaN_of_isFinite finite) number]

theorem magnitude_of_isFinite {x : Float} (finite : x.isFinite = true) :
    ∃ (s : Sign) (n q : Nat), Canonical n q ∧ (place n q : Int) < infinityBits ∧
      signedBits x = s.apply (place n q) ∧
        value x = s.apply (n * 2 ^ q : Nat) * leastUnit :=
  (reads_unpack (isNaN_of_isFinite finite)).magnitude finite

theorem apply_place_le_iff (s t : Sign) {m q n r : Nat} (c : Canonical m q) (c' : Canonical n r) :
    s.apply (place m q) ≤ t.apply (place n r) ↔
      s.apply (m * 2 ^ q : Nat) ≤ t.apply (n * 2 ^ r : Nat) := by
  have less := place_le_iff c c'
  have more := place_le_iff c' c
  have none := place_le_iff c canonical_zero
  have none' := place_le_iff c' canonical_zero
  have zero : place 0 0 = 0 := rfl
  rw [zero, Nat.zero_mul] at none none'
  cases s <;> cases t <;> simp only [Sign.apply] <;> omega

/-- Finite doubles are in the order of their values. -/
theorem le_iff_value {x y : Float} (fx : x.isFinite = true) (fy : y.isFinite = true) :
    x ≤ y ↔ value x ≤ value y := by
  obtain ⟨s, m, q, c, -, bits, hx⟩ := magnitude_of_isFinite fx
  obtain ⟨t, n, r, c', -, bits', hy⟩ := magnitude_of_isFinite fy
  rw [le_iff, bits, bits', apply_place_le_iff s t c c', hx, hy,
    mul_le_mul_iff_of_pos_right leastUnit_pos, Int.cast_le]
  exact ⟨fun h => h.2.2, fun h => ⟨isNaN_of_isFinite fx, isNaN_of_isFinite fy, h⟩⟩

/-! ## Rounded numbers -/

/-- The double is the exact number rounded: no finite double lies strictly between the two. -/
structure RoundedFrom (exact : ℚ) (x : Float) : Prop where
  number : x.isNaN = false
  above : ∀ {y : Float}, y.isFinite = true → value y ≤ exact → y ≤ x
  below : ∀ {y : Float}, y.isFinite = true → exact ≤ value y → x ≤ y

theorem place_eq_zero {n r : Nat} (c : Canonical n r) (none : ((n * 2 ^ r : Nat) : ℚ) ≤ 0) :
    place n r = 0 := by
  have units : n * 2 ^ r ≤ 0 * 2 ^ 0 := by rw [Nat.zero_mul]; exact_mod_cast none
  exact Nat.le_zero.1 ((place_le_iff c canonical_zero).2 units)

theorem withSign_leastUnit (s : Sign) (v : ℚ) :
    withSign s (v * leastUnit) = withSign s v * leastUnit := by
  cases s with
  | negative => exact (neg_mul v leastUnit).symm
  | positive => rfl

/-- Where a place stands for an exact magnitude, a finite double is on the same side of both, under
either sign. -/
theorem Rounds.compared {exact : ℚ} {k : Nat} (h : Rounds exact k) (nonneg : 0 ≤ exact) (s : Sign)
    {y : Float} (finite : y.isFinite = true) :
    (value y ≤ withSign s (exact * leastUnit) →
      signedBits y ≤ s.apply (min (k : Int) infinityBits)) ∧
    (withSign s (exact * leastUnit) ≤ value y →
      s.apply (min (k : Int) infinityBits) ≤ signedBits y) := by
  have infinite : (0 : Int) < infinityBits := by decide
  obtain ⟨t, n, r, c, below, bits, hy⟩ := magnitude_of_isFinite finite
  have vanishes : exact ≤ 0 → k = 0 := by
    intro le
    exact Nat.le_zero.1 (h.below canonical_zero (by simpa using le))
  have up : ((n * 2 ^ r : Nat) : ℚ) ≤ exact → place n r ≤ k := h.above c
  have down : exact ≤ ((n * 2 ^ r : Nat) : ℚ) → k ≤ place n r := h.below c
  have least : (0 : ℚ) ≤ (n * 2 ^ r : Nat) := Nat.cast_nonneg _
  rw [bits, hy, withSign_leastUnit, mul_le_mul_iff_of_pos_right leastUnit_pos,
    mul_le_mul_iff_of_pos_right leastUnit_pos]
  -- under different signs only zero can be on the wrong side
  cases s <;> cases t <;>
    simp only [Sign.apply, withSign, Int.cast_neg, Int.cast_natCast] <;> constructor <;> intro le
  case negative.negative.left => have := down (by linarith); omega
  case negative.negative.right => have := up (by linarith); omega
  case negative.positive.left =>
    have := place_eq_zero c (by linarith)
    have := vanishes (by linarith)
    omega
  case negative.positive.right => omega
  case positive.negative.left => omega
  case positive.negative.right =>
    have := place_eq_zero c (by linarith)
    have := vanishes (by linarith)
    omega
  case positive.positive.left => have := up (by linarith); omega
  case positive.positive.right => have := down (by linarith); omega

/-- A place that stands for an exact magnitude makes a rounded number, under either sign. -/
theorem Rounds.roundedFrom {exact : ℚ} {k : Nat} (h : Rounds exact k) (nonneg : 0 ≤ exact)
    {s : Sign} {x : Float} (at' : StandsAt x (s.apply (min (k : Int) infinityBits))) :
    RoundedFrom (withSign s (exact * leastUnit)) x := by
  constructor
  · exact at'.number
  · intro y finite le
    have bits := (h.compared nonneg s finite).1 le
    exact le_iff.2 ⟨isNaN_of_isFinite finite, at'.number, by rwa [at'.bits]⟩
  · intro y finite le
    have bits := (h.compared nonneg s finite).2 le
    exact le_iff.2 ⟨at'.number, isNaN_of_isFinite finite, by rwa [at'.bits]⟩

theorem roundedFrom_zero (s : Sign) : RoundedFrom 0 (packed (.zero s)) := by
  have rounds : Rounds 0 0 := by
    constructor
    · intro n r c le
      exact (place_eq_zero c le).le
    · intro n r c le
      exact Nat.zero_le _
  have at' : StandsAt (packed (.zero s))
      (Sign.positive.apply (min ((0 : Nat) : Int) infinityBits)) :=
    packed_zero s
  have rounded := rounds.roundedFrom le_rfl at'
  rwa [zero_mul] at rounded

theorem Reads.standsAt {k : Int} {u : UnpackedFloat} (h : Reads k u) : StandsAt (packed u) k := by
  cases h with
  | infinite s => exact packed_infinity s
  | zero s => exact packed_zero s
  | finite s bits m e positive fields small low normal below =>
    obtain ⟨q, rfl⟩ : ∃ q : Nat, e = (q : Int) - 1074 := ⟨(e + 1074).toNat, by omega⟩
    have first : bits = min (place m q : Int) infinityBits := by unfold place; omega
    rw [first]
    exact packed_canonical s positive ⟨small, fun later => normal (by omega)⟩

/-- A finite double is its own value rounded. -/
theorem Reads.roundedFrom {k : Int} {u : UnpackedFloat} (h : Reads k u)
    (finite : u.isFinite = true) : RoundedFrom (unpackedValue u) (packed u) := by
  obtain ⟨s, n, q, c, below, rfl, hu⟩ := h.magnitude finite
  obtain ⟨number, bits⟩ := h.standsAt
  have compared : ∀ {y : Float}, y.isFinite = true →
      (value y ≤ unpackedValue u → y ≤ packed u) ∧ (unpackedValue u ≤ value y → packed u ≤ y) := by
    intro y fy
    obtain ⟨t, m, r, c', -, bits', hy⟩ := magnitude_of_isFinite fy
    have ny := isNaN_of_isFinite fy
    rw [le_iff, le_iff, bits, bits', hu, hy, mul_le_mul_iff_of_pos_right leastUnit_pos,
      mul_le_mul_iff_of_pos_right leastUnit_pos, Int.cast_le, Int.cast_le,
      ← apply_place_le_iff t s c' c, ← apply_place_le_iff s t c c']
    exact ⟨fun le => ⟨ny, number, le⟩, fun le => ⟨number, ny, le⟩⟩
  exact ⟨number, fun fy => (compared fy).1, fun fy => (compared fy).2⟩

/-! ## Sums -/

theorem decreaseExponent_eq (m : Nat) {e t : Int} (le : t ≤ e) :
    ((decreaseExponent m e t).1 : ℚ) * 2 ^ t = m * 2 ^ e := by
  obtain ⟨k, rfl⟩ : ∃ k : Nat, e = k + t := ⟨(e - t).toNat, by omega⟩
  unfold decreaseExponent
  dsimp only
  rw [Int.add_sub_cancel, Int.toNat_natCast, Nat.shiftLeft_eq, zpow_add₀ (by norm_num),
    zpow_natCast]
  push_cast
  ring

theorem roundedFrom_round (s : Sign) {m : Nat} (positive : 0 < m) (e : Int) :
    RoundedFrom (withSign s (m * 2 ^ e)) (packed (UnpackedFloat.round Format.binary64 s m e)) := by
  obtain ⟨k, at', rounds⟩ := round_rounds s positive e
  have rounded := rounds.roundedFrom (by positivity) at'
  rwa [mul_assoc, ← two_zpow_eq] at rounded

/-- A signed sum of units is rounded, whatever the unit is. -/
theorem roundedFrom_normalize (total e : Int) :
    RoundedFrom (total * 2 ^ e)
      (packed (UnpackedFloat.normalize Format.binary64 total e .positive)) := by
  unfold UnpackedFloat.normalize
  split
  case h_1 less =>
    have negative := compare_lt_iff_lt.1 less
    have rounded := roundedFrom_round .negative (m := (-total).toNat) (by omega) e
    have cast : (((-total).toNat : Nat) : ℚ) = -total := by
      have := Int.toNat_of_nonneg (show 0 ≤ -total by omega)
      exact_mod_cast this
    rwa [withSign, cast, neg_mul, neg_neg] at rounded
  case h_2 equal =>
    obtain rfl := compare_eq_iff_eq.1 equal
    rw [Int.cast_zero, zero_mul]
    exact roundedFrom_zero .positive
  case h_3 greater =>
    have positive := compare_gt_iff_gt.1 greater
    have rounded := roundedFrom_round .positive (m := total.toNat) (by omega) e
    have cast : ((total.toNat : Nat) : ℚ) = total := by
      have := Int.toNat_of_nonneg positive.le
      exact_mod_cast this
    rwa [withSign, cast] at rounded

theorem Reads.add {k l : Int} {u v : UnpackedFloat} (hu : Reads k u) (hv : Reads l v)
    (fu : u.isFinite = true) (fv : v.isFinite = true) :
    RoundedFrom (unpackedValue u + unpackedValue v)
      (packed (UnpackedFloat.add Format.binary64 u v)) := by
  cases u with
  | infinity s => cases fu
  | notANumber => cases fu
  | zero s =>
    cases v with
    | infinity t => cases fv
    | notANumber => cases fv
    | zero t =>
      show RoundedFrom (0 + 0) (packed (if s == t then .zero s else .zero .positive))
      rw [add_zero]
      split <;> exact roundedFrom_zero _
    | finite t n e positive =>
      show RoundedFrom (0 + _) _
      rw [zero_add]
      exact hv.roundedFrom rfl
  | finite s m d positive =>
    cases v with
    | infinity t => cases fv
    | notANumber => cases fv
    | zero t =>
      show RoundedFrom (_ + 0) _
      rw [add_zero]
      exact hu.roundedFrom rfl
    | finite t n e positive' =>
      have rounded := roundedFrom_normalize (s.apply (decreaseExponent m d (min d e)).1 +
        t.apply (decreaseExponent n e (min d e)).1) (min d e)
      have sum : unpackedValue (.finite s m d positive) + unpackedValue (.finite t n e positive') =
          ((s.apply (decreaseExponent m d (min d e)).1 +
            t.apply (decreaseExponent n e (min d e)).1 : Int) : ℚ) * 2 ^ min d e := by
        rw [unpackedValue_finite, unpackedValue_finite, Int.cast_add, add_mul, apply_mul, apply_mul,
          decreaseExponent_eq m (min_le_left d e), decreaseExponent_eq n (min_le_right d e)]
      rw [sum]
      exact rounded

theorem neg_apply (s : Sign) (n : Int) : (-s).apply n = -s.apply n := by
  cases s
  · exact (Int.neg_neg n).symm
  · rfl

theorem Reads.neg {k : Int} {u : UnpackedFloat} (h : Reads k u) : Reads (-k) u.neg := by
  cases h with
  | infinite s => rw [← neg_apply]; exact .infinite (-s)
  | zero s => exact .zero (-s)
  | finite s bits m e positive fields small low normal below =>
    rw [← neg_apply]
    exact .finite (-s) bits m e positive fields small low normal below

theorem unpackedValue_neg (u : UnpackedFloat) : unpackedValue u.neg = -unpackedValue u := by
  cases u with
  | finite s m e positive =>
    show (((-s).apply m : Int) : ℚ) * 2 ^ e = -(s.apply m * 2 ^ e)
    rw [neg_apply, Int.cast_neg, neg_mul]
  | _ => exact neg_zero.symm

/-- Taking off is adding the negative. -/
theorem sub_eq_add (u v : UnpackedFloat) :
    UnpackedFloat.sub Format.binary64 u v = UnpackedFloat.add Format.binary64 u v.neg := by
  cases u with
  | finite s m d positive =>
    cases v with
    | finite t n e positive' =>
      show UnpackedFloat.normalize Format.binary64 (s.apply _ - t.apply _) _ _ =
        UnpackedFloat.normalize Format.binary64 (s.apply _ + (-t).apply _) _ _
      rw [neg_apply, Int.sub_eq_add_neg]
    | _ => rfl
  | _ => cases v <;> rfl

/-! ## Products and quotients -/

theorem withSign_mul (s t : Sign) (v w : ℚ) :
    withSign (s * t) (v * w) = withSign s v * withSign t w := by
  cases s with
  | positive => cases t with
    | positive => rfl
    | negative => exact (mul_neg v w).symm
  | negative => cases t with
    | positive => exact (neg_mul v w).symm
    | negative => exact (neg_mul_neg v w).symm

theorem withSign_div (s t : Sign) (v w : ℚ) :
    withSign (s / t) (v / w) = withSign s v / withSign t w := by
  cases s with
  | positive => cases t with
    | positive => rfl
    | negative => exact (div_neg v).symm
  | negative => cases t with
    | positive => exact (neg_div w v).symm
    | negative => exact (neg_div_neg_eq v w).symm

theorem roundedFrom_roundWithAccuracy (s : Sign) {m : Nat} {e : Int} {accuracy : Accuracy} {v : ℚ}
    (h : Approximates m e accuracy (v / leastUnit)) (nonneg : 0 ≤ v)
    (full : 2 ^ 52 ≤ m ∨ e ≤ -1074) :
    RoundedFrom (withSign s v) (packed (roundWithAccuracy Format.binary64 s m e accuracy)) := by
  obtain ⟨k, at', rounds⟩ := roundWithAccuracy_rounds s h full
  have rounded := rounds.roundedFrom (div_nonneg nonneg leastUnit_pos.le) at'
  rwa [div_mul_cancel₀ _ leastUnit_pos.ne'] at rounded

/-- The significand of a double has fifty-three bits, or its exponent is the least. -/
theorem Reads.full {k : Int} {s : Sign} {m : Nat} {e : Int} {positive : 0 < m}
    (h : Reads k (.finite s m e positive)) : 2 ^ 52 ≤ m ∨ e = -1074 := by
  cases h with
  | finite _ bits _ _ _ fields small low normal below =>
    by_cases least : e = -1074
    · exact .inr least
    · exact .inl (normal (by omega))

/-- The product of significands with bits enough, or at the least exponent, is rounded. -/
theorem roundedFrom_mul (s t : Sign) {m n : Nat} (positive : 0 < m) (positive' : 0 < n) (d e : Int)
    (full : 2 ^ 52 ≤ m * n ∨ d + e ≤ -1074) :
    RoundedFrom (unpackedValue (.finite s m d positive) * unpackedValue (.finite t n e positive'))
      (packed (UnpackedFloat.mul Format.binary64 (.finite s m d positive)
        (.finite t n e positive'))) := by
  have exact' : ((m * n : Nat) : ℚ) * 2 ^ (d + e + 1074) =
      m * 2 ^ d * (n * 2 ^ e) / leastUnit := by
    rw [eq_div_iff leastUnit_pos.ne', mul_assoc, ← two_zpow_eq, zpow_add₀ (by norm_num)]
    push_cast
    ring
  have approximates := approximates_exact (m * n) (d + e)
  rw [exact'] at approximates
  rw [unpackedValue_finite, unpackedValue_finite, ← withSign_mul]
  exact roundedFrom_roundWithAccuracy _ approximates (by positivity) full

theorem Reads.mul {k l : Int} {u v : UnpackedFloat} (hu : Reads k u) (hv : Reads l v)
    (fu : u.isFinite = true) (fv : v.isFinite = true) :
    RoundedFrom (unpackedValue u * unpackedValue v)
      (packed (UnpackedFloat.mul Format.binary64 u v)) := by
  cases u with
  | infinity s => cases fu
  | notANumber => cases fu
  | zero s =>
    show RoundedFrom (0 * _) _
    rw [zero_mul]
    cases v with
    | infinity t => cases fv
    | notANumber => cases fv
    | zero t => exact roundedFrom_zero _
    | finite t n e positive => exact roundedFrom_zero _
  | finite s m d positive =>
    cases v with
    | infinity t => cases fv
    | notANumber => cases fv
    | zero t =>
      show RoundedFrom (_ * 0) _
      rw [mul_zero]
      exact roundedFrom_zero _
    | finite t n e positive' =>
      refine roundedFrom_mul s t positive positive' d e ?_
      rcases hu.full with big | least
      · exact .inl (le_trans big (Nat.le_mul_of_pos_right m positive'))
      · rcases hv.full with big | least'
        · exact .inl (le_trans big (Nat.le_mul_of_pos_left n positive))
        · exact .inr (by omega)

theorem exact_of_accuracyOfFraction {num den : Nat} (none : num = 0) :
    accuracyOfFraction num den = .exact := if_pos none

/-- The quotient of significands is taken with bits enough, or down to the least exponent. -/
theorem divCore_full {m n : Nat} (positive : 0 < m) (positive' : 0 < n) (d e : Int) :
    2 ^ 52 ≤ (divCore Format.binary64 m d n e).1 ∨
      (divCore Format.binary64 m d n e).2.1 ≤ -1074 := by
  unfold divCore
  have target : Format.binary64.targetExponent (totalExponent m d - totalExponent n e) =
      max ((m.log2 : Int) + d - n.log2 - e - 53) (-1074) := by
    unfold Format.targetExponent totalExponent
    show max ((m.log2 : Int) + 1 + d - (n.log2 + 1 + e) - 53) (-1074) = _
    omega
  rw [target]
  dsimp only
  generalize amount : (d - e - min (d - e)
    (max ((m.log2 : Int) + d - n.log2 - e - 53) (-1074))).toNat = k
  by_cases least : min (d - e) (max ((m.log2 : Int) + d - n.log2 - e - 53) (-1074)) ≤ -1074
  · exact .inr least
  · left
    rw [Nat.shiftLeft_eq, Nat.le_div_iff_mul_le positive']
    calc 2 ^ 52 * n ≤ 2 ^ 52 * 2 ^ (n.log2 + 1) := Nat.mul_le_mul_left _ Nat.lt_log2_self.le
      _ = 2 ^ (52 + (n.log2 + 1)) := (Nat.pow_add ..).symm
      _ ≤ 2 ^ (m.log2 + k) := Nat.pow_le_pow_right (by decide) (by omega)
      _ = 2 ^ m.log2 * 2 ^ k := Nat.pow_add ..
      _ ≤ m * 2 ^ k := Nat.mul_le_mul_right _ (Nat.log2_self_le positive.ne')

theorem divCore_approximates {m n : Nat} (positive' : 0 < n) (d e : Int) :
    Approximates (divCore Format.binary64 m d n e).1 (divCore Format.binary64 m d n e).2.1
      (divCore Format.binary64 m d n e).2.2 (m * 2 ^ d / (n * 2 ^ e) / leastUnit) := by
  unfold divCore
  dsimp only
  generalize targeted : min (d - e) (Format.binary64.targetExponent
    (totalExponent m d - totalExponent n e)) = t
  obtain ⟨k, hk⟩ : ∃ k : Nat, d - e - t = k := ⟨(d - e - t).toNat, by omega⟩
  rw [hk, Int.toNat_natCast, Nat.shiftLeft_eq]
  generalize shifted : m * 2 ^ k = a
  have unit : (0 : ℚ) < 2 ^ (t + 1074) := by positivity
  have divisor : (0 : ℚ) < n := by exact_mod_cast positive'
  have quotient : (m : ℚ) * 2 ^ d / (n * 2 ^ e) / leastUnit = a / n * 2 ^ (t + 1074) := by
    have split : d = k + t + e := by omega
    rw [div_eq_iff leastUnit_pos.ne', mul_assoc, ← two_zpow_eq, split, ← shifted,
      zpow_add₀ (by norm_num), zpow_add₀ (by norm_num), zpow_natCast]
    push_cast
    field_simp
  rw [quotient]
  constructor
  · refine mul_le_mul_of_nonneg_right ?_ unit.le
    rw [le_div_iff₀ divisor]
    exact_mod_cast Nat.div_mul_le_self a n
  · refine mul_lt_mul_of_pos_right ?_ unit
    rw [div_lt_iff₀ divisor]
    have := Nat.lt_mul_div_succ a positive'
    rw [Nat.mul_comm] at this
    exact_mod_cast this
  · intro same
    refine exact_of_accuracyOfFraction (Nat.mod_eq_zero_of_dvd ⟨a / n, ?_⟩)
    have equal := mul_right_cancel₀ unit.ne' same
    rw [div_eq_iff divisor.ne'] at equal
    rw [Nat.mul_comm]
    exact_mod_cast equal

theorem Reads.div {k l : Int} {u v : UnpackedFloat} (hu : Reads k u) (hv : Reads l v)
    (fu : u.isFinite = true) (fv : v.isFinite = true) (nonzero : unpackedValue v ≠ 0) :
    RoundedFrom (unpackedValue u / unpackedValue v)
      (packed (UnpackedFloat.div Format.binary64 u v)) := by
  cases v with
  | infinity t => cases fv
  | notANumber => cases fv
  | zero t => exact absurd rfl nonzero
  | finite t n e positive' =>
    cases u with
    | infinity s => cases fu
    | notANumber => cases fu
    | zero s =>
      show RoundedFrom (0 / _) _
      rw [zero_div]
      exact roundedFrom_zero _
    | finite s m d positive =>
      rw [unpackedValue_finite, unpackedValue_finite, ← withSign_div]
      exact roundedFrom_roundWithAccuracy _ (divCore_approximates positive' d e) (by positivity)
        (divCore_full positive positive' d e)

/-! ## Doubles -/

theorem rounded_add {x y : Float} (fx : x.isFinite = true) (fy : y.isFinite = true) :
    RoundedFrom (value x + value y) (x + y) :=
  (reads_unpack (isNaN_of_isFinite fx)).add (reads_unpack (isNaN_of_isFinite fy)) fx fy

theorem isFinite_neg {u : UnpackedFloat} (finite : u.isFinite = true) : u.neg.isFinite = true := by
  cases u <;> exact finite

theorem rounded_sub {x y : Float} (fx : x.isFinite = true) (fy : y.isFinite = true) :
    RoundedFrom (value x - value y) (x - y) := by
  have rounded := (reads_unpack (isNaN_of_isFinite fx)).add
    (reads_unpack (isNaN_of_isFinite fy)).neg fx (isFinite_neg fy)
  rw [← sub_eq_add, unpackedValue_neg, ← sub_eq_add_neg] at rounded
  exact rounded

theorem rounded_mul {x y : Float} (fx : x.isFinite = true) (fy : y.isFinite = true) :
    RoundedFrom (value x * value y) (x * y) :=
  (reads_unpack (isNaN_of_isFinite fx)).mul (reads_unpack (isNaN_of_isFinite fy)) fx fy

theorem rounded_div {x y : Float} (fx : x.isFinite = true) (fy : y.isFinite = true)
    (nonzero : value y ≠ 0) : RoundedFrom (value x / value y) (x / y) :=
  (reads_unpack (isNaN_of_isFinite fx)).div (reads_unpack (isNaN_of_isFinite fy)) fx fy nonzero

/-- A finite double is its value, rounded. -/
theorem rounded_self {x : Float} (finite : x.isFinite = true) : RoundedFrom (value x) x where
  number := isNaN_of_isFinite finite
  above fy le := (le_iff_value fy finite).2 le
  below fy le := (le_iff_value finite fy).2 le

theorem rounded_toFloat (n : UInt64) : RoundedFrom n.toNat n.toFloat := by
  have rounded := roundedFrom_normalize (n.toNat : Int) 0
  rw [zpow_zero, mul_one, Int.cast_natCast] at rounded
  exact rounded

theorem standsAt_neg {x : Float} (number : x.isNaN = false) : StandsAt (-x) (-signedBits x) :=
  (reads_unpack number).neg.standsAt

/-! ## Beyond the finite doubles -/

theorem isInf_of_isFinite {x : Float} (finite : x.isFinite = true) : x.isInf = false := by
  show x.toModel.unpack.isInf = false
  change x.toModel.unpack.isFinite = true at finite
  cases unpacked : x.toModel.unpack with
  | infinity s => rw [unpacked] at finite; cases finite
  | _ => rfl

theorem Reads.isFinite {k : Int} {u : UnpackedFloat} (h : Reads k u) (low : -infinityBits < k)
    (high : k < infinityBits) : u.isFinite = true := by
  cases h with
  | infinite s => cases s <;> simp only [Sign.apply] at low high <;> omega
  | _ => rfl

/-- A double between two finite ones is finite. -/
theorem isFinite_of_between {low high x : Float} (fl : low.isFinite = true)
    (fh : high.isFinite = true) (hl : low ≤ x) (hh : x ≤ high) : x.isFinite = true := by
  obtain ⟨-, nx, kl⟩ := le_iff.1 hl
  obtain ⟨-, -, kh⟩ := le_iff.1 hh
  obtain ⟨s, m, q, -, below, bits, -⟩ := magnitude_of_isFinite fl
  obtain ⟨t, n, r, -, below', bits', -⟩ := magnitude_of_isFinite fh
  have lowest : -infinityBits < signedBits low := by
    rw [bits]; cases s <;> simp only [Sign.apply] <;> omega
  have highest : signedBits high < infinityBits := by
    rw [bits']; cases t <;> simp only [Sign.apply] <;> omega
  exact (reads_unpack nx).isFinite (by omega) (by omega)

theorem eq_notANumber {u : UnpackedFloat} (notNumber : u.isNaN = true) : u = .notANumber := by
  cases u with
  | notANumber => rfl
  | _ => cases notNumber

theorem unpack_of_isNaN {x : Float} (notNumber : x.isNaN = true) :
    x.toModel.unpack = .notANumber :=
  eq_notANumber notNumber

theorem isNaN_packed : (packed .notANumber).isNaN = true := by decide +kernel

theorem isNaN_add (x : Float) {d : Float} (notNumber : d.isNaN = true) :
    (x + d).isNaN = true := by
  show (packed (UnpackedFloat.add Format.binary64 x.toModel.unpack d.toModel.unpack)).isNaN = true
  rw [unpack_of_isNaN notNumber]
  cases x.toModel.unpack <;> exact isNaN_packed

theorem isNaN_sub (x : Float) {d : Float} (notNumber : d.isNaN = true) :
    (x - d).isNaN = true := by
  show (packed (UnpackedFloat.sub Format.binary64 x.toModel.unpack d.toModel.unpack)).isNaN = true
  rw [unpack_of_isNaN notNumber]
  cases x.toModel.unpack <;> exact isNaN_packed

theorem isNaN_div (x : Float) {d : Float} (notNumber : d.isNaN = true) :
    (x / d).isNaN = true := by
  show (packed (UnpackedFloat.div Format.binary64 x.toModel.unpack d.toModel.unpack)).isNaN = true
  rw [unpack_of_isNaN notNumber]
  cases x.toModel.unpack <;> exact isNaN_packed

theorem eq_of_toBits {x y : Float} (same : x.toBits.toNat = y.toBits.toNat) : x = y := by
  have bits : x.toModel.toBits = y.toModel.toBits := UInt64.toNat_inj.1 same
  rcases x with ⟨⟨b, valid⟩⟩
  rcases y with ⟨⟨c, valid'⟩⟩
  obtain rfl : b = c := bits
  rfl

/-- There is one double that is not a number. -/
theorem eq_of_isNaN {x y : Float} (hx : x.isNaN = true) (hy : y.isNaN = true) : x = y :=
  eq_of_toBits (by rw [toBits_of_isNaN hx, toBits_of_isNaN hy])

/-- Only not-a-number and the positive infinity are not below this infinity. -/
theorem eq_of_not_lt_infinity {x : Float} (beyond : ¬ x < 1 / 0) : x = 0 / 0 ∨ x = 1 / 0 := by
  cases number : x.isNaN with
  | true =>
    have notNumber : (0 / 0 : Float).isNaN = true := by decide +kernel
    exact .inl (eq_of_isNaN number notNumber)
  | false =>
    have infinite : (1 / 0 : Float).isNaN = false ∧ signedBits (1 / 0) = infinityBits := by
      decide +kernel
    have most := (reads_unpack number).le_infinityBits
    have here : infinityBits = signedBits x := by
      by_contra less
      exact beyond (lt_iff.2 ⟨number, infinite.1, by rw [infinite.2]; omega⟩)
    have bits : (1 / 0 : Float).toBits.toNat = 2047 * 2 ^ 52 := by decide +kernel
    have power : twoTo 63 = 2 ^ 63 := rfl
    have bound := x.toBits.toNat_lt
    refine .inr (eq_of_toBits ?_)
    unfold signedBits infinityBits at here
    rw [power] at here
    rw [bits]
    dsimp only at here
    split_ifs at here <;> omega

/-! ## Signs -/

theorem isFinite_zero : (0 : Float).isFinite = true := by decide +kernel

theorem value_zero : value 0 = 0 := by decide +kernel

theorem nonneg_iff_value {x : Float} (finite : x.isFinite = true) : 0 ≤ x ↔ 0 ≤ value x := by
  rw [le_iff_value isFinite_zero finite, value_zero]

theorem nonneg_iff {x : Float} : 0 ≤ x ↔ x.isNaN = false ∧ 0 ≤ signedBits x := by
  have zero : signedBits 0 = 0 := by decide +kernel
  rw [le_iff, zero]
  exact and_iff_right (by decide +kernel)

/-- A number that is not negative is finite, or the positive infinity. -/
theorem finite_or_infinity {x : Float} (le : 0 ≤ x) :
    x.isFinite = true ∨ x.toModel.unpack = .infinity .positive := by
  obtain ⟨number, bits⟩ := nonneg_iff.1 le
  have reads := reads_unpack number
  have infinite : 0 < infinityBits := by decide
  show x.toModel.unpack.isFinite = true ∨ _
  generalize x.toModel.unpack = u at reads
  generalize signedBits x = k at reads bits
  cases reads with
  | infinite s =>
    cases s with
    | positive => exact .inr rfl
    | negative => simp only [Sign.apply] at bits; omega
  | _ => exact .inl rfl

theorem add_infinity {u : UnpackedFloat} (finite : u.isFinite = true) (s : Sign) :
    UnpackedFloat.add Format.binary64 u (.infinity s) = .infinity s := by
  cases u with
  | zero t => rfl
  | finite t m e positive => rfl
  | _ => cases finite

theorem infinity_bounds {x : Float} (number : x.isNaN = false) :
    packed (.infinity .negative) ≤ x ∧ x ≤ packed (.infinity .positive) := by
  obtain ⟨negative, lowest⟩ := packed_infinity .negative
  obtain ⟨positive, highest⟩ := packed_infinity .positive
  have reads := reads_unpack number
  constructor
  · refine le_iff.2 ⟨negative, number, ?_⟩
    have least := reads.neg.le_infinityBits
    rw [lowest]
    simp only [Sign.apply]
    omega
  · refine le_iff.2 ⟨number, positive, ?_⟩
    rw [highest]
    exact reads.le_infinityBits

/-- Adding what is not negative to a finite double leads upwards. -/
theorem le_add {x d : Float} (finite : x.isFinite = true) (le : 0 ≤ d) : x ≤ x + d := by
  rcases finite_or_infinity le with fd | infinite
  · have least := (nonneg_iff_value fd).1 le
    exact (rounded_add finite fd).above finite (by linarith)
  · have sum : x + d = packed (.infinity .positive) := by
      show packed (UnpackedFloat.add Format.binary64 x.toModel.unpack d.toModel.unpack) = _
      rw [infinite, add_infinity finite]
    rw [sum]
    exact (infinity_bounds (isNaN_of_isFinite finite)).2

theorem sub_infinity {x d : Float} (finite : x.isFinite = true)
    (infinite : d.toModel.unpack = .infinity .positive) :
    x - d = packed (.infinity .negative) := by
  show packed (UnpackedFloat.sub Format.binary64 x.toModel.unpack d.toModel.unpack) = _
  rw [infinite, sub_eq_add]
  exact congrArg packed (add_infinity finite .negative)

/-- Taking it off leads downwards. -/
theorem sub_le {x d : Float} (finite : x.isFinite = true) (le : 0 ≤ d) : x - d ≤ x := by
  rcases finite_or_infinity le with fd | infinite
  · have least := (nonneg_iff_value fd).1 le
    exact (rounded_sub finite fd).below finite (by linarith)
  · rw [sub_infinity finite infinite]
    exact (infinity_bounds (isNaN_of_isFinite finite)).1

theorem mul_nonneg {x y : Float} (fx : x.isFinite = true) (fy : y.isFinite = true) (hx : 0 ≤ x)
    (hy : 0 ≤ y) : 0 ≤ x * y := by
  have least := Rat.mul_nonneg ((nonneg_iff_value fx).1 hx) ((nonneg_iff_value fy).1 hy)
  refine (rounded_mul fx fy).above isFinite_zero ?_
  rwa [value_zero]

theorem div_infinity {u : UnpackedFloat} (finite : u.isFinite = true) :
    ∃ s, UnpackedFloat.div Format.binary64 u (.infinity .positive) = .zero s := by
  cases u with
  | zero s => exact ⟨_, rfl⟩
  | finite s m e h => exact ⟨_, rfl⟩
  | _ => cases finite

/-- A finite double that is not negative stays so under division, by an infinity as well. -/
theorem div_nonneg_of_finite {x y : Float} (finite : x.isFinite = true) (hx : 0 ≤ x)
    (hy : 0 < y) : 0 ≤ x / y := by
  rcases finite_or_infinity (le_of_lt hy) with fy | infinite
  · have least := (nonneg_iff_value finite).1 hx
    have ahead : 0 < value y := by
      by_contra behind
      refine not_le_of_lt hy ((le_iff_value fy isFinite_zero).2 ?_)
      rw [value_zero]
      linarith
    refine (rounded_div finite fy ahead.ne').above isFinite_zero ?_
    rw [value_zero]
    positivity
  · obtain ⟨s, quotient⟩ := div_infinity finite
    obtain ⟨number, bits⟩ := packed_zero s
    show 0 ≤ packed (UnpackedFloat.div Format.binary64 x.toModel.unpack y.toModel.unpack)
    rw [infinite, quotient]
    exact nonneg_iff.2 ⟨number, bits.ge⟩

theorem abs_apply (s : Sign) {n : Int} (nonneg : 0 ≤ n) : |s.apply n| = n := by
  cases s with
  | positive => exact abs_of_nonneg nonneg
  | negative => exact (abs_neg n).trans (abs_of_nonneg nonneg)

theorem Reads.abs {k : Int} {u : UnpackedFloat} (h : Reads k u) : Reads |k| u.abs := by
  have infinite : (0 : Int) ≤ infinityBits := by decide
  cases h with
  | infinite s => rw [abs_apply s infinite]; exact .infinite .positive
  | zero s => exact .zero .positive
  | finite s bits m e positive fields small low normal below =>
    rw [abs_apply s (by omega)]
    exact .finite .positive bits m e positive fields small low normal below

theorem standsAt_abs {x : Float} (number : x.isNaN = false) : StandsAt x.abs |signedBits x| :=
  (reads_unpack number).abs.standsAt

/-- The magnitude of a number is a number. -/
theorem isNaN_abs {x : Float} (number : x.isNaN = false) : x.abs.isNaN = false :=
  (standsAt_abs number).number

/-- A finite double is made no greater by a factor up to one. -/
theorem mul_le {x y : Float} (fx : x.isFinite = true) (fy : y.isFinite = true) (hx : 0 ≤ x)
    (hy : y ≤ 1) : x * y ≤ x := by
  have one : value 1 = 1 := by decide +kernel
  have least := (nonneg_iff_value fx).1 hx
  have most := (le_iff_value fy (by decide +kernel)).1 hy
  rw [one] at most
  exact (rounded_mul fx fy).below fx (mul_le_of_le_one_right least most)

end Nearby.Decimal
