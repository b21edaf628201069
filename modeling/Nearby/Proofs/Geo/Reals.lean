/-
Geodesy over the real numbers. The definitions that run on doubles are read here with exact
arithmetic and the true functions of trigonometry. The haversine distance is then the angle
between two places by the law of cosines, on a sphere of the earth's radius.
-/
import Mathlib.Analysis.SpecialFunctions.Complex.Arg
import Mathlib.Analysis.SpecialFunctions.Trigonometric.Inverse
import Nearby.Geo.Envelope

namespace Nearby.Geo

open Real

/-! ## Real scalars -/

noncomputable instance : Scalar ℝ where
  ofNat n := n
  pi := π
  degreesPerRadian := 180 / π
  sin := Real.sin
  cos := Real.cos
  arcsin := Real.arcsin
  arctan2 y x := Complex.arg ⟨x, y⟩
  sqrt := Real.sqrt
  abs x := |x|
  le x y := decide (x ≤ y)
  lt x y := decide (x < y)
  same x y := decide (x = y)

theorem radians_eq (x : ℝ) : Scalar.radians x = x * (π / 180) := by
  show x * (π / ((180 : Nat) : ℝ)) = _
  rw [Nat.cast_ofNat]

theorem radians_zero : Scalar.radians (0 : ℝ) = 0 := by rw [radians_eq, zero_mul]

theorem radians_sub (x y : ℝ) : Scalar.radians (x - y) = Scalar.radians x - Scalar.radians y := by
  rw [radians_eq, radians_eq, radians_eq, sub_mul]

theorem abs_radians (x : ℝ) : |Scalar.radians x| = |x| * (π / 180) := by
  rw [radians_eq, abs_mul, abs_of_pos (show 0 < π / 180 by positivity)]

theorem squared_eq (x : ℝ) : Scalar.squared x = x ^ 2 := (sq x).symm

theorem lesser_eq (x y : ℝ) : Scalar.lesser x y = min x y := by
  show (if decide (y < x) || ! decide (x ≤ x) then y else x) = _
  rw [decide_eq_true (le_refl x), Bool.not_true, Bool.or_false]
  by_cases less : y < x
  · rw [if_pos (decide_eq_true less), min_eq_right less.le]
  · rw [if_neg (by simpa using less), min_eq_left (not_lt.1 less)]

theorem within_iff {low high x : ℝ} :
    Scalar.within low high x = true ↔ low ≤ x ∧ x ≤ high := by
  show (decide (low ≤ x) && decide (x ≤ high)) = true ↔ _
  rw [Bool.and_eq_true, decide_eq_true_eq, decide_eq_true_eq]

theorem clamp_of_mem {x : ℝ} (least : 0 ≤ x) (most : x ≤ 1) :
    Scalar.clamp (Scalar.ofNat 0) (Scalar.ofNat 1) x = x := by
  show (if decide (x < ((0 : Nat) : ℝ)) = true then _ else
    if decide (((1 : Nat) : ℝ) < x) = true then _ else x) = x
  rw [Nat.cast_zero, Nat.cast_one, if_neg (by simpa using least), if_neg (by simpa using most)]

/-! ## Coordinates -/

theorem onGlobe_iff {c : Coordinates ℝ} :
    c.onGlobe = true ↔
      (-90 ≤ c.latitude ∧ c.latitude ≤ 90) ∧ -180 ≤ c.longitude ∧ c.longitude ≤ 180 := by
  unfold Coordinates.onGlobe
  rw [Bool.and_eq_true, within_iff, within_iff]

theorem contains_iff {e : Envelope ℝ} {c : Coordinates ℝ} :
    e.contains c = true ↔ (e.minLat ≤ c.latitude ∧ c.latitude ≤ e.maxLat) ∧
      e.minLon ≤ c.longitude ∧ c.longitude ≤ e.maxLon := by
  unfold Envelope.contains
  rw [Bool.and_eq_true, within_iff, within_iff]

theorem isWithinGlobe_iff {e : Envelope ℝ} :
    e.isWithinGlobe = true ↔ ((-90 ≤ e.minLat ∧ e.maxLat ≤ 90) ∧ -180 ≤ e.minLon) ∧
      e.maxLon ≤ 180 := by
  unfold Envelope.isWithinGlobe
  rw [Bool.and_eq_true, Bool.and_eq_true, Bool.and_eq_true]
  simp only [Scalar.le, decide_eq_true_eq]

/-! ## The angle between two places -/

/-- The angle that a haversine from zero to one stands for. -/
theorem angleOfHaversine_spec {h : ℝ} (least : 0 ≤ h) (most : h ≤ 1) :
    0 ≤ angleOfHaversine h ∧ angleOfHaversine h ≤ π ∧ cos (angleOfHaversine h) = 1 - 2 * h := by
  have unfolded : angleOfHaversine h = 2 * Complex.arg ⟨√(1 - h), √h⟩ := by
    show ((2 : Nat) : ℝ) * Complex.arg
      ⟨√(((1 : Nat) : ℝ) - Scalar.clamp (Scalar.ofNat 0) (Scalar.ofNat 1) h),
        √(Scalar.clamp (Scalar.ofNat 0) (Scalar.ofNat 1) h)⟩ = _
    rw [clamp_of_mem least most, Nat.cast_ofNat, Nat.cast_one]
  have square : √(1 - h) ^ 2 = 1 - h := sq_sqrt (by linarith)
  have norm : ‖(⟨√(1 - h), √h⟩ : ℂ)‖ = 1 := by
    rw [Complex.norm_def, Complex.normSq_mk, ← sq, ← sq, square, sq_sqrt least, sub_add_cancel,
      sqrt_one]
  have nonzero : (⟨√(1 - h), √h⟩ : ℂ) ≠ 0 := by
    rw [← norm_ne_zero_iff, norm]
    exact one_ne_zero
  have up : 0 ≤ Complex.arg ⟨√(1 - h), √h⟩ := Complex.arg_nonneg_iff.2 (sqrt_nonneg h)
  have right := Complex.abs_arg_le_pi_div_two_iff.2
    (show 0 ≤ (⟨√(1 - h), √h⟩ : ℂ).re from sqrt_nonneg _)
  rw [abs_of_nonneg up] at right
  rw [unfolded]
  refine ⟨by linarith, by linarith, ?_⟩
  rw [cos_two_mul, Complex.cos_arg nonzero, norm, div_one, square]
  ring

/-- The cosine of the angle between two places on a sphere, by their latitudes and the difference
of their longitudes in radians. -/
noncomputable def cosineBetween (lat₁ lat₂ dLon : ℝ) : ℝ :=
  sin lat₁ * sin lat₂ + cos lat₁ * cos lat₂ * cos dLon

theorem haversine_eq (a b : Coordinates ℝ) :
    1 - 2 * haversine a b = cosineBetween (Scalar.radians a.latitude) (Scalar.radians b.latitude)
      (Scalar.radians (b.longitude - a.longitude)) := by
  show 1 - 2 * (Scalar.squared (sin ((_ - _) / ((2 : Nat) : ℝ))) +
    cos _ * cos _ * Scalar.squared (sin (_ / ((2 : Nat) : ℝ)))) = _
  generalize Scalar.radians a.latitude = lat₁
  generalize Scalar.radians b.latitude = lat₂
  generalize Scalar.radians (b.longitude - a.longitude) = dLon
  have half : ∀ x : ℝ, sin (x / 2) ^ 2 = 1 / 2 - cos x / 2 := by
    intro x
    rw [sin_sq_eq_half_sub, mul_div_cancel₀ x two_ne_zero]
  unfold cosineBetween
  rw [squared_eq, squared_eq, Nat.cast_ofNat, half, half, cos_sub]
  ring

/-- The cosine of a latitude on the globe is not negative. -/
theorem cos_latitude_nonneg {c : Coordinates ℝ} (on : c.onGlobe = true) :
    0 ≤ cos (Scalar.radians c.latitude) := by
  obtain ⟨⟨south, north⟩, -⟩ := onGlobe_iff.1 on
  have unit : 0 < π / 180 := by positivity
  rw [radians_eq]
  apply cos_nonneg_of_neg_pi_div_two_le_of_le <;> nlinarith

theorem haversine_mem {a b : Coordinates ℝ} (ha : a.onGlobe = true) (hb : b.onGlobe = true) :
    0 ≤ haversine a b ∧ haversine a b ≤ 1 := by
  have spread := haversine_eq a b
  have positive := mul_nonneg (cos_latitude_nonneg ha) (cos_latitude_nonneg hb)
  generalize Scalar.radians a.latitude = lat₁ at *
  generalize Scalar.radians b.latitude = lat₂ at *
  generalize Scalar.radians (b.longitude - a.longitude) = dLon at *
  unfold cosineBetween at spread
  have apart := cos_le_one (lat₁ - lat₂)
  have together := cos_le_one (lat₁ + lat₂)
  have turned := mul_le_mul_of_nonneg_left (cos_le_one dLon) positive
  have back := mul_le_mul_of_nonneg_left (neg_one_le_cos dLon) positive
  rw [cos_sub] at apart
  rw [cos_add] at together
  constructor <;> linarith

/-- The distance between two places is the angle between them, on the sphere. -/
theorem distance_angle {a b : Coordinates ℝ} (ha : a.onGlobe = true) (hb : b.onGlobe = true) :
    ∃ angle, 0 ≤ angle ∧ angle ≤ π ∧ distanceKm a b = 6371 * angle ∧
      cos angle = cosineBetween (Scalar.radians a.latitude) (Scalar.radians b.latitude)
        (Scalar.radians (b.longitude - a.longitude)) := by
  unfold distanceKm
  split_ifs with same
  · obtain ⟨lat, lon⟩ := (Bool.and_eq_true _ _).mp same
    have lat : a.latitude = b.latitude := of_decide_eq_true lat
    have lon : a.longitude = b.longitude := of_decide_eq_true lon
    refine ⟨0, le_rfl, pi_pos.le, ?_, ?_⟩
    · show ((0 : Nat) : ℝ) = _
      simp
    · unfold cosineBetween
      rw [lat, lon, sub_self, radians_zero, cos_zero, mul_one, ← sq, ← sq,
        sin_sq_add_cos_sq]
  · obtain ⟨least, most⟩ := haversine_mem ha hb
    obtain ⟨nonneg, le, cosine⟩ := angleOfHaversine_spec least most
    refine ⟨_, nonneg, le, rfl, ?_⟩
    rw [cosine, haversine_eq]

end Nearby.Geo
