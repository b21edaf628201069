/-
The distance between places is a metric on the sphere. Over the real numbers every place is a
unit vector, and the haversine distance is the earth's radius times the angle between two of them.
So it is zero between two pairs of coordinates of one place and nowhere else, and it is no shorter
to go by way of a third place.
-/
import Mathlib.Analysis.InnerProductSpace.PiL2
import Mathlib.Geometry.Euclidean.Angle.Unoriented.TriangleInequality
import Nearby.Proofs.Geo.Reals

namespace Nearby.Geo

open Real InnerProductGeometry
open scoped RealInnerProductSpace

/-! ## Places as unit vectors -/

namespace Coordinates

/-- The unit vector from the centre of the sphere to a place. The first axis leads to where the
equator meets the prime meridian, the last one to the north pole. -/
noncomputable def direction (c : Coordinates ℝ) : EuclideanSpace ℝ (Fin 3) :=
  !₂[cos (Scalar.radians c.latitude) * cos (Scalar.radians c.longitude),
    cos (Scalar.radians c.latitude) * sin (Scalar.radians c.longitude),
    sin (Scalar.radians c.latitude)]

/-- The coordinates are those of one place: the latitudes are equal, and so are the longitudes up
to full turns, unless the place is a pole. -/
def SamePlace (a b : Coordinates ℝ) : Prop :=
  a.latitude = b.latitude ∧
    (|a.latitude| = 90 ∨ ∃ turns : ℤ, b.longitude - a.longitude = 360 * turns)

end Coordinates

theorem inner_direction (a b : Coordinates ℝ) :
    ⟪a.direction, b.direction⟫ = cosineBetween (Scalar.radians a.latitude)
      (Scalar.radians b.latitude) (Scalar.radians (b.longitude - a.longitude)) := by
  unfold cosineBetween Coordinates.direction
  rw [radians_sub, cos_sub, EuclideanSpace.inner_eq_star_dotProduct]
  simp
  ring

theorem norm_direction (c : Coordinates ℝ) : ‖c.direction‖ = 1 := by
  have square : ‖c.direction‖ ^ 2 = 1 := by
    rw [← real_inner_self_eq_norm_sq, inner_direction, sub_self, radians_zero]
    unfold cosineBetween
    rw [cos_zero, mul_one, ← sq, ← sq, sin_sq_add_cos_sq]
  exact (pow_eq_one_iff_of_nonneg (norm_nonneg _) two_ne_zero).1 square

section Places

variable {a b c : Coordinates ℝ}

theorem latitude_mem (on : c.onGlobe = true) :
    Scalar.radians c.latitude ∈ Set.Icc (-(π / 2)) (π / 2) := by
  obtain ⟨⟨south, north⟩, -⟩ := onGlobe_iff.1 on
  have unit : 0 < π / 180 := by positivity
  rw [radians_eq]
  constructor <;> nlinarith

/-- The cosine of a latitude is zero at the poles. -/
theorem cos_latitude_eq_zero_iff (on : c.onGlobe = true) :
    cos (Scalar.radians c.latitude) = 0 ↔ |c.latitude| = 90 := by
  obtain ⟨south, north⟩ := latitude_mem on
  have quarter : π / 2 = 90 * (π / 180) := by ring
  rw [← cos_abs, ← cos_pi_div_two]
  rw [injOn_cos.eq_iff ⟨abs_nonneg _, ?_⟩ ⟨by positivity, by linarith [pi_pos]⟩, abs_radians,
    quarter, mul_left_inj' (by positivity)]
  rw [abs_le]
  constructor <;> linarith [pi_pos]

/-- Whole turns are the angles of cosine one. -/
theorem cos_radians_eq_one_iff (x : ℝ) :
    cos (Scalar.radians x) = 1 ↔ ∃ turns : ℤ, x = 360 * turns := by
  rw [cos_eq_one_iff, radians_eq]
  refine exists_congr fun turns => ?_
  have turn : (turns : ℝ) * (2 * π) = 360 * turns * (π / 180) := by ring
  rw [turn, mul_left_inj' (by positivity), eq_comm]

/-- Two unit vectors are as one if neither the latitudes nor the longitudes keep them apart. -/
theorem cosineBetween_eq_one_iff {lat₁ lat₂ dLon : ℝ} (h₁ : lat₁ ∈ Set.Icc (-(π / 2)) (π / 2))
    (h₂ : lat₂ ∈ Set.Icc (-(π / 2)) (π / 2)) :
    cosineBetween lat₁ lat₂ dLon = 1 ↔ lat₁ = lat₂ ∧ (cos lat₁ = 0 ∨ cos dLon = 1) := by
  have band : lat₁ - lat₂ < 2 * π ∧ -(2 * π) < lat₁ - lat₂ := by
    constructor <;> linarith [pi_pos, h₁.1, h₁.2, h₂.1, h₂.2]
  have along := cos_eq_one_iff_of_lt_of_lt band.2 band.1
  constructor
  · intro one
    -- what is missing to one is the sum of what the latitudes and what the longitudes take off
    have parts : (1 - cos (lat₁ - lat₂)) + cos lat₁ * cos lat₂ * (1 - cos dLon) = 0 := by
      unfold cosineBetween at one
      rw [cos_sub]
      linarith
    have turned : 0 ≤ cos lat₁ * cos lat₂ * (1 - cos dLon) :=
      mul_nonneg (mul_nonneg (cos_nonneg_of_mem_Icc h₁) (cos_nonneg_of_mem_Icc h₂))
        (by linarith [cos_le_one dLon])
    have level : lat₁ = lat₂ := by
      have := along.1 (by linarith [cos_le_one (lat₁ - lat₂)])
      linarith
    subst level
    rw [sub_self, cos_zero, sub_self, zero_add, mul_eq_zero, mul_self_eq_zero] at parts
    exact ⟨rfl, parts.imp id fun whole => by linarith⟩
  · rintro ⟨rfl, pole | whole⟩
    · have square := sin_sq_add_cos_sq lat₁
      unfold cosineBetween
      rw [pole] at square ⊢
      linarith
    · unfold cosineBetween
      rw [whole, mul_one, ← sq, ← sq, sin_sq_add_cos_sq]

/-- Coordinates have the same unit vector if and only if they are those of one place. -/
theorem direction_eq_iff (ha : a.onGlobe = true) (hb : b.onGlobe = true) :
    a.direction = b.direction ↔ a.SamePlace b := by
  have level : Scalar.radians a.latitude = Scalar.radians b.latitude ↔
      a.latitude = b.latitude := by
    rw [radians_eq, radians_eq, mul_left_inj' (by positivity)]
  rw [← inner_eq_one_iff_of_norm_eq_one (𝕜 := ℝ) (norm_direction a) (norm_direction b),
    inner_direction, cosineBetween_eq_one_iff (latitude_mem ha) (latitude_mem hb), level,
    cos_latitude_eq_zero_iff ha, cos_radians_eq_one_iff]
  rfl

/-! ## Distances as angles -/

theorem distanceKm_eq_angle (ha : a.onGlobe = true) (hb : b.onGlobe = true) :
    distanceKm a b = 6371 * angle a.direction b.direction := by
  obtain ⟨turn, nonneg, most, distance, cosine⟩ := distance_angle ha hb
  have same : cos turn = cos (angle a.direction b.direction) := by
    rw [cosine, cos_angle, norm_direction, norm_direction, mul_one, div_one, inner_direction]
  rw [distance, injOn_cos ⟨nonneg, most⟩ ⟨angle_nonneg _ _, angle_le_pi _ _⟩ same]

/-- Unit vectors with no angle between them are equal. -/
theorem angle_direction_eq_zero_iff :
    angle a.direction b.direction = 0 ↔ a.direction = b.direction := by
  constructor
  · intro none
    have cosine := cos_angle a.direction b.direction
    rw [none, cos_zero, norm_direction, norm_direction, mul_one, div_one] at cosine
    exact (inner_eq_one_iff_of_norm_eq_one (norm_direction a) (norm_direction b)).1 cosine.symm
  · intro same
    have nonzero : b.direction ≠ 0 := by
      rw [← norm_ne_zero_iff, norm_direction]
      exact one_ne_zero
    rw [same, angle_self nonzero]

/-- On the globe the distance is the earth's radius times the angle between the unit vectors of
two places, the haversine is in its range before it is clamped, and the distance is a metric: at
most half the way around, zero just within one place, the same both ways and no longer than by way
of a third place. -/
theorem distanceKm_metric (ha : a.onGlobe = true) (hb : b.onGlobe = true) (hc : c.onGlobe = true) :
    distanceKm a b = 6371 * angle a.direction b.direction ∧
      Scalar.clamp (Scalar.ofNat 0) (Scalar.ofNat 1) (haversine a b) = haversine a b ∧
      (0 ≤ distanceKm a b ∧ distanceKm a b ≤ 6371 * π) ∧
      (distanceKm a b = 0 ↔ a.SamePlace b) ∧
      distanceKm a b = distanceKm b a ∧
      distanceKm a c ≤ distanceKm a b + distanceKm b c := by
  obtain ⟨least, most⟩ := haversine_mem ha hb
  have nonneg := angle_nonneg a.direction b.direction
  have half := angle_le_pi a.direction b.direction
  have detour := angle_le_angle_add_angle a.direction b.direction c.direction
  refine ⟨distanceKm_eq_angle ha hb, clamp_of_mem least most, ⟨?_, ?_⟩, ?_, ?_, ?_⟩
  · rw [distanceKm_eq_angle ha hb]
    positivity
  · rw [distanceKm_eq_angle ha hb]
    linarith
  · rw [distanceKm_eq_angle ha hb, mul_eq_zero_iff_left (by norm_num), angle_direction_eq_zero_iff,
      direction_eq_iff ha hb]
  · rw [distanceKm_eq_angle ha hb, distanceKm_eq_angle hb ha, angle_comm]
  · rw [distanceKm_eq_angle ha hb, distanceKm_eq_angle hb hc, distanceKm_eq_angle ha hc]
    linarith

end Places

/-- From the two ends of the equator on the map, which are one place, it is equally far to the
pole. -/
theorem distanceKm_metric_at_antimeridian :
    let a : Coordinates ℝ := ⟨0, 180⟩
    let b : Coordinates ℝ := ⟨0, -180⟩
    let c : Coordinates ℝ := ⟨90, 0⟩
    a.onGlobe = true ∧ b.onGlobe = true ∧ c.onGlobe = true ∧ distanceKm a b = 0 ∧
      distanceKm a c ≤ distanceKm b c := by
  intro a b c
  have ha : a.onGlobe = true := onGlobe_iff.2 (by norm_num [a])
  have hb : b.onGlobe = true := onGlobe_iff.2 (by norm_num [b])
  have hc : c.onGlobe = true := onGlobe_iff.2 (by norm_num [c])
  have same : a.SamePlace b := ⟨rfl, .inr ⟨-1, by norm_num [a, b]⟩⟩
  obtain ⟨-, -, -, zero, -, detour⟩ := distanceKm_metric ha hb hc
  have none := zero.2 same
  rw [none, zero_add] at detour
  exact ⟨ha, hb, hc, none, detour⟩

end Nearby.Geo
