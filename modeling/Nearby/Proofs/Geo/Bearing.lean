/-
Distance and bearing describe one way. Over the real numbers, whoever leaves a place at the
bearing of another and follows the great circle for the angle of their distance arrives at the
other place, over a pole and across the antimeridian too. The east and north parts of the bearing
are the sine of this angle times the sine and the cosine of the direction; turning degrees into
the range of a compass changes neither. Between places that are neither one nor antipodal no other
direction leads there.
-/
import Nearby.Proofs.Geo.Metric

namespace Nearby.Geo

open Real
open scoped RealInnerProductSpace

/-! ## The compass -/

/-- A compass shows an angle of at most half a turn in its range, up to one full turn. -/
theorem compass_spec {x : ℝ} (least : -180 < x) (most : x ≤ 180) :
    (0 ≤ compass x ∧ compass x < 360) ∧ (compass x = x ∨ compass x = x + 360) := by
  have unfolded : compass x = if 360 ≤ (if x < 0 then x + 360 else x) then 0
      else if x < 0 then x + 360 else x := by
    show (if decide (((360 : Nat) : ℝ) ≤ if decide (x < ((0 : Nat) : ℝ)) = true then
      x + ((360 : Nat) : ℝ) else x) = true then ((0 : Nat) : ℝ) else
        if decide (x < ((0 : Nat) : ℝ)) = true then x + ((360 : Nat) : ℝ) else x) = _
    simp only [decide_eq_true_eq, Nat.cast_ofNat, Nat.cast_zero]
  rw [unfolded]
  rcases lt_or_ge x 0 with west | east
  · rw [if_pos west, if_neg (by linarith)]
    exact ⟨⟨by linarith, by linarith⟩, .inr rfl⟩
  · rw [if_neg east.not_gt, if_neg (by linarith)]
    exact ⟨⟨east, by linarith⟩, .inl rfl⟩

theorem radians_add_turn (x : ℝ) : Scalar.radians (x + 360) = Scalar.radians x + 2 * π := by
  rw [radians_eq, radians_eq]
  ring

theorem radians_add_quarter (x : ℝ) : Scalar.radians (x + 90) = Scalar.radians x + π / 2 := by
  rw [radians_eq, radians_eq]
  ring

theorem radians_degrees (x : ℝ) : Scalar.radians (Scalar.degrees x) = x := by
  rw [radians_eq]
  show x * (180 / π) * (π / 180) = x
  field_simp

theorem degrees_mem {x : ℝ} (least : -π < x) (most : x ≤ π) :
    -180 < Scalar.degrees x ∧ Scalar.degrees x ≤ 180 := by
  have half : π * (180 / π) = 180 := by field_simp
  have scale : 0 < 180 / π := by positivity
  show -180 < x * (180 / π) ∧ x * (180 / π) ≤ 180
  constructor <;> nlinarith

/-- The direction that a compass shows is the angle it was given. -/
theorem compass_degrees {x : ℝ} (least : -π < x) (most : x ≤ π) :
    cos (Scalar.radians (compass (Scalar.degrees x))) = cos x ∧
      sin (Scalar.radians (compass (Scalar.degrees x))) = sin x := by
  obtain ⟨least, most⟩ := degrees_mem least most
  rcases (compass_spec least most).2 with same | turned
  · rw [same, radians_degrees]
    exact ⟨rfl, rfl⟩
  · rw [turned, radians_add_turn, radians_degrees, cos_add_two_pi, sin_add_two_pi]
    exact ⟨rfl, rfl⟩

/-! ## Parts of a bearing -/

section Parts

variable {lat₁ lat₂ dLon : ℝ}

/-- The northward part of the way to another place. -/
noncomputable def northward (lat₁ lat₂ dLon : ℝ) : ℝ :=
  cos lat₁ * sin lat₂ - sin lat₁ * cos lat₂ * cos dLon

/-- The eastward part. -/
noncomputable def eastward (lat₂ dLon : ℝ) : ℝ := sin dLon * cos lat₂

/-- What the cosine of the angle leaves of one is made up by the two parts. -/
theorem parts_sq (lat₁ lat₂ dLon : ℝ) :
    northward lat₁ lat₂ dLon ^ 2 + eastward lat₂ dLon ^ 2 =
      1 - cosineBetween lat₁ lat₂ dLon ^ 2 := by
  have first := sin_sq_add_cos_sq lat₁
  have second := sin_sq_add_cos_sq lat₂
  have turn := sin_sq_add_cos_sq dLon
  unfold northward eastward cosineBetween
  linear_combination (sin lat₂ ^ 2 + cos lat₂ ^ 2 * cos dLon ^ 2) * first + second +
    cos lat₂ ^ 2 * turn

end Parts

section Ways

variable {a b : Coordinates ℝ}

/-- The way from one place to another as a number whose argument is the bearing. -/
noncomputable def heading (a b : Coordinates ℝ) : ℂ where
  re := northward (Scalar.radians a.latitude) (Scalar.radians b.latitude)
    (Scalar.radians (b.longitude - a.longitude))
  im := eastward (Scalar.radians b.latitude) (Scalar.radians (b.longitude - a.longitude))

theorem bearingDegrees_eq (a b : Coordinates ℝ) :
    bearingDegrees a b = compass (Scalar.degrees (Complex.arg (heading a b))) := rfl

theorem bearing_mem (a b : Coordinates ℝ) : 0 ≤ bearingDegrees a b ∧ bearingDegrees a b < 360 := by
  obtain ⟨least, most⟩ := degrees_mem (Complex.neg_pi_lt_arg (heading a b)) (Complex.arg_le_pi _)
  rw [bearingDegrees_eq]
  exact (compass_spec least most).1

/-- The angle between two places, with its cosine. -/
theorem distance_arc (ha : a.onGlobe = true) (hb : b.onGlobe = true) :
    0 ≤ sin (distanceKm a b / 6371) ∧
      cos (distanceKm a b / 6371) = cosineBetween (Scalar.radians a.latitude)
        (Scalar.radians b.latitude) (Scalar.radians (b.longitude - a.longitude)) := by
  obtain ⟨angle, nonneg, most, distance, cosine⟩ := distance_angle ha hb
  have same : distanceKm a b / 6371 = angle := by
    rw [distance]
    field_simp
  rw [same]
  exact ⟨sin_nonneg_of_nonneg_of_le_pi nonneg most, cosine⟩

theorem norm_heading (ha : a.onGlobe = true) (hb : b.onGlobe = true) :
    ‖heading a b‖ = sin (distanceKm a b / 6371) := by
  obtain ⟨nonneg, cosine⟩ := distance_arc ha hb
  have squares : ‖heading a b‖ ^ 2 = sin (distanceKm a b / 6371) ^ 2 := by
    rw [sin_sq, cosine, ← parts_sq, Complex.sq_norm, Complex.normSq_apply, ← sq, ← sq]
    rfl
  exact (pow_left_inj₀ (norm_nonneg _) nonneg two_ne_zero).1 squares

/-- The two parts are those of the bearing, as long as the angle has a sine. -/
theorem bearing_parts (ha : a.onGlobe = true) (hb : b.onGlobe = true) :
    sin (distanceKm a b / 6371) * cos (Scalar.radians (bearingDegrees a b)) = (heading a b).re ∧
      sin (distanceKm a b / 6371) * sin (Scalar.radians (bearingDegrees a b)) =
        (heading a b).im := by
  obtain ⟨cosine, sine⟩ :=
    compass_degrees (Complex.neg_pi_lt_arg (heading a b)) (Complex.arg_le_pi _)
  rw [bearingDegrees_eq, cosine, sine, ← norm_heading ha hb]
  exact ⟨Complex.norm_mul_cos_arg _, Complex.norm_mul_sin_arg _⟩

/-! ## Arriving -/

/-- Height, and what lies ahead of and beside the first meridian, at the end of the way. -/
theorem bearing_coordinates (ha : a.onGlobe = true) (hb : b.onGlobe = true) :
    let d := distanceKm a b / 6371
    let t := Scalar.radians (bearingDegrees a b)
    let lat₁ := Scalar.radians a.latitude
    let lat₂ := Scalar.radians b.latitude
    let dLon := Scalar.radians (b.longitude - a.longitude)
    sin lat₂ = sin lat₁ * cos d + cos lat₁ * sin d * cos t ∧
      cos lat₂ * sin dLon = sin d * sin t ∧
      cos lat₂ * cos dLon = cos lat₁ * cos d - sin lat₁ * sin d * cos t := by
  intro d t lat₁ lat₂ dLon
  obtain ⟨-, arc⟩ := distance_arc ha hb
  obtain ⟨ahead, beside⟩ := bearing_parts ha hb
  change cos d = sin lat₁ * sin lat₂ + cos lat₁ * cos lat₂ * cos dLon at arc
  change sin d * cos t = cos lat₁ * sin lat₂ - sin lat₁ * cos lat₂ * cos dLon at ahead
  change sin d * sin t = sin dLon * cos lat₂ at beside
  have unit := sin_sq_add_cos_sq lat₁
  refine ⟨?_, ?_, ?_⟩
  · linear_combination -sin lat₂ * unit - sin lat₁ * arc - cos lat₁ * ahead
  · linear_combination -beside
  · linear_combination -(cos lat₂ * cos dLon) * unit - cos lat₁ * arc + sin lat₁ * ahead

namespace Coordinates

/-- The direction north along the meridian of a place, to the point a quarter turn further on. -/
noncomputable def north (c : Coordinates ℝ) : EuclideanSpace ℝ (Fin 3) :=
  direction ⟨c.latitude + 90, c.longitude⟩

/-- The direction east along its parallel, to the point of the equator a quarter turn further on. -/
noncomputable def east (c : Coordinates ℝ) : EuclideanSpace ℝ (Fin 3) :=
  direction ⟨0, c.longitude + 90⟩

/-- The unit vector of where a great circle arrives after an angle, if it leaves a place on a
course, in radians clockwise from north. -/
noncomputable def travel (c : Coordinates ℝ) (angle course : ℝ) : EuclideanSpace ℝ (Fin 3) :=
  cos angle • c.direction + sin angle • (cos course • c.north + sin course • c.east)

end Coordinates

/-- The way at the bearing of a place, followed for the angle of its distance, ends there. -/
theorem travel_bearing (ha : a.onGlobe = true) (hb : b.onGlobe = true) :
    a.travel (distanceKm a b / 6371) (Scalar.radians (bearingDegrees a b)) = b.direction := by
  obtain ⟨height, beside, ahead⟩ := bearing_coordinates ha hb
  rw [radians_sub] at beside ahead
  rw [sin_sub] at beside
  rw [cos_sub] at ahead
  have turn := sin_sq_add_cos_sq (Scalar.radians a.longitude)
  -- the first two coordinates are those ahead and beside, turned by the longitude of the start
  ext i
  fin_cases i <;> simp [Coordinates.travel, Coordinates.direction, Coordinates.north,
    Coordinates.east, radians_add_quarter, radians_zero, cos_add_pi_div_two, sin_add_pi_div_two]
  · linear_combination -cos (Scalar.radians a.longitude) * ahead +
      sin (Scalar.radians a.longitude) * beside +
      cos (Scalar.radians b.latitude) * cos (Scalar.radians b.longitude) * turn
  · linear_combination -sin (Scalar.radians a.longitude) * ahead -
      cos (Scalar.radians a.longitude) * beside +
      cos (Scalar.radians b.latitude) * sin (Scalar.radians b.longitude) * turn
  · linear_combination -height

/-- The north and east parts of where a way ends. -/
theorem inner_travel (c : Coordinates ℝ) (angle course : ℝ) :
    ⟪c.travel angle course, c.north⟫ = sin angle * cos course ∧
      ⟪c.travel angle course, c.east⟫ = sin angle * sin course := by
  have lat := sin_sq_add_cos_sq (Scalar.radians c.latitude)
  have lon := sin_sq_add_cos_sq (Scalar.radians c.longitude)
  constructor <;>
    simp [Coordinates.travel, Coordinates.direction, Coordinates.north, Coordinates.east,
      EuclideanSpace.inner_eq_star_dotProduct, radians_add_quarter, radians_zero,
      cos_add_pi_div_two, sin_add_pi_div_two]
  · linear_combination
      (sin angle * cos course * sin (Scalar.radians c.latitude) ^ 2 -
        cos angle * sin (Scalar.radians c.latitude) * cos (Scalar.radians c.latitude)) * lon +
      sin angle * cos course * lat
  · linear_combination sin angle * sin course * lon

/-- Two courses of a compass with the same sine and cosine are one. -/
theorem course_unique {x y : ℝ} (hx : 0 ≤ x ∧ x < 360) (hy : 0 ≤ y ∧ y < 360)
    (cosines : cos (Scalar.radians x) = cos (Scalar.radians y))
    (sines : sin (Scalar.radians x) = sin (Scalar.radians y)) : x = y := by
  have whole : cos (Scalar.radians (x - y)) = 1 := by
    rw [radians_sub, cos_sub, cosines, sines, ← sq, ← sq, cos_sq_add_sin_sq]
  obtain ⟨turns, apart⟩ := (cos_radians_eq_one_iff _).1 whole
  have less : (-1 : ℝ) < turns := by linarith
  have more : (turns : ℝ) < 1 := by linarith
  have none : turns = 0 := by
    have : -1 < turns := by exact_mod_cast less
    have : turns < 1 := by exact_mod_cast more
    omega
  rw [none, Int.cast_zero, mul_zero] at apart
  linarith

/-- No other direction leads to a place, unless all do, as they do to the place itself and to the
one opposite. -/
theorem bearing_unique (ha : a.onGlobe = true) (hb : b.onGlobe = true)
    (apart : b.direction ≠ a.direction) (opposite : b.direction ≠ -a.direction) {course : ℝ}
    (least : 0 ≤ course) (most : course < 360)
    (arrives : a.travel (distanceKm a b / 6371) (Scalar.radians course) = b.direction) :
    course = bearingDegrees a b := by
  have way := travel_bearing ha hb
  have bends : sin (distanceKm a b / 6371) ≠ 0 := by
    intro straight
    rw [Coordinates.travel, straight, zero_smul, add_zero] at way
    rcases sin_eq_zero_iff_cos_eq.1 straight with none | half
    · rw [none, one_smul] at way
      exact apart way.symm
    · rw [half, neg_one_smul] at way
      exact opposite way.symm
  obtain ⟨north, east⟩ := inner_travel a (distanceKm a b / 6371) (Scalar.radians course)
  obtain ⟨north', east'⟩ :=
    inner_travel a (distanceKm a b / 6371) (Scalar.radians (bearingDegrees a b))
  rw [arrives, ← way] at north east
  exact course_unique ⟨least, most⟩ (bearing_mem a b)
    (mul_left_cancel₀ bends (north.symm.trans north'))
    (mul_left_cancel₀ bends (east.symm.trans east'))

/-- Distance and bearing describe the same way: the bearing is a direction on the compass, and
whoever leaves the first place in it and travels the angle of the distance arrives at the second,
in height and beside the first meridian. This needs neither that the places are apart nor that
they are not opposite, where all directions would do. -/
theorem bearing_arrives (ha : a.onGlobe = true) (hb : b.onGlobe = true) :
    let d := distanceKm a b / 6371
    let t := Scalar.radians (bearingDegrees a b)
    (0 ≤ bearingDegrees a b ∧ bearingDegrees a b < 360) ∧ a.travel d t = b.direction ∧
      sin (Scalar.radians b.latitude) = sin (Scalar.radians a.latitude) * cos d +
        cos (Scalar.radians a.latitude) * sin d * cos t ∧
      cos (Scalar.radians b.latitude) * sin (Scalar.radians (b.longitude - a.longitude)) =
        sin d * sin t := by
  intro d t
  obtain ⟨height, beside, -⟩ := bearing_coordinates ha hb
  exact ⟨bearing_mem a b, travel_bearing ha hb, height, beside⟩

end Ways

/-- From a pole to the other side of the antimeridian. -/
theorem bearing_arrives_from_pole :
    let a : Coordinates ℝ := ⟨90, 170⟩
    let b : Coordinates ℝ := ⟨10, -170⟩
    a.onGlobe = true ∧ b.onGlobe = true ∧
      (0 ≤ bearingDegrees a b ∧ bearingDegrees a b < 360) ∧
      a.travel (distanceKm a b / 6371) (Scalar.radians (bearingDegrees a b)) = b.direction := by
  intro a b
  have ha : a.onGlobe = true := onGlobe_iff.2 (by norm_num [a])
  have hb : b.onGlobe = true := onGlobe_iff.2 (by norm_num [b])
  obtain ⟨onCompass, arrives, -, -⟩ := bearing_arrives ha hb
  exact ⟨ha, hb, onCompass, arrives⟩

end Nearby.Geo
