/-
Covering envelopes hold their circles. Over the real numbers, as long as the covering envelope of
a circle stays within the globe, every place of the globe at most the radius away is in it. The
latitudes are clear from the law of cosines. The longitude is furthest where the great circle
through the pole touches the circle, at an angle whose sine is that of the radius over the cosine
of the latitude; the longitudes beyond a right angle, and those reached the other way around the
globe, are ruled out because the circle stays clear of the poles and the envelope of the
antimeridian.
-/
import Nearby.Proofs.Geo.Reals

namespace Nearby.Geo

open Real

/-! ## Circles on the sphere -/

section Sphere

variable {lat₁ lat₂ dLon angle : ℝ}

/-- Two places are no nearer to each other than their latitudes. -/
theorem latitude_near (band : |lat₂ - lat₁| ≤ π) (positive : 0 ≤ cos lat₁ * cos lat₂)
    (nonneg : 0 ≤ angle) (far : cos angle ≤ cosineBetween lat₁ lat₂ dLon) :
    |lat₂ - lat₁| ≤ angle := by
  -- on one meridian the angle is the difference of latitudes; off it, it is only greater
  have along : cosineBetween lat₁ lat₂ dLon ≤ cos |lat₂ - lat₁| := by
    rw [cos_abs, cos_sub]
    unfold cosineBetween
    have turned := mul_le_mul_of_nonneg_left (cos_le_one dLon) positive
    linarith
  by_contra beyond
  have less := cos_lt_cos_of_nonneg_of_le_pi nonneg band (not_le.1 beyond)
  linarith

/-- A circle clear of the poles stays within a right angle of its centre's meridian. -/
theorem cos_dLon_pos (nonneg : 0 ≤ angle) (clear : |lat₁| + angle < π / 2)
    (positive : 0 ≤ cos lat₁ * cos lat₂) (near : cos angle ≤ cosineBetween lat₁ lat₂ dLon) :
    0 < cos dLon := by
  by_contra behind
  -- beyond a right angle the cosine is at most that of the nearer pole, which is out of reach
  have turned := mul_nonpos_of_nonneg_of_nonpos positive (not_lt.1 behind)
  have height : sin lat₁ * sin lat₂ ≤ sin |lat₁| := by
    rw [← abs_sin_eq_sin_abs_of_abs_le_pi (by linarith [pi_pos, abs_nonneg lat₁])]
    calc sin lat₁ * sin lat₂ ≤ |sin lat₁| * |sin lat₂| := by
          rw [← abs_mul]; exact le_abs_self _
      _ ≤ |sin lat₁| * 1 := mul_le_mul_of_nonneg_left (abs_sin_le_one lat₂) (abs_nonneg _)
      _ = |sin lat₁| := mul_one _
  have pole : sin |lat₁| < cos angle := by
    rw [← cos_pi_div_two_sub]
    exact cos_lt_cos_of_nonneg_of_le_pi nonneg (by linarith [pi_pos, abs_nonneg lat₁])
      (by linarith)
  unfold cosineBetween at near
  linarith

/-- The great circle through the pole that touches the circle bounds its longitudes. -/
theorem cos_mul_sin_dLon_le (nonneg : 0 ≤ angle) (clear : |lat₁| + angle < π / 2)
    (near : cos angle ≤ cosineBetween lat₁ lat₂ dLon) :
    |cos lat₁ * sin dLon| ≤ sin angle := by
  have acute : 0 ≤ cos angle := cos_nonneg_of_neg_pi_div_two_le_of_le
    (by linarith [pi_pos]) (by linarith [abs_nonneg lat₁])
  have height : 0 ≤ sin angle := sin_nonneg_of_nonneg_of_le_pi nonneg
    (by linarith [pi_pos, abs_nonneg lat₁])
  refine abs_le_of_sq_le_sq ?_ height
  unfold cosineBetween at near
  have pythagoras := sin_sq_add_cos_sq lat₂
  -- over all second latitudes the cosine is greatest where the great circle touches
  have cauchy : (sin lat₁ * sin lat₂ + cos lat₁ * cos lat₂ * cos dLon) ^ 2 ≤
      sin lat₁ ^ 2 + (cos lat₁ * cos dLon) ^ 2 := by
    have gap := sq_nonneg (sin lat₁ * cos lat₂ - cos lat₁ * cos dLon * sin lat₂)
    calc (sin lat₁ * sin lat₂ + cos lat₁ * cos lat₂ * cos dLon) ^ 2
        ≤ (sin lat₁ ^ 2 + (cos lat₁ * cos dLon) ^ 2) * (sin lat₂ ^ 2 + cos lat₂ ^ 2) := by
          linarith
      _ = sin lat₁ ^ 2 + (cos lat₁ * cos dLon) ^ 2 := by rw [pythagoras, mul_one]
  have squares : cos angle ^ 2 ≤ sin lat₁ ^ 2 + (cos lat₁ * cos dLon) ^ 2 :=
    (pow_le_pow_left₀ acute near 2).trans cauchy
  have unit := sin_sq_add_cos_sq lat₁
  have unit' := sin_sq_add_cos_sq angle
  calc (cos lat₁ * sin dLon) ^ 2
      = cos lat₁ ^ 2 - (cos lat₁ * cos dLon) ^ 2 := by rw [mul_pow, sin_sq]; ring
    _ ≤ sin angle ^ 2 := by linarith

end Sphere

/-- An angle of at most a full turn, less than a right angle off the start, whose sine is bounded
by that of an acute angle, is at most this angle away from the start, one way or the other. -/
theorem turn_le_or_le {turn most : ℝ} (nonneg : 0 ≤ turn) (full : turn ≤ 2 * π) (least : 0 ≤ most)
    (acute : most ≤ π / 2) (ahead : 0 < cos turn) (sine : |sin turn| ≤ sin most) :
    turn ≤ most ∨ 2 * π - most ≤ turn := by
  have inSine : ∀ {x : ℝ}, 0 ≤ x → x ≤ π / 2 → |sin x| ≤ sin most → x ≤ most := by
    intro x zero right le
    have ordered := strictMonoOn_sin.le_iff_le (a := x) (b := most)
      ⟨by linarith [pi_pos], right⟩ ⟨by linarith [pi_pos], acute⟩
    exact ordered.1 ((le_abs_self _).trans le)
  rcases le_or_gt turn (π / 2) with first | later
  · exact .inl (inSine nonneg first sine)
  · rcases le_or_gt turn (π + π / 2) with half | last
    · -- the middle half of the turn has no positive cosine
      have behind := cos_nonpos_of_pi_div_two_le_of_le later.le half
      linarith
    · right
      have back : |sin (2 * π - turn)| ≤ sin most := by
        rwa [sin_two_pi_sub, abs_neg]
      have := inSine (by linarith) (by linarith) back
      linarith

/-- The difference of longitudes in a circle clear of the poles is bounded by the touching great
circles, one way around the globe or the other. -/
theorem longitude_near {lat₁ lat₂ dLon angle : ℝ} (nonneg : 0 ≤ angle)
    (clear : |lat₁| + angle < π / 2) (positive : 0 ≤ cos lat₁ * cos lat₂)
    (near : cos angle ≤ cosineBetween lat₁ lat₂ dLon) (full : |dLon| ≤ 2 * π) :
    |dLon| ≤ arcsin (min (sin angle / cos lat₁) 1) ∨
      2 * π - arcsin (min (sin angle / cos lat₁) 1) ≤ |dLon| := by
  have meridian : 0 < cos lat₁ := by
    rw [← cos_abs]
    exact cos_pos_of_mem_Ioo ⟨by linarith [pi_pos, abs_nonneg lat₁], by linarith⟩
  have height : 0 ≤ sin angle := sin_nonneg_of_nonneg_of_le_pi nonneg
    (by linarith [pi_pos, abs_nonneg lat₁])
  have ratio : 0 ≤ min (sin angle / cos lat₁) 1 :=
    le_min (div_nonneg height meridian.le) zero_le_one
  refine turn_le_or_le (abs_nonneg dLon) full (arcsin_nonneg.2 ratio) (arcsin_le_pi_div_two _) ?_ ?_
  · rw [cos_abs]
    exact cos_dLon_pos nonneg clear positive near
  · have touching := cos_mul_sin_dLon_le nonneg clear near
    rw [abs_mul, abs_of_pos meridian, mul_comm, ← le_div_iff₀ meridian] at touching
    rw [sin_arcsin (by linarith) (min_le_right _ _)]
    refine le_min ?_ (abs_sin_le_one _)
    rcases abs_choice dLon with same | same <;> rw [same]
    · exact touching
    · rwa [sin_neg, abs_neg]

/-! ## Covering envelopes -/

/-- The degrees of latitude that the covering envelope reaches to each side. -/
noncomputable def latitudeReach (radius : ℝ) : ℝ := radius / 6371 * (180 / π) + 1 / 1000000000

theorem latitudeReach_eq (radius : ℝ) :
    Scalar.degrees (radius / earthRadius) + Envelope.margin = latitudeReach radius := by
  show radius / ((6371 : Nat) : ℝ) * (180 / π) + ((1 : Nat) : ℝ) / ((1000000000 : Nat) : ℝ) = _
  unfold latitudeReach
  norm_num

/-- The degrees of longitude that it reaches if the circle is clear of the poles. -/
noncomputable def longitudeReach (latitude radius : ℝ) : ℝ :=
  arcsin (min (sin (radius / 6371) / cos (Scalar.radians latitude)) 1) * (180 / π) + 1 / 1000000000

theorem longitudeReach_eq (latitude radius : ℝ) :
    Scalar.degrees (Scalar.arcsin (Scalar.lesser (Scalar.sin (radius / earthRadius) /
      Scalar.cos (Scalar.radians latitude)) (Scalar.ofNat 1))) + Envelope.margin =
      longitudeReach latitude radius := by
  rw [lesser_eq]
  show arcsin (min (sin (radius / ((6371 : Nat) : ℝ)) / cos _) ((1 : Nat) : ℝ)) * (180 / π) +
    ((1 : Nat) : ℝ) / ((1000000000 : Nat) : ℝ) = _
  unfold longitudeReach
  norm_num

/-- The test for a circle that takes in a pole. -/
theorem overPole_iff (center : Coordinates ℝ) (reach : ℝ) :
    (Scalar.le (center.latitude - reach) (-Scalar.ofNat 90) ||
      Scalar.le (Scalar.ofNat 90) (center.latitude + reach)) = true ↔
      ¬ |center.latitude| + reach < 90 := by
  show (decide (center.latitude - reach ≤ -((90 : Nat) : ℝ)) ||
    decide (((90 : Nat) : ℝ) ≤ center.latitude + reach)) = true ↔ _
  rw [Nat.cast_ofNat, Bool.or_eq_true, decide_eq_true_eq, decide_eq_true_eq]
  rcases abs_cases center.latitude with ⟨same, sign⟩ | ⟨same, sign⟩ <;> rw [same]
  · constructor
    · rintro (south | north) <;> linarith
    · exact fun beyond => .inr (by linarith)
  · constructor
    · rintro (south | north) <;> linarith
    · exact fun beyond => .inl (by linarith)

/-- The covering envelope of a circle clear of the poles. -/
theorem covering_of_clear {center : Coordinates ℝ} {radius : ℝ}
    (clear : |center.latitude| + latitudeReach radius < 90) :
    Envelope.covering center radius =
      .around center (latitudeReach radius) (longitudeReach center.latitude radius) := by
  unfold Envelope.covering
  dsimp only
  rw [latitudeReach_eq]
  split_ifs with pole
  · exact absurd clear ((overPole_iff center _).1 pole)
  · exact congrArg _ (longitudeReach_eq center.latitude radius)

/-- A circle whose covering envelope stays within the globe is clear of the poles: over a pole it
takes every longitude, from both sides of the centre, which is more than the globe has. -/
theorem clear_of_fits {center : Coordinates ℝ} {radius : ℝ}
    (fits : (Envelope.covering center radius).isWithinGlobe = true) :
    |center.latitude| + latitudeReach radius < 90 := by
  by_contra pole
  unfold Envelope.covering at fits
  dsimp only at fits
  rw [latitudeReach_eq] at fits
  split_ifs at fits with clear
  · obtain ⟨⟨-, west⟩, east⟩ := isWithinGlobe_iff.1 fits
    change -180 ≤ center.longitude - ((360 : Nat) : ℝ) at west
    change center.longitude + ((360 : Nat) : ℝ) ≤ 180 at east
    rw [Nat.cast_ofNat] at west east
    linarith
  · exact clear ((overPole_iff center _).2 pole)

/-- Degrees are bounded by what bounds them in radians. -/
theorem abs_le_of_radians {x y : ℝ} (le : |Scalar.radians x| ≤ y) : |x| ≤ y * (180 / π) := by
  rw [abs_radians] at le
  have inverse : π / 180 * (180 / π) = 1 := by field_simp
  have := mul_le_mul_of_nonneg_right le (show 0 ≤ 180 / π by positivity)
  rwa [mul_assoc, inverse, mul_one] at this

section Circle

variable {center place : Coordinates ℝ} {radius : ℝ}

/-- A circle clear of the poles, in radians, with a place in it. -/
theorem circle_in_radians (onGlobe : center.onGlobe = true) (onGlobe' : place.onGlobe = true)
    (clear : |center.latitude| + latitudeReach radius < 90)
    (near : distanceKm center place ≤ radius) :
    0 ≤ radius / 6371 ∧ |Scalar.radians center.latitude| + radius / 6371 < π / 2 ∧
      cos (radius / 6371) ≤ cosineBetween (Scalar.radians center.latitude)
        (Scalar.radians place.latitude) (Scalar.radians (place.longitude - center.longitude)) := by
  obtain ⟨angle, nonneg, -, distance, cosine⟩ := distance_angle onGlobe onGlobe'
  have least : angle ≤ radius / 6371 := by linarith
  have clear' : |Scalar.radians center.latitude| + radius / 6371 < π / 2 := by
    unfold latitudeReach at clear
    have scaled := mul_lt_mul_of_pos_right clear (show 0 < π / 180 by positivity)
    have inverse : 180 / π * (π / 180) = 1 := by field_simp
    have margin : 0 < 1 / 1000000000 * (π / 180) := by positivity
    have quarter : 90 * (π / 180) = π / 2 := by ring
    -- the margin only makes the circle clearer of the poles
    rw [abs_radians]
    rw [add_mul, add_mul, mul_assoc (radius / 6371), inverse, mul_one, quarter] at scaled
    linarith
  refine ⟨by linarith, clear', ?_⟩
  rw [← cosine]
  exact cos_le_cos_of_nonneg_of_le_pi nonneg
    (by linarith [pi_pos, abs_nonneg (Scalar.radians center.latitude)]) least

theorem latitude_covered (onGlobe : center.onGlobe = true) (onGlobe' : place.onGlobe = true)
    (clear : |center.latitude| + latitudeReach radius < 90)
    (near : distanceKm center place ≤ radius) :
    |place.latitude - center.latitude| ≤ latitudeReach radius := by
  obtain ⟨nonneg, -, near'⟩ := circle_in_radians onGlobe onGlobe' clear near
  obtain ⟨⟨south, north⟩, -⟩ := onGlobe_iff.1 onGlobe
  obtain ⟨⟨south', north'⟩, -⟩ := onGlobe_iff.1 onGlobe'
  have apart := (radians_sub place.latitude center.latitude).symm
  have band : |Scalar.radians (place.latitude - center.latitude)| ≤ π := by
    have degrees : |place.latitude - center.latitude| ≤ 180 := abs_le.2 ⟨by linarith, by linarith⟩
    rw [abs_radians]
    calc |place.latitude - center.latitude| * (π / 180) ≤ 180 * (π / 180) :=
          mul_le_mul_of_nonneg_right degrees (by positivity)
      _ = π := by ring
  rw [← apart] at band
  have inside := latitude_near band
    (mul_nonneg (cos_latitude_nonneg onGlobe) (cos_latitude_nonneg onGlobe')) nonneg near'
  rw [apart] at inside
  unfold latitudeReach
  linarith [abs_le_of_radians inside]

theorem longitude_covered (onGlobe : center.onGlobe = true) (onGlobe' : place.onGlobe = true)
    (clear : |center.latitude| + latitudeReach radius < 90)
    (left : -180 ≤ center.longitude - longitudeReach center.latitude radius)
    (right : center.longitude + longitudeReach center.latitude radius ≤ 180)
    (near : distanceKm center place ≤ radius) :
    |place.longitude - center.longitude| ≤ longitudeReach center.latitude radius := by
  obtain ⟨nonneg, clear', near'⟩ := circle_in_radians onGlobe onGlobe' clear near
  obtain ⟨-, west, east⟩ := onGlobe_iff.1 onGlobe
  obtain ⟨-, west', east'⟩ := onGlobe_iff.1 onGlobe'
  have full : |Scalar.radians (place.longitude - center.longitude)| ≤ 2 * π := by
    have degrees : |place.longitude - center.longitude| ≤ 360 :=
      abs_le.2 ⟨by linarith, by linarith⟩
    rw [abs_radians]
    calc |place.longitude - center.longitude| * (π / 180) ≤ 360 * (π / 180) :=
          mul_le_mul_of_nonneg_right degrees (by positivity)
      _ = 2 * π := by ring
  have short : |place.longitude - center.longitude| ≤
      360 - longitudeReach center.latitude radius := abs_le.2 ⟨by linarith, by linarith⟩
  unfold longitudeReach at short ⊢
  rcases longitude_near nonneg clear'
    (mul_nonneg (cos_latitude_nonneg onGlobe) (cos_latitude_nonneg onGlobe')) near' full
    with inside | around
  · linarith [abs_le_of_radians inside]
  · -- the other way around leads past the antimeridian, where the envelope does not reach
    exfalso
    rw [abs_radians] at around
    have scaled := mul_le_mul_of_nonneg_right around (show 0 ≤ 180 / π by positivity)
    have inverse : π / 180 * (180 / π) = 1 := by field_simp
    have turn : 2 * π * (180 / π) = 360 := by field_simp; norm_num
    rw [sub_mul, turn, mul_assoc, inverse, mul_one] at scaled
    linarith

/-- Within the globe the covering envelope of a circle holds every place in the circle. -/
theorem covering_contains (onGlobe : center.onGlobe = true) (onGlobe' : place.onGlobe = true)
    (fits : (Envelope.covering center radius).isWithinGlobe = true)
    (near : distanceKm center place ≤ radius) :
    (Envelope.covering center radius).contains place = true := by
  have clear := clear_of_fits fits
  rw [covering_of_clear clear] at fits ⊢
  obtain ⟨⟨-, left⟩, right⟩ := isWithinGlobe_iff.1 fits
  obtain ⟨below, above⟩ := abs_le.1 (latitude_covered onGlobe onGlobe' clear near)
  obtain ⟨before, after⟩ :=
    abs_le.1 (longitude_covered onGlobe onGlobe' clear left right near)
  refine contains_iff.2 ⟨⟨?_, ?_⟩, ?_, ?_⟩
  · show center.latitude - latitudeReach radius ≤ place.latitude
    linarith
  · show place.latitude ≤ center.latitude + latitudeReach radius
    linarith
  · show center.longitude - longitudeReach center.latitude radius ≤ place.longitude
    linarith
  · show place.longitude ≤ center.longitude + longitudeReach center.latitude radius
    linarith

end Circle

end Nearby.Geo
