/-
Envelopes and the boxes made from them. Going up from a double by what is not negative does not
lead below it, and a corner that is no number, or lies off the globe, is moved to the edge of the
globe. So the part of the globe in an envelope around a point is a box that holds the point,
whatever the cosine of the latitude came to; and where it came to a number, the box holds the very
points of the globe that the envelope holds.
-/
import Nearby.Geo.Box
import Nearby.Proofs.Decimal.Arithmetic

namespace Nearby.Geo

open Decimal

/-! ## Distances to the edges -/

/-- A number of degrees to go from a centre: not negative, unless it is no number at all. -/
def Reach (d : Float) : Prop := d.isNaN = true ∨ 0 ≤ d

/-- The lesser of an edge and what lies above a place is between the place and the edge. -/
theorem lesser_between {x y edge : Float} (inside : x ≤ edge) (above : y.isNaN = true ∨ x ≤ y) :
    x ≤ Scalar.lesser y edge ∧ Scalar.lesser y edge ≤ edge := by
  obtain ⟨-, number, -⟩ := le_iff.1 inside
  have self : edge ≤ edge := le_self number
  unfold Scalar.lesser
  simp only [Scalar.lt, Scalar.le, Bool.or_eq_true, decide_eq_true_eq, Bool.not_eq_true',
    decide_eq_false_iff_not]
  split_ifs with moved
  · -- beyond the edge, or no number: the edge itself
    exact ⟨inside, self⟩
  · obtain ⟨notBeyond, comparable⟩ := not_or.1 moved
    have le := not_not.1 comparable
    obtain ⟨number', -, -⟩ := le_iff.1 le
    exact ⟨above.resolve_left (Bool.eq_false_iff.1 number'), le_of_not_lt number' number notBeyond⟩

/-- The greater of an edge and what lies below a place is between the edge and the place. -/
theorem greater_between {x y edge : Float} (inside : edge ≤ x) (below : y.isNaN = true ∨ y ≤ x) :
    edge ≤ Scalar.greater y edge ∧ Scalar.greater y edge ≤ x := by
  obtain ⟨number, -, -⟩ := le_iff.1 inside
  have self : edge ≤ edge := le_self number
  unfold Scalar.greater
  simp only [Scalar.lt, Scalar.le, Bool.or_eq_true, decide_eq_true_eq, Bool.not_eq_true',
    decide_eq_false_iff_not]
  split_ifs with moved
  · exact ⟨self, inside⟩
  · obtain ⟨notBeyond, comparable⟩ := not_or.1 moved
    have le := not_not.1 comparable
    obtain ⟨number', -, -⟩ := le_iff.1 le
    exact ⟨le_of_not_lt number number' notBeyond, below.resolve_left (Bool.eq_false_iff.1 number')⟩

theorem reach_above {x d : Float} (finite : x.isFinite = true) (reach : Reach d) :
    (x + d).isNaN = true ∨ x ≤ x + d :=
  reach.imp (isNaN_add x) (le_add finite)

theorem reach_below {x d : Float} (finite : x.isFinite = true) (reach : Reach d) :
    (x - d).isNaN = true ∨ x - d ≤ x :=
  reach.imp (isNaN_sub x) (sub_le finite)

/-! ## Boxes around a point -/

theorem Coordinates.onGlobe_iff_between {c : Coordinates Float} :
    c.onGlobe = true ↔
      (-90 ≤ c.latitude ∧ c.latitude ≤ 90) ∧ -180 ≤ c.longitude ∧ c.longitude ≤ 180 := by
  unfold Coordinates.onGlobe Scalar.within
  simp only [Bool.and_eq_true, Scalar.le, decide_eq_true_eq]

theorem Point.between (p : Point) :
    ((-90 ≤ p.latitude ∧ p.latitude ≤ 90) ∧ -180 ≤ p.longitude ∧ p.longitude ≤ 180) :=
  Coordinates.onGlobe_iff_between.1 p.onGlobe

theorem Point.isFinite_degrees (p : Point) :
    p.latitude.isFinite = true ∧ p.longitude.isFinite = true := by
  obtain ⟨⟨south, north⟩, west, east⟩ := p.between
  exact ⟨isFinite_of_between (by decide +kernel) (by decide +kernel) south north,
    isFinite_of_between (by decide +kernel) (by decide +kernel) west east⟩

/-- Degrees in range make a point. -/
theorem Point.ofDegrees_ok {lat lon : Float} (hlat : -90 ≤ lat ∧ lat ≤ 90)
    (hlon : -180 ≤ lon ∧ lon ≤ 180) :
    ∃ p, Point.ofDegrees lat lon = .ok p ∧ p.latitude = lat ∧ p.longitude = lon :=
  have on : (⟨lat, lon⟩ : Coordinates Float).onGlobe = true :=
    Coordinates.onGlobe_iff_between.2 ⟨hlat, hlon⟩
  ⟨⟨_, on⟩, dif_pos on, rfl, rfl⟩

/-- Degrees of which one is out of range are refused. -/
theorem Point.ofDegrees_refused {lat lon : Float}
    (off : (-90 ≤ lat ∧ lat ≤ 90) → ¬ (-180 ≤ lon ∧ lon ≤ 180)) :
    Point.ofDegrees lat lon = .error (.invalidCoordinate ⟨lat, lon⟩) := by
  have offGlobe : ¬ (⟨lat, lon⟩ : Coordinates Float).onGlobe = true := by
    rw [Coordinates.onGlobe_iff_between]
    exact fun both => off both.1 both.2
  exact dif_neg offGlobe

/-- A box contains its edges. -/
theorem Box.contains_iff {b : Box} {p : Point} :
    b.contains p = true ↔
      (b.southWest.latitude ≤ p.latitude ∧ p.latitude ≤ b.northEast.latitude) ∧
        b.southWest.longitude ≤ p.longitude ∧ p.longitude ≤ b.northEast.longitude := by
  unfold Box.contains Scalar.within
  simp only [Scalar.le, Bool.and_eq_true, decide_eq_true_eq]

/-- An envelope contains its edges. -/
theorem Envelope.contains_iff {e : Envelope Float} {c : Coordinates Float} :
    e.contains c = true ↔ (e.minLat ≤ c.latitude ∧ c.latitude ≤ e.maxLat) ∧
      e.minLon ≤ c.longitude ∧ c.longitude ≤ e.maxLon := by
  unfold Envelope.contains Scalar.within
  simp only [Scalar.le, Bool.and_eq_true, decide_eq_true_eq]

/-- A box that holds a point has its corners the right way round. -/
theorem Box.check_of_contains {b : Box} {p : Point} (holds : b.contains p = true) :
    b.check = .ok b := by
  obtain ⟨⟨south, north⟩, west, east⟩ := Box.contains_iff.1 holds
  unfold Box.check
  refine (if_neg fun lt => ?_).trans (if_neg fun lt => ?_)
  · exact not_le_of_lt lt (le_of_le_of_le south north)
  · exact not_le_of_lt lt (le_of_le_of_le west east)

/-- An envelope whose edges are around a point, or are no numbers, makes a box with the point in
it. -/
theorem Envelope.toBox_ok {e : Envelope Float} {p : Point}
    (top : e.maxLat.isNaN = true ∨ p.latitude ≤ e.maxLat)
    (right : e.maxLon.isNaN = true ∨ p.longitude ≤ e.maxLon)
    (bottom : e.minLat.isNaN = true ∨ e.minLat ≤ p.latitude)
    (left : e.minLon.isNaN = true ∨ e.minLon ≤ p.longitude) :
    ∃ box, e.toBox = .ok box ∧ box.contains p = true := by
  obtain ⟨⟨south, north⟩, west, east⟩ := p.between
  obtain ⟨le_top, top_le⟩ := lesser_between north top
  obtain ⟨le_right, right_le⟩ := lesser_between east right
  obtain ⟨le_bottom, bottom_le⟩ := greater_between south bottom
  obtain ⟨le_left, left_le⟩ := greater_between west left
  obtain ⟨ne, made, neLat, neLon⟩ :=
    Point.ofDegrees_ok ⟨le_of_le_of_le south le_top, top_le⟩
      ⟨le_of_le_of_le west le_right, right_le⟩
  obtain ⟨sw, made', swLat, swLon⟩ :=
    Point.ofDegrees_ok ⟨le_bottom, le_of_le_of_le bottom_le north⟩
      ⟨le_left, le_of_le_of_le left_le east⟩
  have holds : (⟨ne, sw⟩ : Box).contains p = true := by
    rw [Box.contains_iff, neLat, neLon, swLat, swLon]
    exact ⟨⟨bottom_le, le_top⟩, left_le, le_right⟩
  refine ⟨⟨ne, sw⟩, ?_, holds⟩
  unfold Envelope.toBox
  rw [made, made']
  exact Box.check_of_contains holds

/-- Whatever the reaches are, the part of the globe in an envelope around a point is a box with
the point in it. -/
theorem Envelope.around_toBox (center : Point) {lat lon : Float} (hlat : Reach lat)
    (hlon : Reach lon) :
    ∃ box, (Envelope.around center.coordinates lat lon).toBox = .ok box ∧
      box.contains center = true := by
  obtain ⟨finite, finite'⟩ := center.isFinite_degrees
  exact toBox_ok (reach_above finite hlat) (reach_above finite' hlon) (reach_below finite hlat)
    (reach_below finite' hlon)

/-! ## Clamped edges -/

/-- All edges of the envelope are numbers. -/
structure Envelope.Measured (e : Envelope Float) : Prop where
  south : e.minLat.isNaN = false
  west : e.minLon.isNaN = false
  north : e.maxLat.isNaN = false
  east : e.maxLon.isNaN = false

/-- What is not beyond the edge is below a number if and only if it is below the lesser of the
two. -/
theorem le_lesser_iff {x y edge : Float} (inside : x ≤ edge) (number : y.isNaN = false) :
    x ≤ Scalar.lesser y edge ↔ x ≤ y := by
  have self : y ≤ y := le_self number
  unfold Scalar.lesser
  simp only [Scalar.lt, Scalar.le, self, decide_true, Bool.not_true, Bool.or_false,
    decide_eq_true_eq]
  split_ifs with beyond
  · exact iff_of_true inside (le_of_le_of_le inside (le_of_lt beyond))
  · exact Iff.rfl

theorem greater_le_iff {x y edge : Float} (inside : edge ≤ x) (number : y.isNaN = false) :
    Scalar.greater y edge ≤ x ↔ y ≤ x := by
  have self : y ≤ y := le_self number
  unfold Scalar.greater
  simp only [Scalar.lt, Scalar.le, self, decide_true, Bool.not_true, Bool.or_false,
    decide_eq_true_eq]
  split_ifs with beyond
  · exact iff_of_true inside (le_of_le_of_le (le_of_lt beyond) inside)
  · exact Iff.rfl

theorem Point.coordinates_of_ofDegrees {lat lon : Float} {p : Point}
    (made : Point.ofDegrees lat lon = .ok p) : p.latitude = lat ∧ p.longitude = lon := by
  unfold Point.ofDegrees at made
  dsimp only at made
  split at made
  · cases made
    exact ⟨rfl, rfl⟩
  · cases made

/-- A box passes its check unchanged or not at all. -/
theorem Box.eq_of_check {b c : Box} (checked : b.check = .ok c) : b = c := by
  unfold Box.check at checked
  dsimp only at checked
  split_ifs at checked
  exact Except.ok.inj checked

/-- The box has for its edges those of the envelope, moved onto the globe. -/
theorem Envelope.edges_of_toBox {e : Envelope Float} {box : Box} (made : e.toBox = .ok box) :
    box.northEast.latitude = Scalar.lesser e.maxLat 90 ∧
      box.northEast.longitude = Scalar.lesser e.maxLon 180 ∧
      box.southWest.latitude = Scalar.greater e.minLat (-90) ∧
      box.southWest.longitude = Scalar.greater e.minLon (-180) := by
  unfold Envelope.toBox at made
  cases hne : Point.ofDegrees (Scalar.lesser e.maxLat 90) (Scalar.lesser e.maxLon 180) with
  | error fault => rw [hne] at made; cases made
  | ok ne =>
    cases hsw : Point.ofDegrees (Scalar.greater e.minLat (-90))
        (Scalar.greater e.minLon (-180)) with
    | error fault => rw [hne, hsw] at made; cases made
    | ok sw =>
      rw [hne, hsw] at made
      obtain rfl := Box.eq_of_check made
      obtain ⟨neLat, neLon⟩ := Point.coordinates_of_ofDegrees hne
      obtain ⟨swLat, swLon⟩ := Point.coordinates_of_ofDegrees hsw
      exact ⟨neLat, neLon, swLat, swLon⟩

/-- Moving edges onto the globe neither takes points out of an envelope nor puts any in. -/
theorem Envelope.toBox_contains {e : Envelope Float} {box : Box} (measured : e.Measured)
    (made : e.toBox = .ok box) (p : Point) : box.contains p = e.contains p.coordinates := by
  obtain ⟨⟨south, north⟩, west, east⟩ := p.between
  obtain ⟨neLat, neLon, swLat, swLon⟩ := Envelope.edges_of_toBox made
  rw [Bool.eq_iff_iff, Box.contains_iff, Envelope.contains_iff, neLat, neLon, swLat, swLon,
    le_lesser_iff north measured.north, le_lesser_iff east measured.east,
    greater_le_iff south measured.south, greater_le_iff west measured.west]
  rfl

/-- Going from a centre by numbers of degrees that are not negative, infinite ones included, leads
to edges that are numbers. -/
theorem Envelope.around_measured (center : Point) {lat lon : Float} (hlat : 0 ≤ lat)
    (hlon : 0 ≤ lon) : (Envelope.around center.coordinates lat lon).Measured := by
  obtain ⟨finite, finite'⟩ := center.isFinite_degrees
  constructor
  · exact (le_iff.1 (sub_le finite hlat)).1
  · exact (le_iff.1 (sub_le finite' hlon)).1
  · exact (le_iff.1 (le_add finite hlat)).2.1
  · exact (le_iff.1 (le_add finite' hlon)).2.1

/-! ## Circles -/

/-- What is not tiny is above zero, if it is a number. -/
theorem pos_of_not_tiny {shrink : Float} (number : shrink.isNaN = false)
    (notTiny : ¬ shrink < Float.ofNat 1 / Float.ofNat 4503599627370496) : 0 < shrink := by
  have tiny : (0 : Float) < Float.ofNat 1 / Float.ofNat 4503599627370496 := by decide +kernel
  by_contra none
  have le : shrink ≤ 0 := le_of_not_lt number (isNaN_of_isFinite isFinite_zero) none
  exact notTiny (lt_of_le_of_lt le tiny)

/-- A latitude in radians is finite. -/
theorem Point.isFinite_radians (p : Point) : (Scalar.radians p.latitude).isFinite = true := by
  obtain ⟨⟨south, north⟩, -⟩ := p.between
  obtain ⟨finite, -⟩ := p.isFinite_degrees
  have ratio : (3.141592653589793 / Float.ofNat 180 : Float).isFinite = true := by decide +kernel
  have less : 0 ≤ value (3.141592653589793 / Float.ofNat 180) ∧
      value (3.141592653589793 / Float.ofNat 180) ≤ 1 := by decide +kernel
  have edges : value (-90) = -90 ∧ value 90 = 90 := by decide +kernel
  rw [le_iff_value (by decide +kernel) finite, edges.1] at south
  rw [le_iff_value finite (by decide +kernel), edges.2] at north
  -- the exact product is at most ninety, so the rounded one does not pass ninety either
  have product := rounded_mul finite ratio
  have low : -90 ≤ Scalar.radians p.latitude :=
    product.above (by decide +kernel) (by rw [edges.1]; nlinarith)
  have high : Scalar.radians p.latitude ≤ 90 :=
    product.below (by decide +kernel) (by rw [edges.2]; nlinarith)
  exact isFinite_of_between (by decide +kernel) (by decide +kernel) low high

/-- The degrees of latitude in a radius are finite and not negative. -/
theorem degrees_of_radius {radius : Float} (finite : radius.isFinite = true)
    (positive : 0 < radius) :
    0 ≤ radius * (Float.ofNat 1 / Float.ofNat 111) ∧
      (radius * (Float.ofNat 1 / Float.ofNat 111)).isFinite = true := by
  have nonneg := le_of_lt positive
  have least : 0 ≤ radius * (Float.ofNat 1 / Float.ofNat 111) :=
    mul_nonneg finite (by decide +kernel) nonneg (by decide +kernel)
  exact ⟨least, isFinite_of_between isFinite_zero finite least
    (mul_le finite (by decide +kernel) nonneg (by decide +kernel))⟩

/-- The approximate envelope of a circle makes a box with the centre in it. -/
theorem Envelope.approximate_toBox [Trigonometry] (center : Point) {radius : Float}
    (finite : radius.isFinite = true) (positive : 0 < radius) :
    ∃ box, (Envelope.approximate center.coordinates radius).toBox = .ok box ∧
      box.contains center = true := by
  obtain ⟨degrees, few⟩ := degrees_of_radius finite positive
  unfold Envelope.approximate
  refine around_toBox center (.inr degrees) ?_
  split_ifs with pole
  · -- at a pole the reach is every longitude
    exact .inr (show (0 : Float) ≤ Float.ofNat 360 by decide +kernel)
  · generalize Scalar.abs (Scalar.cos (Scalar.radians center.coordinates.latitude)) = shrink
      at pole ⊢
    cases number : shrink.isNaN with
    | true => exact .inl (isNaN_div _ number)
    | false =>
      refine .inr (div_nonneg_of_finite few degrees (pos_of_not_tiny number fun tiny => pole ?_))
      exact decide_eq_true tiny

/-- Where the cosine is a number, the edges of the approximate envelope are numbers. -/
theorem Envelope.approximate_measured [Trigonometry]
    (cosine : ∀ x : Float, x.isFinite = true → (Trigonometry.cos x).isNaN = false)
    (center : Point) {radius : Float} (finite : radius.isFinite = true) (positive : 0 < radius) :
    (Envelope.approximate center.coordinates radius).Measured := by
  obtain ⟨degrees, few⟩ := degrees_of_radius finite positive
  have number := isNaN_abs (cosine _ center.isFinite_radians)
  unfold Envelope.approximate
  refine around_measured center degrees ?_
  split_ifs with pole
  · exact show (0 : Float) ≤ Float.ofNat 360 by decide +kernel
  · refine div_nonneg_of_finite few degrees (pos_of_not_tiny number fun tiny => pole ?_)
    exact decide_eq_true tiny

/-- Only a radius that is a number, and not infinite upwards, has its covering envelope within the
globe. -/
theorem Envelope.lt_infinity_of_covering [Trigonometry] (center : Point) {radius : Float}
    (within : (Envelope.covering center.coordinates radius).isWithinGlobe = true) :
    radius < 1 / 0 := by
  unfold Envelope.isWithinGlobe at within
  simp only [Bool.and_eq_true, Scalar.le, decide_eq_true_eq] at within
  obtain ⟨⟨⟨south, -⟩, -⟩, -⟩ := within
  -- the southern edge computes without trigonometry, from no number and from infinity too
  change -90 ≤ center.latitude - (radius / Float.ofNat 6371 * 57.29577951308232 +
    Float.ofNat 1 / Float.ofNat 1000000000) at south
  by_contra beyond
  rcases eq_of_not_lt_infinity beyond with rfl | rfl
  · obtain ⟨-, number, -⟩ := le_iff.1 south
    rw [isNaN_sub _ (by decide +kernel)] at number
    cases number
  · have infinite : (1 / 0 : Float) / Float.ofNat 6371 * 57.29577951308232 +
        Float.ofNat 1 / Float.ofNat 1000000000 = 1 / 0 :=
      eq_of_toBits (by decide +kernel)
    rw [infinite, sub_infinity center.isFinite_degrees.1 rfl] at south
    exact absurd south (by decide +kernel)

end Nearby.Geo
