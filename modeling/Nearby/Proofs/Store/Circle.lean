/-
Circles fetched from a store, in exact arithmetic. A finite double is a number, so points are
places on a globe of real coordinates; read there, the answer of a store to the fetch of a circle
keeps every branch in the circle, as long as the envelope that the store goes by stays within the
globe. That is when the searches go by such answers. A store that computes in doubles answers in
the same way unless rounding takes a branch out of the envelope, which the margin is there for.
-/
import Nearby.Proofs.Geo.Covering
import Nearby.Proofs.Geo.Envelope
import Nearby.Proofs.Store.Contract
import Nearby.Proofs.Store.Session

namespace Nearby

open Geo

/-! ## Points as places -/

/-- The place that a point stands for. -/
noncomputable def Geo.Point.place (p : Point) : Coordinates ℝ :=
  ⟨(Decimal.value p.latitude : ℚ), (Decimal.value p.longitude : ℚ)⟩

theorem Geo.Point.place_onGlobe (p : Point) : p.place.onGlobe = true := by
  obtain ⟨⟨south, north⟩, west, east⟩ := p.between
  obtain ⟨finite, finite'⟩ := p.isFinite_degrees
  have edges : Decimal.value (-90) = -90 ∧ Decimal.value 90 = 90 ∧
      Decimal.value (-180) = -180 ∧ Decimal.value 180 = 180 := by decide +kernel
  obtain ⟨minLat, maxLat, minLon, maxLon⟩ := edges
  rw [Decimal.le_iff_value (by decide +kernel) finite, minLat] at south
  rw [Decimal.le_iff_value finite (by decide +kernel), maxLat] at north
  rw [Decimal.le_iff_value (by decide +kernel) finite', minLon] at west
  rw [Decimal.le_iff_value finite' (by decide +kernel), maxLon] at east
  refine onGlobe_iff.2 ⟨⟨?_, ?_⟩, ?_, ?_⟩
  · show (-90 : ℝ) ≤ (Decimal.value p.latitude : ℚ)
    exact_mod_cast south
  · show ((Decimal.value p.latitude : ℚ) : ℝ) ≤ 90
    exact_mod_cast north
  · show (-180 : ℝ) ≤ (Decimal.value p.longitude : ℚ)
    exact_mod_cast west
  · show ((Decimal.value p.longitude : ℚ) : ℝ) ≤ 180
    exact_mod_cast east

/-! ## Circles -/

/-- The branch is in the circle. -/
noncomputable def Branch.isInCircle (b : Branch) (origin : Point) (radius : ℝ) : Bool :=
  decide (distanceKm origin.place b.location.place ≤ radius)

/-- The branch belongs to what is fetched for the circle. -/
noncomputable def Branch.isCovered (b : Branch) (origin : Point) (radius : ℝ) : Bool :=
  (Envelope.covering origin.place radius).contains b.location.place

/-- What keeps every branch in the covering envelope, or more, keeps every branch in the circle, as
long as the envelope stays within the globe. -/
theorem retains_circle {radius : ℝ} {origin : Point}
    (fits : (Envelope.covering origin.place radius).isWithinGlobe = true) {dataset : List Branch}
    {keep : Branch → Bool}
    (outward : ∀ b ∈ dataset, b.isCovered origin radius = true → keep b = true) :
    Retains (fun b => b.isInCircle origin radius) (dataset.filter keep) dataset := by
  refine .of_filter fun b mem inside => outward b mem ?_
  exact covering_contains origin.place_onGlobe b.location.place_onGlobe fits
    (of_decide_eq_true inside)

/-- The source answers the fetch of a circle with a part of the dataset that leaves out no branch
in the circle. -/
def Source.HoldsCircle {σ : Type} (source : Source σ) (state : σ) (dataset : List Branch)
    (origin : Point) (amount : Float) (radius : ℝ) : Prop :=
  ∃ found after, source.fetch (.approximate origin amount) state = (.ok found, after) ∧
    Retains (fun b => b.isInCircle origin radius) found dataset

theorem Cache.holdsCircle [Trigonometry] {σ : Type} {inner : Source σ} {c : Cache σ}
    {dataset : List Branch} (loaded : (load inner c).1 = .ok dataset) {origin : Point}
    {amount : Float} {radius : ℝ}
    (retains : Retains (fun b => b.isInCircle origin radius)
      (dataset.filter (Fetch.approximate origin amount).admits) dataset) :
    (source inner).HoldsCircle c dataset origin amount radius := by
  refine ⟨dataset.filter (Fetch.approximate origin amount).admits, (load inner c).2, ?_, retains⟩
  rw [fetch_eq, loaded]
  rfl

/-! ## A circle of thirty degrees -/

namespace Sample

/-- The place on the equator thirty degrees to the east. -/
def east : Point := ⟨⟨0, 30⟩, by decide +kernel⟩

theorem place_equator : equator.place = ⟨0, 0⟩ := by
  show (⟨(Decimal.value 0 : ℚ), (Decimal.value 0 : ℚ)⟩ : Coordinates ℝ) = ⟨0, 0⟩
  rw [Decimal.value_zero, Rat.cast_zero]

theorem place_east : east.place = ⟨0, 30⟩ := by
  have thirty : Decimal.value 30 = 30 := by decide +kernel
  show (⟨(Decimal.value 0 : ℚ), (Decimal.value 30 : ℚ)⟩ : Coordinates ℝ) = ⟨0, 30⟩
  rw [Decimal.value_zero, thirty, Rat.cast_zero, Rat.cast_ofNat]

/-- Thirty degrees in kilometres. -/
noncomputable def radius : ℝ := 6371 * (Real.pi / 6)

theorem radius_div : radius / 6371 = Real.pi / 6 := mul_div_cancel_left₀ _ (by norm_num)

theorem reaches : latitudeReach radius = 30 + 1 / 1000000000 ∧
    longitudeReach 0 radius = 30 + 1 / 1000000000 := by
  have degrees : Real.pi / 6 * (180 / Real.pi) = 30 := by
    field_simp
    norm_num
  have half : Real.arcsin (1 / 2) = Real.pi / 6 := by
    rw [← Real.sin_pi_div_six]
    exact Real.arcsin_sin (by linarith [Real.pi_pos]) (by linarith [Real.pi_pos])
  have atEquator : Real.cos (Scalar.radians 0) = 1 := by rw [radians_zero, Real.cos_zero]
  unfold latitudeReach longitudeReach
  rw [radius_div, degrees, atEquator, div_one, Real.sin_pi_div_six, min_eq_left (by norm_num),
    half, degrees]
  exact ⟨rfl, rfl⟩

theorem fits : (Envelope.covering equator.place radius).isWithinGlobe = true := by
  obtain ⟨tall, wide⟩ := reaches
  rw [place_equator, covering_of_clear (by rw [tall]; norm_num), tall, wide]
  exact isWithinGlobe_iff.2 (by norm_num [Envelope.around])

theorem east_near : distanceKm equator.place east.place ≤ radius := by
  obtain ⟨angle, nonneg, most, distance, cosine⟩ :=
    distance_angle equator.place_onGlobe east.place_onGlobe
  have turned : Scalar.radians ((30 : ℝ) - 0) = Real.pi / 6 := by
    rw [radians_eq]
    ring
  have same : Real.cos angle = Real.cos (Real.pi / 6) := by
    rw [cosine, place_equator, place_east, turned, radians_zero]
    unfold cosineBetween
    rw [Real.sin_zero, Real.cos_zero]
    ring
  have equal := Real.injOn_cos ⟨nonneg, most⟩
    ⟨by linarith [Real.pi_pos], by linarith [Real.pi_pos]⟩ same
  rw [distance, equal]
  exact le_rfl

/-- A branch at the centre of the circle and one on its edge. -/
def alongEquator : Memory :=
  ⟨[branch "a" equator .express .active, branch "e" east .premium .planned], by decide⟩

/-- What the functions of trigonometry come to in doubles where this circle needs them. -/
@[reducible]
def tables : Trigonometry :=
  ⟨fun _ => 0.49999999999999994, fun _ => 1, fun _ => 0.5235987755982988, Float.atan2⟩

theorem tables_admit : ∀ b ∈ alongEquator.branches,
    @Fetch.admits tables (.approximate equator 3335.847799336762) b = true := by
  decide +kernel

end Sample

/-! ## Fetching circles -/

/-- Within the globe the covering envelope of a circle holds every place in the circle, so what is
kept of a dataset for the fetch of the circle leaves out no branch in it, and gives the same
branches of the circle as the whole dataset does. The stores that filter a dataset in doubles
answer in this way, as long as rounding moves no branch out of the envelope. -/
theorem covering_holds_circle (radius : ℝ) :
    (∀ center place : Coordinates ℝ, center.onGlobe = true → place.onGlobe = true →
      (Envelope.covering center radius).isWithinGlobe = true → distanceKm center place ≤ radius →
        (Envelope.covering center radius).contains place = true) ∧
    ∀ (dataset : List Branch) (origin : Point),
      (Envelope.covering origin.place radius).isWithinGlobe = true →
      (let kept := dataset.filter fun b => b.isCovered origin radius
       Retains (fun b => b.isInCircle origin radius) kept dataset ∧
         (kept.filter fun b => b.isInCircle origin radius) =
           dataset.filter fun b => b.isInCircle origin radius) ∧
      ∀ [Trigonometry] (amount : Float),
        (∀ b ∈ dataset, b.isCovered origin radius = true →
          (Fetch.approximate origin amount).admits b = true) →
        (∀ m : Memory, m.branches = dataset →
          Memory.source.HoldsCircle m dataset origin amount radius) ∧
        ∀ {σ : Type} (inner : Source σ) (c : Cache σ), (Cache.load inner c).1 = .ok dataset →
          (Cache.source inner).HoldsCircle c dataset origin amount radius := by
  constructor
  · intro center place onGlobe onGlobe' fits near
    exact covering_contains onGlobe onGlobe' fits near
  · intro dataset origin fits
    constructor
    · have retains := retains_circle fits fun b (_ : b ∈ dataset) covered => covered
      exact ⟨retains, retains.filter_eq⟩
    · intro trigonometry amount outward
      have retains := retains_circle fits outward
      refine ⟨?_, fun inner c loaded => Cache.holdsCircle loaded retains⟩
      rintro m rfl
      exact ⟨_, _, rfl, retains⟩

/-- A branch on the edge of a circle of thirty degrees is in the covering envelope, and so is in
the answers of a dataset in memory and of a cache. -/
theorem covering_holds_circle_of_thirty_degrees :
    let dataset := Sample.alongEquator.branches
    Sample.equator.place.onGlobe = true ∧ Sample.east.place.onGlobe = true ∧
      (Envelope.covering Sample.equator.place Sample.radius).isWithinGlobe = true ∧
      distanceKm Sample.equator.place Sample.east.place ≤ Sample.radius ∧
      (Envelope.covering Sample.equator.place Sample.radius).contains Sample.east.place = true ∧
      Retains (fun b => b.isInCircle Sample.equator Sample.radius)
        (dataset.filter fun b => b.isCovered Sample.equator Sample.radius) dataset ∧
      (@Memory.source Sample.tables).HoldsCircle Sample.alongEquator dataset Sample.equator
        3335.847799336762 Sample.radius ∧
      (@Cache.source _ Sample.tables Source.scanning).HoldsCircle ⟨dataset, none, 0, 0⟩ dataset
        Sample.equator 3335.847799336762 Sample.radius := by
  intro dataset
  have onGlobe := Sample.equator.place_onGlobe
  have onGlobe' := Sample.east.place_onGlobe
  have outward : ∀ b ∈ dataset, b.isCovered Sample.equator Sample.radius = true →
      @Fetch.admits Sample.tables (.approximate Sample.equator 3335.847799336762) b = true :=
    fun b mem _ => Sample.tables_admit b mem
  obtain ⟨covers, keeps⟩ := covering_holds_circle Sample.radius
  obtain ⟨⟨retains, -⟩, stores⟩ := keeps dataset Sample.equator Sample.fits
  obtain ⟨memory, cache⟩ := @stores Sample.tables 3335.847799336762 outward
  exact ⟨onGlobe, onGlobe', Sample.fits, Sample.east_near,
    covers _ _ onGlobe onGlobe' Sample.fits Sample.east_near, retains,
    memory Sample.alongEquator rfl, cache Source.scanning ⟨dataset, none, 0, 0⟩ rfl⟩

end Nearby
