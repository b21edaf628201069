/-
The searches in a box and in an approximate radius are exact filters of the whole dataset. The
approximate radius goes the long way, from an envelope over a box on the globe to the fetch of
the box; nothing is lost or gained on it, near the poles and across the antimeridian too.
-/
import Nearby.Proofs.Geo.Envelope
import Nearby.Proofs.Search.Compound

namespace Nearby.Search

open Geo

section Boxes

variable {σ : Type} {source : Source σ} {dataset : List Branch} {ready : σ → Prop}

/-! ## Boxes -/

/-- The branches of a dataset with an admitted status, at places with the property. -/
def located (status : StatusFilter) (inside : Point → Bool) (dataset : List Branch) :
    List Branch :=
  dataset.filter fun b => status.allows b.status && inside b.location

theorem holds_of_box (status : StatusFilter) (box : Box) (b : Branch) :
    Filter.holds ⟨status, none, some box⟩ b =
      (status.allows b.status && box.contains b.location) := by
  simp [Filter.holds, Filter.matchesStatus, Filter.matchesKind, Filter.matchesBox]

theorem inBox_yields (boxes : ∀ bounds, source.Grants dataset ready (.box bounds)) {box : Box}
    (checked : box.check = .ok box) (status : StatusFilter) :
    Yields source ready (inBox box status) (.ok (located status box.contains dataset)) := by
  unfold inBox
  rw [checked]
  refine yields_ask (boxes box) fun found meets => ?_
  rw [meets.filter_of_owes fun b held => owes_box rfl held]
  simp only [holds_of_box]
  exact yields_done _

/-! ## Approximate radii -/

/-- The way from an envelope to the fetch of a box leads to the branches in the envelope. -/
theorem inApproximateRadius_yields [Trigonometry]
    (cosine : ∀ x : Float, x.isFinite = true → (Trigonometry.cos x).isNaN = false)
    (boxes : ∀ bounds, source.Grants dataset ready (.box bounds)) (origin : Point) {radius : Float}
    (finite : radius.isFinite = true) (positive : 0 < radius) (status : StatusFilter) :
    Yields source ready (inApproximateRadius origin radius status)
      (.ok (located status (fun p =>
        (Envelope.approximate origin.coordinates radius).contains p.coordinates) dataset)) := by
  obtain ⟨box, made, holds⟩ := Envelope.approximate_toBox origin finite positive
  have measured := Envelope.approximate_measured cosine origin finite positive
  have same : box.contains = fun p : Point =>
      (Envelope.approximate origin.coordinates radius).contains p.coordinates :=
    funext (Envelope.toBox_contains measured made)
  unfold inApproximateRadius
  rw [checkRadius_ok finite positive, ← same]
  show Yields source ready (require (Envelope.approximate origin.coordinates radius).toBox _) _
  rw [made]
  exact inBox_yields boxes (Box.check_of_contains holds) status

/-- On a source that grants boxes, a search in a box or in an approximate radius answers with
exactly the eligible branches of the dataset in the box, or in the envelope, in their order. Of
the cosine it takes no more than that it makes a number of every finite one. -/
theorem boxes_yield_located [Trigonometry]
    (cosine : ∀ x : Float, x.isFinite = true → (Trigonometry.cos x).isNaN = false)
    (boxes : ∀ bounds, source.Grants dataset ready (.box bounds)) (status : StatusFilter) :
    (∀ box : Box, ¬ box.northEast.latitude < box.southWest.latitude →
      ¬ box.northEast.longitude < box.southWest.longitude →
      Yields source ready (inBox box status) (.ok (located status box.contains dataset))) ∧
    ∀ (origin : Point) (radius : Float), radius.isFinite = true → 0 < radius →
      Yields source ready (inApproximateRadius origin radius status)
        (.ok (located status (fun p =>
          (Envelope.approximate origin.coordinates radius).contains p.coordinates) dataset)) := by
  constructor
  · intro box south west
    exact inBox_yields boxes (boxCheck_ok south west) status
  · intro origin radius finite positive
    exact inApproximateRadius_yields cosine boxes origin finite positive status

/-- Around a pole, where the cosine of the latitude is tiny, the envelope takes every longitude. -/
theorem boxes_yield_located_at_pole :
    let tables : Trigonometry :=
      ⟨Float.sin, fun _ => 6.123233995736766e-17, Float.asin, Float.atan2⟩
    let envelope := @Envelope.approximate Float (@instScalarFloatOfTrigonometry tables)
      Sample.pole.coordinates 12000
    (∀ x : Float, x.isFinite = true → (tables.cos x).isNaN = false) ∧
      (∀ bounds, Source.scanning.Grants Sample.branches (· = Sample.branches) (.box bounds)) ∧
      Yields Source.scanning (· = Sample.branches)
        (@inApproximateRadius tables Sample.pole 12000 .any)
        (.ok (located .any (fun p => envelope.contains p.coordinates) Sample.branches)) ∧
      (located .any (fun p => envelope.contains p.coordinates) Sample.branches).map (·.id) =
        ["b", "c", "a", "d"] := by
  intro tables envelope
  have cosine : ∀ x : Float, x.isFinite = true → (tables.cos x).isNaN = false := by
    intro x _
    show (6.123233995736766e-17 : Float).isNaN = false
    decide +kernel
  have boxes := (Source.scanning_serves Sample.branches).boxes
  exact ⟨cosine, boxes, (@boxes_yield_located _ _ _ _ tables cosine boxes .any).2 Sample.pole 12000
    (by decide +kernel) (by decide +kernel), by decide +kernel⟩

end Boxes

end Nearby.Search
