/-
The search within a radius answers with exactly the branches of the dataset inside it, near the
poles and across the antimeridian too. Circles that reach over the edge of the map are read off
the broad fetch and all others off their envelopes, so the way may change while the radius grows;
the answer only gains branches.
-/
import Nearby.Proofs.Search.Whole
import Mathlib.Data.List.Basic

namespace Nearby.Search

open Geo

section Within

variable [Trigonometry]
variable {σ : Type} {source : Source σ} {dataset : List Branch} {ready : σ → Prop}
variable (s : SearchSettings) (origin : Point)

/-! ## Branches in a circle -/

/-- The admitted branches of a dataset at most the radius away from the origin. -/
def inCircle (origin : Point) (radius : Float) (kinds : Option (List Kind))
    (status : StatusFilter) (dataset : List Branch) : List Branch :=
  dataset.filter fun b =>
    admitted status kinds b && distanceKm origin.coordinates b.location.coordinates ≤ radius

/-- A wider circle keeps all branches, in the same order and as often. -/
theorem inCircle_sublist {radius wider : Float} (le : radius ≤ wider)
    (kinds : Option (List Kind)) (status : StatusFilter) (dataset : List Branch) :
    (inCircle origin radius kinds status dataset).Sublist
      (inCircle origin wider kinds status dataset) := by
  apply List.monotone_filter_right
  intro b inside
  rw [Bool.and_eq_true] at inside ⊢
  obtain ⟨admits, near⟩ := inside
  exact ⟨admits, decide_eq_true (Decimal.le_of_le_of_le (of_decide_eq_true near) le)⟩

/-- The branches behind the hits of a circle are those in it. -/
theorem hits_map_branch {kinds : Option (List Kind)} (named : kinds ≠ some []) (radius : Float)
    (status : StatusFilter) (dataset : List Branch) :
    (hits s origin ⟨status, kinds, none⟩ (some radius) dataset).map Hit.branch =
      inCircle origin radius kinds status dataset := by
  rw [hits_eq, List.map_map, holds_eq_admitted named]
  show List.map id _ = _
  rw [List.map_id]
  refine List.filter_congr fun b _ => ?_
  rw [Option.all_some, Bool.and_comm]
  rfl

/-! ## The search -/

theorem within_yields (serves : source.Serves dataset ready) {kinds : Option (List Kind)}
    (named : kinds ≠ some []) {radius : Float} (finite : radius.isFinite = true)
    (positive : 0 < radius) (status : StatusFilter) :
    Yields source ready (within s origin radius kinds status)
      (.ok (inCircle origin radius kinds status dataset)) := by
  unfold within
  rw [checkRadius_ok finite positive, checkKinds_ok named,
    ← hits_map_branch s origin named radius status dataset]
  exact collect_yields serves s origin radius _ fun found => .ok (found.map Hit.branch)

/-- The search within a radius is exact, and whatever a radius finds is found by every greater
one. -/
theorem within_yields_inCircle (serves : source.Serves dataset ready)
    {kinds : Option (List Kind)} (named : kinds ≠ some []) {radius : Float}
    (finite : radius.isFinite = true) (positive : 0 < radius) (status : StatusFilter) :
    Yields source ready (within s origin radius kinds status)
        (.ok (inCircle origin radius kinds status dataset)) ∧
      ∀ wider : Float, wider.isFinite = true → radius ≤ wider → ∃ more,
        Yields source ready (within s origin wider kinds status) (.ok more) ∧
          (inCircle origin radius kinds status dataset).Sublist more := by
  refine ⟨within_yields s origin serves named finite positive status, ?_⟩
  intro wider finite' le
  have positive' : 0 < wider := Decimal.lt_of_lt_of_le positive le
  exact ⟨_, within_yields s origin serves named finite' positive' status,
    inCircle_sublist origin le kinds status dataset⟩

end Within

/-- Around a pole every circle leaves the map. -/
theorem within_yields_inCircle_at_pole :
    Source.scanning.Serves Sample.branches (· = Sample.branches) ∧
      (none : Option (List Kind)) ≠ some [] ∧ (5 : Float).isFinite = true ∧ (0 : Float) < 5 ∧
      Yields Source.scanning (· = Sample.branches) (within {} Sample.pole 5 none .activeOnly)
        (.ok (inCircle Sample.pole 5 none .activeOnly Sample.branches)) := by
  have serves := (Source.scanning_serves Sample.branches).toServes
  have finite : (5 : Float).isFinite = true := by decide +kernel
  have positive : (0 : Float) < 5 := by decide +kernel
  have named : (none : Option (List Kind)) ≠ some [] := by decide
  exact ⟨serves, named, finite, positive,
    (within_yields_inCircle {} _ serves named finite positive .activeOnly).1⟩

end Nearby.Search
