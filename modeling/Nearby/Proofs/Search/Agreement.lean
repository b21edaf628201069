/-
The two tests of a radius agree. The filter measures from the branch to the centre and the search
from the centre to the branch, and the distances either way are one and the same double: what the
swap changes in the haversine is at most a sign, and the squares drop it. So a branch on the very
rim of a circle is inside for both tests or for neither.
-/
import Nearby.Proofs.Decimal.Sign
import Nearby.Proofs.Search.Failure

namespace Nearby

open Geo

/-! ## Distances both ways -/

namespace Geo

section Distance

variable [Trigonometry]

theorem Coordinates.same_comm (a b : Coordinates Float) : a.same b = b.same a := by
  unfold Coordinates.same
  exact congrArg₂ and BEq.comm BEq.comm

variable (odd : ∀ x : Float, (Trigonometry.sin (-x)).abs = (Trigonometry.sin x).abs)
include odd

/-- The squared sine of half an angle is that of the negative angle, bit for bit. -/
theorem squared_sin_half {x y : Float} (same : x.abs = y.abs) :
    Scalar.squared (Scalar.sin (x / 2)) = Scalar.squared (Scalar.sin (y / 2)) := by
  have halves : (x / 2).abs = (y / 2).abs := Decimal.abs_quotient same 2
  refine Decimal.square_eq ?_
  rcases Decimal.eq_or_eq_neg halves with equal | opposite
  · rw [equal]
  · rw [opposite]
    exact odd _

theorem haversine_comm (a b : Coordinates Float) : haversine a b = haversine b a := by
  have tall : (Scalar.radians b.latitude - Scalar.radians a.latitude).abs =
      (Scalar.radians a.latitude - Scalar.radians b.latitude).abs := Decimal.abs_difference _ _
  have wide : (Scalar.radians (b.longitude - a.longitude)).abs =
      (Scalar.radians (a.longitude - b.longitude)).abs :=
    Decimal.abs_product (Decimal.abs_difference _ _) _
  have shrunk : Scalar.cos (Scalar.radians a.latitude) * Scalar.cos (Scalar.radians b.latitude) =
      Scalar.cos (Scalar.radians b.latitude) * Scalar.cos (Scalar.radians a.latitude) :=
    Decimal.product_comm _ _
  unfold haversine
  dsimp only
  rw [squared_sin_half odd tall, squared_sin_half odd wide, shrunk]

/-- The distance is the same double either way. -/
theorem distanceKm_comm (a b : Coordinates Float) : distanceKm a b = distanceKm b a := by
  unfold distanceKm
  rw [Coordinates.same_comm, haversine_comm odd]

end Distance

end Geo

/-! ## The two tests -/

namespace Search

/-- The filter accepts what is near enough, for a true radius. -/
theorem withinRadius_iff [Trigonometry] {point center : Point} {radius : Float} :
    withinRadius point center radius = .ok true ↔ (radius.isFinite = true ∧ 0 < radius) ∧
      distanceKm point.coordinates center.coordinates ≤ radius := by
  unfold withinRadius
  rcases decides_radius radius with ⟨valid, passed⟩ | ⟨invalid, flaw, refused⟩
  · rw [passed]
    simp [Except.map, valid]
  · rw [refused]
    simp [Except.map, invalid]

/-- The cut of a search keeps a branch that its filter lets through if it is near enough. -/
theorem measure_mem_hits_iff [Trigonometry] {s : SearchSettings} {origin : Point}
    {filter : Filter} {radius : Float} {candidates : List Branch} {b : Branch}
    (mem : b ∈ candidates) (held : filter.holds b = true) :
    Hit.measure origin s.bearing b ∈ hits s origin filter (some radius) candidates ↔
      distanceKm origin.coordinates b.location.coordinates ≤ radius := by
  have measured : Hit.measure origin s.bearing b ∈
      (candidates.filter filter.holds).map (Hit.measure origin s.bearing) :=
    List.mem_map_of_mem (List.mem_filter.2 ⟨mem, held⟩)
  unfold hits
  rw [List.mem_filter, Option.all_some, decide_eq_true_iff]
  exact and_iff_right measured

/-- Distances are the same double either way, so the filter by radius accepts the place of a branch
exactly if the radius is a true one and the cut of a search keeps the branch; and any other radius
the two refuse with the same fault, the search before there is anything to cut. Of the sine it
takes no more than that the sign of its argument is, at most, the sign of its value. -/
theorem radius_tests_agree [Trigonometry]
    (odd : ∀ x : Float, (Trigonometry.sin (-x)).abs = (Trigonometry.sin x).abs) :
    (∀ a b : Point,
      distanceKm a.coordinates b.coordinates = distanceKm b.coordinates a.coordinates) ∧
    (∀ (s : SearchSettings) (filter : Filter) (candidates : List Branch) (center : Point)
      (radius : Float), ∀ b ∈ candidates, filter.holds b = true →
      (withinRadius b.location center radius = .ok true ↔ (radius.isFinite = true ∧ 0 < radius) ∧
        Hit.measure center s.bearing b ∈ hits s center filter (some radius) candidates)) ∧
    ∀ (s : SearchSettings) (point center : Point) (radius : Float) (kinds : Option (List Kind))
      (status : StatusFilter), ¬ (radius.isFinite = true ∧ 0 < radius) →
      ∃ fault, withinRadius point center radius = .error fault ∧
        within s center radius kinds status = .done (.error fault) := by
  refine ⟨fun a b => distanceKm_comm odd _ _, ?_, ?_⟩
  · intro s filter candidates center radius b mem held
    rw [withinRadius_iff, measure_mem_hits_iff mem held, distanceKm_comm odd]
  · intro s point center radius kinds status untrue
    rcases decides_radius radius with ⟨valid, -⟩ | ⟨-, flaw, refused⟩
    · exact absurd valid untrue
    · unfold withinRadius within
      rw [refused]
      exact ⟨.invalidQuery flaw, rfl, rfl⟩

/-- A place some tenths of a millimetre away, at angles so small that they are their own sines. The
first radius is the distance itself, and the second is the double before it. -/
theorem radius_tests_agree_on_rim :
    let tables : Trigonometry := ⟨id, fun _ => 1, id, fun y _ => y⟩
    let b := Sample.branch "b" ⟨⟨1e-9, 2e-9⟩, by decide +kernel⟩ .express .active
    (∀ x : Float, (tables.sin (-x)).abs = (tables.sin x).abs) ∧
      b ∈ [b] ∧ Filter.holds {} b = true ∧
      @withinRadius tables b.location Sample.equator 2.48639414730336e-07 = .ok true ∧
      @Hit.measure tables Sample.equator false b ∈
        @hits tables {} Sample.equator {} (some 2.48639414730336e-07) [b] ∧
      @withinRadius tables b.location Sample.equator 2.486394147303359e-07 ≠ .ok true ∧
      @Hit.measure tables Sample.equator false b ∉
        @hits tables {} Sample.equator {} (some 2.486394147303359e-07) [b] := by
  intro tables b
  have odd : ∀ x : Float, (tables.sin (-x)).abs = (tables.sin x).abs := Decimal.abs_opposite
  have mem : b ∈ [b] := List.mem_singleton_self b
  have held : Filter.holds {} b = true := rfl
  have agree := fun radius =>
    (@radius_tests_agree tables odd).2.1 {} {} [b] Sample.equator radius b mem held
  have accepted :
      @withinRadius tables b.location Sample.equator 2.48639414730336e-07 = .ok true := by
    rw [@withinRadius_iff tables]
    decide +kernel
  have refused :
      @withinRadius tables b.location Sample.equator 2.486394147303359e-07 ≠ .ok true := by
    rw [Ne, @withinRadius_iff tables]
    decide +kernel
  exact ⟨odd, mem, held, accepted, ((agree _).1 accepted).2, refused,
    fun kept => refused ((agree _).2 ⟨by decide +kernel, kept⟩)⟩

end Search

end Nearby
