/-
The search for the nearest branches is a ranking of the whole dataset, whatever its settings are.
The loop over wider and wider circles may stop at any of them, run out of rounds, or leave the
globe at once; each way out answers with the same first hits. The settings decide only how much
is fetched on the way and how long the answer may be.
-/
import Nearby.Proofs.Search.Whole

namespace Nearby.Search

open Geo

section Nearest

variable [Trigonometry]
variable {σ : Type} {source : Source σ} {dataset : List Branch} {ready : σ → Prop}
variable (s : SearchSettings) (origin : Point)

/-! ## The loop -/

theorem hits_some (filter : Filter) (radius : Float) (candidates : List Branch) :
    hits s origin filter (some radius) candidates =
      (hits s origin filter none candidates).filter fun hit => hit.distanceKm ≤ radius := by
  unfold hits
  rw [List.filter_filter]
  simp only [Option.all_some, Option.all_none, Bool.and_true]

theorem scan_yields (serves : source.Serves dataset ready) {limit : Nat} (positive : 1 ≤ limit)
    (filter : Filter) :
    Yields source ready (scan s origin limit filter)
      (.ok (topHits (hits s origin filter none dataset) limit)) := by
  refine yields_ask (eligible_grants serves filter) fun found meets => ?_
  rw [hits_of_meets meets s origin fun b _ held => owes_eligible held, rank_of_pos _ positive]
  exact yields_done _

/-- Every round ends with the first hits of the whole dataset or leaves them to the next: a circle
within the globe is owed all its branches, and these come strictly before all others. -/
theorem widen_yields (serves : source.Serves dataset ready) {limit : Nat} (positive : 1 ≤ limit)
    (filter : Filter) (rounds : Nat) (radius : Float) :
    Yields source ready (widen s origin limit filter rounds radius)
      (.ok (topHits (hits s origin filter none dataset) limit)) := by
  induction rounds generalizing radius with
  | zero => exact scan_yields s origin serves positive filter
  | succ rounds ih =>
    unfold widen
    split
    case isFalse => exact scan_yields s origin serves positive filter
    case isTrue fits =>
      refine yields_ask (serves.circles origin radius) fun found meets => ?_
      -- the circle is owed all its branches, so nothing hinges on what else was fetched
      have near : hits s origin filter (some radius) found =
          hits s origin filter (some radius) dataset :=
        hits_of_meets meets s origin fun b near _ => by
          show (envelopeFits origin radius && b.isNear origin radius) = true
          rw [fits]; exact near
      simp only [near]
      split
      case isFalse => exact ih _
      case isTrue enough =>
        rw [hits_some] at enough ⊢
        rw [rank_of_pos _ positive, topHits_within _ _ enough]
        exact yields_done _

/-! ## The nearest branches -/

theorem topHits_eq_ranking (filter : Filter) (most : Option Float) (limit : Nat)
    (candidates : List Branch) :
    topHits (hits s origin filter most candidates) (min limit (max s.maxResults 1)) =
      ranking s origin limit (fun b => most.all (b.isNear origin ·) && filter.holds b)
        candidates := by
  rw [hits_eq]; rfl

/-- The nearest branches are the first of the whole dataset, for every limit from one on, every
status filter, no set of kinds or any that names one, and all settings. -/
theorem nearest_yields_ranking (serves : source.Serves dataset ready)
    {kinds : Option (List Kind)} (named : kinds ≠ some []) {limit : Nat} (positive : 1 ≤ limit)
    (status : StatusFilter) :
    Yields source ready (nearest s origin kinds limit status)
      (.ok (ranking s origin limit (admitted status kinds) dataset)) := by
  unfold nearest
  rw [checkKinds_ok named, honouredLimit_ok s positive]
  have answer := topHits_eq_ranking s origin ⟨status, kinds, none⟩ none limit dataset
  simp only [Option.all_none, Bool.true_and] at answer
  rw [← holds_eq_admitted named, ← answer]
  exact widen_yields s origin serves (by omega) _ _ _

end Nearest

/-- The first circle holds one of the two branches that are wanted, and the second circle, which is
twice as wide, holds both. -/
theorem nearest_yields_ranking_in_circles :
    let _ : Trigonometry := Sample.flat
    let s : SearchSettings := ⟨2, 50, 2, 3, true⟩
    Source.scanning.Serves Sample.scattered (· = Sample.scattered) ∧
      some [Kind.express] ≠ some [] ∧ 1 ≤ 3 ∧
      (envelopeFits Sample.equator 50 = true ∧ envelopeFits Sample.equator (50 * 2) = true) ∧
      Yields Source.scanning (· = Sample.scattered)
        (nearest s Sample.equator (some [.express]) 3 .activeOnly)
        (.ok (ranking s Sample.equator 3 (admitted .activeOnly (some [.express]))
          Sample.scattered)) ∧
      (ranking s Sample.equator 3 (admitted .activeOnly (some [.express]))
        Sample.scattered).map (·.branch.id) = ["a", "b"] := by
  intro _ s
  have serves := (Source.scanning_serves Sample.scattered).toServes
  have named : some [Kind.express] ≠ some [] := by decide
  refine ⟨serves, named, by decide, by decide +kernel,
    nearest_yields_ranking _ _ serves named (by decide) .activeOnly, ?_⟩
  -- sorting is well-founded recursion, so its one comparison is stated apart
  obtain ⟨b, a, wanted, farther, names⟩ : ∃ b a : Branch,
      Sample.scattered.filter (admitted .activeOnly (some [.express])) = [b, a] ∧
        (Hit.measure Sample.equator true b).notAfter (Hit.measure Sample.equator true a) = false ∧
        [a.id, b.id] = ["a", "b"] :=
    ⟨_, _, rfl, by decide +kernel, rfl⟩
  have measured : ∀ b : Branch, (Hit.measure Sample.equator true b).branch = b := fun _ => rfl
  unfold ranking
  rw [wanted]
  simpa [List.mergeSort, s, farther, measured] using names

end Nearby.Search
