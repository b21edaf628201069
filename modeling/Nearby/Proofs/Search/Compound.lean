/-
The search under several filters at once is a ranking of the branches of the whole dataset that
satisfy all of them. A query with a radius fetches a circle, one with only a box fetches the box,
and one with neither widens its circles; the three ways differ in what they fetch, never in their
answers.
-/
import Nearby.Proofs.Search.Nearest

namespace Nearby

open Geo

/-! ## Queries that may be asked -/

/-- The query asks for something, within a true radius, of some kind and in a box whose corners
are the right way round. -/
structure Query.Valid (q : Query) : Prop where
  limit : 1 ≤ q.limit
  radius : ∀ radius ∈ q.radius, radius.isFinite = true ∧ 0 < radius
  kinds : q.kinds ≠ some []
  box : ∀ box ∈ q.box, ¬ box.northEast.latitude < box.southWest.latitude ∧
    ¬ box.northEast.longitude < box.southWest.longitude

/-- The branch satisfies every filter of the query. -/
def Query.wants [Trigonometry] (q : Query) (b : Branch) : Bool :=
  Search.admitted q.status q.kinds b && q.box.all (·.contains b.location) &&
    q.radius.all (b.isNear q.origin ·)

/-- All filters are required at once, and an absent one requires nothing. -/
theorem Query.wants_iff [Trigonometry] {q : Query} {b : Branch} :
    q.wants b = true ↔ q.status.allows b.status = true ∧ (∀ kinds ∈ q.kinds, b.kind ∈ kinds) ∧
      (∀ box ∈ q.box, box.contains b.location = true) ∧
      ∀ radius ∈ q.radius, distanceKm q.origin.coordinates b.location.coordinates ≤ radius := by
  unfold Query.wants Search.admitted Branch.isNear
  simp only [Bool.and_eq_true, Option.all_eq_true, List.contains_iff_mem, decide_eq_true_eq,
    and_assoc, Option.mem_def]

namespace Search

/-! ## Checks -/

theorem checkOptional_ok {α : Type} {check : α → Except Fault α} {value : Option α}
    (passes : ∀ a ∈ value, check a = .ok a) : checkOptional check value = .ok value := by
  cases value with
  | none => rfl
  | some a => show (check a).map some = _; rw [passes a rfl]; rfl

theorem boxCheck_ok {box : Box} (lat : ¬ box.northEast.latitude < box.southWest.latitude)
    (lon : ¬ box.northEast.longitude < box.southWest.longitude) : box.check = .ok box := by
  unfold Box.check
  exact (if_neg lat).trans (if_neg lon)

/-! ## The three ways -/

section Matching

variable [Trigonometry]
variable {σ : Type} {source : Source σ} {dataset : List Branch} {ready : σ → Prop}
variable (s : SearchSettings)

theorem holds_eq_wants {q : Query} (named : q.kinds ≠ some []) (b : Branch) :
    (q.radius.all (b.isNear q.origin ·) && q.filter.holds b) = q.wants b := by
  unfold Filter.holds Query.wants admitted
  rw [matchesKind_eq (f := q.filter) named, Bool.and_comm]
  rfl

/-- A box is owed every branch that a filter with this box lets through. -/
theorem owes_box {filter : Filter} {box : Box} (bounded : filter.box = some box) {b : Branch}
    (held : filter.holds b = true) : (Fetch.box box).owes b = true := by
  unfold Filter.holds Filter.matchesBox at held
  rw [bounded] at held
  exact ((Bool.and_eq_true _ _).mp held).2

theorem ranked_yields (serves : source.ServesBoxes dataset ready) (origin : Point) {limit : Nat}
    (positive : 1 ≤ limit) {filter : Filter} {box : Box} (bounded : filter.box = some box) :
    Yields source ready (ranked s origin limit filter box)
      (.ok (topHits (hits s origin filter none dataset) limit)) := by
  refine yields_ask (serves.boxes box) fun found meets => ?_
  rw [hits_of_meets meets s origin fun b _ held => owes_box bounded held,
    rank_of_pos _ positive]
  exact yields_done _

/-- Whichever way a query goes, it ends with the first hits of the whole dataset. -/
theorem matching_yields (serves : source.ServesBoxes dataset ready) {q : Query} (valid : q.Valid) :
    Yields source ready (matching s q)
      (.ok (topHits (hits s q.origin q.filter q.radius dataset)
        (min q.limit (max s.maxResults 1)))) := by
  have positive : 1 ≤ min q.limit (max s.maxResults 1) := by have := valid.limit; omega
  unfold matching
  rw [honouredLimit_ok s valid.limit, checkKinds_ok valid.kinds,
    checkOptional_ok fun radius asked => checkRadius_ok (valid.radius radius asked).1
      (valid.radius radius asked).2,
    checkOptional_ok fun box asked => boxCheck_ok (valid.box box asked).1 (valid.box box asked).2]
  simp only [require]
  split
  case h_1 radius asked =>
    -- a box beside a radius is only a filter
    rw [asked, ← rank_of_pos _ positive]
    exact collect_yields serves.toServes s q.origin radius q.filter fun found => rank found _
  case h_2 box unasked asked =>
    rw [unasked]
    exact ranked_yields s serves q.origin positive asked
  case h_3 unasked _ =>
    rw [unasked]
    exact widen_yields s q.origin serves.toServes positive _ _ _

/-! ## The compound search -/

/-- A compound search is the ranking of the branches of the whole dataset that satisfy all its
filters, each with its distance from the origin and, if the settings say so, its bearing. -/
theorem matching_yields_ranking (serves : source.ServesBoxes dataset ready) {q : Query}
    (valid : q.Valid) :
    Yields source ready (matching s q) (.ok (ranking s q.origin q.limit q.wants dataset)) ∧
      ∀ hit ∈ ranking s q.origin q.limit q.wants dataset,
        hit.distanceKm = distanceKm q.origin.coordinates hit.branch.location.coordinates ∧
        hit.bearingDegrees = if s.bearing then
          some (bearingDegrees q.origin.coordinates hit.branch.location.coordinates) else none := by
  constructor
  · have answer := topHits_eq_ranking s q.origin q.filter q.radius q.limit dataset
    rw [← funext fun b => holds_eq_wants valid.kinds b, ← answer]
    exact matching_yields s serves valid
  · intro hit ranked
    obtain ⟨b, -, rfl⟩ := measured_of_mem_ranking ranked
    exact ⟨rfl, rfl⟩

end Matching

/-- A query with every filter at once, in a box that is a single point. -/
theorem matching_yields_ranking_in_point :
    let q : Query := { origin := Sample.equator, limit := 2, radius := some 100,
                       kinds := some [.express], box := some ⟨Sample.equator, Sample.equator⟩ }
    Source.scanning.ServesBoxes Sample.branches (· = Sample.branches) ∧ q.Valid ∧
      Yields Source.scanning (· = Sample.branches) (matching {} q)
        (.ok (ranking {} Sample.equator 2 q.wants Sample.branches)) := by
  intro q
  have serves := Source.scanning_serves Sample.branches
  have valid : q.Valid := by
    refine ⟨by decide, ?_, by decide, ?_⟩
    · rintro radius ⟨⟩
      decide +kernel
    · rintro box ⟨⟩
      decide +kernel
  exact ⟨serves, valid, (matching_yields_ranking {} serves valid).1⟩

end Search

end Nearby
