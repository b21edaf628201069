/-
Answers read off the whole dataset, and what it takes for a search to arrive at them. A search
measures and filters again whatever it fetched, so its hits are those of the whole dataset as soon
as the fetch was owed every branch that it wants.
-/
import Nearby.Proofs.Decimal.Arithmetic
import Nearby.Proofs.Ranking
import Nearby.Proofs.Store.Contract

namespace Nearby.Search

open Geo

/-! ## Answers from the whole dataset -/

/-- The branch has an admitted status and is of one of the kinds, if any are given. -/
def admitted (status : StatusFilter) (kinds : Option (List Kind)) (b : Branch) : Bool :=
  status.allows b.status && kinds.all (·.contains b.kind)

/-- The wanted branches of a dataset, measured, in a stable order of hits, and no more of them
than are asked for and honoured. -/
def ranking [Trigonometry] (s : SearchSettings) (origin : Point) (limit : Nat) (wanted : Branch → Bool)
    (dataset : List Branch) : List Hit :=
  (((dataset.filter wanted).map (Hit.measure origin s.bearing)).mergeSort Hit.notAfter).take
    (min limit (max s.maxResults 1))

/-- What is ranked is measured from the wanted branches of the dataset. -/
theorem measured_of_mem_ranking [Trigonometry] {s : SearchSettings} {origin : Point}
    {limit : Nat} {wanted : Branch → Bool} {dataset : List Branch} {hit : Hit}
    (ranked : hit ∈ ranking s origin limit wanted dataset) :
    ∃ b, (b ∈ dataset ∧ wanted b = true) ∧ hit = Hit.measure origin s.bearing b := by
  unfold ranking at ranked
  have sorted := List.mem_mergeSort.1 (List.mem_of_mem_take ranked)
  obtain ⟨b, kept, rfl⟩ := List.mem_map.1 sorted
  exact ⟨b, List.mem_filter.1 kept, rfl⟩

/-! ## Searches on a source -/

section Yields

variable {α σ : Type} {source : Source σ} {dataset : List Branch} {ready : σ → Prop}

/-- From every ready state the search ends with the answer, and it leaves the source ready. -/
def Yields (source : Source σ) (ready : σ → Prop) (search : Search α)
    (answer : Except Fault α) : Prop :=
  ∀ state, ready state → ∃ state', search.run source state = (answer, state') ∧ ready state'

theorem yields_done (answer : Except Fault α) : Yields source ready (done answer) answer :=
  fun state start => ⟨state, rfl, start⟩

/-- A search yields what it goes on to yield after every answer that its fetch may get. -/
theorem yields_ask [Trigonometry] {fetch : Fetch} {next : List Branch → Search α} {answer : Except Fault α}
    (grants : source.Grants dataset ready fetch)
    (goesOn : ∀ found, fetch.Meets dataset found → Yields source ready (next found) answer) :
    Yields source ready (ask fetch next) answer := by
  intro state start
  obtain ⟨found, state', answered, meets, start'⟩ := grants state start
  obtain ⟨state'', ended, start''⟩ := goesOn found meets state' start'
  refine ⟨state'', ?_, start''⟩
  simp only [run, answered]
  exact ended

end Yields

/-! ## Checks -/

theorem checkKinds_ok {kinds : Option (List Kind)} (named : kinds ≠ some []) :
    checkOptional checkKinds kinds = .ok kinds := by
  match kinds with
  | none => rfl
  | some [] => exact absurd rfl named
  | some (kind :: rest) => rfl

theorem checkRadius_ok {radius : Float} (finite : radius.isFinite = true) (positive : 0 < radius) :
    checkRadius radius = .ok radius :=
  if_neg fun refused =>
    (Decimal.not_finite_or_le_iff (Decimal.lt_iff.1 positive).1).1 refused ⟨finite, positive⟩

theorem checkRadius_refused {radius : Float} (untrue : ¬ (radius.isFinite = true ∧ 0 < radius)) :
    checkRadius radius = .error (.invalidQuery (.badRadius radius)) :=
  if_pos ((Decimal.not_finite_or_le_iff (Decimal.isNaN_of_isFinite Decimal.isFinite_zero)).2 untrue)

theorem honouredLimit_ok (s : SearchSettings) {limit : Nat} (positive : 1 ≤ limit) :
    honouredLimit s limit = .ok (min limit (max s.maxResults 1)) := by
  unfold honouredLimit checkLimit
  rw [if_neg (by omega)]; rfl

/-! ## Hits -/

/-- A set of kinds that names one lets through what it contains. -/
theorem matchesKind_eq {f : Filter} (named : f.kinds ≠ some []) (b : Branch) :
    f.matchesKind b = f.kinds.all (·.contains b.kind) := by
  unfold Filter.matchesKind
  match h : f.kinds with
  | none => rfl
  | some [] => exact absurd h named
  | some (kind :: rest) => rfl

/-- Without a box, a filter lets through what is admitted. -/
theorem holds_eq_admitted {status : StatusFilter} {kinds : Option (List Kind)}
    (named : kinds ≠ some []) : Filter.holds ⟨status, kinds, none⟩ = admitted status kinds := by
  funext b
  unfold Filter.holds admitted
  rw [matchesKind_eq (f := ⟨status, kinds, none⟩) named]
  simp [Filter.matchesStatus, Filter.matchesBox]

theorem hits_eq [Trigonometry] (s : SearchSettings) (origin : Point) (filter : Filter) (most : Option Float)
    (candidates : List Branch) :
    hits s origin filter most candidates =
      (candidates.filter fun b => most.all (b.isNear origin ·) && filter.holds b).map
        (Hit.measure origin s.bearing) := by
  unfold hits
  rw [List.filter_map, List.filter_filter]
  rfl

/-- The hits do not depend on what a fetch brought, if it was owed every branch behind them. -/
theorem hits_of_meets [Trigonometry] {dataset found : List Branch} {fetch : Fetch}
    (meets : fetch.Meets dataset found) (s : SearchSettings) (origin : Point) {filter : Filter}
    {most : Option Float} (owed : ∀ b, most.all (b.isNear origin ·) = true →
      filter.holds b = true → fetch.owes b = true) :
    hits s origin filter most found = hits s origin filter most dataset := by
  rw [hits_eq, hits_eq, meets.filter_of_owes fun b want => ?_]
  obtain ⟨near, held⟩ := (Bool.and_eq_true _ _).mp want
  exact owed b near held

/-- The broad fetch is owed every branch that the filter lets through. -/
theorem owes_eligible [Trigonometry] {filter : Filter} {b : Branch} (held : filter.holds b = true) :
    (eligible filter).owes b = true := by
  unfold Filter.holds Filter.matchesStatus at held
  unfold eligible
  cases status : filter.status with
  | activeOnly =>
    rw [status] at held
    simp only [StatusFilter.allows, Bool.and_eq_true] at held
    exact held.1.1
  | custom admits => rfl

section Fetches

variable [Trigonometry]
variable {α σ : Type} {source : Source σ} {dataset : List Branch} {ready : σ → Prop}

theorem eligible_grants (serves : source.Serves dataset ready) (filter : Filter) :
    source.Grants dataset ready (eligible filter) := by
  unfold eligible
  split
  · exact serves.active
  · exact serves.all

/-- The hits in a circle are those of the whole dataset, within the globe and over its edges. -/
theorem collect_yields (serves : source.Serves dataset ready) (s : SearchSettings)
    (origin : Point) (radius : Float) (filter : Filter) (finish : List Hit → Except Fault α) :
    Yields source ready (collect s origin radius filter finish)
      (finish (hits s origin filter (some radius) dataset)) := by
  have grants : source.Grants dataset ready (circle origin radius filter) := by
    unfold circle
    split
    · exact serves.circles origin radius
    · exact eligible_grants serves filter
  refine yields_ask grants fun found meets => ?_
  rw [hits_of_meets meets]
  · exact yields_done _
  · intro b near held
    unfold circle
    split
    case isTrue fits =>
      show (envelopeFits origin radius && b.isNear origin radius) = true
      rw [fits]; exact near
    case isFalse => exact owes_eligible held

end Fetches

end Nearby.Search
