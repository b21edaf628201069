/-
What the search for the nearest branches asks for, and in which order: one circle after another,
each wider than the last by the factor, until one holds enough branches; or, once the rounds are
used up or a circle reaches over the edge of the map, a broad fetch, which is the last. Nothing
is assumed of the source but that it answered, nor of the settings.
-/
import Nearby.Proofs.Search.Failure
import Mathlib.Data.List.Basic

namespace Nearby

open Geo

/-! ## Rounds -/

/-- The radius of a round, counted from zero. -/
def SearchSettings.radiusAt (s : SearchSettings) : (round : Nat) → Float
  | 0 => s.radius
  | round + 1 => s.radiusAt round * s.factor

namespace Search

/-- The candidates hold as many branches as are wanted that pass the filter and are at most the
radius away. -/
def Suffices [Trigonometry] (origin : Point) (wanted : Nat) (filter : Filter) (radius : Float)
    (found : List Branch) : Prop :=
  wanted ≤ found.countP fun b => filter.holds b && b.isNear origin radius

/-- The record of the rounds from one round on, of which there are so many left: what each circle
brought, and what the broad fetch brought if it came to that. -/
structure Widens [Trigonometry] (s : SearchSettings) (origin : Point) (wanted : Nat)
    (filter : Filter) (first left : Nat) (circles : List (List Branch)) (broad : Option (List Branch))
    (record : List Exchange) : Prop where
  recorded : record =
    circles.mapIdx (fun i found => (.approximate origin (s.radiusAt (first + i)), .ok found)) ++
      (broad.map fun found =>
        (if filter.status.isActiveOnly then Fetch.active else Fetch.all, .ok found)).toList
  bounded : circles.length ≤ left
  /-- Only circles within the globe are asked for. -/
  fits : ∀ i < circles.length, envelopeFits origin (s.radiusAt (first + i)) = true
  /-- The first circle with enough branches is the last. -/
  stops : ∀ i found, circles[i]? = some found →
    Suffices origin wanted filter (s.radiusAt (first + i)) found → i + 1 = circles.length
  /-- The broad fetch is spared if and only if a circle holds enough branches. -/
  spared : broad = none ↔ ∃ i found, circles[i]? = some found ∧
    Suffices origin wanted filter (s.radiusAt (first + i)) found
  /-- The broad fetch waits for the last round, or for a circle that leaves the globe. -/
  waits : broad ≠ none → circles.length = left ∨
    envelopeFits origin (s.radiusAt (first + circles.length)) = false

/-! ## Answered searches -/

/-- The source answered everything that was asked of it. -/
def Answered (record : List Exchange) : Prop := ∀ exchange ∈ record, ∃ found, exchange.2 = .ok found

/-- A search whose fetches were answered had its first one answered, and goes on so. -/
theorem exchanges_ask {α σ : Type} {source : Source σ} {fetch : Fetch}
    {next : List Branch → Search α} {state : σ}
    (answered : Answered ((ask fetch next).exchanges source state)) :
    ∃ found after, (ask fetch next).exchanges source state =
        (fetch, .ok found) :: (next found).exchanges source after ∧
      Answered ((next found).exchanges source after) := by
  rcases fetched : source.fetch fetch state with ⟨fault | found, after⟩
  · rw [exchanges_ask_error fetched] at answered
    obtain ⟨found, no⟩ := answered _ (List.mem_singleton.2 rfl)
    cases no
  · have record : (ask fetch next).exchanges source state = _ := exchanges_ask_ok fetched
    rw [record] at answered
    exact ⟨found, after, record, fun exchange later =>
      answered exchange (List.mem_cons_of_mem _ later)⟩

section Rounds

variable [Trigonometry]
variable {σ : Type} {source : Source σ}
variable (s : SearchSettings) (origin : Point) (wanted : Nat) (filter : Filter)

theorem length_hits (radius : Float) (found : List Branch) :
    (hits s origin filter (some radius) found).length =
      found.countP fun b => filter.holds b && b.isNear origin radius := by
  rw [hits_eq, List.length_map, List.countP_eq_length_filter]
  simp only [Option.all_some, Bool.and_comm]

theorem suffices_iff (radius : Float) (found : List Branch) :
    Suffices origin wanted filter radius found ↔
      wanted ≤ (hits s origin filter (some radius) found).length := by
  rw [length_hits]
  rfl

/-! ## One round -/

variable {s origin wanted filter}

/-- No more rounds: the broad fetch alone. -/
theorem widens_scan {first left : Nat} (found : List Branch)
    (ended : left = 0 ∨ envelopeFits origin (s.radiusAt first) = false) :
    Widens s origin wanted filter first left [] (some found) [(eligible filter, .ok found)] where
  recorded := rfl
  bounded := Nat.zero_le left
  fits _ none := absurd none (Nat.not_lt_zero _)
  stops i _ none := by simp at none
  spared := by simp
  waits _ := ended.imp_left Eq.symm

/-- A circle with enough branches ends the search. -/
theorem widens_done {first left : Nat} {found : List Branch}
    (fits : envelopeFits origin (s.radiusAt first) = true)
    (enough : Suffices origin wanted filter (s.radiusAt first) found) :
    Widens s origin wanted filter first (left + 1) [found] none
      [(.approximate origin (s.radiusAt first), .ok found)] where
  recorded := rfl
  bounded := Nat.le_add_left 1 left
  fits i early := by
    obtain rfl : i = 0 := Nat.lt_one_iff.1 early
    exact fits
  stops i _ here _ := by
    obtain ⟨early, -⟩ := List.getElem?_eq_some_iff.1 here
    simp only [List.length_singleton] at early ⊢
    omega
  spared := ⟨fun _ => ⟨0, found, rfl, enough⟩, fun _ => rfl⟩
  waits some := absurd rfl some

/-- A circle with too few branches goes before the record of the rounds after it. -/
theorem Widens.cons {first left : Nat} {found : List Branch} {circles : List (List Branch)}
    {broad : Option (List Branch)} {record : List Exchange}
    (later : Widens s origin wanted filter (first + 1) left circles broad record)
    (fits : envelopeFits origin (s.radiusAt first) = true)
    (few : ¬ Suffices origin wanted filter (s.radiusAt first) found) :
    Widens s origin wanted filter first (left + 1) (found :: circles) broad
      ((.approximate origin (s.radiusAt first), .ok found) :: record) := by
  have next : ∀ i, first + (i + 1) = first + 1 + i := fun i => by omega
  constructor
  case recorded =>
    rw [later.recorded, List.mapIdx_cons]
    simp only [Nat.add_right_comm first 1]
    rfl
  case bounded => exact Nat.succ_le_succ later.bounded
  case fits =>
    rintro (_ | i) early
    · exact fits
    · rw [next]
      exact later.fits i (Nat.lt_of_succ_lt_succ early)
  case stops =>
    rintro (_ | i) found' here enough
    · obtain rfl : found = found' := by simpa using here
      exact absurd enough few
    · rw [next] at enough
      have last := later.stops i found' (by simpa using here) enough
      simp only [List.length_cons, last]
  case spared =>
    rw [later.spared]
    -- the circle in front has too few branches, so one that has enough is a later one
    constructor
    · rintro ⟨i, found', here, enough⟩
      exact ⟨i + 1, found', by simpa using here, by rwa [next]⟩
    · rintro ⟨_ | i, found', here, enough⟩
      · obtain rfl : found = found' := by simpa using here
        exact absurd enough few
      · exact ⟨i, found', by simpa using here, by rwa [next] at enough⟩
  case waits =>
    intro asked
    rw [List.length_cons, next]
    exact (later.waits asked).imp_left (congrArg Nat.succ)

/-! ## All rounds -/

theorem scan_widens {first left : Nat} {state : σ}
    (answered : Answered ((scan s origin wanted filter).exchanges source state))
    (ended : left = 0 ∨ envelopeFits origin (s.radiusAt first) = false) :
    ∃ circles broad, Widens s origin wanted filter first left circles broad
      ((scan s origin wanted filter).exchanges source state) := by
  obtain ⟨found, after, record, -⟩ := exchanges_ask answered
  refine ⟨[], some found, ?_⟩
  unfold scan
  rw [record]
  exact widens_scan found ended

/-- By induction on the rounds that are left: each adds its circle in front of the rest. -/
theorem widen_widens (first left : Nat) (state : σ)
    (answered : Answered
      ((widen s origin wanted filter left (s.radiusAt first)).exchanges source state)) :
    ∃ circles broad, Widens s origin wanted filter first left circles broad
      ((widen s origin wanted filter left (s.radiusAt first)).exchanges source state) := by
  induction left generalizing first state with
  | zero => exact scan_widens answered (.inl rfl)
  | succ left ih =>
    unfold widen at answered ⊢
    split at answered
    case isFalse leaves =>
      rw [if_neg leaves]
      exact scan_widens answered (.inr (Bool.eq_false_iff.2 leaves))
    case isTrue fits =>
      rw [if_pos fits]
      obtain ⟨found, after, record, answered'⟩ := exchanges_ask answered
      rw [record]
      dsimp only at answered' ⊢
      split at answered'
      case isTrue enough =>
        rw [if_pos enough]
        exact ⟨[found], none, widens_done fits ((suffices_iff s origin wanted filter _ _).2 enough)⟩
      case isFalse few =>
        rw [if_neg few]
        obtain ⟨circles, broad, later⟩ := ih (first + 1) after answered'
        exact ⟨found :: circles, broad,
          later.cons fits fun enough => few ((suffices_iff s origin wanted filter _ _).1 enough)⟩

end Rounds

/-! ## The search for the nearest -/

section Nearest

variable [Trigonometry]
variable {σ : Type} (s : SearchSettings) (source : Source σ) (state : σ)

theorem widening_widens (origin : Point) (wanted : Nat) (filter : Filter)
    (answered : Answered ((widening s origin wanted filter).exchanges source state)) :
    ∃ circles broad,
      Widens s origin wanted filter 0 (s.steps + 1) circles broad
        ((widening s origin wanted filter).exchanges source state) ∧
      ∀ i < circles.length, s.radiusAt i < 1 / 0 := by
  obtain ⟨circles, broad, widens⟩ := widen_widens 0 (s.steps + 1) state answered
  refine ⟨circles, broad, widens, fun i early => ?_⟩
  have fits := widens.fits i early
  rw [Nat.zero_add] at fits
  exact Envelope.lt_infinity_of_covering origin fits

/-- What a search for the nearest branches asks of a source that answers: circles with the radii
of the rounds, and a broad fetch after them if none held enough. A radius that is no number, or
infinite, is not asked for. -/
theorem nearest_widens (origin : Point) {kinds : Option (List Kind)} (named : kinds ≠ some [])
    {limit : Nat} (positive : 1 ≤ limit) (status : StatusFilter)
    (answered : Answered ((nearest s origin kinds limit status).exchanges source state)) :
    ∃ circles broad,
      Widens s origin (min limit (max s.maxResults 1)) ⟨status, kinds, none⟩ 0 (s.steps + 1)
        circles broad ((nearest s origin kinds limit status).exchanges source state) ∧
      ∀ i < circles.length, s.radiusAt i < 1 / 0 := by
  unfold nearest at answered ⊢
  rw [checkKinds_ok named, honouredLimit_ok s positive] at answered ⊢
  exact widening_widens s source state origin _ _ answered

/-- A query under several filters widens its circles alike, as long as it has neither a radius nor
a box. -/
theorem matching_widens {q : Query} (valid : q.Valid) (unbounded : q.radius = none ∧ q.box = none)
    (answered : Answered ((matching s q).exchanges source state)) :
    ∃ circles broad,
      Widens s q.origin (min q.limit (max s.maxResults 1)) q.filter 0 (s.steps + 1) circles broad
        ((matching s q).exchanges source state) ∧
      ∀ i < circles.length, s.radiusAt i < 1 / 0 := by
  have widens : matching s q = widening s q.origin (min q.limit (max s.maxResults 1)) q.filter := by
    unfold matching
    rw [honouredLimit_ok s valid.limit, checkKinds_ok valid.kinds, unbounded.1, unbounded.2]
    rfl
  rw [widens] at answered ⊢
  exact widening_widens s source state _ _ _ answered

end Nearest

/-- The first circle holds one of the two branches that are wanted, the second circle holds both,
and no more is asked for. -/
theorem nearest_widens_to_second_circle :
    let _ : Trigonometry := Sample.flat
    let s : SearchSettings := ⟨2, 50, 2, 3, true⟩
    let search := nearest s Sample.equator (some [.express]) 3 .activeOnly
    let record := search.exchanges Source.scanning Sample.scattered
    some [Kind.express] ≠ some [] ∧ 1 ≤ 3 ∧ Answered record ∧
      record = [(.approximate Sample.equator 50, .ok Sample.scattered),
        (.approximate Sample.equator (50 * 2), .ok Sample.scattered)] ∧
      ∃ circles broad,
        Widens s Sample.equator 2 ⟨.activeOnly, some [.express], none⟩ 0 4 circles broad record ∧
        ∀ i < circles.length, s.radiusAt i < 1 / 0 := by
  intro _ s search record
  have fits : envelopeFits Sample.equator 50 = true ∧
      envelopeFits Sample.equator (50 * 2) = true := by
    decide +kernel
  have few : ¬ 2 ≤ (hits s Sample.equator ⟨.activeOnly, some [.express], none⟩ (some 50)
      Sample.scattered).length := by
    decide +kernel
  have enough : 2 ≤ (hits s Sample.equator ⟨.activeOnly, some [.express], none⟩ (some (50 * 2))
      Sample.scattered).length := by
    decide +kernel
  have asked : record = [(.approximate Sample.equator 50, .ok Sample.scattered),
      (.approximate Sample.equator (50 * 2), .ok Sample.scattered)] := by
    show (widen s Sample.equator 2 ⟨.activeOnly, some [.express], none⟩ 4 50).exchanges
      Source.scanning Sample.scattered = _
    rw [widen, if_pos fits.1, exchanges_ask_ok rfl]
    dsimp only
    rw [if_neg few, widen, if_pos fits.2, exchanges_ask_ok rfl]
    dsimp only
    rw [if_pos enough]
    rfl
  have answered : Answered record := by
    rw [asked]
    simp [Answered]
  exact ⟨by decide, by decide, answered, asked,
    nearest_widens s Source.scanning Sample.scattered Sample.equator (by decide) (by decide)
      .activeOnly answered⟩

end Search

end Nearby
