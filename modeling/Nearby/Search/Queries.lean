/-
The queries. Each checks its request before anything is fetched, then fetches as little as it
can: the envelope of a circle while that stays within the globe, a box, or else the whole dataset
or its active part. Whatever was fetched is filtered and measured again, so the answer does not
depend on how much more the fetch brought.
-/
import Nearby.Ranking
import Nearby.Search.Basic
import Nearby.Search.Settings

namespace Nearby

open Geo

/-! ## Requests -/

/-- A request for the nearest branches under several filters at once. -/
structure Query where
  origin : Point
  limit : Nat
  radius : Option Float := none
  kinds : Option (List Kind) := none
  box : Option Box := none
  status : StatusFilter := .activeOnly

/-- The filters of a query. -/
def Query.filter (q : Query) : Filter := ⟨q.status, q.kinds, q.box⟩

/-- A check of what may be absent; absence passes. -/
def checkOptional {α : Type} (check : α → Except Fault α) : Option α → Except Fault (Option α)
  | none => .ok none
  | some value => (check value).map some

namespace Search

/-- The limit, cut down to the greatest one that is honoured. -/
def honouredLimit (s : SearchSettings) (limit : Nat) : Except Fault Nat :=
  (checkLimit limit).map fun limit => min limit s.mostResults

/-! ## Measuring -/

/-- The candidates that the filter lets through and that are not too far away, measured. -/
def hits [Trigonometry] (s : SearchSettings) (origin : Point) (filter : Filter)
    (most : Option Float) (candidates : List Branch) : List Hit :=
  ((candidates.filter filter.holds).map (Hit.measure origin s.bearing)).filter fun hit =>
    most.all fun most => hit.distanceKm ≤ most

/-! ## Fetching -/

/-- The envelope of the circle stays within the globe, so that fetching it misses nothing. -/
def envelopeFits [Trigonometry] (origin : Point) (radius : Float) : Bool :=
  (Envelope.covering origin.coordinates radius).isWithinGlobe

/-- The broad fetch for a filter. -/
def eligible (filter : Filter) : Fetch := if filter.status.isActiveOnly then .active else .all

/-- The fetch for a circle. -/
def circle [Trigonometry] (origin : Point) (radius : Float) (filter : Filter) : Fetch :=
  if envelopeFits origin radius then .approximate origin radius else eligible filter

/-- The hits in a circle, in the order of the dataset. -/
def collect [Trigonometry] (s : SearchSettings) (origin : Point) (radius : Float) (filter : Filter)
    (finish : List Hit → Except Fault α) : Search α :=
  ask (circle origin radius filter) fun found =>
    done (finish (hits s origin filter (some radius) found))

/-- Ranks the hits among all eligible branches. -/
def scan [Trigonometry] (s : SearchSettings) (origin : Point) (limit : Nat) (filter : Filter) :
    Search (List Hit) :=
  ask (eligible filter) fun found => done (rank (hits s origin filter none found) limit)

/-- Looks into wider and wider circles until one holds enough hits. When the rounds are used up,
or a circle reaches over the edge of the map, all eligible branches are ranked. -/
def widen [Trigonometry] (s : SearchSettings) (origin : Point) (limit : Nat) (filter : Filter) :
    (rounds : Nat) → (radius : Float) → Search (List Hit)
  | 0, _ => scan s origin limit filter
  | rounds + 1, radius =>
    if envelopeFits origin radius then
      ask (.approximate origin radius) fun found =>
        let near := hits s origin filter (some radius) found
        if limit ≤ near.length then done (rank near limit)
        else widen s origin limit filter rounds (radius * s.factor)
    else scan s origin limit filter

/-- The search for the nearest branches, starting from the first radius. -/
def widening [Trigonometry] (s : SearchSettings) (origin : Point) (limit : Nat) (filter : Filter) :
    Search (List Hit) :=
  widen s origin limit filter (s.steps + 1) s.radius

/-! ## Queries -/

/-- The nearest branches, of the given kinds if any are named. -/
def nearest [Trigonometry] (s : SearchSettings) (origin : Point) (kinds : Option (List Kind))
    (limit : Nat) (status : StatusFilter) : Search (List Hit) :=
  require (checkOptional checkKinds kinds) fun kinds =>
  require (honouredLimit s limit) fun limit =>
  widening s origin limit ⟨status, kinds, none⟩

/-- The branches within a radius, in the order of the dataset. -/
def within [Trigonometry] (s : SearchSettings) (origin : Point) (radius : Float)
    (kinds : Option (List Kind)) (status : StatusFilter) : Search (List Branch) :=
  require (checkRadius radius) fun radius =>
  require (checkOptional checkKinds kinds) fun kinds =>
  collect s origin radius ⟨status, kinds, none⟩ fun found => .ok (found.map Hit.branch)

/-- The branches in a box, in the order of the dataset. -/
def inBox (box : Box) (status : StatusFilter) : Search (List Branch) :=
  require box.check fun box =>
  ask (.box box) fun found => done (.ok (found.filter (Filter.holds ⟨status, none, some box⟩)))

/-- The branches in the approximate envelope of a circle. -/
def inApproximateRadius [Trigonometry] (origin : Point) (radius : Float) (status : StatusFilter) :
    Search (List Branch) :=
  require (checkRadius radius) fun radius =>
  require (Envelope.approximate origin.coordinates radius).toBox fun box =>
  inBox box status

/-- The ranked hits in a box. -/
def ranked [Trigonometry] (s : SearchSettings) (origin : Point) (limit : Nat) (filter : Filter)
    (box : Box) : Search (List Hit) :=
  ask (.box box) fun found => done (rank (hits s origin filter none found) limit)

/-- The nearest branches under all the filters of a query. -/
def matching [Trigonometry] (s : SearchSettings) (q : Query) : Search (List Hit) :=
  require (honouredLimit s q.limit) fun limit =>
  require (checkOptional checkRadius q.radius) fun radius =>
  require (checkOptional checkKinds q.kinds) fun _ =>
  require (checkOptional Box.check q.box) fun box =>
  match radius, box with
  | some radius, _ => collect s q.origin radius q.filter fun found => rank found limit
  | none, some box => ranked s q.origin limit q.filter box
  | none, none => widening s q.origin limit q.filter

end Search

end Nearby
