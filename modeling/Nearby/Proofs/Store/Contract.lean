/-
What a search may rely on. A source serves a dataset when it answers every fetch: with the whole
dataset, with its active part, and for circles and boxes with a part of it that may hold more than
was asked for but leaves out no branch inside, at least while the circle's envelope stays within
the globe. The states of the source may change on the way, its dataset may not.

A source that always answers with the whole dataset meets this; so does a dataset in memory, as
far as the covering envelopes of circles hold their circles.
-/
import Nearby.Search.Queries
import Nearby.Store.Memory

namespace Nearby

open Geo

/-! ## Parts of a dataset -/

/-- `Retains must part whole`: the part is what is left of the whole, in its order, after some
elements without the property are dropped. -/
inductive Retains {α : Type} (must : α → Bool) : List α → List α → Prop where
  | nil : Retains must [] []
  | keep (a : α) {part whole : List α} :
      Retains must part whole → Retains must (a :: part) (a :: whole)
  | drop (a : α) {part whole : List α} :
      must a = false → Retains must part whole → Retains must part (a :: whole)

namespace Retains

variable {α : Type} {must : α → Bool} {part whole : List α}

theorem refl (must : α → Bool) : ∀ whole : List α, Retains must whole whole
  | [] => .nil
  | a :: whole => .keep a (refl must whole)

/-- The part and the whole agree on the elements with the property. -/
theorem filter_eq (h : Retains must part whole) : part.filter must = whole.filter must := by
  induction h with
  | nil => rfl
  | keep a _ ih => rw [List.filter_cons, List.filter_cons, ih]
  | drop a no _ ih => rw [List.filter_cons_of_neg (by simp [no]), ih]

/-- A filter retains what it lets through. -/
theorem of_filter {keep : α → Bool} :
    ∀ {whole : List α}, (∀ a ∈ whole, must a = true → keep a = true) →
      Retains must (whole.filter keep) whole
  | [], _ => .nil
  | a :: whole, h => by
    have tail : Retains must (whole.filter keep) whole :=
      of_filter fun b hb => h b (List.mem_cons_of_mem _ hb)
    cases kept : keep a with
    | true => rw [List.filter_cons_of_pos kept]; exact .keep a tail
    | false =>
      rw [List.filter_cons_of_neg (by simp [kept])]
      refine .drop a ?_ tail
      cases needed : must a
      · rfl
      · exact absurd (h a (by simp) needed) (by simp [kept])

end Retains

/-! ## Serving a dataset -/

section Serving

variable [Trigonometry]

/-- The branch is at most the radius away from the origin. -/
def Branch.isNear (b : Branch) (origin : Point) (radius : Float) : Bool :=
  decide (distanceKm origin.coordinates b.location.coordinates ≤ radius)

/-- The branch must not be left out of the answer to a fetch. A circle is owed its branches only
while its covering envelope stays within the globe. -/
def Fetch.owes : Fetch → Branch → Bool
  | all, _ => true
  | active, b => b.status = .active
  | approximate center radius, b => Search.envelopeFits center radius && b.isNear center radius
  | box bounds, b => bounds.contains b.location

/-- What a fetch may be answered with on a dataset. -/
def Fetch.Meets (dataset : List Branch) : Fetch → List Branch → Prop
  | all, found => found = dataset
  | active, found => found = dataset.filter active.owes
  | fetch, found => Retains fetch.owes found dataset

/-- Whatever a fetch is answered with, the branches that are owed to it are those of the
dataset. -/
theorem Fetch.Meets.filter_owes {dataset found : List Branch} {fetch : Fetch}
    (meets : fetch.Meets dataset found) : found.filter fetch.owes = dataset.filter fetch.owes := by
  cases fetch with
  | all => rw [show found = dataset from meets]
  | active =>
    rw [show found = dataset.filter Fetch.active.owes from meets, List.filter_filter]
    simp only [Bool.and_self]
  | approximate center radius => exact Retains.filter_eq meets
  | box bounds => exact Retains.filter_eq meets

/-- So do the branches of any property that is owed to the fetch. -/
theorem Fetch.Meets.filter_of_owes {dataset found : List Branch} {fetch : Fetch}
    (meets : fetch.Meets dataset found) {wanted : Branch → Bool}
    (owed : ∀ b, wanted b = true → fetch.owes b = true) :
    found.filter wanted = dataset.filter wanted := by
  have narrowed : ∀ l : List Branch, (l.filter fetch.owes).filter wanted = l.filter wanted := by
    intro l
    rw [List.filter_filter]
    refine List.filter_congr fun b _ => ?_
    cases want : wanted b
    · rfl
    · exact owed b want
  rw [← narrowed found, meets.filter_owes, narrowed dataset]

variable {σ : Type}

/-- In every ready state the source answers the fetch on the dataset, and it stays ready. -/
def Source.Grants (source : Source σ) (dataset : List Branch) (ready : σ → Prop)
    (fetch : Fetch) : Prop :=
  ∀ state, ready state → ∃ found state', source.fetch fetch state = (.ok found, state') ∧
    fetch.Meets dataset found ∧ ready state'

/-- The source serves the dataset: whole, active and by circles. -/
structure Source.Serves (source : Source σ) (dataset : List Branch) (ready : σ → Prop) : Prop where
  all : source.Grants dataset ready .all
  active : source.Grants dataset ready .active
  circles : ∀ center radius, source.Grants dataset ready (.approximate center radius)

/-- The source serves the dataset by boxes as well. -/
structure Source.ServesBoxes (source : Source σ) (dataset : List Branch) (ready : σ → Prop) : Prop
    extends source.Serves dataset ready where
  boxes : ∀ bounds, source.Grants dataset ready (.box bounds)

end Serving

/-! ## Sources that serve -/

/-- A source without an index. It answers circles and boxes with the whole dataset. -/
def Source.scanning : Source (List Branch) where
  fetch
    | .active, dataset => (.ok (dataset.filter Fetch.active.admits), dataset)
    | _, dataset => (.ok dataset, dataset)

theorem Source.scanning_serves [Trigonometry] (dataset : List Branch) :
    scanning.ServesBoxes dataset (· = dataset) where
  all := by rintro _ rfl; exact ⟨_, _, rfl, rfl, rfl⟩
  active := by rintro _ rfl; exact ⟨_, _, rfl, rfl, rfl⟩
  circles := by rintro center radius _ rfl; exact ⟨_, _, rfl, .refl _ _, rfl⟩
  boxes := by rintro bounds _ rfl; exact ⟨_, _, rfl, .refl _ _, rfl⟩

/-- A dataset in memory serves its branches if every covering envelope within the globe holds the
branches of its circle. -/
theorem Memory.serves [Trigonometry] (m : Memory)
    (covers : ∀ center radius, Search.envelopeFits center radius = true →
      ∀ b ∈ m.branches, b.isNear center radius = true →
        (Fetch.approximate center radius).admits b = true) :
    Memory.source.ServesBoxes m.branches (· = m) where
  all := by
    rintro _ rfl
    exact ⟨_, _, rfl, List.filter_eq_self.2 fun _ _ => rfl, rfl⟩
  active := by rintro _ rfl; exact ⟨_, _, rfl, rfl, rfl⟩
  circles := by
    rintro center radius _ rfl
    refine ⟨_, _, rfl, .of_filter fun b hb owed => ?_, rfl⟩
    obtain ⟨fits, near⟩ := (Bool.and_eq_true _ _).mp owed
    exact covers center radius fits b hb near
  boxes := by rintro bounds _ rfl; exact ⟨_, _, rfl, .of_filter fun b _ owed => owed, rfl⟩

/-! ## A sample dataset -/

namespace Sample

def equator : Point := ⟨⟨0, 0⟩, by decide +kernel⟩

def antimeridian : Point := ⟨⟨0, 180⟩, by decide +kernel⟩

def pole : Point := ⟨⟨90, 0⟩, by decide +kernel⟩

def newYear : Time.Timestamp := ⟨⟨2024, 1, 1, by decide⟩, 0, 0, 0, 0⟩

def branch (id : String) (location : Point) (kind : Kind) (status : Status) : Branch :=
  ⟨id, "", location, kind, "", status, newYear, newYear⟩

/-- Two branches at one place, one on a pole, and one that is not yet open. -/
def branches : List Branch :=
  [branch "b" equator .express .active, branch "c" pole .premium .active,
    branch "a" equator .express .active, branch "d" antimeridian .express .planned]

/-- Branches a quarter of a degree and three quarters from the centre of the map, one on a pole
and one that is not yet open. -/
def scattered : List Branch :=
  [branch "b" ⟨⟨0, 0.75⟩, by decide +kernel⟩ .express .active, branch "c" pole .premium .active,
    branch "a" ⟨⟨0, 0.25⟩, by decide +kernel⟩ .express .active,
    branch "d" ⟨⟨0.25, 0⟩, by decide +kernel⟩ .express .planned]

/-- Trigonometry near the centre of the map, where angles are so small that they are their own
sines. -/
@[reducible]
def flat : Trigonometry := ⟨id, fun _ => 1, id, fun y _ => y⟩

end Sample

end Nearby
