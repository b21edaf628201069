/-
A dataset held in memory. It is a list of branches with distinct identifiers in the order of
their registration, and every fetch is a filter on that list.
-/
import Nearby.Store.Source

namespace Nearby

open Geo Time

/-! ## Repeated identifiers -/

/-- The first text that already occurs before it, given those already seen. -/
def firstRepeated (seen : List String) : List String → Option String
  | [] => none
  | id :: rest => if seen.contains id then some id else firstRepeated (id :: seen) rest

theorem nodup_of_firstRepeated {ids : List String} :
    ∀ {seen : List String}, firstRepeated seen ids = none →
      ids.Nodup ∧ ∀ id ∈ ids, id ∉ seen := by
  induction ids with
  | nil => intro seen _; simp
  | cons id rest ih =>
    intro seen h
    by_cases hs : id ∈ seen
    · simp [firstRepeated, hs] at h
    · simp only [firstRepeated, List.contains_iff_mem, hs, if_false] at h
      obtain ⟨nodup, fresh⟩ := ih h
      refine ⟨List.nodup_cons.2 ⟨fun hm => fresh id hm (by simp), nodup⟩, ?_⟩
      intro other hm
      rcases List.mem_cons.1 hm with rfl | hm
      · exact hs
      · exact fun hc => fresh other hm (List.mem_cons_of_mem _ hc)

/-! ## The store -/

/-- A dataset in memory. -/
structure Memory where
  branches : List Branch
  distinct : (branches.map Branch.id).Nodup

namespace Memory

/-- The dataset without branches. -/
def empty : Memory := ⟨[], by simp⟩

/-- The dataset with the given branches, unless an identifier repeats. -/
def ofBranches (branches : List Branch) : Except Fault Memory :=
  match h : firstRepeated [] (branches.map Branch.id) with
  | some id => .error (.duplicateBranch id)
  | none => .ok ⟨branches, (nodup_of_firstRepeated h).1⟩

/-- The number of branches. -/
def size (m : Memory) : Nat := m.branches.length

/-- The dataset has no branches. -/
def isEmpty (m : Memory) : Bool := m.branches.isEmpty

/-- The branch with the given identifier. -/
def get? (m : Memory) (id : String) : Option Branch := m.branches.find? fun b => b.id = id

/-! ## Writing -/

theorem nodup_append_id {branches : List Branch} (distinct : (branches.map Branch.id).Nodup)
    {b : Branch} (fresh : ¬ branches.any (fun other => other.id = b.id) = true) :
    ((branches ++ [b]).map Branch.id).Nodup := by
  rw [List.map_append, List.nodup_append]
  refine ⟨distinct, by simp, ?_⟩
  intro id hid other hother
  obtain ⟨x, hx, rfl⟩ := List.mem_map.1 hid
  simp only [List.map_cons, List.map_nil, List.mem_singleton] at hother
  subst hother
  intro heq
  exact fresh (List.any_eq_true.2 ⟨x, hx, by simpa using heq⟩)

/-- The dataset with one more branch at the end, unless its identifier is taken. -/
def register (m : Memory) (b : Branch) : Except Fault Memory :=
  if h : m.branches.any (fun other => other.id = b.id) = true then .error (.duplicateBranch b.id)
  else .ok ⟨m.branches ++ [b], nodup_append_id m.distinct h⟩

/-- The branches with the one of the given identifier changed. -/
def revise (branches : List Branch) (id : String) (change : Branch → Branch) : List Branch :=
  branches.map fun b => if b.id = id then change b else b

theorem revise_ids {branches : List Branch} {id : String} {change : Branch → Branch}
    (keepsId : ∀ b, (change b).id = b.id) :
    (revise branches id change).map Branch.id = branches.map Branch.id := by
  simp only [revise, List.map_map]
  refine List.map_congr_left fun b _ => ?_
  by_cases h : b.id = id <;> simp [h, keepsId]

/-- The changed branch and the dataset that holds it in the place of the old one. -/
def modify (m : Memory) (id : String) (change : Branch → Branch)
    (keepsId : ∀ b, (change b).id = b.id) : Except Fault (Branch × Memory) :=
  match m.get? id with
  | none => .error (.branchNotFound id)
  | some b =>
    .ok (change b, ⟨revise m.branches id change, by rw [revise_ids keepsId]; exact m.distinct⟩)

/-- Gives a branch another status at the given time. -/
def updateStatus (m : Memory) (id : String) (status : Status) (now : Timestamp) :
    Except Fault (Branch × Memory) :=
  m.modify id (fun b => { b with status := status, updatedAt := now }) fun _ => rfl

/-- Moves a branch to another place at the given time. -/
def relocate (m : Memory) (id : String) (location : Point) (now : Timestamp) :
    Except Fault (Branch × Memory) :=
  m.modify id (fun b => { b with location := location, updatedAt := now }) fun _ => rfl

/-! ## Fetching -/

/-- The branches that a fetch asks for, in the order of registration. -/
def select [Trigonometry] (m : Memory) (fetch : Fetch) : List Branch :=
  m.branches.filter fetch.admits

/-- A dataset in memory never fails and never changes by being read. -/
def source [Trigonometry] : Source Memory := ⟨fun fetch m => (.ok (m.select fetch), m)⟩

end Memory

end Nearby
