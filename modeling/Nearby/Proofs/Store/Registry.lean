/-
A dataset in memory is a map that remembers registration order. The map and the order are kept
apart in `Registry`: registering a new identifier adds it last, and a change of a branch replaces
one value and leaves the order alone. Whatever calls are made, the dataset replies as the registry
does, because its identifiers are always distinct: only then is the first branch found the only one
of its identifier.
-/
import Nearby.Proofs.Store.Contract
import Mathlib.Data.List.Induction
import Mathlib.Data.List.Nodup
import Mathlib.Logic.Function.Basic

namespace Nearby

open Geo Time

/-! ## Calls -/

/-- A call of a dataset. Changes carry the time at which they are made. -/
inductive Call where
  | register (b : Branch)
  | updateStatus (id : String) (status : Status) (now : Timestamp)
  | relocate (id : String) (location : Point) (now : Timestamp)
  | get (id : String)
  | fetch (fetch : Fetch)

/-- What a call is answered with. -/
inductive Reply where
  | registered
  | changed (b : Branch)
  | found (b : Option Branch)
  | listed (branches : List Branch)
  | refused (fault : Fault)

namespace Reply

def isRegistered : Reply → Bool
  | registered => true
  | _ => false

/-- The reply to a call that may be refused, and the state after it. One that is refused leaves
the state as it was. -/
def ofResult {α σ : Type} (state : σ) (reply : α → Reply) : Except Fault (α × σ) → Reply × σ
  | .ok (value, state) => (reply value, state)
  | .error fault => (refused fault, state)

end Reply

/-- The replies to calls one after the other, and the state after the last. -/
def replies {σ : Type} (answer : σ → Call → Reply × σ) : σ → List Call → List Reply × σ
  | state, [] => ([], state)
  | state, call :: calls =>
    let rest := replies answer (answer state call).2 calls
    ((answer state call).1 :: rest.1, rest.2)

/-- How a dataset answers a call. -/
def Memory.answer (m : Memory) : Call → Reply × Memory
  | .register b => Reply.ofResult m (fun _ => .registered) ((m.register b).map fun m => ((), m))
  | .updateStatus id status now => Reply.ofResult m .changed (m.updateStatus id status now)
  | .relocate id location now => Reply.ofResult m .changed (m.relocate id location now)
  | .get id => (.found (m.get? id), m)
  | .fetch fetch =>
    match source.fetch fetch m with
    | (.ok branches, m) => (.listed branches, m)
    | (.error fault, m) => (.refused fault, m)

/-! ## Registries -/

/-- A map from identifiers to branches, with the identifiers in order of registration. -/
structure Registry where
  order : List String
  value : String → Option Branch

namespace Registry

def empty : Registry := ⟨[], fun _ => none⟩

/-- Adds a branch behind all others. -/
def enter (r : Registry) (b : Branch) : Registry where
  order := r.order ++ [b.id]
  value := Function.update r.value b.id (some b)

def ofBranches (branches : List Branch) : Registry := branches.foldl enter empty

/-- Replaces the branch of an identifier, if there is one, and answers with the new one. -/
def revise (r : Registry) (id : String) (change : Branch → Branch) : Reply × Registry :=
  match r.value id with
  | none => (.refused (.branchNotFound id), r)
  | some b => (.changed (change b), { r with value := Function.update r.value id (some (change b)) })

/-- The branches in order of registration. -/
def branches (r : Registry) : List Branch := r.order.filterMap r.value

/-- How a registry answers a call. -/
def answer (r : Registry) : Call → Reply × Registry
  | .register b =>
    match r.value b.id with
    | some _ => (.refused (.duplicateBranch b.id), r)
    | none => (.registered, r.enter b)
  | .updateStatus id status now => r.revise id fun b => { b with status, updatedAt := now }
  | .relocate id location now => r.revise id fun b => { b with location, updatedAt := now }
  | .get id => (.found (r.value id), r)
  | .fetch .all => (.listed r.branches, r)
  | .fetch .active => (.listed (r.branches.filter fun b => b.status = .active), r)
  | .fetch (.approximate center radius) =>
    let envelope := Envelope.covering center.coordinates radius
    (.listed (r.branches.filter fun b => envelope.contains b.location.coordinates), r)
  | .fetch (.box bounds) => (.listed (r.branches.filter fun b => bounds.contains b.location), r)

end Registry

/-! ## Looking up -/

namespace Memory

variable {m : Memory} {id : String} {b : Branch}

theorem id_of_get? (found : m.get? id = some b) : b.id = id := by
  simpa using List.find?_some found

/-- Every branch is found by its identifier, since no other has the same. -/
theorem get?_of_mem (hb : b ∈ m.branches) : m.get? b.id = some b := by
  cases found : m.get? b.id with
  | none =>
    have other := List.find?_eq_none.1 found b hb
    simp at other
  | some first =>
    -- the first one found has the same identifier, so it is this branch
    have same := List.inj_on_of_nodup_map m.distinct (List.mem_of_find?_eq_some found) hb
      (id_of_get? found)
    rw [same]

theorem get?_eq_none_iff : m.get? id = none ↔ id ∉ m.branches.map Branch.id := by
  unfold get?
  rw [List.find?_eq_none]
  simp

/-- Changing the branch of one identifier changes what is found under this identifier only. -/
theorem find?_revise {branches : List Branch} {change : Branch → Branch}
    (keepsId : ∀ b, (change b).id = b.id) (other : String) :
    (revise branches id change).find? (fun b => b.id = other) =
      (branches.find? fun b => b.id = other).map fun b => if b.id = id then change b else b := by
  unfold revise
  rw [List.find?_map]
  congr 1
  congr 1
  -- a change keeps the identifier, so the search does not notice it
  funext b
  by_cases h : b.id = id <;> simp [h, keepsId]

/-! ## Writing -/

theorem register_known {old : Branch} (known : m.get? b.id = some old) :
    m.register b = .error (.duplicateBranch b.id) := by
  refine dif_pos (List.any_eq_true.2 ⟨old, List.mem_of_find?_eq_some known, ?_⟩)
  exact decide_eq_true (id_of_get? known)

/-- A branch of a new identifier becomes the last one. -/
theorem register_new (new : m.get? b.id = none) :
    ∃ m', m.register b = .ok m' ∧ m'.branches = m.branches ++ [b] := by
  refine ⟨_, dif_neg fun taken => ?_, rfl⟩
  obtain ⟨other, hm, same⟩ := List.any_eq_true.1 taken
  exact List.find?_eq_none.1 new other hm same

variable {change : Branch → Branch} (keepsId : ∀ b, (change b).id = b.id)

theorem modify_unknown (unknown : m.get? id = none) :
    m.modify id change keepsId = .error (.branchNotFound id) := by
  unfold modify
  split
  case h_1 => rfl
  case h_2 held => rw [unknown] at held; cases held

theorem modify_known (known : m.get? id = some b) :
    ∃ m', m.modify id change keepsId = .ok (change b, m') ∧
      m'.branches = revise m.branches id change := by
  refine ⟨⟨revise m.branches id change, by rw [revise_ids keepsId]; exact m.distinct⟩, ?_, rfl⟩
  unfold modify
  split
  case h_1 held => rw [known] at held; cases held
  case h_2 held => rw [known] at held; cases held; rfl

end Memory

/-! ## Datasets and registries -/

/-- The dataset holds what the registry describes. -/
structure Memory.Holds (m : Memory) (r : Registry) : Prop where
  order : m.branches.map Branch.id = r.order
  value : ∀ id, m.get? id = r.value id

namespace Memory.Holds

variable {m : Memory} {r : Registry}

theorem empty : Memory.empty.Holds .empty := ⟨rfl, fun _ => rfl⟩

theorem branches_eq (h : m.Holds r) : r.branches = m.branches := by
  unfold Registry.branches
  rw [← h.order, List.filterMap_map, ← funext h.value]
  exact (List.filterMap_congr fun b hb => Memory.get?_of_mem hb).trans List.filterMap_some

/-- A branch of a new identifier becomes the last one. -/
theorem enter (h : m.Holds r) {b : Branch} (new : m.get? b.id = none) {m' : Memory}
    (appended : m'.branches = m.branches ++ [b]) : m'.Holds (r.enter b) where
  order := by rw [appended, List.map_append, h.order]; rfl
  value id := by
    have old := h.value id
    unfold Memory.get? at old new ⊢
    rw [appended, List.find?_append]
    show _ = Function.update r.value b.id (some b) id
    by_cases same : id = b.id
    · subst same
      rw [new, Function.update_self]
      simp
    · have last : [b].find? (fun b => decide (b.id = id)) = none := by simp [Ne.symm same]
      rw [Function.update_of_ne same, last, Option.or_none, old]

theorem register (h : m.Holds r) (b : Branch) :
    (m.answer (.register b)).1 = (r.answer (.register b)).1 ∧
      (m.answer (.register b)).2.Holds (r.answer (.register b)).2 := by
  simp only [Memory.answer, Registry.answer, ← h.value b.id]
  cases found : m.get? b.id with
  | some old => rw [Memory.register_known found]; exact ⟨rfl, h⟩
  | none =>
    obtain ⟨m', registered, appended⟩ := Memory.register_new found
    rw [registered]
    exact ⟨rfl, h.enter found appended⟩

theorem modify (h : m.Holds r) (id : String) (change : Branch → Branch)
    (keepsId : ∀ b, (change b).id = b.id) :
    (Reply.ofResult m .changed (m.modify id change keepsId)).1 = (r.revise id change).1 ∧
      (Reply.ofResult m .changed (m.modify id change keepsId)).2.Holds (r.revise id change).2 := by
  unfold Registry.revise
  rw [← h.value id]
  cases found : m.get? id with
  | none => rw [Memory.modify_unknown keepsId found]; exact ⟨rfl, h⟩
  | some b =>
    obtain ⟨m', modified, revised⟩ := Memory.modify_known keepsId found
    rw [modified]
    refine ⟨rfl, ?_, fun other => ?_⟩
    · show m'.branches.map Branch.id = r.order
      rw [revised, Memory.revise_ids keepsId, h.order]
    · show m'.branches.find? (fun b => b.id = other) = _
      rw [revised, Memory.find?_revise keepsId]
      show (m.get? other).map _ = Function.update r.value id (some (change b)) other
      by_cases same : other = id
      · subst same
        rw [found, Function.update_self]
        simp [Memory.id_of_get? found]
      · rw [Function.update_of_ne same, ← h.value other]
        cases elsewhere : m.get? other with
        | none => rfl
        | some b' => simp [Memory.id_of_get? elsewhere, same]

/-- A call is answered alike, and the dataset goes on holding what the registry describes. -/
theorem answer (h : m.Holds r) (call : Call) :
    (m.answer call).1 = (r.answer call).1 ∧ (m.answer call).2.Holds (r.answer call).2 := by
  cases call with
  | register b => exact h.register b
  | updateStatus id status now =>
    exact h.modify id (fun b => { b with status, updatedAt := now }) fun _ => rfl
  | relocate id location now =>
    exact h.modify id (fun b => { b with location, updatedAt := now }) fun _ => rfl
  | get id => exact ⟨congrArg Reply.found (h.value id), h⟩
  | fetch fetch =>
    cases fetch with
    | all =>
      refine ⟨?_, h⟩
      show Reply.listed (m.branches.filter fun _ => true) = .listed r.branches
      rw [h.branches_eq, List.filter_true]
    | active => exact ⟨by rw [Registry.answer, h.branches_eq]; rfl, h⟩
    | approximate center radius => exact ⟨by rw [Registry.answer, h.branches_eq]; rfl, h⟩
    | box bounds => exact ⟨by rw [Registry.answer, h.branches_eq]; rfl, h⟩

theorem replies (h : m.Holds r) (calls : List Call) :
    (Nearby.replies Memory.answer m calls).1 = (Nearby.replies Registry.answer r calls).1 ∧
      (Nearby.replies Memory.answer m calls).2.Holds
        (Nearby.replies Registry.answer r calls).2 := by
  induction calls generalizing m r with
  | nil => exact ⟨rfl, h⟩
  | cons call calls ih =>
    obtain ⟨same, next⟩ := h.answer call
    obtain ⟨rest, last⟩ := ih next
    exact ⟨by rw [Nearby.replies, Nearby.replies, same, rest], last⟩

/-- Distinct branches that are registered one after the other make up the dataset of them. -/
theorem ofBranches {branches : List Branch} (distinct : (branches.map Branch.id).Nodup) :
    Memory.Holds ⟨branches, distinct⟩ (.ofBranches branches) := by
  induction branches using List.reverseRecOn with
  | nil => exact .empty
  | append_singleton branches b ih =>
    have parts := distinct
    rw [List.map_append, List.nodup_append] at parts
    obtain ⟨before, -, apart⟩ := parts
    have entered : Registry.ofBranches (branches ++ [b]) =
        (Registry.ofBranches branches).enter b := List.foldl_append
    rw [entered]
    refine (ih before).enter (Memory.get?_eq_none_iff.2 fun held => ?_) rfl
    exact apart b.id held b.id (by simp) rfl

end Memory.Holds

/-! ## The order of registration -/

namespace Registry

theorem order_revise (r : Registry) (id : String) (change : Branch → Branch) :
    (r.revise id change).2.order = r.order ∧ (r.revise id change).1.isRegistered = false := by
  unfold revise
  split <;> exact ⟨rfl, rfl⟩

/-- A call that registers makes the order one longer, and no other call changes it. -/
theorem length_order_answer (r : Registry) (call : Call) :
    (r.answer call).2.order.length =
      r.order.length + if (r.answer call).1.isRegistered then 1 else 0 := by
  cases call with
  | register b =>
    cases held : r.value b.id with
    | some old => simp [answer, held, Reply.isRegistered]
    | none => simp [answer, held, Reply.isRegistered, enter]
  | updateStatus id status now =>
    obtain ⟨same, idle⟩ := r.order_revise id fun b => { b with status, updatedAt := now }
    rw [answer, same, idle]; rfl
  | relocate id location now =>
    obtain ⟨same, idle⟩ := r.order_revise id fun b => { b with location, updatedAt := now }
    rw [answer, same, idle]; rfl
  | get id => rfl
  | fetch fetch => cases fetch <;> rfl

theorem length_order_replies (r : Registry) (calls : List Call) :
    (replies answer r calls).2.order.length =
      r.order.length + (replies answer r calls).1.countP Reply.isRegistered := by
  induction calls generalizing r with
  | nil => rfl
  | cons call calls ih =>
    rw [replies, List.countP_cons, ih, length_order_answer]
    omega

theorem length_order_ofBranches (branches : List Branch) :
    (ofBranches branches).order.length = branches.length := by
  induction branches using List.reverseRecOn with
  | nil => rfl
  | append_singleton branches b ih =>
    rw [ofBranches, List.foldl_append]
    show ((ofBranches branches).order ++ [b.id]).length = _
    rw [List.length_append, List.length_append, ih]; rfl

end Registry

/-! ## Refinement -/

theorem Memory.branches_ofBranches {initial : List Branch} {start : Memory}
    (accepted : Memory.ofBranches initial = .ok start) : start.branches = initial := by
  unfold Memory.ofBranches at accepted
  split at accepted
  · cases accepted
  · cases accepted; rfl

/-- From any branches that are accepted, a dataset replies to any calls as the registry of these
branches does, and afterwards holds what the registry describes. Its identifiers are then distinct,
and it has grown by the calls that registered a branch. -/
theorem memory_refines_registry {initial : List Branch} {start : Memory}
    (accepted : Memory.ofBranches initial = .ok start) (calls : List Call) :
    (replies Memory.answer start calls).1 =
        (replies Registry.answer (.ofBranches initial) calls).1 ∧
      (replies Memory.answer start calls).2.branches =
        (replies Registry.answer (.ofBranches initial) calls).2.branches ∧
      ((replies Memory.answer start calls).2.branches.map Branch.id).Nodup ∧
      (replies Memory.answer start calls).2.size =
        initial.length + (replies Memory.answer start calls).1.countP Reply.isRegistered := by
  have begun : start.Holds (.ofBranches initial) := by
    rw [← Memory.branches_ofBranches accepted]
    exact .ofBranches start.distinct
  obtain ⟨same, held⟩ := begun.replies calls
  refine ⟨same, held.branches_eq.symm, Memory.distinct _, ?_⟩
  calc (replies Memory.answer start calls).2.size
      = (replies Registry.answer (.ofBranches initial) calls).2.order.length := by
        rw [← held.order, List.length_map]; rfl
    _ = initial.length + (replies Memory.answer start calls).1.countP Reply.isRegistered := by
        rw [Registry.length_order_replies, Registry.length_order_ofBranches, same]

/-- Of four calls one registers a branch; the others name a taken identifier, a known one and one
that is not known. -/
theorem memory_refines_registry_of_sample :
    let calls : List Call :=
      [.register (Sample.branch "a" Sample.pole .digital .planned),
        .updateStatus "d" .active Sample.newYear, .relocate "z" Sample.pole Sample.newYear,
        .register (Sample.branch "e" Sample.pole .digital .planned)]
    let start : Memory := ⟨Sample.branches, by decide⟩
    Memory.ofBranches Sample.branches = .ok start ∧
      (replies Memory.answer start calls).1 =
        (replies Registry.answer (.ofBranches Sample.branches) calls).1 ∧
      (replies Memory.answer start calls).2.size = 5 := by
  intro calls start
  have accepted : Memory.ofBranches Sample.branches = .ok start := by rfl
  obtain ⟨same, -, -, size⟩ := memory_refines_registry accepted calls
  exact ⟨accepted, same, size⟩

end Nearby
