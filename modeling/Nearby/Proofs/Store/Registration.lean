/-
Loading a dataset at once and registering its branches one after the other come to the same. The
sweep over the whole list keeps the identifiers that it has passed, and a registration looks into
the dataset as it has grown so far; the two hold the same identifiers at every branch. So they
accept the same lists, with the same dataset, and refuse the others for the same branch, the
earliest one whose identifier occurs before it.
-/
import Nearby.Proofs.Store.Registry

namespace Nearby

/-! ## The first repeated identifier -/

section Repeated

variable {seen before after : List String} {id : String}

/-- The sweep passes identifiers that are new and ends at one that is not. -/
theorem firstRepeated_append (distinct : before.Nodup) (fresh : ∀ x ∈ before, x ∉ seen)
    (taken : id ∈ seen ∨ id ∈ before) : firstRepeated seen (before ++ id :: after) = some id := by
  induction before generalizing seen with
  | nil =>
    have held : id ∈ seen := taken.resolve_right List.not_mem_nil
    simp [firstRepeated, held]
  | cons x before ih =>
    obtain ⟨apart, distinct⟩ := List.nodup_cons.1 distinct
    have new : x ∉ seen := fresh x List.mem_cons_self
    simp only [List.cons_append, firstRepeated, List.contains_iff_mem, new, if_false]
    refine ih distinct ?_ ?_
    · intro y among
      rw [List.mem_cons, not_or]
      exact ⟨fun same => apart (same ▸ among), fresh y (List.mem_cons_of_mem _ among)⟩
    · rw [List.mem_cons] at taken ⊢
      tauto

/-- Where the sweep ends, all identifiers before are new and this one is not. -/
theorem exists_of_firstRepeated {ids : List String} (found : firstRepeated seen ids = some id) :
    ∃ before after, ids = before ++ id :: after ∧ before.Nodup ∧ (∀ x ∈ before, x ∉ seen) ∧
      (id ∈ seen ∨ id ∈ before) := by
  induction ids generalizing seen with
  | nil => cases found
  | cons x rest ih =>
    by_cases held : x ∈ seen
    · simp only [firstRepeated, List.contains_iff_mem, held, if_true, Option.some.injEq] at found
      subst found
      exact ⟨[], rest, rfl, List.nodup_nil, by simp, .inl held⟩
    · simp only [firstRepeated, List.contains_iff_mem, held, if_false] at found
      obtain ⟨before, after, rfl, distinct, fresh, taken⟩ := ih found
      refine ⟨x :: before, after, rfl, List.nodup_cons.2 ⟨?_, distinct⟩, ?_, ?_⟩
      · intro among
        exact fresh x among List.mem_cons_self
      · rintro y (_ | ⟨_, among⟩)
        · exact held
        · exact fun old => fresh y among (List.mem_cons_of_mem _ old)
      · rw [List.mem_cons] at taken ⊢
        tauto

/-- The first repeated identifier of a list is the one of its earliest entry that occurs before. -/
theorem firstRepeated_eq_some_iff {ids : List String} :
    firstRepeated [] ids = some id ↔
      ∃ before after, ids = before ++ id :: after ∧ before.Nodup ∧ id ∈ before := by
  constructor
  · intro found
    obtain ⟨before, after, split, distinct, -, taken⟩ := exists_of_firstRepeated found
    exact ⟨before, after, split, distinct, taken.resolve_left List.not_mem_nil⟩
  · rintro ⟨before, after, rfl, distinct, among⟩
    exact firstRepeated_append distinct (fun _ _ => List.not_mem_nil) (.inr among)

theorem firstRepeated_eq_none {ids : List String} (distinct : ids.Nodup) :
    firstRepeated [] ids = none := by
  cases found : firstRepeated [] ids with
  | none => rfl
  | some id =>
    obtain ⟨before, after, rfl, -, among⟩ := firstRepeated_eq_some_iff.1 found
    have apart := (List.nodup_append.1 distinct).2.2
    exact absurd rfl (apart id among id List.mem_cons_self)

end Repeated

namespace Memory

/-! ## One registration after the other -/

section Registered

variable {m : Memory} {seen : List String} {rest : List Branch}

/-- The sweep has passed the identifiers of the dataset. -/
def Seen (m : Memory) (seen : List String) : Prop := ∀ id, id ∈ seen ↔ id ∈ m.branches.map Branch.id

/-- A branch of an identifier that the sweep has passed is not registered. -/
theorem Seen.register_taken (same : m.Seen seen) {b : Branch} (taken : b.id ∈ seen) :
    m.register b = .error (.duplicateBranch b.id) := by
  cases found : m.get? b.id with
  | none => exact absurd ((same b.id).1 taken) (get?_eq_none_iff.1 found)
  | some old => exact register_known found

/-- Any other branch is, and then the sweep has passed it as well. -/
theorem Seen.register_new (same : m.Seen seen) {b : Branch} (new : b.id ∉ seen) :
    ∃ m', m.register b = .ok m' ∧ m'.branches = m.branches ++ [b] ∧ m'.Seen (b.id :: seen) := by
  have unknown : m.get? b.id = none := get?_eq_none_iff.2 fun held => new ((same b.id).2 held)
  obtain ⟨m', registered, appended⟩ := Memory.register_new unknown
  refine ⟨m', registered, appended, fun id => ?_⟩
  rw [appended, List.map_append, List.mem_append, List.mem_cons, same id, or_comm]
  simp

/-- Registering ends at the identifier at which the sweep does. -/
theorem foldlM_register_some (same : m.Seen seen) {id : String}
    (found : firstRepeated seen (rest.map Branch.id) = some id) :
    rest.foldlM register m = .error (.duplicateBranch id) := by
  induction rest generalizing m seen with
  | nil => cases found
  | cons b rest ih =>
    rw [List.foldlM_cons]
    by_cases taken : b.id ∈ seen
    · simp only [List.map_cons, firstRepeated, List.contains_iff_mem, taken, if_true,
        Option.some.injEq] at found
      rw [same.register_taken taken, found]
      rfl
    · simp only [List.map_cons, firstRepeated, List.contains_iff_mem, taken, if_false] at found
      obtain ⟨m', registered, -, same'⟩ := same.register_new taken
      rw [registered]
      exact ih same' found

/-- Where the sweep finds nothing, all branches are registered behind those already there. -/
theorem foldlM_register_none (same : m.Seen seen)
    (none : firstRepeated seen (rest.map Branch.id) = none) :
    ∃ m', rest.foldlM register m = .ok m' ∧ m'.branches = m.branches ++ rest := by
  induction rest generalizing m seen with
  | nil => exact ⟨m, rfl, (List.append_nil _).symm⟩
  | cons b rest ih =>
    rw [List.foldlM_cons]
    by_cases taken : b.id ∈ seen
    · simp only [List.map_cons, firstRepeated, List.contains_iff_mem, taken, if_true,
        reduceCtorEq] at none
    · simp only [List.map_cons, firstRepeated, List.contains_iff_mem, taken, if_false] at none
      obtain ⟨m', registered, appended, same'⟩ := same.register_new taken
      obtain ⟨m'', others, all⟩ := ih same' none
      refine ⟨m'', ?_, ?_⟩
      · rw [registered]
        exact others
      · rw [all, appended, List.append_assoc]
        rfl

theorem seen_empty : Memory.empty.Seen [] := fun _ => Iff.rfl

end Registered

/-! ## All at once -/

variable {branches : List Branch}

theorem ofBranches_some {id : String}
    (found : firstRepeated [] (branches.map Branch.id) = some id) :
    Memory.ofBranches branches = .error (.duplicateBranch id) := by
  unfold ofBranches
  split
  case h_1 other held => rw [found] at held; cases held; rfl
  case h_2 held => rw [found] at held; cases held

theorem ofBranches_ok_iff {m : Memory} :
    Memory.ofBranches branches = .ok m ↔ m.branches = branches := by
  constructor
  · exact branches_ofBranches
  · rintro rfl
    unfold ofBranches
    split
    case h_1 id held => rw [firstRepeated_eq_none m.distinct] at held; cases held
    case h_2 held => rfl

/-- Branches are refused for the earliest one whose identifier occurs before it. -/
theorem ofBranches_error_iff {fault : Fault} :
    Memory.ofBranches branches = .error fault ↔
      ∃ before b after, branches = before ++ b :: after ∧ (before.map Branch.id).Nodup ∧
        b.id ∈ before.map Branch.id ∧ fault = .duplicateBranch b.id := by
  constructor
  · intro refused
    cases found : firstRepeated [] (branches.map Branch.id) with
    | none =>
      have accepted := ofBranches_ok_iff (m := ⟨branches, (nodup_of_firstRepeated found).1⟩).2 rfl
      rw [accepted] at refused
      cases refused
    | some id =>
      rw [ofBranches_some found] at refused
      cases refused
      obtain ⟨first, last, split, distinct, among⟩ := firstRepeated_eq_some_iff.1 found
      obtain ⟨before, others, rfl, rfl, tail⟩ := List.map_eq_append_iff.1 split
      obtain ⟨b, after, rfl, rfl, -⟩ := List.map_eq_cons_iff.1 tail
      exact ⟨before, b, after, rfl, distinct, among, rfl⟩
  · rintro ⟨before, b, after, rfl, distinct, among, rfl⟩
    have split : (before ++ b :: after).map Branch.id =
        before.map Branch.id ++ b.id :: after.map Branch.id := by
      rw [List.map_append, List.map_cons]
    exact ofBranches_some (firstRepeated_eq_some_iff.2 ⟨_, _, split, distinct, among⟩)

theorem ofBranches_eq_foldlM : Memory.ofBranches branches = branches.foldlM register empty := by
  cases found : firstRepeated [] (branches.map Branch.id) with
  | some id => rw [ofBranches_some found, foldlM_register_some seen_empty found]
  | none =>
    obtain ⟨m, registered, all⟩ := foldlM_register_none seen_empty found
    rw [registered, ofBranches_ok_iff]
    exact all

/-- Loading branches at once does what registering them one after the other on an empty dataset
does, up to the first registration that fails and with its fault. They are loaded if and only if
there is a dataset of just these branches in this order, which then is the answer; else the fault
names the earliest branch whose identifier occurs before it. -/
theorem ofBranches_registers (branches : List Branch) :
    Memory.ofBranches branches = branches.foldlM register empty ∧
      (∀ m, Memory.ofBranches branches = .ok m ↔ m.branches = branches) ∧
      ∀ fault, Memory.ofBranches branches = .error fault ↔
        ∃ before b after, branches = before ++ b :: after ∧ (before.map Branch.id).Nodup ∧
          b.id ∈ before.map Branch.id ∧ fault = .duplicateBranch b.id :=
  ⟨ofBranches_eq_foldlM, fun _ => ofBranches_ok_iff, fun _ => ofBranches_error_iff⟩

/-- Of two repeated identifiers the one that is repeated first is named. -/
example (b c : Branch) (apart : b.id ≠ c.id) :
    Memory.ofBranches [b, c, c, b] = .error (.duplicateBranch c.id) :=
  ofBranches_error_iff.2 ⟨[b, c], c, [b], rfl, by simp [apart], by simp, rfl⟩

end Memory

end Nearby
