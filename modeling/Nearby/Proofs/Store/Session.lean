/-
Sessions with a cached dataset: writes at the far end of the line, outages of the line, dropped
snapshots and searches through the cache, in any number and order. Beside the session runs the
dataset alone, which takes the same writes and answers the same searches without cache or line.
-/
import Nearby.Search.Basic
import Nearby.Store.Cache
import Nearby.Store.Memory
import Nearby.Store.Remote
import Mathlib.Data.List.Induction

namespace Nearby

open Geo Time

/-! ## One fetch through a cache -/

namespace Cache

variable {σ : Type} {inner : Source σ} {c : Cache σ} {data : List Branch} {state : σ}

theorem load_held (held : c.snapshot = some data) :
    load inner c = (.ok data, { c with hits := c.hits + 1 }) := by
  unfold load
  rw [held]

theorem load_answered (empty : c.snapshot = none)
    (answered : inner.fetch .all c.inner = (.ok data, state)) :
    load inner c =
      (.ok data, { c with inner := state, snapshot := some data, misses := c.misses + 1 }) := by
  unfold load
  simp only [empty, answered]

/-- A load that fails passes its fault on and leaves no snapshot. -/
theorem load_failed (empty : c.snapshot = none) {fault : Fault}
    (failed : inner.fetch .all c.inner = (.error fault, state)) :
    load inner c = (.error fault, { c with inner := state, misses := c.misses + 1 }) := by
  unfold load
  simp only [empty, failed]

theorem fetch_eq [Trigonometry] (fetch : Fetch) :
    (source inner).fetch fetch c =
      ((load inner c).1.map fun branches => branches.filter fetch.admits, (load inner c).2) :=
  rfl

end Cache

/-! ## Searches on a dataset in memory -/

namespace Search

variable {α σ : Type}

theorem run_memory_state (m : Memory) : ∀ search : Search α, (search.run Memory.source m).2 = m
  | done _ => rfl
  | ask fetch next => run_memory_state m (next (m.select fetch))

/-- A search that is a single fetch. -/
theorem run_fetch (source : Source σ) (fetch : Fetch) (state : σ) :
    ((ask fetch fun found => done (.ok found)).run source state).1 =
      (source.fetch fetch state).1 := by
  unfold run
  split
  case h_1 found state' fetched => rw [fetched]; rfl
  case h_2 fault state' fetched => rw [fetched]

/-- With a snapshot a search answers as on the snapshot alone, and counts hits. -/
theorem run_held (inner : Source σ) {data : List Branch} :
    ∀ (search : Search α) (c : Cache σ), c.snapshot = some data →
      ∃ answer hits, search.run (Cache.source inner) c = (answer, { c with hits := hits }) ∧
        ∀ shown : Memory, shown.branches = data → answer = (search.run Memory.source shown).1
  | done answer, c, _ => ⟨answer, c.hits, rfl, fun _ _ => rfl⟩
  | ask fetch next, c, held => by
    obtain ⟨answer, hits, ran, alone⟩ :=
      run_held inner (next (data.filter fetch.admits)) { c with hits := c.hits + 1 } held
    refine ⟨answer, hits, ?_, ?_⟩
    · rw [run, Cache.fetch_eq, Cache.load_held held]
      exact ran
    · rintro shown rfl
      exact alone shown rfl

/-- The first fetch of a search loads the snapshot, and the rest of it is answered from there. -/
theorem run_loaded {inner : Source σ} {shown : Memory} {c : Cache σ} {state : σ}
    (empty : c.snapshot = none)
    (answered : inner.fetch .all c.inner = (.ok shown.branches, state)) (fetch : Fetch)
    (next : List Branch → Search α) :
    ∃ hits, (ask fetch next).run (Cache.source inner) c =
      (((ask fetch next).run Memory.source shown).1,
        { inner := state, snapshot := some shown.branches, hits, misses := c.misses + 1 }) := by
  obtain ⟨answer, hits, ran, alone⟩ := run_held inner (next (shown.select fetch))
    { c with inner := state, snapshot := some shown.branches, misses := c.misses + 1 } rfl
  refine ⟨hits, ?_⟩
  rw [run, Cache.fetch_eq, Cache.load_answered empty answered, run]
  show run (Cache.source inner) (next (shown.select fetch)) _ =
    ((run Memory.source (next (shown.select fetch)) shown).1, _)
  rw [ran, alone shown rfl]

theorem run_failed {inner : Source σ} {c : Cache σ} {state : σ} {fault : Fault}
    (empty : c.snapshot = none) (failed : inner.fetch .all c.inner = (.error fault, state))
    (fetch : Fetch) (next : List Branch → Search α) :
    (ask fetch next).run (Cache.source inner) c =
      (.error fault, { c with inner := state, misses := c.misses + 1 }) := by
  rw [run, Cache.fetch_eq, Cache.load_failed empty failed]
  rfl

end Search

/-! ## Writes -/

/-- A change to a dataset. -/
inductive Write where
  | register (b : Branch)
  | updateStatus (id : String) (status : Status) (now : Timestamp)
  | relocate (id : String) (location : Point) (now : Timestamp)

/-- The changed dataset, unless the write is refused. -/
def Write.attempt : Write → Memory → Except Fault Memory
  | register b, m => m.register b
  | updateStatus id status now, m => (m.updateStatus id status now).map Prod.snd
  | relocate id location now, m => (m.relocate id location now).map Prod.snd

/-- The dataset after a write. One that is refused leaves it as it was. -/
def Write.apply (w : Write) (m : Memory) : Memory := (w.attempt m).toOption.getD m

/-! ## Sessions -/

namespace Session

/-- A cache in front of a line to a dataset in memory. -/
abbrev State := Cache (Remote Memory)

/-- The dataset at the far end of the line. -/
def far : Source (Remote Memory) := Remote.source Memory.source

/-- The dataset as it is read through the cache. -/
def cached : Source State := Cache.source far

/-- One step of a session. -/
inductive Step : Type 1 where
  | write (w : Write)
  | line (down : Bool) (allowance : Option Nat)
  | invalidate
  | read {α : Type} (search : Search α)

/-- The state after a step. -/
def Step.apply : Step → State → State
  | write w, c => { c with inner := { c.inner with store := w.apply c.inner.store } }
  | line down allowance, c => { c with inner := { c.inner with down, allowance } }
  | invalidate, c => c.invalidate
  | read search, c => (search.run cached c).2

/-- The dataset alone after a step. -/
def Step.applyAlone : Step → Memory → Memory
  | write w, m => w.apply m
  | line _ _, m => m
  | invalidate, m => m
  | read search, m => (search.run Memory.source m).2

/-- The state after the steps. -/
def run (steps : List Step) (start : State) : State :=
  steps.foldl (fun c step => step.apply c) start

/-- The dataset alone after the steps. -/
def runAlone (steps : List Step) (start : Memory) : Memory :=
  steps.foldl (fun m step => step.applyAlone m) start

theorem run_append (steps more : List Step) (start : State) :
    run (steps ++ more) start = run more (run steps start) :=
  List.foldl_append

theorem run_snoc (steps : List Step) (step : Step) (start : State) :
    run (steps ++ [step]) start = step.apply (run steps start) :=
  run_append steps [step] start

theorem runAlone_snoc (steps : List Step) (step : Step) (start : Memory) :
    runAlone (steps ++ [step]) start = step.applyAlone (runAlone steps start) :=
  List.foldl_append

/-! ## The line -/

/-- The line is not down and refuses nothing. -/
def Open (r : Remote Memory) : Prop := r.down = false ∧ r.allowance = none

theorem select_all (m : Memory) : m.select .all = m.branches := List.filter_eq_self.2 fun _ _ => rfl

theorem far_open {r : Remote Memory} (isOpen : Open r) :
    ∃ r', Open r' ∧ far.fetch .all r = (.ok r.store.branches, r') := by
  obtain ⟨up, unlimited⟩ := isOpen
  refine ⟨{ r with log := r.log ++ [.all], allowance := none }, ⟨up, rfl⟩, ?_⟩
  show Remote.send Memory.source .all r = _
  unfold Remote.send
  rw [unlimited, up, ← select_all r.store]; rfl

/-- Over the line comes the whole dataset or a fault. The line notes the fetch, and the dataset
stays as it is. -/
theorem far_cases (r : Remote Memory) :
    ∃ r', r'.store = r.store ∧ r'.log = r.log ++ [.all] ∧
      (far.fetch .all r = (.ok r.store.branches, r') ∨
        ∃ fault, far.fetch .all r = (.error fault, r')) := by
  show ∃ r', r'.store = r.store ∧ r'.log = r.log ++ [.all] ∧
    (Remote.send Memory.source .all r = (.ok r.store.branches, r') ∨
      ∃ fault, Remote.send Memory.source .all r = (.error fault, r'))
  unfold Remote.send
  split
  · -- a used up allowance weighs more than a line that is down
    exact ⟨{ r with log := r.log ++ [.all] }, rfl, rfl, .inr ⟨_, rfl⟩⟩
  · refine ⟨{ r with log := r.log ++ [.all], allowance := r.allowance.map (· - 1) },
      rfl, rfl, ?_⟩
    simp only
    split
    · exact .inr ⟨_, rfl⟩
    · rw [← select_all r.store]
      exact .inl rfl

end Session

end Nearby
