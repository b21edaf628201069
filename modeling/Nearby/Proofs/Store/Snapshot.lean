/-
What a cached dataset shows. At any time in a session the snapshot is the dataset as it stood at
the last load, and there has been no invalidation since. While it is held, everything is answered
as on a dataset in memory that holds just this snapshot, and the line is not touched; without one,
the next fetch goes over the line, and either shows the dataset as it is or passes on the fault
and leaves no snapshot. So without outages, and with an invalidation after every write, the cache
cannot be told from the dataset alone.
-/
import Nearby.Proofs.Store.Session

namespace Nearby.Session

/-! ## Loads -/

/-- The step loads a snapshot: it fetches, there is none, and the line answers. -/
def Loads (c : State) : Step → Prop
  | .read (.ask _ _) => c.snapshot = none ∧ ∃ data r, far.fetch .all c.inner = (.ok data, r)
  | _ => False

/-- The load is the last of the steps that loads, and none after it invalidates. -/
structure LastLoad (start : State) (steps before : List Step) (load : Step)
    (after : List Step) : Prop where
  split : steps = before ++ load :: after
  loads : Loads (run before start) load
  last : ∀ mid later rest, after = mid ++ later :: rest →
    ¬ Loads (run (before ++ load :: mid) start) later
  kept : .invalidate ∉ after

/-! ## One step -/

/-- What a search may do to a session: it leaves the line alone or sends one fetch of the whole
dataset over it, and the snapshot changes only when this loads. -/
theorem read_cases {α : Type} (search : Search α) (c : State) :
    ((search.run cached c).2.inner = c.inner ∨
        (search.run cached c).2.inner = (far.fetch .all c.inner).2) ∧
      (Loads c (.read search) →
        (search.run cached c).2.snapshot = some c.inner.store.branches) ∧
      (¬ Loads c (.read search) → (search.run cached c).2.snapshot = c.snapshot) := by
  cases search with
  | done answer => exact ⟨.inl rfl, False.elim, fun _ => rfl⟩
  | ask fetch next =>
    cases held : c.snapshot with
    | some data =>
      obtain ⟨answer, hits, ran, -⟩ := Search.run_held far (.ask fetch next) c held
      rw [cached, ran]
      refine ⟨.inl rfl, ?_, fun _ => held⟩
      rintro ⟨empty, -⟩
      rw [held] at empty
      cases empty
    | none =>
      obtain ⟨r, -, -, answered | ⟨fault, failed⟩⟩ := far_cases c.inner
      · obtain ⟨hits, ran⟩ := Search.run_loaded held answered fetch next
        rw [cached, ran, answered]
        exact ⟨.inr rfl, fun _ => rfl, fun idle => absurd ⟨held, _, r, answered⟩ idle⟩
      · rw [cached, Search.run_failed held failed, failed]
        refine ⟨.inr rfl, ?_, fun _ => held⟩
        rintro ⟨-, data, r', answered⟩
        rw [failed] at answered
        cases answered

/-- The far dataset goes through a step as the dataset alone does. -/
theorem store_apply (step : Step) (c : State) :
    (step.apply c).inner.store = step.applyAlone c.inner.store := by
  cases step with
  | write w => rfl
  | line down allowance => rfl
  | invalidate => rfl
  | read search =>
    show (search.run cached c).2.inner.store = (search.run Memory.source c.inner.store).2
    rw [Search.run_memory_state]
    rcases (read_cases search c).1 with same | sent
    · rw [same]
    · obtain ⟨r, kept, -, answered | ⟨fault, failed⟩⟩ := far_cases c.inner
      · rw [sent, answered]; exact kept
      · rw [sent, failed]; exact kept

theorem open_read {α : Type} (search : Search α) {c : State} (isOpen : Open c.inner) :
    Open (search.run cached c).2.inner := by
  rcases (read_cases search c).1 with same | sent
  · rw [same]; exact isOpen
  · obtain ⟨r, isOpen', answered⟩ := far_open isOpen
    rw [sent, answered]; exact isOpen'

theorem snapshot_of_loads {step : Step} {c : State} (loads : Loads c step) :
    (step.apply c).snapshot = some c.inner.store.branches := by
  cases step with
  | read search => exact (read_cases search c).2.1 loads
  | _ => exact loads.elim

/-- Steps that neither load nor invalidate leave the snapshot alone. -/
theorem snapshot_of_not_loads {step : Step} {c : State} (idle : ¬ Loads c step)
    (keeps : step ≠ .invalidate) : (step.apply c).snapshot = c.snapshot := by
  cases step with
  | write w => rfl
  | line down allowance => rfl
  | invalidate => exact absurd rfl keeps
  | read search => exact (read_cases search c).2.2 idle

theorem snapshot_ne_none_of_loads {step : Step} {c : State} (loads : Loads c step) :
    c.snapshot = none := by
  cases step with
  | read search =>
    cases search with
    | done answer => exact loads.elim
    | ask fetch next => exact loads.1
  | _ => exact loads.elim

/-! ## Whole sessions -/

theorem store_run (steps : List Step) (start : State) :
    (run steps start).inner.store = runAlone steps start.inner.store := by
  induction steps using List.reverseRecOn with
  | nil => rfl
  | append_singleton steps step ih => rw [run_snoc, runAlone_snoc, store_apply, ih]

/-- A snapshot that a step loads is held until the next invalidation. -/
theorem snapshot_after {start : State} {before : List Step} {step : Step}
    (loads : Loads (run before start) step) (after : List Step) (kept : .invalidate ∉ after) :
    (run (before ++ step :: after) start).snapshot =
      some (run before start).inner.store.branches := by
  induction after using List.reverseRecOn with
  | nil => rw [run_snoc]; exact snapshot_of_loads loads
  | append_singleton after last ih =>
    rw [List.mem_append, not_or] at kept
    have held := ih kept.1
    have split : before ++ step :: (after ++ [last]) = (before ++ step :: after) ++ [last] := by
      simp
    rw [split, run_snoc, snapshot_of_not_loads, held]
    · -- a second load would have found no snapshot
      intro again
      rw [snapshot_ne_none_of_loads again] at held
      cases held
    · rintro rfl
      exact kept.2 (List.mem_singleton.2 rfl)

/-- A step that neither loads nor invalidates leaves the last load where it was. -/
theorem LastLoad.snoc {start : State} {steps before after : List Step} {load step : Step}
    (h : LastLoad start steps before load after) (idle : ¬ Loads (run steps start) step)
    (keeps : step ≠ .invalidate) :
    LastLoad start (steps ++ [step]) before load (after ++ [step]) := by
  obtain ⟨rfl, loads, last, kept⟩ := h
  refine ⟨by simp, loads, ?_, ?_⟩
  · intro mid later rest split
    rcases List.eq_nil_or_concat rest with rfl | ⟨rest, final, rfl⟩
    · obtain ⟨rfl, same⟩ := List.append_inj' split rfl
      cases same
      exact idle
    · rw [List.concat_eq_append, ← List.cons_append, ← List.append_assoc] at split
      exact last mid later rest (List.append_inj' split rfl).1
  · rw [List.mem_append, List.mem_singleton]
    rintro (old | new)
    · exact kept old
    · exact keeps new.symm

/-- The snapshot is what the last load found, if there has been no invalidation since. -/
theorem snapshot_eq_some_iff {start : State} (fresh : start.snapshot = none) (steps : List Step)
    (data : List Branch) :
    (run steps start).snapshot = some data ↔
      ∃ before load after, LastLoad start steps before load after ∧
        (run before start).inner.store.branches = data := by
  constructor
  · induction steps using List.reverseRecOn with
    | nil =>
      intro held
      rw [show (run [] start).snapshot = none from fresh] at held
      cases held
    | append_singleton steps step ih =>
      rw [run_snoc]
      intro held
      by_cases loads : Loads (run steps start) step
      · -- the step is the last load itself, and nothing comes after it
        rw [snapshot_of_loads loads] at held
        refine ⟨steps, step, [], ⟨rfl, loads, ?_, List.not_mem_nil⟩, Option.some.inj held⟩
        intro mid later rest nothing
        exact absurd nothing.symm (by simp)
      · have keeps : step ≠ .invalidate := by rintro rfl; cases held
        rw [snapshot_of_not_loads loads keeps] at held
        obtain ⟨before, load, after, last, shown⟩ := ih held
        exact ⟨before, load, after ++ [step], last.snoc loads keeps, shown⟩
  · rintro ⟨before, load, after, ⟨rfl, loads, -, kept⟩, rfl⟩
    exact snapshot_after loads after kept

/-! ## What is shown -/

/-- Every fetch and every search through the cache is answered as on the dataset. -/
structure Shows (c : State) (m : Memory) : Prop where
  fetches : ∀ fetch, (cached.fetch fetch c).1 = (Memory.source.fetch fetch m).1
  searches : ∀ {α : Type} (search : Search α),
    (search.run cached c).1 = (search.run Memory.source m).1

theorem shows_of_searches {c : State} {m : Memory}
    (searches : ∀ {α : Type} (search : Search α),
      (search.run cached c).1 = (search.run Memory.source m).1) : Shows c m where
  fetches fetch := by rw [← Search.run_fetch, ← Search.run_fetch, searches]
  searches := searches

theorem shows_held {c : State} {shown : Memory} (held : c.snapshot = some shown.branches) :
    Shows c shown := by
  refine shows_of_searches fun search => ?_
  obtain ⟨answer, hits, ran, alone⟩ := Search.run_held far search c held
  rw [cached, ran]
  exact alone shown rfl

theorem shows_loaded {c : State} {shown : Memory} {r : Remote Memory} (empty : c.snapshot = none)
    (answered : far.fetch .all c.inner = (.ok shown.branches, r)) : Shows c shown := by
  refine shows_of_searches fun search => ?_
  cases search with
  | done answer => rfl
  | ask fetch next =>
    obtain ⟨hits, ran⟩ := Search.run_loaded empty answered fetch next
    rw [cached, ran]

/-! ## Without outages -/

theorem open_run {steps : List Step} {start : State} (isOpen : Open start.inner)
    (calm : ∀ down allowance, .line down allowance ∉ steps) : Open (run steps start).inner := by
  induction steps using List.reverseRecOn with
  | nil => exact isOpen
  | append_singleton steps step ih =>
    rw [run_snoc]
    have before := ih fun down allowance outage => calm down allowance (by simp [outage])
    cases step with
    | write w => exact before
    | line down allowance => exact absurd (by simp) (calm down allowance)
    | invalidate => exact before
    | read search => exact open_read search before

theorem runAlone_of_no_write {steps : List Step} (unwritten : ∀ w, .write w ∉ steps)
    (m : Memory) : runAlone steps m = m := by
  induction steps using List.reverseRecOn with
  | nil => rfl
  | append_singleton steps step ih =>
    rw [runAlone_snoc, ih fun w written => unwritten w (by simp [written])]
    cases step with
    | write w => exact absurd (by simp) (unwritten w)
    | line down allowance => rfl
    | invalidate => rfl
    | read search => exact Search.run_memory_state m search

/-- Every write is followed by an invalidation. -/
def Settled (steps : List Step) : Prop :=
  ∀ before w after, steps = before ++ .write w :: after → .invalidate ∈ after

/-- If every write is followed by an invalidation, there is none since the last load. -/
theorem LastLoad.runAlone_eq {start : State} {steps before after : List Step} {load : Step}
    (h : LastLoad start steps before load after) (settled : Settled steps) (m : Memory) :
    runAlone steps m = runAlone before m := by
  obtain ⟨rfl, loads, -, kept⟩ := h
  have unwritten : ∀ w, .write w ∉ load :: after := by
    -- a write from the load on would be followed by an invalidation there
    intro w written
    obtain ⟨early, late, split⟩ := List.append_of_mem written
    have dropped : .invalidate ∈ load :: after := by
      rw [split]
      have later := settled (before ++ early) w late (by rw [split, List.append_assoc])
      simp [later]
    rcases List.mem_cons.1 dropped with rfl | later
    · exact loads
    · exact kept later
  show List.foldl _ m _ = _
  rw [List.foldl_append]
  exact runAlone_of_no_write unwritten _

/-! ## Transparency -/

/-- How a session with a cached dataset looks from outside. -/
structure Transparent (start : State) (steps : List Step) : Prop where
  /-- The snapshot is the dataset at the last load, if nothing has invalidated it since. -/
  snapshot : ∀ data, (run steps start).snapshot = some data ↔
    ∃ before load after, LastLoad start steps before load after ∧
      (run before start).inner.store.branches = data
  /-- A snapshot is shown in every state of the line. -/
  held : ∀ shown : Memory, (run steps start).snapshot = some shown.branches →
    ∀ r, Shows { run steps start with inner := r } shown
  /-- Without a snapshot each fetch sends one over the line. -/
  asks : (run steps start).snapshot = none → ∀ fetch,
    (cached.fetch fetch (run steps start)).2.inner.log = (run steps start).inner.log ++ [.all]
  /-- If the line then answers, the dataset is shown as it is. -/
  answered : (run steps start).snapshot = none →
    ∀ data r, far.fetch .all (run steps start).inner = (.ok data, r) →
      Shows (run steps start) (run steps start).inner.store
  /-- If it fails, its fault is passed on, by searches too, and there is still no snapshot. -/
  failed : (run steps start).snapshot = none →
    ∀ fault r, far.fetch .all (run steps start).inner = (.error fault, r) → ∀ fetch,
      ∃ c : State, cached.fetch fetch (run steps start) = (.error fault, c) ∧
        c.snapshot = none ∧ c.inner = r ∧ ∀ {α : Type} (next : List Branch → Search α),
          (Search.ask fetch next).run cached (run steps start) = (.error fault, c)
  /-- Without outages and with an invalidation after every write, all that can be seen is the
  dataset alone. -/
  current : Open start.inner → (∀ down allowance, .line down allowance ∉ steps) →
    Settled steps → Shows (run steps start) (runAlone steps start.inner.store)

theorem shows_current {start : State} {steps : List Step} (fresh : start.snapshot = none)
    (isOpen : Open start.inner) (calm : ∀ down allowance, .line down allowance ∉ steps)
    (settled : Settled steps) : Shows (run steps start) (runAlone steps start.inner.store) := by
  cases held : (run steps start).snapshot with
  | none =>
    obtain ⟨r, -, answered⟩ := far_open (open_run isOpen calm)
    rw [store_run] at answered
    exact shows_loaded held answered
  | some data =>
    obtain ⟨before, load, after, last, rfl⟩ := (snapshot_eq_some_iff fresh steps data).1 held
    rw [last.runAlone_eq settled, ← store_run]
    exact shows_held held

/-- Every session that starts with a new cache is transparent, whatever the state of the line. -/
theorem session_transparent (r : Remote Memory) (steps : List Step) :
    Transparent { inner := r } steps where
  snapshot := snapshot_eq_some_iff rfl steps
  held shown held r' := shows_held held
  asks empty fetch := by
    obtain ⟨r', -, noted, answered | ⟨fault, failed⟩⟩ := far_cases (run steps { inner := r }).inner
    · rw [cached, Cache.fetch_eq, Cache.load_answered empty answered]
      exact noted
    · rw [cached, Cache.fetch_eq, Cache.load_failed empty failed]
      exact noted
  answered empty data r' answered := by
    obtain ⟨r'', -, -, whole | ⟨fault, failed⟩⟩ := far_cases (run steps { inner := r }).inner
    · exact shows_loaded empty whole
    · rw [failed] at answered
      cases answered
  failed empty fault r' failed fetch := by
    refine ⟨{ run steps { inner := r } with
      inner := r', misses := (run steps { inner := r }).misses + 1 }, ?_, empty, rfl,
      fun next => Search.run_failed empty failed fetch next⟩
    rw [cached, Cache.fetch_eq, Cache.load_failed empty failed]
    rfl
  current := shows_current rfl

/-- A branch that is registered after a load is not seen before the next invalidation. -/
example (b : Branch) :
    (run [.read (.ask .all fun found => .done (.ok found)), .write (.register b)]
      { inner := { store := .empty } }).snapshot = some [] :=
  rfl

end Nearby.Session
