/-
What the counters of a cached dataset say. Over any session the hits and misses together are the
fetches made through the cache, failed ones included, and the misses alone are the fetches that
went over the line, each of which is for the whole dataset. A snapshot that was loaded spares the
line until the next invalidation, so however often a query fetches, it costs the line at most once.
-/
import Nearby.Proofs.Search.Failure
import Nearby.Proofs.Store.Snapshot

namespace Nearby.Session

open Search

/-! ## Fetches through the cache -/

/-- The fetches that a step makes through the cache, in order. -/
def Step.fetched (c : State) : Step → List Fetch
  | read search => (search.exchanges cached c).map Prod.fst
  | _ => []

/-- The fetches that the steps make through the cache, in order. -/
def fetched : List Step → State → List Fetch
  | [], _ => []
  | step :: later, c => step.fetched c ++ fetched later (step.apply c)

/-! ## Counting -/

/-- From one state to another so many fetches were made through the cache, and so many over the
line, all of them for the whole dataset; the counters went up by as much. -/
structure Counted (made sent : Nat) (c c' : State) : Prop where
  log : c'.inner.log = c.inner.log ++ List.replicate sent .all
  misses : c'.misses = c.misses + UInt64.ofNat sent
  total : c'.hits + c'.misses = c.hits + c.misses + UInt64.ofNat made

section Counted

variable {made sent made' sent' : Nat} {c c' c'' : State}

theorem Counted.of_eq (log : c'.inner.log = c.inner.log) (misses : c'.misses = c.misses)
    (hits : c'.hits = c.hits) : Counted 0 0 c c' where
  log := by rw [log, List.replicate_zero, List.append_nil]
  misses := by rw [misses]; exact (UInt64.add_zero _).symm
  total := by rw [misses, hits]; exact (UInt64.add_zero _).symm

theorem Counted.trans (first : Counted made sent c c') (second : Counted made' sent' c' c'') :
    Counted (made + made') (sent + sent') c c'' where
  log := by rw [second.log, first.log, List.append_assoc, List.replicate_append_replicate]
  misses := by rw [second.misses, first.misses, UInt64.ofNat_add, UInt64.add_assoc]
  total := by rw [second.total, first.total, UInt64.ofNat_add, UInt64.add_assoc]

/-- A fetch that is answered from the snapshot is a hit. -/
theorem counted_hit (c : State) : Counted 1 0 c { c with hits := c.hits + 1 } where
  log := by rw [List.replicate_zero, List.append_nil]
  misses := (UInt64.add_zero _).symm
  total := by
    show c.hits + 1 + c.misses = c.hits + c.misses + 1
    rw [UInt64.add_assoc, UInt64.add_comm 1, ← UInt64.add_assoc]

/-- A fetch that goes over the line is a miss, whatever comes back. -/
theorem counted_miss (c : State) {r : Remote Memory} (noted : r.log = c.inner.log ++ [.all])
    (snapshot : Option (List Branch)) :
    Counted 1 1 c { c with inner := r, snapshot, misses := c.misses + 1 } where
  log := noted
  misses := rfl
  total := (UInt64.add_assoc _ _ _).symm

end Counted

/-! ## One step -/

/-- A search sends nothing over the line where a snapshot is held, and else at most one fetch. -/
theorem read_counted {α : Type} (search : Search α) (c : State) :
    ∃ sent ≤ 1, Counted (search.exchanges cached c).length sent c (search.run cached c).2 ∧
      (c.snapshot ≠ none → sent = 0) := by
  induction search generalizing c with
  | done answer => exact ⟨0, Nat.zero_le 1, .of_eq rfl rfl rfl, fun _ => rfl⟩
  | ask fetch next ih =>
    cases held : c.snapshot with
    | some data =>
      have answer : cached.fetch fetch c =
          (.ok (data.filter fetch.admits), { c with hits := c.hits + 1 }) := by
        rw [cached, Cache.fetch_eq, Cache.load_held held]; rfl
      obtain ⟨sent, -, later, none⟩ :=
        ih (data.filter fetch.admits) { c with hits := c.hits + 1 }
      obtain rfl : sent = 0 := none (by simp [held])
      rw [exchanges_ask_ok answer, Search.run, answer, List.length_cons, Nat.add_comm]
      exact ⟨0, Nat.zero_le 1, (counted_hit c).trans later, fun _ => rfl⟩
    | none =>
      obtain ⟨r, -, noted, answered | ⟨fault, failed⟩⟩ := far_cases c.inner
      · have answer : cached.fetch fetch c = (.ok (c.inner.store.branches.filter fetch.admits),
            { c with inner := r, snapshot := some c.inner.store.branches,
                     misses := c.misses + 1 }) := by
          rw [cached, Cache.fetch_eq, Cache.load_answered held answered]; rfl
        -- the rest of the search finds the snapshot that this fetch has loaded
        obtain ⟨sent, -, later, none⟩ := ih (c.inner.store.branches.filter fetch.admits)
          { c with inner := r, snapshot := some c.inner.store.branches, misses := c.misses + 1 }
        obtain rfl : sent = 0 := none (by simp)
        rw [exchanges_ask_ok answer, Search.run, answer, List.length_cons, Nat.add_comm]
        exact ⟨1, le_rfl, (counted_miss c noted _).trans later, fun some => absurd rfl some⟩
      · have answer : cached.fetch fetch c =
            (.error fault, { c with inner := r, misses := c.misses + 1 }) := by
          rw [cached, Cache.fetch_eq, Cache.load_failed held failed]; rfl
        rw [exchanges_ask_error answer, Search.run, answer]
        exact ⟨1, le_rfl, counted_miss c noted c.snapshot, fun some => absurd rfl some⟩

theorem step_counted (step : Step) (c : State) :
    ∃ sent, Counted (step.fetched c).length sent c (step.apply c) ∧
      (c.snapshot ≠ none → sent = 0) := by
  cases step with
  | read search =>
    obtain ⟨sent, -, counted, none⟩ := read_counted search c
    refine ⟨sent, ?_, none⟩
    rw [Step.fetched, List.length_map]
    exact counted
  | _ => exact ⟨0, .of_eq rfl rfl rfl, fun _ => rfl⟩

/-! ## Whole sessions -/

theorem run_counted (steps : List Step) (start : State) :
    ∃ sent, Counted (fetched steps start).length sent start (run steps start) := by
  induction steps generalizing start with
  | nil => exact ⟨0, .of_eq rfl rfl rfl⟩
  | cons step later ih =>
    obtain ⟨sent, first, -⟩ := step_counted step start
    obtain ⟨sent', rest⟩ := ih (step.apply start)
    rw [fetched, List.length_append]
    exact ⟨sent + sent', first.trans rest⟩

/-- From a load to the next invalidation only the load itself is noted on the line. -/
theorem log_after {start : State} {before : List Step} {load : Step}
    (loads : Loads (run before start) load) (after : List Step) (kept : .invalidate ∉ after) :
    (run (before ++ load :: after) start).inner.log =
      (run (before ++ [load]) start).inner.log := by
  induction after using List.reverseRecOn with
  | nil => rfl
  | append_singleton after last ih =>
    rw [List.mem_append, not_or] at kept
    have held := snapshot_after loads after kept.1
    obtain ⟨sent, counted, none⟩ := step_counted last (run (before ++ load :: after) start)
    obtain rfl : sent = 0 := none (by rw [held]; exact Option.some_ne_none _)
    have split : before ++ load :: (after ++ [last]) = (before ++ load :: after) ++ [last] := by
      simp
    rw [split, run_snoc, counted.log, List.replicate_zero, List.append_nil, ih kept.1]

/-- What the counters and the line say about a session. -/
structure Accounted (start : State) (steps : List Step) : Prop where
  /-- Every fetch through the cache is a hit or a miss. The counters wrap around. -/
  total : ((run steps start).hits + (run steps start).misses).toNat =
    (fetched steps start).length % 2 ^ 64
  /-- The misses are the fetches over the line, and these are all for the whole dataset. -/
  misses : ∃ sent, (run steps start).misses.toNat = sent % 2 ^ 64 ∧
    (run steps start).inner.log = start.inner.log ++ List.replicate sent .all
  /-- Nothing goes over the line between a load and the next invalidation. -/
  spared : ∀ before load after, steps = before ++ load :: after → Loads (run before start) load →
    .invalidate ∉ after →
      (run steps start).inner.log = (run (before ++ [load]) start).inner.log
  /-- However often a search fetches, at most one fetch of it goes over the line. -/
  once : ∀ {α : Type} (search : Search α), ∃ sent ≤ 1,
    (search.run cached (run steps start)).2.inner.log =
      (run steps start).inner.log ++ List.replicate sent .all

/-- The counters of every session that starts with a new cache are right, whatever the line does
and whatever is written at its far end. -/
theorem session_accounted (r : Remote Memory) (steps : List Step) :
    Accounted { inner := r } steps := by
  obtain ⟨sent, counted⟩ := run_counted steps { inner := r }
  constructor
  case total =>
    rw [counted.total]
    show (0 + 0 + UInt64.ofNat _).toNat = _
    rw [UInt64.zero_add, UInt64.zero_add, UInt64.toNat_ofNat']
  case misses =>
    refine ⟨sent, ?_, counted.log⟩
    rw [counted.misses]
    show (0 + UInt64.ofNat sent).toNat = _
    rw [UInt64.zero_add, UInt64.toNat_ofNat']
  case spared =>
    rintro before load after rfl loads kept
    exact log_after loads after kept
  case once =>
    intro α search
    obtain ⟨sent, most, counted, -⟩ := read_counted search (run steps { inner := r })
    exact ⟨sent, most, counted.log⟩

end Nearby.Session
