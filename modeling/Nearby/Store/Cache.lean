/-
A snapshot in front of a source. The first fetch loads the whole dataset, and every fetch until
the next invalidation is answered from it.
-/
import Nearby.Store.Source

namespace Nearby

/-! ## The snapshot -/

/-- A source with a snapshot of its dataset. Both counters wrap around. -/
structure Cache (σ : Type) where
  inner : σ
  snapshot : Option (List Branch) := none
  hits : UInt64 := 0
  misses : UInt64 := 0

namespace Cache

variable {σ : Type}

/-- Drops the snapshot. -/
def invalidate (c : Cache σ) : Cache σ := { c with snapshot := none }

/-- The snapshot, loaded first if there is none. A load that fails leaves none. -/
def load (inner : Source σ) (c : Cache σ) : Answer (Cache σ) :=
  match c.snapshot with
  | some branches => (.ok branches, { c with hits := c.hits + 1 })
  | none =>
    let missed := { c with misses := c.misses + 1 }
    match inner.fetch .all c.inner with
    | (.ok branches, state) =>
      (.ok branches, { missed with inner := state, snapshot := some branches })
    | (.error fault, state) => (.error fault, { missed with inner := state })

/-- The source that answers from the snapshot. -/
def source [Geo.Trigonometry] (inner : Source σ) : Source (Cache σ) where
  fetch fetch c :=
    let (loaded, c) := load inner c
    (loaded.map fun branches => branches.filter fetch.admits, c)

end Cache

end Nearby
