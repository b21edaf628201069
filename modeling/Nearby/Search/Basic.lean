/-
Searches as data. A search is either finished, with an answer or a fault, or it asks for one
fetch and goes on with the branches that come back. So what a search asks for, and in which
order, can be read off it; `Search.run` puts it to a source.
-/
import Nearby.Store.Source

namespace Nearby

/-! ## Searches -/

/-- A search for an `α`. -/
inductive Search (α : Type) where
  | done (answer : Except Fault α)
  | ask (fetch : Fetch) (next : List Branch → Search α)

namespace Search

variable {α β σ : Type}

/-- Goes on with a value that a check lets through, and ends with the fault of one that it does
not. -/
def require (checked : Except Fault α) (next : α → Search β) : Search β :=
  match checked with
  | .ok value => next value
  | .error fault => done (.error fault)

/-- Puts a search to a source. The first fetch that fails ends it with that fetch's fault. -/
def run (source : Source σ) : Search α → σ → Except Fault α × σ
  | done answer, state => (answer, state)
  | ask fetch next, state =>
    match source.fetch fetch state with
    | (.ok branches, state) => (next branches).run source state
    | (.error fault, state) => (.error fault, state)

end Search

end Nearby
