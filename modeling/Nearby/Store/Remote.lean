/-
A store at the far end of a line. The line notes every fetch, can be down, and can be given a
number of fetches after which it refuses all further ones.
-/
import Nearby.Store.Source

namespace Nearby

/-! ## The line -/

/-- A store behind a line. -/
structure Remote (σ : Type) where
  store : σ
  /-- The fetches made over the line, oldest first. -/
  log : List Fetch := []
  down : Bool := false
  /-- The fetches that are left before the line refuses, if it counts them. -/
  allowance : Option Nat := none
  /-- The far end has no active set of its own, so it is computed from all branches. -/
  derivesActive : Bool := false

namespace Remote

variable {σ : Type}

/-- Sends one fetch over the line. Each uses up one of the allowance, and an allowance that is
used up weighs more than a line that is down. -/
def send (inner : Source σ) (fetch : Fetch) (r : Remote σ) : Answer (Remote σ) :=
  let noted := { r with log := r.log ++ [fetch] }
  if r.allowance = some 0 then (.error (.storageUnavailable "replica lag exceeded"), noted)
  else
    let counted := { noted with allowance := r.allowance.map (· - 1) }
    if r.down then (.error (.storageUnavailable "database offline"), counted)
    else
      let (answer, store) := inner.fetch fetch r.store
      (answer, { counted with store := store })

/-- The active branches among those of an answer. -/
def onlyActive (answer : Answer (Remote σ)) : Answer (Remote σ) :=
  (answer.1.map fun branches => branches.filter Fetch.active.admits, answer.2)

/-- The source at the near end of the line. -/
def source (inner : Source σ) : Source (Remote σ) where
  fetch
    | .active, r => if r.derivesActive then onlyActive (send inner .all r) else send inner .active r
    | fetch, r => send inner fetch r

end Remote

end Nearby
