/-
How searches fail. A request that may not be asked is refused before anything is fetched. One
that may be asked has no fault of its own: it fails exactly if a fetch fails, with the fault of
that fetch, and asks for nothing more.
-/
import Nearby.Proofs.Geo.Envelope
import Nearby.Proofs.Search.Compound

namespace Nearby

open Geo

/-! ## Requests -/

/-- A call of one of the queries, for an `α`. -/
inductive Request : Type → Type where
  | nearest (origin : Point) (kinds : Option (List Kind)) (limit : Nat) (status : StatusFilter) :
      Request (List Hit)
  | within (origin : Point) (radius : Float) (kinds : Option (List Kind))
      (status : StatusFilter) : Request (List Branch)
  | inBox (box : Box) (status : StatusFilter) : Request (List Branch)
  | inApproximateRadius (origin : Point) (radius : Float) (status : StatusFilter) :
      Request (List Branch)
  | matching (query : Query) : Request (List Hit)

namespace Request

variable {α : Type}

/-- The search that a request starts. -/
def search [Trigonometry] (s : SearchSettings) : Request α → Search α
  | nearest origin kinds limit status => Search.nearest s origin kinds limit status
  | within origin radius kinds status => Search.within s origin radius kinds status
  | inBox box status => Search.inBox box status
  | inApproximateRadius origin radius status => Search.inApproximateRadius origin radius status
  | matching query => Search.matching s query

/-- The request may be asked: it wants something, names a kind if it names kinds at all, looks no
further than a true radius, and has the corners of its box the right way round. -/
def Valid : Request α → Prop
  | nearest _ kinds limit _ => kinds ≠ some [] ∧ 1 ≤ limit
  | within _ radius kinds _ => (radius.isFinite = true ∧ 0 < radius) ∧ kinds ≠ some []
  | inBox box _ => ¬ box.northEast.latitude < box.southWest.latitude ∧
      ¬ box.northEast.longitude < box.southWest.longitude
  | inApproximateRadius _ radius _ => radius.isFinite = true ∧ 0 < radius
  | matching query => query.Valid

end Request

/-! ## Fetches on record -/

/-- A fetch with the answer that it got. -/
abbrev Exchange := Fetch × Except Fault (List Branch)

section Record

variable {α σ : Type} (source : Source σ)

/-- The source, with a record of every fetch that is put to it. -/
def Source.recorded : Source (σ × List Exchange) where
  fetch fetch state :=
    let (answer, after) := source.fetch fetch state.1
    (answer, after, state.2 ++ [(fetch, answer)])

/-- All that a search asks of a source, in order. -/
def Search.exchanges (search : Search α) (state : σ) : List Exchange :=
  (search.run source.recorded (state, [])).2.2

end Record

namespace Search

variable {α β σ : Type} {source : Source σ}

/-- How a search ends that has no fault of its own, by the record of what it asked for. -/
inductive Ends : Except Fault α → List Exchange → Prop where
  | answered (answer : α) : Ends (.ok answer) []
  | failed (fetch : Fetch) (fault : Fault) : Ends (.error fault) [(fetch, .error fault)]
  | went (fetch : Fetch) (found : List Branch) {answer : Except Fault α} {later : List Exchange} :
      Ends answer later → Ends answer ((fetch, .ok found) :: later)

/-- A search that ends with a fault has a failed fetch on record, and no other fault. -/
theorem Ends.error_iff {answer : Except Fault α} {record : List Exchange}
    (ends : Ends answer record) (fault : Fault) :
    answer = .error fault ↔ ∃ fetch, (fetch, .error fault) ∈ record := by
  induction ends with
  | answered answer => simp
  | failed fetch fault => simp [eq_comm]
  | went fetch found _ ih => simp [ih]

/-- What comes before the last fetch on record was answered. -/
theorem Ends.answered_before {answer : Except Fault α} {record : List Exchange}
    (ends : Ends answer record) : ∀ exchange ∈ record.dropLast, ∃ found, exchange.2 = .ok found := by
  induction ends with
  | answered answer => simp
  | failed fetch fault => simp
  | went fetch found later ih =>
    intro exchange early
    cases later with
    | answered answer => simp at early
    | failed | went =>
      rw [List.dropLast_cons_of_ne_nil (by simp)] at early
      rcases List.mem_cons.1 early with rfl | early
      · exact ⟨found, rfl⟩
      · exact ih exchange early

/-- Wherever it goes, the search does not end with a fault of its own. -/
inductive Faultless : Search α → Prop where
  | done (answer : α) : Faultless (done (.ok answer))
  | ask (fetch : Fetch) {next : List Branch → Search α} :
      (∀ found, Faultless (next found)) → Faultless (ask fetch next)

theorem recorded_fetch {fetch : Fetch} {state after : σ} {answer : Except Fault (List Branch)}
    (fetched : source.fetch fetch state = (answer, after)) (past : List Exchange) :
    source.recorded.fetch fetch (state, past) = (answer, after, past ++ [(fetch, answer)]) := by
  unfold Source.recorded
  simp only [fetched]

/-- A record changes neither the answer nor what becomes of the source, and only grows. -/
theorem run_recorded (search : Search α) (state : σ) (past : List Exchange) :
    search.run source.recorded (state, past) =
      ((search.run source state).1, (search.run source state).2,
        past ++ search.exchanges source state) := by
  induction search generalizing state past with
  | done answer => simp [exchanges, run]
  | ask fetch next ih =>
    rcases fetched : source.fetch fetch state with ⟨fault | branches, after⟩
    · simp [run, exchanges, recorded_fetch fetched, fetched]
    · simp only [run, exchanges, recorded_fetch fetched, fetched]
      -- once with this fetch behind the past, and once with it alone on record
      rw [ih, ih, List.append_assoc, List.nil_append]

theorem exchanges_ask_ok {fetch : Fetch} {next : List Branch → Search α} {state after : σ}
    {found : List Branch} (fetched : source.fetch fetch state = (.ok found, after)) :
    (ask fetch next).exchanges source state =
      (fetch, .ok found) :: (next found).exchanges source after := by
  show ((ask fetch next).run source.recorded (state, [])).2.2 = _
  simp only [run, recorded_fetch fetched]
  exact congrArg (·.2.2) (run_recorded (next found) after [(fetch, .ok found)])

theorem exchanges_ask_error {fetch : Fetch} {next : List Branch → Search α} {state after : σ}
    {fault : Fault} (fetched : source.fetch fetch state = (.error fault, after)) :
    (ask fetch next).exchanges source state = [(fetch, .error fault)] := by
  show ((ask fetch next).run source.recorded (state, [])).2.2 = _
  simp only [run, recorded_fetch fetched]
  rfl

/-- A search without faults of its own ends as its last fetch lets it. -/
theorem Faultless.ends {search : Search α} (faultless : Faultless search) (source : Source σ)
    (state : σ) :
    Ends (search.run source state).1 (search.exchanges source state) := by
  induction faultless generalizing state with
  | done answer => exact .answered answer
  | ask fetch _ ih =>
    rcases fetched : source.fetch fetch state with ⟨fault | found, after⟩
    · rw [exchanges_ask_error fetched]
      simp only [run, fetched]
      exact .failed fetch fault
    · rw [exchanges_ask_ok fetched]
      simp only [run, fetched]
      exact .went fetch found (ih found after)

/-! ## Checks first -/

/-- The check lets the value through if the condition holds, and else finds a flaw. -/
def Decides (checked : Except Fault α) (condition : Prop) (value : α) : Prop :=
  (condition ∧ checked = .ok value) ∨
    (¬ condition ∧ ∃ flaw, checked = .error (.invalidQuery flaw))

/-- Under the condition the search has no fault of its own, and otherwise it is over at once, as
a query with a flaw. -/
def Guarded (search : Search α) (condition : Prop) : Prop :=
  (condition ∧ Faultless search) ∨
    (¬ condition ∧ ∃ flaw, search = done (.error (.invalidQuery flaw)))

theorem guarded_of_faultless {search : Search α} (faultless : Faultless search) :
    Guarded search True :=
  .inl ⟨trivial, faultless⟩

/-- A check adds its condition. -/
theorem guarded_require {checked : Except Fault α} {condition rest : Prop} {value : α}
    {next : α → Search β} (decides : Decides checked condition value)
    (guarded : condition → Guarded (next value) rest) :
    Guarded (require checked next) (condition ∧ rest) := by
  rcases decides with ⟨holds, rfl⟩ | ⟨fails, flaw, rfl⟩
  · rcases guarded holds with ⟨holds', faultless⟩ | ⟨fails, flaw, refused⟩
    · exact .inl ⟨⟨holds, holds'⟩, faultless⟩
    · exact .inr ⟨fun both => fails both.2, flaw, refused⟩
  · exact .inr ⟨fun both => fails both.1, flaw, rfl⟩

theorem Guarded.congr {search : Search α} {condition condition' : Prop}
    (guarded : Guarded search condition) (same : condition ↔ condition') :
    Guarded search condition' := by
  unfold Guarded
  rw [← same]
  exact guarded

/-- Absence passes every check. -/
theorem decides_optional {check : α → Except Fault α} {condition : α → Prop}
    (decides : ∀ a, Decides (check a) (condition a) a) (value : Option α) :
    Decides (checkOptional check value) (∀ a ∈ value, condition a) value := by
  cases value with
  | none => exact .inl ⟨by simp, rfl⟩
  | some a =>
    rcases decides a with ⟨holds, passed⟩ | ⟨fails, flaw, refused⟩
    · refine .inl ⟨by simpa using holds, ?_⟩
      show (check a).map some = _
      rw [passed]; rfl
    · refine .inr ⟨by simpa using fails, flaw, ?_⟩
      show (check a).map some = _
      rw [refused]; rfl

theorem decides_limit (s : SearchSettings) (limit : Nat) :
    Decides (honouredLimit s limit) (1 ≤ limit) (min limit (max s.maxResults 1)) := by
  by_cases positive : 1 ≤ limit
  · exact .inl ⟨positive, honouredLimit_ok s positive⟩
  · obtain rfl : limit = 0 := by omega
    exact .inr ⟨positive, .zeroLimit, rfl⟩

theorem decides_kinds (kinds : Option (List Kind)) :
    Decides (checkOptional checkKinds kinds) (kinds ≠ some []) kinds := by
  by_cases named : kinds = some []
  · subst named
    exact .inr ⟨fun named => named rfl, .noKinds, rfl⟩
  · exact .inl ⟨named, checkKinds_ok named⟩

theorem decides_radius (radius : Float) :
    Decides (checkRadius radius) (radius.isFinite = true ∧ 0 < radius) radius := by
  by_cases valid : radius.isFinite = true ∧ 0 < radius
  · exact .inl ⟨valid, checkRadius_ok valid.1 valid.2⟩
  · exact .inr ⟨valid, .badRadius radius, checkRadius_refused valid⟩

theorem decides_box (box : Box) :
    Decides box.check (¬ box.northEast.latitude < box.southWest.latitude ∧
      ¬ box.northEast.longitude < box.southWest.longitude) box := by
  by_cases south : box.northEast.latitude < box.southWest.latitude
  · exact .inr ⟨fun upright => upright.1 south, _, if_pos south⟩
  · by_cases west : box.northEast.longitude < box.southWest.longitude
    · exact .inr ⟨fun upright => upright.2 west, _, (if_neg south).trans (if_pos west)⟩
    · exact .inl ⟨⟨south, west⟩, boxCheck_ok south west⟩

/-! ## Searches without faults of their own -/

section Faultless

theorem faultless_rank (hits : List Hit) {limit : Nat} (positive : 1 ≤ limit) :
    Faultless (done (rank hits limit)) := by
  rw [rank_of_pos hits positive]
  exact .done _

variable [Trigonometry] (s : SearchSettings) (origin : Point)

theorem faultless_scan {limit : Nat} (positive : 1 ≤ limit) (filter : Filter) :
    Faultless (scan s origin limit filter) :=
  .ask _ fun _ => faultless_rank _ positive

theorem faultless_widen {limit : Nat} (positive : 1 ≤ limit) (filter : Filter) (rounds : Nat)
    (radius : Float) : Faultless (widen s origin limit filter rounds radius) := by
  induction rounds generalizing radius with
  | zero => exact faultless_scan s origin positive filter
  | succ rounds ih =>
    unfold widen
    split
    case isTrue =>
      refine .ask _ fun found => ?_
      dsimp only
      split
      case isTrue => exact faultless_rank _ positive
      case isFalse => exact ih _
    case isFalse => exact faultless_scan s origin positive filter

theorem faultless_collect (radius : Float) (filter : Filter) {finish : List Hit → Except Fault α}
    (finishes : ∀ hits, Faultless (done (finish hits))) :
    Faultless (collect s origin radius filter finish) :=
  .ask _ fun _ => finishes _

end Faultless

theorem guarded_inBox (box : Box) (status : StatusFilter) :
    Guarded (inBox box status) (¬ box.northEast.latitude < box.southWest.latitude ∧
      ¬ box.northEast.longitude < box.southWest.longitude) :=
  (guarded_require (decides_box box) fun _ =>
    guarded_of_faultless (.ask _ fun _ => .done _)).congr (and_iff_left trivial)

theorem guarded_matching [Trigonometry] (s : SearchSettings) (q : Query) :
    Guarded (matching s q) q.Valid := by
  have guarded : Guarded (matching s q) (1 ≤ q.limit ∧
      (∀ radius ∈ q.radius, radius.isFinite = true ∧ 0 < radius) ∧ q.kinds ≠ some [] ∧
      (∀ box ∈ q.box, ¬ box.northEast.latitude < box.southWest.latitude ∧
        ¬ box.northEast.longitude < box.southWest.longitude) ∧ True) := by
    refine guarded_require (decides_limit s q.limit) fun positive => ?_
    refine guarded_require (decides_optional decides_radius q.radius) fun _ => ?_
    refine guarded_require (decides_kinds q.kinds) fun _ => ?_
    refine guarded_require (decides_optional decides_box q.box) fun _ => ?_
    have honoured : 1 ≤ min q.limit (max s.maxResults 1) := by omega
    refine guarded_of_faultless ?_
    split
    · exact faultless_collect s _ _ _ fun _ => faultless_rank _ honoured
    · exact .ask _ fun _ => faultless_rank _ honoured
    · exact faultless_widen s _ honoured _ _ _
  refine guarded.congr ⟨?_, fun valid => ⟨valid.1, valid.2, valid.3, valid.4, trivial⟩⟩
  rintro ⟨limit, radius, kinds, box, -⟩
  exact ⟨limit, radius, kinds, box⟩

end Search

namespace Request

open Search

variable {α σ : Type}

/-- Every request is checked before its search starts, and the checks are all that can go wrong
with it. -/
theorem guarded [Trigonometry] (s : SearchSettings) (request : Request α) :
    Guarded (request.search s) request.Valid := by
  cases request with
  | nearest origin kinds limit status =>
    refine (guarded_require (decides_kinds kinds) fun _ =>
      guarded_require (decides_limit s limit) fun positive =>
        guarded_of_faultless ?_).congr (by simp [Valid])
    exact faultless_widen s origin (by omega) _ _ _
  | within origin radius kinds status =>
    refine (guarded_require (decides_radius radius) fun _ =>
      guarded_require (decides_kinds kinds) fun _ =>
        guarded_of_faultless ?_).congr (by simp [Valid])
    exact faultless_collect s origin radius _ fun _ => .done _
  | inBox box status => exact guarded_inBox box status
  | inApproximateRadius origin radius status =>
    refine (guarded_require (decides_radius radius) fun valid =>
      guarded_of_faultless ?_).congr (by simp [Valid])
    -- the envelope makes a box, and the box passes its own check
    obtain ⟨box, made, holds⟩ := Envelope.approximate_toBox origin valid.1 valid.2
    have checked := Box.check_of_contains holds
    rw [made]
    show Faultless (require box.check _)
    rw [checked]
    exact .ask _ fun _ => .done _
  | matching query => exact guarded_matching s query

/-- A request that may not be asked is refused without a fetch and leaves the source alone. One
that may be asked fails exactly if a fetch of it fails, with that fetch's fault, and the failed
fetch is the last one. -/
theorem fails_iff_fetch_fails [Trigonometry] (s : SearchSettings) (source : Source σ) (state : σ)
    (request : Request α) :
    (¬ request.Valid →
      (∃ flaw, (request.search s).run source state = (.error (.invalidQuery flaw), state)) ∧
        (request.search s).exchanges source state = []) ∧
    (request.Valid →
      (∀ fault, ((request.search s).run source state).1 = .error fault ↔
        ∃ fetch, (fetch, .error fault) ∈ (request.search s).exchanges source state) ∧
      ∀ exchange ∈ ((request.search s).exchanges source state).dropLast,
        ∃ found, exchange.2 = .ok found) := by
  rcases guarded s request with ⟨valid, faultless⟩ | ⟨invalid, flaw, refused⟩
  · refine ⟨fun invalid => absurd valid invalid, fun _ => ?_⟩
    have ends := faultless.ends source state
    exact ⟨ends.error_iff, ends.answered_before⟩
  · refine ⟨fun _ => ?_, fun valid => absurd valid invalid⟩
    rw [refused]
    exact ⟨⟨flaw, rfl⟩, rfl⟩

/-- A box that is a single point is asked of a source that is down, and the nearest of no kinds
are not. -/
theorem fails_iff_fetch_fails_of_down :
    let cause : Fault := .storageUnavailable "down"
    let down : Source Unit := ⟨fun _ state => (.error cause, state)⟩
    let asked : Request (List Branch) := .inBox ⟨Sample.equator, Sample.equator⟩ .activeOnly
    let refused : Request (List Hit) := .nearest Sample.equator (some []) 0 .activeOnly
    asked.Valid ∧ ((asked.search {}).run down ()).1 = .error cause ∧
      ¬ refused.Valid ∧ (refused.search {}).exchanges down () = [] := by
  intro cause down asked refused
  have valid : asked.Valid := by
    constructor <;> decide +kernel
  have invalid : ¬ refused.Valid := fun valid => valid.1 rfl
  have failed : (.box ⟨Sample.equator, Sample.equator⟩, .error cause) ∈
      (asked.search {}).exchanges down () := by
    show _ ∈ (Search.inBox _ _).exchanges down ()
    unfold Search.inBox
    rw [boxCheck_ok valid.1 valid.2]
    exact List.mem_singleton.2 rfl
  exact ⟨valid, (((fails_iff_fetch_fails {} down () asked).2 valid).1 cause).2 ⟨_, failed⟩,
    invalid, ((fails_iff_fetch_fails {} down () refused).1 invalid).2⟩

end Request

end Nearby
