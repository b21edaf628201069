/-
What the checks of numbers let through. A comparison with not-a-number is false whichever way it is
put, so a check that asks for a number to be in bounds refuses not-a-number, and one that asks for a
number out of bounds lets it by. Degrees, radii and numbers above a bound pass exactly if they are
in bounds; a range of doubles lets not-a-number pass besides. No setting is checked against such a
range, so settings that pass their check are in bounds throughout.
-/
import Nearby.Settings.Basic
import Nearby.Proofs.Geo.Envelope
import Nearby.Proofs.Search.Whole

namespace Nearby

open Geo Decimal

/-! ## Checks of one value -/

/-- Under the condition the check lets the value through as it is, and otherwise it refuses it with
the fault. -/
structure Admits {α : Type} (checked : Except Fault α) (value : α) (condition : Prop)
    (fault : Fault) : Prop where
  passed : condition → checked = .ok value
  refused : ¬ condition → checked = .error fault

section Admits

variable {α β : Type} {checked : Except Fault α} {value : α} {condition : Prop} {fault : Fault}

theorem Admits.ok_iff (admits : Admits checked value condition fault) {through : α} :
    checked = .ok through ↔ through = value ∧ condition := by
  by_cases holds : condition
  · rw [admits.passed holds, and_iff_left holds, Except.ok.injEq, eq_comm]
  · rw [admits.refused holds]
    exact iff_of_false nofun fun both => holds both.2

/-- What follows a check is reached under its condition only. -/
theorem Admits.bind_ok_iff (admits : Admits checked value condition fault)
    {next : α → Except Fault β} {answer : β} :
    checked >>= next = .ok answer ↔ condition ∧ next value = .ok answer := by
  by_cases holds : condition
  · rw [admits.passed holds, and_iff_right holds]
    rfl
  · rw [admits.refused holds]
    exact iff_of_false nofun fun both => holds both.1

end Admits

theorem admits_radius (radius : Float) :
    Admits (checkRadius radius) radius (radius.isFinite = true ∧ 0 < radius)
      (.invalidQuery (.badRadius radius)) where
  passed valid := Search.checkRadius_ok valid.1 valid.2
  refused := Search.checkRadius_refused

namespace Check

theorem admits_finiteAbove (field : String) (value : Float) {bound : Float}
    (number : bound.isNaN = false) :
    Admits (finiteAbove field value bound) value (value.isFinite = true ∧ bound < value)
      (.badValue field (plain value)
        ("Value must be a finite number greater than " ++ plain bound)) where
  passed valid := if_neg fun refused => (not_finite_or_le_iff number).1 refused valid
  refused invalid := if_pos ((not_finite_or_le_iff number).2 invalid)

theorem admits_atLeast (field : String) (value least : Nat) :
    Admits (atLeast field value least) value (least ≤ value)
      (.badValue field (toString value) ("Value must be at least " ++ toString least)) where
  passed enough := if_neg (by omega)
  refused few := if_pos (by omega)

theorem admits_path (field path : String) :
    Admits (Check.path field path) path (path ≠ "" ∧ '\x00' ∉ path.toList)
      (.badValue field path
        (if path = "" then "Path cannot be empty" else "Path contains null bytes")) := by
  by_cases empty : path = ""
  · subst empty
    exact ⟨fun named => absurd rfl named.1, fun _ => rfl⟩
  · have named : ¬ path.isEmpty = true := by rwa [String.isEmpty_iff]
    have null : path.contains '\x00' = true ↔ '\x00' ∈ path.toList := by
      rw [String.contains_char_eq, decide_eq_true_iff]
    rw [if_neg empty]
    refine ⟨fun plain => (if_neg named).trans (if_neg (plain.2 ∘ null.1)), fun fails => ?_⟩
    refine (if_neg named).trans (if_pos (null.2 ?_))
    by_contra absent
    exact fails ⟨empty, absent⟩

theorem admits_between {α : Type} [LT α] [DecidableLT α] (text : α → String) (field : String)
    (value least greatest : α) :
    Admits (between text field value least greatest) value
      (¬ value < least ∧ ¬ greatest < value)
      (.badValue field (text value)
        ("Value must be between " ++ text least ++ " and " ++ text greatest)) where
  passed inside := if_neg (not_or.2 inside)
  refused outside := if_pos (by rwa [← not_or, not_not] at outside)

/-- Neither below nor above a range is what lies in it, and what is not a number. -/
theorem not_outside_iff {value least greatest : Float} (hl : least.isNaN = false)
    (hg : greatest.isNaN = false) :
    (¬ value < least ∧ ¬ greatest < value) ↔
      value.isNaN = true ∨ least ≤ value ∧ value ≤ greatest := by
  cases number : value.isNaN with
  | true =>
    have below : ¬ value < least := fun lt => by
      rw [(lt_iff.1 lt).1] at number
      cases number
    have above : ¬ greatest < value := fun lt => by
      rw [(lt_iff.1 lt).2.1] at number
      cases number
    exact iff_of_true ⟨below, above⟩ (.inl rfl)
  | false =>
    rw [← not_le_iff_lt hl number, ← not_le_iff_lt number hg, not_not, not_not]
    simp

end Check

/-! ## Bounds on doubles -/

/-- Which doubles the checks let through, and that they let them through as they are, for bounds
that are numbers. -/
theorem checks_let_through (field : String) {bound least greatest : Float}
    (hb : bound.isNaN = false) (hl : least.isNaN = false) (hg : greatest.isNaN = false) :
    (∀ lat lon : Float,
      ((∃ p, Point.ofDegrees lat lon = .ok p) ↔
        (-90 ≤ lat ∧ lat ≤ 90) ∧ -180 ≤ lon ∧ lon ≤ 180) ∧
      ∀ p, Point.ofDegrees lat lon = .ok p → p.latitude = lat ∧ p.longitude = lon) ∧
    (∀ x y : Float, checkRadius x = .ok y ↔ y = x ∧ x.isFinite = true ∧ 0 < x) ∧
    (∀ x y : Float, Check.finiteAbove field x bound = .ok y ↔
      y = x ∧ x.isFinite = true ∧ bound < x) ∧
    ∀ x y : Float, Check.between plain field x least greatest = .ok y ↔
      y = x ∧ (x.isNaN = true ∨ least ≤ x ∧ x ≤ greatest) := by
  refine ⟨fun lat lon => ⟨⟨?_, ?_⟩, ?_⟩, ?_, ?_, ?_⟩
  · rintro ⟨p, made⟩
    obtain ⟨rfl, rfl⟩ := Point.coordinates_of_ofDegrees made
    exact p.between
  · rintro ⟨withinLat, withinLon⟩
    obtain ⟨p, made, -⟩ := Point.ofDegrees_ok withinLat withinLon
    exact ⟨p, made⟩
  · intro p made
    exact Point.coordinates_of_ofDegrees made
  · intro x y
    exact (admits_radius x).ok_iff
  · intro x y
    exact (Check.admits_finiteAbove field x hb).ok_iff
  · intro x y
    rw [(Check.admits_between plain field x least greatest).ok_iff, Check.not_outside_iff hl hg]

/-- The least radius of all, the first factor above one, a zero of the other sign than the end of
its range, and numbers just out of bounds. -/
theorem checks_let_through_at_bounds :
    ((1 : Float).isNaN = false ∧ (-0 : Float).isNaN = false ∧ (1 / 0 : Float).isNaN = false) ∧
      (∃ p, Point.ofDegrees (-90) 180 = .ok p) ∧ (¬ ∃ p, Point.ofDegrees (0 / 0) 180 = .ok p) ∧
      checkRadius 5e-324 = .ok 5e-324 ∧ checkRadius (-0) ≠ .ok (-0) ∧
      Check.finiteAbove "factor" 1.0000000000000002 1 = .ok 1.0000000000000002 ∧
      Check.finiteAbove "factor" (1 / 0) 1 ≠ .ok (1 / 0) ∧
      Check.between plain "share" 0 (-0) (1 / 0) = .ok 0 ∧
      Check.between plain "share" (-5e-324) (-0) (1 / 0) ≠ .ok (-5e-324) := by
  have hb : (1 : Float).isNaN = false := by decide +kernel
  have hl : (-0 : Float).isNaN = false := by decide +kernel
  have hg : (1 / 0 : Float).isNaN = false := by decide +kernel
  obtain ⟨degrees, radius, above, -⟩ := checks_let_through "factor" hb hl hg
  obtain ⟨-, -, -, range⟩ := checks_let_through "share" hb hl hg
  refine ⟨⟨hb, hl, hg⟩, (degrees _ _).1.2 (by decide +kernel), ?_, ?_, ?_, ?_, ?_, ?_, ?_⟩
  · rw [(degrees _ _).1]
    decide +kernel
  · exact (radius _ _).2 ⟨rfl, by decide +kernel⟩
  · rw [Ne, radius]
    decide +kernel
  · exact (above _ _).2 ⟨rfl, by decide +kernel⟩
  · rw [Ne, above]
    decide +kernel
  · exact (range _ _).2 ⟨rfl, .inr (by decide +kernel)⟩
  · rw [Ne, range]
    decide +kernel

/-- Not-a-number passes between the latitudes of the globe, so not all that passes lies between. -/
theorem range_of_no_number :
    Check.between plain "lat" (0 / 0) (-90) 90 = .ok (0 / 0) ∧
      ¬ ∀ (field : String) (least greatest x y : Float), least.isNaN = false →
        greatest.isNaN = false → Check.between plain field x least greatest = .ok y →
        least ≤ x ∧ x ≤ greatest := by
  have passes : Check.between plain "lat" (0 / 0) (-90) 90 = .ok (0 / 0) :=
    (Check.admits_between plain "lat" _ _ _).passed (by decide +kernel)
  refine ⟨passes, fun all => ?_⟩
  have inside := all "lat" (-90) 90 _ _ (by decide +kernel) (by decide +kernel) passes
  exact absurd inside.1 (by decide +kernel)

/-! ## Settings -/

namespace Settings

/-- All values of the settings are in bounds. -/
structure InBounds (s : Settings) : Prop where
  results : 1 ≤ s.search.maxResults
  radius : s.search.radius.isFinite = true ∧ 0 < s.search.radius
  factor : s.search.factor.isFinite = true ∧ 1 < s.search.factor
  steps : s.search.steps ≤ mostSteps
  path : ∀ data ∈ s.data, data.path ≠ "" ∧ '\x00' ∉ data.path.toList

/-- Settings pass their check, as they are, exactly if all their values are in bounds. -/
theorem check_eq_ok_iff {s t : Settings} : s.check = .ok t ↔ t = s ∧ s.InBounds := by
  have one : (1 : Float).isNaN = false := by decide +kernel
  have steps : (¬ s.search.steps < 0 ∧ ¬ mostSteps < s.search.steps) ↔
      s.search.steps ≤ mostSteps := by omega
  unfold check
  rw [(Check.admits_atLeast _ _ _).bind_ok_iff,
    (Check.admits_finiteAbove _ _ (isNaN_of_isFinite isFinite_zero)).bind_ok_iff,
    (Check.admits_finiteAbove _ _ one).bind_ok_iff, (Check.admits_between _ _ _ _ _).bind_ok_iff,
    steps]
  constructor
  · rintro ⟨results, radius, factor, few, path⟩
    cases data : s.data with
    | none =>
      rw [data] at path
      cases path
      exact ⟨rfl, results, radius, factor, few, by simp [data]⟩
    | some found =>
      rw [data] at path
      obtain ⟨named, same⟩ := (Check.admits_path _ _).bind_ok_iff.1 path
      cases same
      exact ⟨rfl, results, radius, factor, few, by simpa [data] using named⟩
  · rintro ⟨rfl, bounds⟩
    refine ⟨bounds.results, bounds.radius, bounds.factor, bounds.steps, ?_⟩
    cases data : t.data with
    | none => rfl
    | some found => exact (Check.admits_path _ _).bind_ok_iff.2 ⟨bounds.path found data, rfl⟩

end Settings

end Nearby
