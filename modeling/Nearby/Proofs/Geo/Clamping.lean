/-
What becomes of an envelope on the globe. Its edges, moved onto the globe, bound a box exactly if
the envelope holds a place of the globe at all, and the box then holds what the envelope holds. Any
other envelope lies off the globe or has two edges the wrong way round, and the fault with which it
is refused says which.
-/
import Nearby.Proofs.Geo.Envelope

namespace Nearby.Geo

open Decimal Scalar

/-! ## One range of degrees -/

section Range

variable {low high least greatest : Float} (map : low ≤ high) (fromBelow : least ≤ high)
  (fromAbove : low ≤ greatest)
include map fromBelow fromAbove

/-- The ends of a range that reaches the map are in order on the map if they are in order. -/
theorem greater_le_lesser_iff : greater least low ≤ lesser greatest high ↔ least ≤ greatest := by
  have number : least.isNaN = false := (le_iff.1 fromBelow).1
  have number' : greatest.isNaN = false := (le_iff.1 fromAbove).2.1
  have reaches : low ≤ lesser greatest high := (le_lesser_iff map number').2 fromAbove
  rw [greater_le_iff reaches number, le_lesser_iff fromBelow number']

theorem lesser_lt_greater_iff : lesser greatest high < greater least low ↔ greatest < least := by
  have number : least.isNaN = false := (le_iff.1 fromBelow).1
  have number' : greatest.isNaN = false := (le_iff.1 fromAbove).2.1
  have onMap := (le_iff.1 (greater_between map (.inr fromBelow)).1).2.1
  have onMap' := (le_iff.1 (lesser_between map (.inr fromAbove)).1).2.1
  rw [← not_le_iff_lt onMap onMap', ← not_le_iff_lt number number',
    greater_le_lesser_iff map fromBelow fromAbove]

/-- Where they are in order, the lower end on the map is itself in the range. -/
theorem greater_mem (ordered : least ≤ greatest) :
    least ≤ greater least low ∧ greater least low ≤ greatest := by
  have number : least.isNaN = false := (le_iff.1 fromBelow).1
  obtain ⟨low_le, -⟩ := greater_between map (.inr fromBelow)
  have self : greater least low ≤ greater least low := le_self (le_iff.1 low_le).2.1
  exact ⟨(greater_le_iff low_le number).1 self, (greater_le_iff fromAbove number).2 ordered⟩

end Range

theorem latitudes_map : (-90 : Float) ≤ 90 := by decide +kernel

theorem longitudes_map : (-180 : Float) ≤ 180 := by decide +kernel

namespace Envelope

/-! ## Refusals -/

/-- The north-east corner, moved onto the globe where an edge lies beyond it. -/
def northEast (e : Envelope Float) : Coordinates Float := ⟨lesser e.maxLat 90, lesser e.maxLon 180⟩

/-- The south-west corner, moved onto the globe where an edge lies beyond it. -/
def southWest (e : Envelope Float) : Coordinates Float :=
  ⟨greater e.minLat (-90), greater e.minLon (-180)⟩

/-- Why an envelope makes no box: a range lies wholly before or wholly past the globe, or both
reach it and one is the wrong way round. What comes first counts. -/
inductive RefusedFor (e : Envelope Float) : Fault → Prop where
  | before (off : e.maxLat < -90 ∨ e.maxLon < -180) : RefusedFor e (.invalidCoordinate e.northEast)
  | past (north : -90 ≤ e.maxLat) (east : -180 ≤ e.maxLon)
      (off : 90 < e.minLat ∨ 180 < e.minLon) : RefusedFor e (.invalidCoordinate e.southWest)
  | latitudes (north : -90 ≤ e.maxLat) (east : -180 ≤ e.maxLon) (south : e.minLat ≤ 90)
      (west : e.minLon ≤ 180) (inverted : e.maxLat < e.minLat) :
      RefusedFor e (.invalidQuery (.southOf e.northEast e.southWest))
  | longitudes (north : -90 ≤ e.maxLat) (east : -180 ≤ e.maxLon) (south : e.minLat ≤ 90)
      (west : e.minLon ≤ 180) (ordered : e.minLat ≤ e.maxLat) (inverted : e.maxLon < e.minLon) :
      RefusedFor e (.invalidQuery (.westOf e.northEast e.southWest))

section Edges

variable {e : Envelope Float}

theorem northEast_onGlobe (north : -90 ≤ e.maxLat) (east : -180 ≤ e.maxLon) :
    e.northEast.onGlobe = true :=
  Coordinates.onGlobe_iff_between.2
    ⟨lesser_between latitudes_map (.inr north), lesser_between longitudes_map (.inr east)⟩

theorem southWest_onGlobe (south : e.minLat ≤ 90) (west : e.minLon ≤ 180) :
    e.southWest.onGlobe = true :=
  Coordinates.onGlobe_iff_between.2
    ⟨greater_between latitudes_map (.inr south), greater_between longitudes_map (.inr west)⟩

theorem toBox_of_northEast (on : e.northEast.onGlobe = true) :
    e.toBox = (Point.ofDegrees e.southWest.latitude e.southWest.longitude).bind
      (Box.ofCorners ⟨e.northEast, on⟩) := by
  have made : Point.ofDegrees e.northEast.latitude e.northEast.longitude = .ok ⟨e.northEast, on⟩ :=
    dif_pos on
  show (Point.ofDegrees e.northEast.latitude e.northEast.longitude).bind _ = _
  rw [made]
  rfl

theorem toBox_of_corners (ne : e.northEast.onGlobe = true) (sw : e.southWest.onGlobe = true) :
    e.toBox = Box.check ⟨⟨e.northEast, ne⟩, ⟨e.southWest, sw⟩⟩ := by
  have made : Point.ofDegrees e.southWest.latitude e.southWest.longitude = .ok ⟨e.southWest, sw⟩ :=
    dif_pos sw
  rw [toBox_of_northEast ne, made]
  rfl

theorem toBox_of_refusedFor {fault : Fault} (reason : e.RefusedFor fault) :
    e.toBox = .error fault := by
  cases reason with
  | before off =>
    have refused : Point.ofDegrees (lesser e.maxLat 90) (lesser e.maxLon 180) =
        .error (.invalidCoordinate e.northEast) := by
      refine Point.ofDegrees_refused ?_
      rintro ⟨north, -⟩ ⟨east, -⟩
      rcases off with short | short
      · exact not_le_of_lt short ((le_lesser_iff latitudes_map (lt_iff.1 short).1).1 north)
      · exact not_le_of_lt short ((le_lesser_iff longitudes_map (lt_iff.1 short).1).1 east)
    unfold toBox
    rw [refused]
    rfl
  | past north east off =>
    have refused : Point.ofDegrees e.southWest.latitude e.southWest.longitude =
        .error (.invalidCoordinate e.southWest) := by
      refine Point.ofDegrees_refused ?_
      rintro ⟨-, south⟩ ⟨-, west⟩
      rcases off with beyond | beyond
      · exact not_le_of_lt beyond ((greater_le_iff latitudes_map (lt_iff.1 beyond).2.1).1 south)
      · exact not_le_of_lt beyond ((greater_le_iff longitudes_map (lt_iff.1 beyond).2.1).1 west)
    rw [toBox_of_northEast (northEast_onGlobe north east), refused]
    rfl
  | latitudes north east south west inverted =>
    rw [toBox_of_corners (northEast_onGlobe north east) (southWest_onGlobe south west)]
    exact if_pos ((lesser_lt_greater_iff latitudes_map south north).2 inverted)
  | longitudes north east south west ordered inverted =>
    rw [toBox_of_corners (northEast_onGlobe north east) (southWest_onGlobe south west)]
    refine (if_neg fun lt => ?_).trans (if_pos ?_)
    · exact not_le_of_lt ((lesser_lt_greater_iff latitudes_map south north).1 lt) ordered
    · exact (lesser_lt_greater_iff longitudes_map west east).2 inverted

theorem toBox_of_contains {p : Point} (holds : e.contains p.coordinates = true) :
    ∃ box, e.toBox = .ok box := by
  obtain ⟨⟨south, north⟩, west, east⟩ := contains_iff.1 holds
  obtain ⟨box, made, -⟩ := toBox_ok (.inr north) (.inr east) (.inr south) (.inr west)
  exact ⟨box, made⟩

/-- An envelope with something wrong with its edges is refused for it; any other holds its own
south-west corner on the globe. -/
theorem refusedFor_or_contains (measured : e.Measured) :
    (∃ fault, e.RefusedFor fault) ∨ ∃ p : Point, e.contains p.coordinates = true := by
  obtain ⟨bottom, top, -⟩ := le_iff.1 latitudes_map
  obtain ⟨left, right, -⟩ := le_iff.1 longitudes_map
  -- what can be wrong, in the order in which the corners and the box are checked
  by_cases before : e.maxLat < -90 ∨ e.maxLon < -180
  · exact .inl ⟨_, .before before⟩
  obtain ⟨north, east⟩ := not_or.1 before
  replace north : -90 ≤ e.maxLat := le_of_not_lt bottom measured.north north
  replace east : -180 ≤ e.maxLon := le_of_not_lt left measured.east east
  by_cases past : 90 < e.minLat ∨ 180 < e.minLon
  · exact .inl ⟨_, .past north east past⟩
  obtain ⟨south, west⟩ := not_or.1 past
  replace south : e.minLat ≤ 90 := le_of_not_lt measured.south top south
  replace west : e.minLon ≤ 180 := le_of_not_lt measured.west right west
  by_cases latInverted : e.maxLat < e.minLat
  · exact .inl ⟨_, .latitudes north east south west latInverted⟩
  have lat : e.minLat ≤ e.maxLat := le_of_not_lt measured.south measured.north latInverted
  by_cases lonInverted : e.maxLon < e.minLon
  · exact .inl ⟨_, .longitudes north east south west lat lonInverted⟩
  have lon : e.minLon ≤ e.maxLon := le_of_not_lt measured.west measured.east lonInverted
  refine .inr ⟨⟨e.southWest, southWest_onGlobe south west⟩, contains_iff.2 ⟨?_, ?_⟩⟩
  · exact greater_mem latitudes_map south north lat
  · exact greater_mem longitudes_map west east lon

/-- The faults with which an envelope is refused, by what is wrong with its edges. -/
theorem toBox_eq_error_iff (measured : e.Measured) {fault : Fault} :
    e.toBox = .error fault ↔ e.RefusedFor fault := by
  refine ⟨fun refused => ?_, toBox_of_refusedFor⟩
  rcases refusedFor_or_contains measured with ⟨fault', reason⟩ | ⟨p, holds⟩
  · have same := refused.symm.trans (toBox_of_refusedFor reason)
    cases same
    exact reason
  · obtain ⟨box, made⟩ := toBox_of_contains holds
    cases refused.symm.trans made

/-! ## Boxes -/

/-- An envelope whose edges are numbers makes a box exactly if it holds a place of the globe, and
the box holds exactly the places of the globe that the envelope holds. -/
theorem toBox_exact (measured : e.Measured) :
    ((∃ box, e.toBox = .ok box) ↔ ∃ p : Point, e.contains p.coordinates = true) ∧
      ∀ box, e.toBox = .ok box →
        ∀ p : Point, e.contains p.coordinates = true ↔ box.contains p = true := by
  refine ⟨⟨?_, ?_⟩, ?_⟩
  · rintro ⟨box, made⟩
    rcases refusedFor_or_contains measured with ⟨fault, reason⟩ | holds
    · cases made.symm.trans (toBox_of_refusedFor reason)
    · exact holds
  · rintro ⟨p, holds⟩
    exact toBox_of_contains holds
  · intro box made p
    rw [toBox_contains measured made p]

/-- An envelope without end to the south and over the antimeridian, and one that begins past it. -/
theorem toBox_exact_at_antimeridian :
    let across : Envelope Float := ⟨-(1 / 0), 170, 45, 200⟩
    let past : Envelope Float := ⟨0, 181, 10, 1 / 0⟩
    across.Measured ∧ (∃ box, across.toBox = .ok box ∧
        ∀ p : Point, across.contains p.coordinates = true ↔ box.contains p = true) ∧
      past.Measured ∧ past.toBox = .error (.invalidCoordinate past.southWest) ∧
      ¬ ∃ p : Point, past.contains p.coordinates = true := by
  intro across past
  have measured : across.Measured := by constructor <;> decide +kernel
  have measured' : past.Measured := by constructor <;> decide +kernel
  have holds : across.contains (⟨-90, 180⟩ : Coordinates Float) = true := by decide +kernel
  have refused : past.toBox = .error (.invalidCoordinate past.southWest) :=
    toBox_of_refusedFor (.past (by decide +kernel) (by decide +kernel) (.inr (by decide +kernel)))
  obtain ⟨box, made⟩ := (toBox_exact measured).1.2 ⟨⟨_, by decide +kernel⟩, holds⟩
  refine ⟨measured, ⟨box, made, (toBox_exact measured).2 box made⟩, measured', refused, ?_⟩
  intro some
  obtain ⟨box, made⟩ := (toBox_exact measured').1.2 some
  cases refused.symm.trans made

end Edges

end Envelope

end Nearby.Geo
