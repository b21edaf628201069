/-
The order of doubles, read off their bits. A double that is a number stands at the integer
`signedBits`: the sixty-three bits below its sign, negated under a minus, so that both zeros stand
at zero. Comparing two doubles is comparing these integers, and whatever compares as not-a-number
is above no double and below none. The total order of all doubles refines this one and puts
not-a-number last; so a double within a bound comes strictly before one that is not.
-/
import Nearby.Decimal.Binary
import Mathlib.Algebra.Order.Ring.Int
import Mathlib.Order.Compare

namespace Nearby.Decimal

open Float.Model Float.Model.UnpackedFloat

/-! ## The bits of a double -/

theorem exponent_field (bits : UInt64) :
    (@unpackExponent Format.binary64 bits.toBitVec).toNat = bits.toNat / 2 ^ 52 % 2 ^ 11 := by
  show (bits.toNat >>> 52) % 2 ^ 11 = _
  rw [Nat.shiftRight_eq_div_pow]

theorem fraction_field (bits : UInt64) :
    (@unpackMantissa Format.binary64 bits.toBitVec).toNat = bits.toNat % 2 ^ 52 := by
  show (bits.toNat >>> 0) % 2 ^ 52 = _
  rw [Nat.shiftRight_zero]

theorem sign_field (x : Float) :
    (@unpackSign Format.binary64 x.toModel.toBits.toBitVec).toNat =
      x.toBits.toNat / 2 ^ 63 := by
  have := x.toBits.toNat_lt
  show (x.toBits.toNat >>> 63) % 2 ^ 1 = _
  rw [Nat.shiftRight_eq_div_pow]
  omega

/-- A normal significand is the fraction with the implicit bit set. -/
theorem significand_field (x : Float) :
    (1#1 ++ @unpackMantissa Format.binary64 x.toModel.toBits.toBitVec).toNat =
      2 ^ 52 + x.toBits.toNat % 2 ^ 52 := by
  rw [show x.toBits = x.toModel.toBits from rfl, ← fraction_field]
  show 2 ^ 52 ||| (@unpackMantissa Format.binary64 x.toModel.toBits.toBitVec).toNat = _
  rw [Nat.or_comm, Nat.or_two_pow_eq_add_of_lt (BitVec.isLt _), Nat.add_comm]

/-! ## Where a number stands -/

/-- The bits below the sign, negated under a minus. -/
def signedBits (x : Float) : Int :=
  let bits := x.toBits.toNat
  if bits < twoTo 63 then bits else (twoTo 63 : Int) - bits

/-- Where the positive infinity stands. -/
def infinityBits : Int := 2047 * 2 ^ 52

theorem sign_apply (x : Float) :
    (Sign.ofBitVec (@unpackSign Format.binary64 x.toModel.toBits.toBitVec)).apply
      (x.toBits.toNat % 2 ^ 63 : Nat) = signedBits x := by
  have field := sign_field x
  have bound := x.toBits.toNat_lt
  have power : twoTo 63 = 2 ^ 63 := rfl
  unfold Sign.ofBitVec signedBits
  simp only [power]
  by_cases low : x.toBits.toNat < 2 ^ 63
  · have zero : @unpackSign Format.binary64 x.toModel.toBits.toBitVec = 0#1 := by
      refine BitVec.eq_of_toNat_eq ?_
      rw [field]; show _ = 0; omega
    rw [if_pos zero, if_pos low]
    simp only [Sign.apply]; omega
  · have one : @unpackSign Format.binary64 x.toModel.toBits.toBitVec ≠ 0#1 := by
      intro zero
      rw [zero] at field
      change 0 = _ at field
      omega
    rw [if_neg one, if_neg low]
    simp only [Sign.apply]; omega

/-- The integer tells an unpacked double that is a number, up to the sign of zero. -/
inductive Reads : Int → UnpackedFloat → Prop where
  | infinite (s : Sign) : Reads (s.apply infinityBits) (.infinity s)
  | zero (s : Sign) : Reads 0 (.zero s)
  | finite (s : Sign) (bits : Int) (m : Nat) (e : Int) (positive : 0 < m)
      (fields : bits = (e + 1074) * 2 ^ 52 + m) (small : m < 2 ^ 53) (low : -1074 ≤ e)
      (normal : -1074 < e → 2 ^ 52 ≤ m) (below : bits < infinityBits) :
      Reads (s.apply bits) (.finite s m e positive)

theorem reads_unpack {x : Float} (number : x.isNaN = false) :
    Reads (signedBits x) x.toModel.unpack := by
  have exponent : (@unpackExponent Format.binary64 x.toModel.toBits.toBitVec).toNat =
    x.toBits.toNat / 2 ^ 52 % 2 ^ 11 := exponent_field _
  have fraction : (@unpackMantissa Format.binary64 x.toModel.toBits.toBitVec).toNat =
    x.toBits.toNat % 2 ^ 52 := fraction_field _
  have bound := x.toBits.toNat_lt
  have bias : Format.binary64.exponentBias = 1023 := rfl
  rw [← sign_apply x]
  unfold Float.isNaN Float.Model.isNaN at number
  unfold Float.Model.unpack UnpackedFloat.unpack at number ⊢
  dsimp only at number ⊢
  by_cases full : @unpackExponent Format.binary64 x.toModel.toBits.toBitVec = -1#_
  · -- a full exponent is that of an infinity, since not-a-number is excluded
    rw [if_pos full] at number ⊢
    have all : x.toBits.toNat / 2 ^ 52 % 2 ^ 11 = 2047 := by rw [← exponent, full]; rfl
    by_cases bare : @unpackMantissa Format.binary64 x.toModel.toBits.toBitVec = 0#_
    · have none : x.toBits.toNat % 2 ^ 52 = 0 := by rw [← fraction, bare]; rfl
      have infinite : ((x.toBits.toNat % 2 ^ 63 : Nat) : Int) = infinityBits := by
        unfold infinityBits; omega
      rw [if_pos bare, infinite]
      exact .infinite _
    · rw [if_neg bare] at number; cases number
  · have short : x.toBits.toNat / 2 ^ 52 % 2 ^ 11 ≠ 2047 := fun all =>
      full (BitVec.eq_of_toNat_eq (by rw [exponent, all]; rfl))
    rw [if_neg full]
    by_cases empty : @unpackExponent Format.binary64 x.toModel.toBits.toBitVec = 0#_
    · -- an empty exponent is that of a zero or of a number without the implicit bit
      have least : x.toBits.toNat / 2 ^ 52 % 2 ^ 11 = 0 := by rw [← exponent, empty]; rfl
      rw [if_pos empty]
      by_cases bare : @unpackMantissa Format.binary64 x.toModel.toBits.toBitVec = 0#_
      · have none : x.toBits.toNat % 2 ^ 52 = 0 := by rw [← fraction, bare]; rfl
        have zero : ∀ s : Sign, s.apply (x.toBits.toNat % 2 ^ 63 : Nat) = 0 := by
          intro s
          cases s <;> simp only [Sign.apply] <;> omega
        rw [dif_pos bare, zero]
        exact .zero _
      · rw [dif_neg bare]
        refine .finite _ _ _ _ _ ?_ ?_ ?_ ?_ ?_
        · rw [fraction, exponent, bias]; omega
        · rw [fraction]; omega
        · rw [exponent, bias]; omega
        · rw [exponent, bias]; omega
        · unfold infinityBits; omega
    · have more : x.toBits.toNat / 2 ^ 52 % 2 ^ 11 ≠ 0 := fun least =>
        empty (BitVec.eq_of_toNat_eq (by rw [exponent, least]; rfl))
      have significand := significand_field x
      rw [if_neg empty]
      refine .finite _ _ _ _ _ ?_ ?_ ?_ ?_ ?_
      · rw [significand, exponent, bias]; omega
      · rw [significand]; omega
      · rw [exponent, bias]; omega
      · rw [significand]; omega
      · unfold infinityBits; omega

/-! ## Comparing numbers -/

theorem compare_fields {d e : Int} {m n : Nat} (hm : m < 2 ^ 53) (hn : n < 2 ^ 53)
    (dn : -1074 < d → 2 ^ 52 ≤ m) (en : -1074 < e → 2 ^ 52 ≤ n) (dl : -1074 ≤ d) (el : -1074 ≤ e) :
    (compare d e).then (compare m n) =
      compare ((d + 1074) * 2 ^ 52 + m) ((e + 1074) * 2 ^ 52 + (n : Int)) := by
  rcases lt_trichotomy d e with lt | rfl | gt
  · have : (d + 1074) * 2 ^ 52 + (m : Int) < (e + 1074) * 2 ^ 52 + n := by omega
    rw [compare_lt_iff_lt.2 lt, compare_lt_iff_lt.2 this]; rfl
  · rw [compare_eq_iff_eq.2 rfl]
    rcases lt_trichotomy m n with lt | rfl | gt
    · rw [compare_lt_iff_lt.2 lt, compare_lt_iff_lt.2 (by omega)]; rfl
    · rw [compare_eq_iff_eq.2 rfl, compare_eq_iff_eq.2 rfl]; rfl
    · rw [compare_gt_iff_gt.2 gt, compare_gt_iff_gt.2 (by omega)]; rfl
  · have : (e + 1074) * 2 ^ 52 + (n : Int) < (d + 1074) * 2 ^ 52 + m := by omega
    rw [compare_gt_iff_gt.2 gt, compare_gt_iff_gt.2 this]; rfl

theorem compare_neg (a b : Int) : compare (-a) (-b) = (compare a b).swap := by
  rcases lt_trichotomy a b with lt | rfl | gt
  · rw [compare_lt_iff_lt.2 lt, compare_gt_iff_gt.2 (by omega)]; rfl
  · rw [compare_eq_iff_eq.2 rfl, compare_eq_iff_eq.2 rfl]; rfl
  · rw [compare_gt_iff_gt.2 gt, compare_lt_iff_lt.2 (by omega)]; rfl

/-- Unpacked numbers compare as the integers that tell them. -/
theorem Reads.compare_eq {k l : Int} {u v : UnpackedFloat} (hu : Reads k u) (hv : Reads l v) :
    u.compare v = some (compare k l) := by
  have infinite : 0 < infinityBits := by decide
  have before : ∀ {a b : Int}, a < b → some Ordering.lt = some (compare a b) :=
    fun h => congrArg some (compare_lt_iff_lt.2 h).symm
  have after : ∀ {a b : Int}, b < a → some Ordering.gt = some (compare a b) :=
    fun h => congrArg some (compare_gt_iff_gt.2 h).symm
  cases hu with
  | infinite s =>
    cases hv with
    | infinite t => cases s <;> cases t <;> rfl
    | zero t => cases s <;> rfl
    | finite t bits m e positive fields small low normal below =>
      cases s <;> cases t <;> first
        | exact before (by simp only [Sign.apply]; omega)
        | exact after (by simp only [Sign.apply]; omega)
  | zero s =>
    cases hv with
    | infinite t => cases t <;> rfl
    | zero t => rfl
    | finite t bits m e positive fields small low normal below =>
      cases t
      · exact after (by simp only [Sign.apply]; omega)
      · exact before (by simp only [Sign.apply]; omega)
  | finite s bits m e positive fields small low normal below =>
    cases hv with
    | infinite t =>
      cases s <;> cases t <;> first
        | exact before (by simp only [Sign.apply]; omega)
        | exact after (by simp only [Sign.apply]; omega)
    | zero t =>
      cases s
      · exact before (by simp only [Sign.apply]; omega)
      · exact after (by simp only [Sign.apply]; omega)
    | finite t bits' m' e' positive' fields' small' low' normal' below' =>
      have magnitudes := compare_fields small small' normal normal' low low'
      rw [← fields, ← fields'] at magnitudes
      cases s <;> cases t
      · show some ((compare e e').then (compare m m')).swap = some (compare (-bits) (-bits'))
        rw [magnitudes, compare_neg]
      · exact before (by simp only [Sign.apply]; omega)
      · exact after (by simp only [Sign.apply]; omega)
      · exact congrArg some magnitudes

theorem compare_notANumber {u v : UnpackedFloat} (h : u.isNaN = true ∨ v.isNaN = true) :
    u.compare v = none := by
  rcases h with h | h
  · cases u <;> first | rfl | cases h
  · cases v
    case notANumber => rcases u with (_ | _) | _ | _ | ⟨_ | _, _, _, _⟩ <;> rfl
    all_goals cases h

theorem le_iff_compare (x y : Float) :
    x ≤ y ↔ (x.toModel.unpack.compare y.toModel.unpack).any (·.isLE) = true := by
  show decide ((x.toModel.unpack.compare y.toModel.unpack).any (·.isLE) = true) = true ↔ _
  rw [decide_eq_true_iff]

theorem lt_iff_compare (x y : Float) :
    x < y ↔ x.toModel.unpack.compare y.toModel.unpack = some .lt := by
  show decide ((x.toModel.unpack.compare y.toModel.unpack == some .lt) = true) = true ↔ _
  rw [decide_eq_true_iff, beq_iff_eq]

/-- One double is at most another if both are numbers and stand in this order. -/
theorem le_iff {x y : Float} :
    x ≤ y ↔ x.isNaN = false ∧ y.isNaN = false ∧ signedBits x ≤ signedBits y := by
  rw [le_iff_compare]
  cases hx : x.isNaN
  · cases hy : y.isNaN
    · rw [(reads_unpack hx).compare_eq (reads_unpack hy)]
      simp [Ordering.isLE_iff_ne_gt, compare_gt_iff_gt]
    · rw [compare_notANumber (.inr hy)]; simp
  · rw [compare_notANumber (.inl hx)]; simp

/-- One double is less than another if both are numbers and stand in this order. -/
theorem lt_iff {x y : Float} :
    x < y ↔ x.isNaN = false ∧ y.isNaN = false ∧ signedBits x < signedBits y := by
  rw [lt_iff_compare]
  cases hx : x.isNaN
  · cases hy : y.isNaN
    · rw [(reads_unpack hx).compare_eq (reads_unpack hy)]
      simp [compare_lt_iff_lt]
    · rw [compare_notANumber (.inr hy)]; simp
  · rw [compare_notANumber (.inl hx)]; simp

theorem le_of_beq {x y : Float} (same : (x == y) = true) : x ≤ y := by
  change (x.toModel.unpack.compare y.toModel.unpack == some .eq) = true at same
  rw [le_iff_compare, beq_iff_eq.1 same]
  rfl

theorem le_self {x : Float} (number : x.isNaN = false) : x ≤ x :=
  le_iff.2 ⟨number, number, le_rfl⟩

/-- A bound that grows loses nothing. -/
theorem le_of_le_of_le {x y z : Float} (xy : x ≤ y) (yz : y ≤ z) : x ≤ z := by
  obtain ⟨hx, -, xy⟩ := le_iff.1 xy
  obtain ⟨-, hz, yz⟩ := le_iff.1 yz
  exact le_iff.2 ⟨hx, hz, by omega⟩

theorem lt_of_lt_of_le {x y z : Float} (xy : x < y) (yz : y ≤ z) : x < z := by
  obtain ⟨hx, -, xy⟩ := lt_iff.1 xy
  obtain ⟨-, hz, yz⟩ := le_iff.1 yz
  exact lt_iff.2 ⟨hx, hz, by omega⟩

theorem lt_of_le_of_lt {x y z : Float} (xy : x ≤ y) (yz : y < z) : x < z := by
  obtain ⟨hx, -, xy⟩ := le_iff.1 xy
  obtain ⟨-, hz, yz⟩ := lt_iff.1 yz
  exact lt_iff.2 ⟨hx, hz, by omega⟩

theorem le_of_lt {x y : Float} (xy : x < y) : x ≤ y := by
  obtain ⟨hx, hy, xy⟩ := lt_iff.1 xy
  exact le_iff.2 ⟨hx, hy, by omega⟩

/-- Of two numbers, one is not at most the other exactly if the other is less. -/
theorem not_le_iff_lt {x y : Float} (hx : x.isNaN = false) (hy : y.isNaN = false) :
    ¬ x ≤ y ↔ y < x := by
  rw [le_iff, lt_iff]
  constructor
  · intro beyond
    have apart : ¬ signedBits x ≤ signedBits y := fun most => beyond ⟨hx, hy, most⟩
    exact ⟨hy, hx, by omega⟩
  · rintro ⟨-, -, less⟩ ⟨-, -, most⟩
    omega

theorem le_of_not_lt {x y : Float} (hx : x.isNaN = false) (hy : y.isNaN = false)
    (notLess : ¬ y < x) : x ≤ y := by
  by_contra beyond
  exact notLess ((not_le_iff_lt hx hy).1 beyond)

theorem not_le_of_lt {x y : Float} (lt : x < y) : ¬ y ≤ x := by
  intro le
  obtain ⟨-, -, less⟩ := lt_iff.1 lt
  obtain ⟨-, -, most⟩ := le_iff.1 le
  omega

/-! ## The total order -/

/-- The total order puts a negative double one further down, and so tells the zeros apart. -/
theorem totalKey_eq (x : Float) :
    totalKey x = if x.toBits.toNat < twoTo 63 then signedBits x else signedBits x - 1 := by
  show patternKey x.toBits = _
  unfold patternKey signedBits
  dsimp only
  split_ifs <;> omega

theorem totalKey_lt_of_signedBits_lt {x y : Float} (h : signedBits x < signedBits y) :
    totalKey x < totalKey y := by
  have power : twoTo 63 = 2 ^ 63 := rfl
  show patternKey x.toBits < patternKey y.toBits
  unfold signedBits at h
  unfold patternKey
  dsimp only at h ⊢
  rw [power] at h ⊢
  split_ifs at h ⊢ <;> omega

theorem Reads.le_infinityBits {k : Int} {u : UnpackedFloat} (h : Reads k u) : k ≤ infinityBits := by
  have infinite : 0 < infinityBits := by decide
  cases h with
  | infinite s => cases s <;> simp only [Sign.apply] <;> omega
  | zero s => omega
  | finite s bits m e positive fields small low normal below =>
    cases s <;> simp only [Sign.apply] <;> omega

/-- There is one not-a-number, and its bits are those of a positive double above infinity. -/
theorem toBits_of_isNaN {x : Float} (h : x.isNaN = true) : x.toBits.toNat = 4095 * 2 ^ 51 := by
  unfold Float.isNaN Float.Model.isNaN Float.Model.unpack UnpackedFloat.unpack at h
  dsimp only at h
  by_cases full : @unpackExponent Format.binary64 x.toModel.toBits.toBitVec = -1#_
  · rw [if_pos full] at h
    by_cases bare : @unpackMantissa Format.binary64 x.toModel.toBits.toBitVec = 0#_
    · rw [if_pos bare] at h; cases h
    · have bits := x.toModel.valid.eq_packedNaN full bare
      show x.toModel.toBits.toBitVec.toNat = _
      rw [bits]; rfl
  · rw [if_neg full] at h
    by_cases empty : @unpackExponent Format.binary64 x.toModel.toBits.toBitVec = 0#_
    · rw [if_pos empty] at h
      by_cases bare : @unpackMantissa Format.binary64 x.toModel.toBits.toBitVec = 0#_
      · rw [dif_pos bare] at h; cases h
      · rw [dif_neg bare] at h; cases h
    · rw [if_neg empty] at h; cases h

theorem totalKey_le_of_number {x : Float} (h : x.isNaN = false) : totalKey x ≤ infinityBits := by
  have := (reads_unpack h).le_infinityBits
  rw [totalKey_eq]
  split_ifs <;> omega

theorem lt_totalKey_of_isNaN {x : Float} (h : x.isNaN = true) : infinityBits < totalKey x := by
  show infinityBits < patternKey x.toBits
  unfold patternKey infinityBits
  rw [toBits_of_isNaN h]; decide

/-- A double within a bound comes strictly before one that is not, in the total order as well:
the other is a greater number, or none. -/
theorem totalKey_lt_of_le_of_not_le {x y bound : Float} (near : x ≤ bound) (far : ¬ y ≤ bound) :
    totalKey x < totalKey y := by
  obtain ⟨hx, hb, le⟩ := le_iff.1 near
  cases hy : y.isNaN with
  | true =>
    exact Int.lt_of_le_of_lt (totalKey_le_of_number hx) (lt_totalKey_of_isNaN hy)
  | false =>
    have lt := (lt_iff.1 ((not_le_iff_lt hy hb).1 far)).2.2
    exact totalKey_lt_of_signedBits_lt (by omega)

end Nearby.Decimal
