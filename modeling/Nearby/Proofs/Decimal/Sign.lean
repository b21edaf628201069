/-
Signs of doubles. Rounding treats both signs alike, so a difference taken the other way around is
the same double up to its sign, and what is equal up to the sign stays so under multiplication and
division. The sign is gone from a square, bit for bit.
-/
import Nearby.Proofs.Decimal.Arithmetic

namespace Nearby.Decimal

open Float.Model Float.Model.UnpackedFloat

/-! ## Magnitudes -/

/-- Numbers that stand equally far from zero have one magnitude. -/
theorem Reads.abs_eq {k l : Int} {u v : UnpackedFloat} (hu : Reads k u) (hv : Reads l v)
    (same : |k| = |l|) : u.abs = v.abs := by
  have infinite : (0 : Int) < infinityBits := by decide
  cases hu with
  | infinite s =>
    cases hv with
    | infinite t => rfl
    | zero t => rw [abs_apply s infinite.le, abs_zero] at same; omega
    | finite t bits' n d _ fields' =>
      rw [abs_apply s infinite.le, abs_apply t (by omega)] at same; omega
  | zero s =>
    cases hv with
    | infinite t => rw [abs_apply t infinite.le, abs_zero] at same; omega
    | zero t => rfl
    | finite t bits' n d _ fields' => rw [abs_apply t (by omega), abs_zero] at same; omega
  | finite s bits m e positive fields small low normal =>
    rw [abs_apply s (by omega)] at same
    cases hv with
    | infinite t => rw [abs_apply t infinite.le] at same; omega
    | zero t => rw [abs_zero] at same; omega
    | finite t bits' n d positive' fields' small' low' normal' =>
      rw [abs_apply t (by omega)] at same
      -- the place of a double gives its exponent and its significand
      obtain rfl : e = d := by omega
      obtain rfl : m = n := by omega
      rfl

theorem isNaN_of_abs {x : Float} (notNumber : x.abs.isNaN = true) : x.isNaN = true := by
  cases number : x.isNaN with
  | true => rfl
  | false => rw [isNaN_abs number] at notNumber; cases notNumber

theorem isNaN_of_abs_eq {x y : Float} (same : x.abs = y.abs) (notNumber : x.isNaN = true) :
    y.isNaN = true := by
  have magnitude : x.abs = packed .notANumber :=
    congrArg (fun u : UnpackedFloat => packed u.abs) (unpack_of_isNaN notNumber)
  refine isNaN_of_abs ?_
  rw [← same, magnitude]
  exact isNaN_packed

/-- Numbers of one magnitude stand equally far from zero. -/
theorem signedBits_of_abs_eq {x y : Float} (same : x.abs = y.abs) (number : x.isNaN = false) :
    y.isNaN = false ∧ |signedBits x| = |signedBits y| := by
  have number' : y.isNaN = false := Bool.eq_false_iff.2 fun other =>
    Bool.eq_false_iff.1 number (isNaN_of_abs_eq same.symm other)
  refine ⟨number', ?_⟩
  rw [← (standsAt_abs number).bits, same, (standsAt_abs number').bits]

/-- Doubles of one magnitude have it unpacked as well. -/
theorem unpack_abs {x y : Float} (same : x.abs = y.abs) :
    x.toModel.unpack.abs = y.toModel.unpack.abs := by
  cases hx : x.isNaN with
  | true => rw [unpack_of_isNaN hx, unpack_of_isNaN (isNaN_of_abs_eq same hx)]
  | false =>
    obtain ⟨hy, far⟩ := signedBits_of_abs_eq same hx
    exact (reads_unpack hx).abs_eq (reads_unpack hy) far

/-- Away from zero a double is known by where it stands. -/
theorem eq_of_signedBits {x y : Float} (same : signedBits x = signedBits y)
    (nonzero : signedBits x ≠ 0) : x = y := by
  have power : twoTo 63 = 2 ^ 63 := rfl
  refine eq_of_toBits ?_
  unfold signedBits at same nonzero
  rw [power] at same nonzero
  dsimp only at same nonzero
  split_ifs at same nonzero <;> omega

theorem zero_of_signedBits {x : Float} (zero : signedBits x = 0) : x = 0 ∨ x = -0 := by
  have power : twoTo 63 = 2 ^ 63 := rfl
  have plus : (0 : Float).toBits.toNat = 0 := by decide +kernel
  have minus : (-0 : Float).toBits.toNat = 2 ^ 63 := by decide +kernel
  unfold signedBits at zero
  rw [power] at zero
  dsimp only at zero
  split_ifs at zero
  · exact .inl (eq_of_toBits (by omega))
  · exact .inr (eq_of_toBits (by omega))

/-- Doubles of one magnitude are the same, bit for bit, or each other's negatives. -/
theorem eq_or_eq_neg {x y : Float} (same : x.abs = y.abs) : x = y ∨ x = -y := by
  cases hx : x.isNaN with
  | true => exact .inl (eq_of_isNaN hx (isNaN_of_abs_eq same hx))
  | false =>
    obtain ⟨hy, far⟩ := signedBits_of_abs_eq same hx
    by_cases none : signedBits x = 0
    · rw [none, abs_zero] at far
      have back : -(-0 : Float) = 0 := by decide +kernel
      rcases zero_of_signedBits none with rfl | rfl <;>
        rcases zero_of_signedBits (abs_eq_zero.1 far.symm) with rfl | rfl
      · exact .inl rfl
      · exact .inr back.symm
      · exact .inr rfl
      · exact .inl rfl
    · rcases abs_eq_abs.1 far with equal | opposite
      · exact .inl (eq_of_signedBits equal none)
      · exact .inr (eq_of_signedBits (by rw [opposite, (standsAt_neg hy).bits]) none)

/-! ## Packing -/

theorem isNaN_abs_unpacked (u : UnpackedFloat) : u.abs.isNaN = u.isNaN := by cases u <;> rfl

/-- A packed number stands where its magnitude does, under a sign. -/
theorem packed_standsAt {u : UnpackedFloat} (number : u.isNaN = false) :
    ∃ (s : Sign) (n : Int), 0 ≤ n ∧ StandsAt (packed u) (s.apply n) ∧
      StandsAt (packed u.abs) n := by
  cases u with
  | notANumber => cases number
  | infinity s =>
    exact ⟨s, infinityBits, by decide, packed_infinity s, packed_infinity .positive⟩
  | zero s => exact ⟨.positive, 0, le_rfl, packed_zero s, packed_zero .positive⟩
  | finite s m e positive =>
    have standsAt : ∀ t : Sign, StandsAt (packed (.finite t m e positive))
        (t.apply (magnitudeBits m (e + 1023 + 52).toNat)) := fun t =>
      standsAt_of_toBits (magnitudeBits_le _ _) (toNat_pack_finite t m e positive)
    exact ⟨s, _, Int.natCast_nonneg _, standsAt s, standsAt .positive⟩

/-- Packing keeps what is equal up to the sign. -/
theorem abs_packed {u v : UnpackedFloat} (same : u.abs = v.abs) :
    (packed u).abs = (packed v).abs := by
  have kind : u.isNaN = v.isNaN := by rw [← isNaN_abs_unpacked, same, isNaN_abs_unpacked]
  cases number : u.isNaN with
  | true => rw [eq_notANumber number, eq_notANumber (kind.symm.trans number)]
  | false =>
    obtain ⟨s, n, nonneg, atU, magnitude⟩ := packed_standsAt number
    obtain ⟨t, n', nonneg', atV, magnitude'⟩ := packed_standsAt (kind.symm.trans number)
    obtain rfl : n = n' := by rw [← magnitude.bits, same, magnitude'.bits]
    refine congrArg packed ((reads_unpack atU.number).abs_eq (reads_unpack atV.number) ?_)
    rw [atU.bits, atV.bits, abs_apply s nonneg, abs_apply t nonneg]

/-! ## Operations on unpacked doubles -/

theorem abs_roundWithAccuracy (s t : Sign) (m : Nat) (e : Int) (accuracy : Accuracy) :
    (roundWithAccuracy Format.binary64 s m e accuracy).abs =
      (roundWithAccuracy Format.binary64 t m e accuracy).abs := by
  unfold roundWithAccuracy
  dsimp only
  rw [apply_dite UnpackedFloat.abs, apply_dite UnpackedFloat.abs]
  rfl

theorem abs_normalize (total e : Int) :
    (UnpackedFloat.normalize Format.binary64 (-total) e .positive).abs =
      (UnpackedFloat.normalize Format.binary64 total e .positive).abs := by
  unfold UnpackedFloat.normalize
  rcases lt_trichotomy total 0 with less | rfl | more
  · rw [compare_gt_iff_gt.2 (by omega : -total > 0), compare_lt_iff_lt.2 less]
    exact abs_roundWithAccuracy ..
  · rfl
  · rw [compare_lt_iff_lt.2 (by omega : -total < 0), compare_gt_iff_gt.2 more, Int.neg_neg]
    exact abs_roundWithAccuracy ..

theorem abs_sub_swap (u v : UnpackedFloat) : (UnpackedFloat.sub Format.binary64 u v).abs =
    (UnpackedFloat.sub Format.binary64 v u).abs := by
  cases u with
  | finite s m d positive =>
    cases v with
    | finite t n e positive' =>
      unfold UnpackedFloat.sub
      dsimp only
      rw [min_comm d e, ← Int.neg_sub, abs_normalize]
    | _ => rfl
  | notANumber => cases v <;> rfl
  | infinity s =>
    cases v with
    | infinity t => cases s <;> cases t <;> rfl
    | _ => rfl
  | zero s =>
    cases v with
    | zero t => cases s <;> cases t <;> rfl
    | _ => rfl

theorem abs_mul_left (u v : UnpackedFloat) : (UnpackedFloat.mul Format.binary64 u v).abs =
    (UnpackedFloat.mul Format.binary64 u.abs v).abs := by
  cases u <;> cases v <;> first | rfl | exact abs_roundWithAccuracy ..

theorem abs_div_left (u v : UnpackedFloat) : (UnpackedFloat.div Format.binary64 u v).abs =
    (UnpackedFloat.div Format.binary64 u.abs v).abs := by
  cases u <;> cases v <;> first | rfl | exact abs_roundWithAccuracy ..

theorem mul_self_abs (u : UnpackedFloat) :
    UnpackedFloat.mul Format.binary64 u u = UnpackedFloat.mul Format.binary64 u.abs u.abs := by
  cases u with
  | notANumber => rfl
  | infinity s => cases s <;> rfl
  | zero s => cases s <;> rfl
  | finite s m e positive => cases s <;> rfl

theorem sign_mul_comm (s t : Sign) : s * t = t * s := by cases s <;> cases t <;> rfl

theorem mul_swap (u v : UnpackedFloat) :
    UnpackedFloat.mul Format.binary64 u v = UnpackedFloat.mul Format.binary64 v u := by
  cases u with
  | notANumber => cases v <;> rfl
  | infinity s => cases v <;> first | rfl | exact congrArg _ (sign_mul_comm ..)
  | zero s => cases v <;> first | rfl | exact congrArg _ (sign_mul_comm ..)
  | finite s m d positive =>
    cases v with
    | finite t n e positive' =>
      show roundWithAccuracy Format.binary64 (s * t) (m * n) (d + e) .exact =
        roundWithAccuracy Format.binary64 (t * s) (n * m) (e + d) .exact
      rw [sign_mul_comm, Nat.mul_comm, Int.add_comm]
    | notANumber => rfl
    | infinity t => exact congrArg _ (sign_mul_comm ..)
    | zero t => exact congrArg _ (sign_mul_comm ..)

/-! ## Operations on doubles -/

/-- The negative of a double has its magnitude. -/
theorem abs_opposite (x : Float) : (-x).abs = x.abs := by
  cases notNumber : x.isNaN with
  | true =>
    have opposite : -x = packed .notANumber :=
      congrArg (fun u : UnpackedFloat => packed u.neg) (unpack_of_isNaN notNumber)
    rw [opposite, eq_of_isNaN isNaN_packed notNumber]
  | false =>
    have negative := standsAt_neg notNumber
    refine congrArg packed ((reads_unpack negative.number).abs_eq (reads_unpack notNumber) ?_)
    rw [negative.bits, abs_neg]

/-- A difference taken the other way around is the same up to its sign. -/
theorem abs_difference (x y : Float) : (x - y).abs = (y - x).abs := abs_packed (abs_sub_swap _ _)

/-- The sign of a factor is no matter to the magnitude of a product. -/
theorem abs_product {x y : Float} (same : x.abs = y.abs) (z : Float) :
    (x * z).abs = (y * z).abs := by
  refine abs_packed ?_
  rw [abs_mul_left, unpack_abs same, ← abs_mul_left]

/-- The sign of a dividend is no matter to the magnitude of a quotient. -/
theorem abs_quotient {x y : Float} (same : x.abs = y.abs) (z : Float) :
    (x / z).abs = (y / z).abs := by
  refine abs_packed ?_
  rw [abs_div_left, unpack_abs same, ← abs_div_left]

/-- The sign is no matter to a square, bit for bit. -/
theorem square_eq {x y : Float} (same : x.abs = y.abs) : x * x = y * y := by
  refine congrArg packed ?_
  rw [mul_self_abs, unpack_abs same, ← mul_self_abs]

/-- Products of doubles commute, bit for bit. -/
theorem product_comm (x y : Float) : x * y = y * x := congrArg packed (mul_swap _ _)

end Nearby.Decimal
