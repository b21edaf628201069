/-
Decimal digits of a number. They are never without a digit, begin with a zero for zero only, and
spell the number that they are of, also with zeros in front; of digits with something else behind
them a reader takes all and no more, as of any run of characters with a condition in common.
-/
import Nearby.Decimal.Fixed
import Nearby.Decimal.Numeral
import Mathlib.Algebra.Order.Ring.Nat
import Mathlib.Data.List.TakeWhile

namespace Nearby.Text

/-! ## Runs of characters -/

section Run

variable {p : Char → Bool} {run rest : List Char} (inside : ∀ c ∈ run, p c = true)
  (stop : ∀ c ∈ rest.head?, p c = false)
include inside stop

theorem takeWhile_run : (run ++ rest).takeWhile p = run := by
  rw [List.takeWhile_append_of_pos inside]
  cases rest with
  | nil => simp
  | cons c rest => simp [stop c rfl]

theorem dropWhile_run : (run ++ rest).dropWhile p = rest := by
  rw [List.dropWhile_append_of_pos inside]
  cases rest with
  | nil => rfl
  | cons c rest => simp [stop c rfl]

end Run

end Nearby.Text

namespace Nearby.Decimal

/-! ## Runs of digits -/

/-- Only digits. -/
def AllDigits (ds : List Char) : Prop := ∀ d ∈ ds, d.isDigit = true

/-- What follows does not begin with a digit. -/
def NoDigit (rest : List Char) : Prop := ∀ c ∈ rest.head?, c.isDigit = false

theorem AllDigits.append {ds es : List Char} (hd : AllDigits ds) (he : AllDigits es) :
    AllDigits (ds ++ es) := by
  intro d mem
  exact (List.mem_append.1 mem).elim (hd d) (he d)

theorem spanDigits_append {ds rest : List Char} (all : AllDigits ds) (stop : NoDigit rest) :
    spanDigits (ds ++ rest) = (ds, rest) := by
  unfold spanDigits
  rw [Text.takeWhile_run all stop, Text.dropWhile_run all stop]

/-- No sign is split off digits. -/
theorem splitSign_digits {ds rest : List Char} (all : AllDigits ds) (nonempty : ds ≠ []) :
    splitSign (ds ++ rest) = (false, ds ++ rest) := by
  cases ds with
  | nil => exact absurd rfl nonempty
  | cons d ds =>
    have digit := all d List.mem_cons_self
    rw [List.cons_append]
    unfold splitSign
    split
    case h_1 same => obtain ⟨rfl, -⟩ := List.cons_eq_cons.1 same; cases digit
    case h_2 same => obtain ⟨rfl, -⟩ := List.cons_eq_cons.1 same; cases digit
    case h_3 => rfl

/-! ## The number that digits spell -/

theorem appendDigits_eq (start : Nat) (ds : List Char) :
    appendDigits start ds = start * 10 ^ ds.length + ofDigits ds := by
  rw [Nat.mul_comm]
  exact Nat.ofDigitChars_eq_ofDigitChars_zero

theorem ofDigits_append (ds es : List Char) :
    ofDigits (ds ++ es) = ofDigits ds * 10 ^ es.length + ofDigits es := by
  rw [← appendDigits_eq]
  exact Nat.ofDigitChars_append 0

theorem ofDigits_lt {ds : List Char} (all : AllDigits ds) : ofDigits ds < 10 ^ ds.length := by
  induction ds with
  | nil => decide
  | cons d ds ih =>
    obtain ⟨digit, all⟩ := List.forall_mem_cons.1 all
    have one : ofDigits [d] ≤ 9 := by
      obtain ⟨least, most⟩ := Char.isDigit_iff_toNat.1 digit
      have zero : '0'.toNat = 48 := rfl
      have nine : '9'.toNat = 57 := rfl
      show 10 * 0 + (d.toNat - '0'.toNat) ≤ 9
      omega
    have rest := ih all
    rw [← List.singleton_append, ofDigits_append, List.singleton_append, List.length_cons,
      Nat.pow_succ]
    calc ofDigits [d] * 10 ^ ds.length + ofDigits ds
        < ofDigits [d] * 10 ^ ds.length + 10 ^ ds.length := Nat.add_lt_add_left rest _
      _ ≤ 9 * 10 ^ ds.length + 10 ^ ds.length :=
        Nat.add_le_add_right (Nat.mul_le_mul_right _ one) _
      _ = 10 ^ ds.length * 10 := by omega

/-! ## The digits of a number -/

theorem digits_ne_nil (n : Nat) : digits n ≠ [] := Nat.toDigits_ne_nil

theorem allDigits_digits (n : Nat) : AllDigits (digits n) :=
  fun _ mem => Nat.isDigit_of_mem_toDigits (by decide) (by decide) mem

theorem ofDigits_digits (n : Nat) : ofDigits (digits n) = n := Nat.ofDigitChars_ten_toDigits

theorem ofDigits_zeros (width : Nat) : ofDigits (List.replicate width '0') = 0 :=
  Nat.ofDigitChars_replicate_zero

/-- Only the digits of zero begin with a zero. -/
theorem eq_zero_of_head_digits {n : Nat} (head : (digits n).head? = some '0') : n = 0 := by
  induction n using Nat.strongRecOn with
  | _ n ih =>
    unfold digits at head ih
    rw [Nat.toDigits_eq_if (by decide)] at head
    split_ifs at head with small
    · have only : ∀ m < 10, Nat.digitChar m = '0' → m = 0 := by decide
      exact only n small (Option.some.inj head)
    · -- the leading digit is that of the number without its last digit
      have front : (Nat.toDigits 10 (n / 10)).head? = some '0' := by
        cases tens : Nat.toDigits 10 (n / 10) with
        | nil => exact absurd tens Nat.toDigits_ne_nil
        | cons d ds => rwa [tens] at head
      have := ih (n / 10) (by omega) front
      omega

/-! ## With zeros in front -/

theorem allDigits_paddedDigits (width n : Nat) : AllDigits (paddedDigits width n) := by
  refine AllDigits.append ?_ (allDigits_digits n)
  intro d mem
  rw [List.eq_of_mem_replicate mem]
  rfl

theorem ofDigits_paddedDigits (width n : Nat) : ofDigits (paddedDigits width n) = n := by
  unfold paddedDigits
  rw [ofDigits_append, ofDigits_zeros, ofDigits_digits, Nat.zero_mul, Nat.zero_add]

theorem length_paddedDigits (width n : Nat) :
    (paddedDigits width n).length = max width (digits n).length := by
  unfold paddedDigits
  rw [List.length_append, List.length_replicate]
  omega

theorem paddedDigits_ne_nil (width n : Nat) : paddedDigits width n ≠ [] := by
  unfold paddedDigits
  exact List.append_ne_nil_of_right_ne_nil _ (digits_ne_nil n)

/-- A number that fits fills the width exactly. -/
theorem length_paddedDigits_of_lt {width n : Nat} (positive : 0 < width) (fits : n < 10 ^ width) :
    (paddedDigits width n).length = width := by
  have short := (Nat.length_toDigits_le_iff (by decide) positive).2 fits
  rw [length_paddedDigits]
  exact max_eq_left short

end Nearby.Decimal
