/-
Numbers as they are written in documents. In every layout the text of a double is a sign and a
literal: digits, then maybe a point and digits, then maybe a negative exponent. The digits are
those of the shortest decimal, so a literal up to a bound is written for a double up to it.
-/
import Nearby.Proofs.Decimal.Shortest
import Nearby.Proofs.Json.Spelling

namespace Nearby.Json

open Decimal

/-! ## Literals -/

/-- The parts of an unsigned number. The exponent is taken to be negative, and with one there is a
single digit before the point. -/
structure Literal where
  whole : List Char
  part : List Char
  exponent : Option Nat
  isWhole : Whole whole
  isPart : AllDigits part
  isNormal : exponent.isSome = true → whole.length = 1

namespace Literal

/-- The point and the digits behind it, if there are any. -/
def fraction (t : Literal) : List Char := if t.part.isEmpty then [] else '.' :: t.part

/-- The exponent with its mark and sign, if there is one. -/
def power (t : Literal) : List Char :=
  match t.exponent with
  | none => []
  | some n => 'e' :: '-' :: digits n

/-- The characters of the literal. -/
def chars (t : Literal) : List Char := t.whole ++ t.fraction ++ t.power

/-- All its digits as one number. -/
def coefficient (t : Literal) : Nat := ofDigits (t.whole ++ t.part)

/-- By how many places that number is shifted behind the point. -/
def places (t : Literal) : Nat := t.part.length + t.exponent.getD 0

/-- The literal is at most the whole number. -/
def AtMost (t : Literal) (b : Nat) : Prop := t.coefficient ≤ b * 10 ^ t.places

theorem whole_le {t : Literal} {b : Nat} (most : t.AtMost b) : ofDigits t.whole ≤ max b 9 := by
  unfold AtMost coefficient places at most
  rw [ofDigits_append] at most
  cases exponent : t.exponent with
  | none =>
    rw [exponent] at most
    have units : ofDigits t.whole * 10 ^ t.part.length ≤ b * 10 ^ t.part.length :=
      le_trans (Nat.le_add_right _ _) most
    exact le_max_of_le_left (Nat.le_of_mul_le_mul_right units (Nat.pow_pos (by decide)))
  | some n =>
    have one := t.isNormal (by rw [exponent]; rfl)
    have digit := ofDigits_lt t.isWhole.1.2
    rw [one] at digit
    exact le_max_of_le_right (by omega)

theorem fraction_of_nil {t : Literal} (none : t.part = []) : t.fraction = [] :=
  if_pos (List.isEmpty_iff.2 none)

theorem fraction_of_ne_nil {t : Literal} (some : t.part ≠ []) : t.fraction = '.' :: t.part :=
  if_neg (by simpa using some)

theorem spelling (t : Literal) {sign : List Char} (signed : sign = [] ∨ sign = ['-']) :
    NumberSpelling (sign ++ t.chars) := by
  have fraction : Fraction t.fraction := by
    by_cases none : t.part = []
    · exact .inl (fraction_of_nil none)
    · exact .inr ⟨t.part, fraction_of_ne_nil none, none, t.isPart⟩
  have exponent : Exponent t.power := by
    unfold power
    cases t.exponent with
    | none => exact .inl rfl
    | some n =>
      exact .inr ⟨'e', ['-'], digits n, rfl, .inl rfl, .inr (.inr rfl), digits_ne_nil n,
        allDigits_digits n⟩
  refine ⟨sign, t.whole, t.fraction, t.power, ?_, signed, t.isWhole, fraction, exponent⟩
  unfold chars
  simp only [List.append_assoc]

end Literal

/-! ## Layouts -/

theorem whole_digits (n : Nat) : Whole (digits n) := by
  refine ⟨⟨digits_ne_nil n, allDigits_digits n⟩, fun zero => ?_⟩
  rw [eq_zero_of_head_digits zero]
  rfl

theorem whole_singleton {d : Char} (digit : d.isDigit = true) : Whole [d] := by
  refine ⟨⟨List.cons_ne_nil d [], ?_⟩, fun _ => rfl⟩
  rintro c mem
  rwa [List.mem_singleton.1 mem]

theorem whole_take {ds : List Char} (whole : Whole ds) {n : Nat} (some : 0 < n) :
    Whole (ds.take n) := by
  obtain ⟨⟨nonempty, all⟩, zero⟩ := whole
  obtain ⟨j, rfl⟩ := Nat.exists_eq_succ_of_ne_zero some.ne'
  cases ds with
  | nil => exact absurd rfl nonempty
  | cons d ds =>
    constructor
    · exact ⟨List.cons_ne_nil d _, fun c mem => all c (List.mem_of_mem_take mem)⟩
    · intro head
      have one := zero head
      rw [List.length_take]
      omega

/-- The digits before the point begin with a zero only if it is the one that stands for nothing. -/
theorem whole_take_paddedDigits (places n : Nat) :
    Whole ((paddedDigits (places + 1) n).take ((paddedDigits (places + 1) n).length - places)) := by
  have length := length_paddedDigits (places + 1) n
  rcases le_or_gt (digits n).length (places + 1) with short | long
  · -- zeros are in front, or nothing: one digit is before the point
    have one : (paddedDigits (places + 1) n).length - places = 1 := by omega
    have all := allDigits_paddedDigits (places + 1) n
    rw [one]
    cases padded : paddedDigits (places + 1) n with
    | nil => exact absurd padded (paddedDigits_ne_nil _ n)
    | cons d ds =>
      rw [padded] at all
      exact whole_singleton (all d List.mem_cons_self)
  · have bare : paddedDigits (places + 1) n = digits n := by
      unfold paddedDigits
      rw [Nat.sub_eq_zero_of_le long.le]
      rfl
    rw [bare]
    exact whole_take (whole_digits n) (by omega)

/-- A number shifted behind the point. -/
def placed (places n : Nat) : Literal where
  whole := (paddedDigits (places + 1) n).take ((paddedDigits (places + 1) n).length - places)
  part := (paddedDigits (places + 1) n).drop ((paddedDigits (places + 1) n).length - places)
  exponent := none
  isWhole := whole_take_paddedDigits places n
  isPart := fun d mem => allDigits_paddedDigits (places + 1) n d (List.mem_of_mem_drop mem)
  isNormal := nofun

theorem places_placed (places n : Nat) : (placed places n).places = places := by
  have length := length_paddedDigits (places + 1) n
  show ((paddedDigits (places + 1) n).drop _).length + 0 = places
  rw [List.length_drop]
  omega

theorem coefficient_placed (places n : Nat) : (placed places n).coefficient = n := by
  show ofDigits (List.take _ _ ++ List.drop _ _) = n
  rw [List.take_append_drop, ofDigits_paddedDigits]

theorem chars_placed {places : Nat} (positive : 0 < places) (n : Nat) :
    (placedText places n).toList = (placed places n).chars := by
  have length := places_placed places n
  have some : (placed places n).part ≠ [] := by
    intro none
    unfold Literal.places at length
    rw [none] at length
    exact positive.ne length
  unfold placedText
  dsimp only
  rw [if_neg positive.ne', String.toList_ofList]
  show (placed places n).whole ++ '.' :: (placed places n).part = _
  unfold Literal.chars
  rw [Literal.fraction_of_ne_nil some]
  exact (List.append_nil _).symm

/-- A whole number with a zero behind the point. -/
def wholeLiteral (n : Nat) : Literal where
  whole := digits n
  part := ['0']
  exponent := none
  isWhole := whole_digits n
  isPart := List.forall_mem_singleton.2 rfl
  isNormal := nofun

theorem chars_wholeLiteral (n : Nat) :
    (placedText 0 n ++ ".0").toList = (wholeLiteral n).chars := by
  have bare : paddedDigits (0 + 1) n = digits n := by
    have some := List.length_pos_iff.2 (digits_ne_nil n)
    unfold paddedDigits
    rw [show 0 + 1 - (digits n).length = 0 by omega]
    rfl
  unfold placedText
  dsimp only
  rw [if_pos rfl, bare, Nat.sub_zero, List.take_length, String.toList_append,
    String.toList_ofList]
  exact (List.append_nil _).symm

/-- In positional notation, with at least one place. -/
theorem exists_positional {a : Numeral} {b : Nat} (most : a.AtMost b) : ∃ t : Literal,
    (if 0 ≤ a.exponent then a.positional ++ ".0" else a.positional).toList = t.chars ∧
      t.AtMost b := by
  unfold Numeral.AtMost at most
  unfold Numeral.positional
  by_cases whole : 0 ≤ a.exponent
  · have none : (-a.exponent).toNat = 0 := by omega
    rw [if_pos whole, if_pos whole]
    refine ⟨wholeLiteral (a.coefficient * tenTo a.exponent.toNat), chars_wholeLiteral _, ?_⟩
    rw [none, Nat.pow_zero, Nat.mul_one] at most
    show ofDigits (digits _ ++ ['0']) ≤ b * 10 ^ 1
    rw [ofDigits_append, ofDigits_digits]
    exact Nat.mul_le_mul_right 10 most
  · have none : a.exponent.toNat = 0 := by omega
    rw [if_neg whole, if_neg whole]
    refine ⟨placed (-a.exponent).toNat a.coefficient, chars_placed (by omega) _, ?_⟩
    rw [none, Nat.pow_zero, Nat.mul_one] at most
    unfold Literal.AtMost
    rwa [coefficient_placed, places_placed]

/-- A positive decimal up to a small number has no digit far before the point. -/
theorem lead_le {a : Numeral} {b : Nat} (positive : 0 < a.coefficient) (small : b < 1000)
    (most : a.AtMost b) : a.exponent + (digits a.coefficient).length - 1 ≤ 15 := by
  unfold Numeral.AtMost at most
  rcases le_or_gt 0 a.exponent with up | down
  · -- a whole number up to the bound has three digits at most, with its zeros
    obtain ⟨e, he⟩ := Int.eq_ofNat_of_zero_le up
    have none : (-a.exponent).toNat = 0 := by omega
    have exponent : a.exponent.toNat = e := by omega
    rw [none, exponent, Nat.pow_zero, Nat.mul_one] at most
    have digits : (digits a.coefficient).length ≤ 3 := by
      refine (Nat.length_toDigits_le_iff (by decide) (by decide)).2 ?_
      have := Nat.le_mul_of_pos_right a.coefficient (Nat.pow_pos (n := e) (by decide : 0 < 10))
      omega
    have short : e < 3 := by
      refine (Nat.pow_lt_pow_iff_right (by decide : 1 < 10)).1 ?_
      have := Nat.le_mul_of_pos_left (10 ^ e) positive
      omega
    omega
  · obtain ⟨e, he⟩ : ∃ e : Nat, a.exponent = -e := ⟨(-a.exponent).toNat, by omega⟩
    have none : a.exponent.toNat = 0 := by omega
    have exponent : (-a.exponent).toNat = e := by omega
    rw [none, exponent, Nat.pow_zero, Nat.mul_one] at most
    have digits : (digits a.coefficient).length ≤ 3 + e := by
      refine (Nat.length_toDigits_le_iff (by decide) (by omega)).2 ?_
      rw [Nat.pow_add]
      exact Nat.lt_of_le_of_lt most (Nat.mul_lt_mul_of_pos_right small (Nat.pow_pos (by decide)))
    omega

/-- With an exponent, which is negative where the leading digit is behind the point. -/
theorem exists_scientific {a : Numeral} {b : Nat} (most : a.AtMost b)
    (behind : a.exponent + (digits a.coefficient).length - 1 < 0) : ∃ t : Literal,
    a.scientific.toList = t.chars ∧ t.AtMost b := by
  have all := allDigits_digits a.coefficient
  have spelled := ofDigits_digits a.coefficient
  unfold Numeral.AtMost at most
  unfold Numeral.scientific
  cases same : digits a.coefficient with
  | nil => exact absurd same (digits_ne_nil _)
  | cons first rest =>
    rw [same] at all spelled behind
    rw [List.length_cons] at behind
    obtain ⟨e, he⟩ : ∃ e : Nat, a.exponent + rest.length = Int.negSucc e :=
      ⟨(-(a.exponent + rest.length) - 1).toNat, by omega⟩
    obtain ⟨digit, others⟩ := List.forall_mem_cons.1 all
    refine ⟨⟨[first], rest, some (e + 1), whole_singleton digit, others, fun _ => rfl⟩, ?_, ?_⟩
    · have power : (toString (Int.negSucc e)).toList = '-' :: digits (e + 1) := by
        show ("-" ++ (e + 1).repr).toList = _
        rw [String.toList_append, Nat.toList_repr]
        rfl
      dsimp only
      rw [he]
      simp only [String.toList_append, power]
      unfold Literal.chars Literal.fraction Literal.power
      cases rest with
      | nil => simp
      | cons next rest => simp
    · have none : a.exponent.toNat = 0 := by omega
      have places : rest.length + (e + 1) = (-a.exponent).toNat := by omega
      rw [none, Nat.pow_zero, Nat.mul_one] at most
      show ofDigits (first :: rest) ≤ b * 10 ^ (rest.length + (e + 1))
      rwa [spelled, places]

/-! ## The text of a double -/

/-- A double up to a bound, and not below its negative, is written as a sign and a literal up to
the bound. -/
theorem exists_document {b k q : Nat} (bound : Bound b k q) {x : Float}
    (within : (signedBits x).natAbs ≤ place (b * 2 ^ k) q) : ∃ (negative : Bool) (t : Literal),
    (document x).toList = (signText negative).toList ++ t.chars ∧ t.AtMost b := by
  have before : (place (b * 2 ^ k) q : Int) < infinityBits := bound.finite
  obtain ⟨negative, n, r, parts, c, at'⟩ := Double.ofFloat_eq (x := x) (by omega)
  refine ⟨negative, ?_⟩
  unfold document
  rw [parts]
  dsimp only
  by_cases zero : n = 0
  · rw [if_pos zero, String.toList_append]
    refine ⟨wholeLiteral 0, rfl, ?_⟩
    exact Nat.zero_le _
  · rw [if_neg zero]
    have most := bound.atMost_shortest c (by omega) negative
    have positive := Dyadic.shortest_pos (d := ⟨negative, n, (r : Int) - 1074⟩)
      (Nat.pos_of_ne_zero zero)
    have lead := lead_le positive bound.small most
    generalize Dyadic.shortest ⟨negative, n, (r : Int) - 1074⟩ = a at most positive lead ⊢
    rw [String.toList_append]
    split_ifs with layout whole
    · obtain ⟨t, chars, atMost⟩ := exists_positional most
      rw [if_pos whole] at chars
      exact ⟨t, by rw [chars], atMost⟩
    · obtain ⟨t, chars, atMost⟩ := exists_positional most
      rw [if_neg whole] at chars
      exact ⟨t, by rw [chars], atMost⟩
    · obtain ⟨t, chars, atMost⟩ := exists_scientific most (by omega)
      exact ⟨t, by rw [chars], atMost⟩

end Nearby.Json
