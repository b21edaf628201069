/-
Moments are read back from their written form. Every part is written as digits with something
else behind them, so a reader of the part takes exactly these digits; the offset is none. This is
so for every year of the calendar and for every second, a leap second included.
-/
import Nearby.Proofs.Decimal.Digits
import Nearby.Time.Reader
import Nearby.Time.Written

namespace Nearby.Time

open Decimal (AllDigits NoDigit ofDigits paddedDigits tenTo allDigits_paddedDigits
  length_paddedDigits_of_lt ofDigits_paddedDigits paddedDigits_ne_nil spanDigits_append)
open Text (isBlank trimStart)

/-! ## Numbers -/

theorem isBlank_digit {c : Char} (digit : c.isDigit = true) : isBlank c = false := by
  obtain ⟨least, most⟩ := Char.isDigit_iff_toNat.1 digit
  have zero : '0'.toNat = 48 := rfl
  have nine : '9'.toNat = 57 := rfl
  simp only [isBlank, Text.blankRanges, List.any_cons, List.any_nil, Bool.or_false,
    Bool.or_eq_false_iff, Bool.and_eq_false_iff, decide_eq_false_iff_not]
  omega

/-- No blanks are in front of digits. -/
theorem trimStart_digits {ds rest : List Char} (all : AllDigits ds) (nonempty : ds ≠ []) :
    trimStart (ds ++ rest) = ds ++ rest := by
  cases ds with
  | nil => exact absurd rfl nonempty
  | cons d ds =>
    exact List.dropWhile_cons_of_neg (by simp [isBlank_digit (all d List.mem_cons_self)])

theorem readNumber_digits {most : Nat} {ds rest : List Char} (all : AllDigits ds)
    (nonempty : ds ≠ []) (short : ds.length ≤ most) (stop : NoDigit rest) :
    readNumber most (ds ++ rest) = some (ofDigits ds, rest) := by
  unfold readNumber
  rw [Text.takeWhile_run all stop, List.take_of_length_le short]
  dsimp only
  rw [List.drop_left]
  exact if_neg (by simpa using nonempty)

theorem readLongNumber_digits {ds rest : List Char} (all : AllDigits ds) (nonempty : ds ≠ [])
    (stop : NoDigit rest) : readLongNumber (ds ++ rest) = some (ofDigits ds, rest) := by
  unfold readLongNumber
  rw [spanDigits_append all stop]
  exact if_neg (by simpa using nonempty)

theorem readPair_padded {n : Nat} (fits : n < 100) {rest : List Char} (stop : NoDigit rest) :
    readPair (paddedDigits 2 n ++ rest) = some (n, rest) := by
  have all := allDigits_paddedDigits 2 n
  have nonempty := paddedDigits_ne_nil 2 n
  have length := length_paddedDigits_of_lt (by decide : 0 < 2) fits
  unfold readPair
  rw [trimStart_digits all nonempty, readNumber_digits all nonempty length.le stop,
    ofDigits_paddedDigits]

/-! ## Days -/

/-- A year without a sign has four digits and begins with one. -/
theorem readYear_digits {n : Nat} (fits : n < 10 ^ 4) {rest : List Char} (stop : NoDigit rest) :
    readYear (paddedDigits 4 n ++ rest) = some ((n : Int), rest) := by
  have all := allDigits_paddedDigits 4 n
  have nonempty := paddedDigits_ne_nil 4 n
  have length := length_paddedDigits_of_lt (by decide : 0 < 4) fits
  have read := readNumber_digits all nonempty length.le stop
  rw [ofDigits_paddedDigits] at read
  unfold readYear
  rw [trimStart_digits all nonempty]
  cases first : paddedDigits 4 n with
  | nil => exact absurd first nonempty
  | cons d ds =>
    rw [first] at all read
    have digit := all d List.mem_cons_self
    -- the first character is a digit, so neither sign is taken for one
    split
    case h_1 same => obtain ⟨rfl, -⟩ := List.cons_eq_cons.1 same; cases digit
    case h_2 same => obtain ⟨rfl, -⟩ := List.cons_eq_cons.1 same; cases digit
    case h_3 => rw [read]; rfl

theorem readYear_signed (n : Nat) {rest : List Char} (stop : NoDigit rest) :
    readYear ('-' :: paddedDigits 4 n ++ rest) = some (-(n : Int), rest) ∧
      readYear ('+' :: paddedDigits 4 n ++ rest) = some ((n : Int), rest) := by
  have read := readLongNumber_digits (allDigits_paddedDigits 4 n) (paddedDigits_ne_nil 4 n) stop
  rw [ofDigits_paddedDigits] at read
  constructor
  · show (readLongNumber (paddedDigits 4 n ++ rest)).map _ = _
    rw [read]
    rfl
  · show (readLongNumber (paddedDigits 4 n ++ rest)).map _ = _
    rw [read]
    rfl

theorem readYear_yearChars (year : Int) {rest : List Char} (stop : NoDigit rest) :
    readYear (yearChars year ++ rest) = some (year, rest) := by
  obtain ⟨minus, plus⟩ := readYear_signed year.natAbs stop
  unfold yearChars
  -- a sign is written, and needed, for years outside of four digits only
  split_ifs with plain negative
  · obtain ⟨n, rfl⟩ := Int.eq_ofNat_of_zero_le plain.1
    rw [Int.toNat_natCast]
    exact readYear_digits (by omega) stop
  · have same : -(year.natAbs : Int) = year := by omega
    rwa [same] at minus
  · have same : (year.natAbs : Int) = year := by omega
    rwa [same] at plus

theorem Date.bounds (d : Date) : d.month < 100 ∧ d.day < 100 := by
  have day := d.isDay
  have most : daysInMonth d.year d.month ≤ 31 := by
    unfold daysInMonth
    split_ifs <;> omega
  simp only [Time.isDay, Bool.and_eq_true, decide_eq_true_eq] at day
  omega

theorem Date.ofNumbers_self (d : Date) : Date.ofNumbers d.year d.month d.day = some d :=
  dif_pos d.isDay

theorem skipMark_cons (mark : Char) (visible : isBlank mark = false) (rest : List Char) :
    skipMark mark (mark :: rest) = some rest := by
  unfold skipMark trimStart
  rw [List.dropWhile_cons_of_neg (by simp [visible])]
  exact if_pos rfl

theorem noDigit_cons (c : Char) (other : c.isDigit = false) (rest : List Char) :
    NoDigit (c :: rest) := by
  rintro c' ⟨⟩
  exact other

theorem readDate_chars (d : Date) {rest : List Char} (stop : NoDigit rest) :
    readDate (d.chars ++ rest) = some (d, rest) := by
  obtain ⟨month, day⟩ := d.bounds
  have dash := noDigit_cons '-' rfl
  unfold readDate Date.chars
  simp only [List.append_assoc, List.cons_append, readYear_yearChars d.year (dash _),
    Option.bind_eq_bind, Option.bind_some, skipMark_cons '-' rfl,
    readPair_padded month (dash _), readPair_padded day stop, Date.ofNumbers_self]
  rfl

/-! ## Moments -/

theorem readFraction_digits {ds rest : List Char} (all : AllDigits ds) (nonempty : ds ≠ [])
    (short : ds.length ≤ 9) (stop : NoDigit rest) :
    readFraction ('.' :: ds ++ rest) = some (ofDigits ds * tenTo (9 - ds.length), rest) := by
  rw [List.cons_append, readFraction, spanDigits_append all stop]
  dsimp only
  rw [List.take_of_length_le short]
  exact if_neg (by simpa using nonempty)

theorem readFraction_padded {width n : Nat} (positive : 0 < width) (short : width ≤ 9)
    (fits : n < 10 ^ width) {rest : List Char} (stop : NoDigit rest) :
    readFraction ('.' :: paddedDigits width n ++ rest) =
      some (n * tenTo (9 - width), rest) := by
  have length := length_paddedDigits_of_lt positive fits
  rw [readFraction_digits (allDigits_paddedDigits width n) (paddedDigits_ne_nil width n)
    (by omega) stop, ofDigits_paddedDigits, length]

theorem readFraction_chars {nano : Nat} (fits : nano < 1000000000) :
    readFraction (fractionChars nano ++ ['Z']) = some (nano, ['Z']) := by
  have stop : NoDigit ['Z'] := noDigit_cons 'Z' rfl []
  have powers : tenTo 6 = 1000000 ∧ tenTo 3 = 1000 ∧ tenTo 0 = 1 := by decide
  unfold fractionChars
  split_ifs with none three six
  · subst none
    rfl
  · rw [readFraction_padded (by decide) (by decide) (by omega) stop, powers.1]
    simp only [Option.some.injEq, Prod.mk.injEq, and_true]
    omega
  · rw [readFraction_padded (by decide) (by decide) (by omega) stop, powers.2.1]
    simp only [Option.some.injEq, Prod.mk.injEq, and_true]
    omega
  · rw [readFraction_padded (by decide) (by decide) (by omega) stop, powers.2.2, Nat.mul_one]

namespace Timestamp

theorem takeOffset_zero (t : Timestamp) : t.takeOffset 0 = some t := by
  have hour := t.hour.isLt
  have minute := t.minute.isLt
  have full : minutesPerDay = 1440 := rfl
  have here : t.atMinute (t.hour * 60 + t.minute - 0) = t := by
    obtain ⟨date, ⟨h, hh⟩, ⟨m, hm⟩, second, nano⟩ := t
    simp only [atMinute, Timestamp.mk.injEq, Fin.mk.injEq, and_true, true_and]
    omega
  unfold takeOffset
  dsimp only
  rw [if_neg (by omega), if_neg (by omega), here]

theorem below_val {bound : Nat} (n : Fin bound) : below bound n = some n := dif_pos n.isLt

theorem fractionStops (nano : Nat) : NoDigit (fractionChars nano ++ ['Z']) := by
  unfold fractionChars
  split_ifs
  all_goals exact noDigit_cons _ rfl _

/-- A moment is read back from its characters. -/
theorem readMoment_chars (t : Timestamp) : readMoment t.chars = some (t, []) := by
  have hour : t.hour.val < 100 := by omega
  have minute : t.minute.val < 100 := by omega
  have second : t.second.val < 100 := by omega
  have colon := noDigit_cons ':' rfl
  have offset : readOffset (trimStart ['Z']) = some (0, []) := rfl
  unfold readMoment Timestamp.chars
  simp only [List.append_assoc, List.cons_append]
  -- one part after the other takes its characters and leaves the rest
  refine Option.bind_eq_some_iff.2 ⟨_, readDate_chars t.date (noDigit_cons 'T' rfl _), ?_⟩
  refine Option.bind_eq_some_iff.2 ⟨_, rfl, ?_⟩
  refine Option.bind_eq_some_iff.2 ⟨_, readPair_padded hour (colon _), ?_⟩
  refine Option.bind_eq_some_iff.2 ⟨_, skipMark_cons ':' rfl _, ?_⟩
  refine Option.bind_eq_some_iff.2 ⟨_, readPair_padded minute (colon _), ?_⟩
  refine Option.bind_eq_some_iff.2 ⟨_, skipMark_cons ':' rfl _, ?_⟩
  refine Option.bind_eq_some_iff.2 ⟨_, readPair_padded second (fractionStops t.nano), ?_⟩
  refine Option.bind_eq_some_iff.2 ⟨_, readFraction_chars t.nano.isLt, ?_⟩
  refine Option.bind_eq_some_iff.2 ⟨_, offset, ?_⟩
  simp only [below_val, takeOffset_zero, Option.bind_eq_bind, Option.bind_some]
  rfl

/-- A moment is read back from its written form. -/
theorem read_text (t : Timestamp) : Timestamp.read t.text = some t := by
  unfold Timestamp.read Timestamp.text
  rw [String.toList_ofList, readMoment_chars]
  rfl

end Timestamp

end Nearby.Time
