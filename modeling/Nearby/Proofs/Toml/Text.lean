/-
Texts in double quotes that are read as they stand. A text stands for itself if it has no quotes, no
backslashes and no control characters but tabulators, and for no other text do the quotes around it
give just that text: every escape and every further quote stands for less than it is written with.
-/
import Nearby.Toml.Text
import Mathlib.Data.List.Basic

namespace Nearby.Toml

/-! ## Characters -/

/-- Between double quotes the character stands for itself. -/
def Literal (c : Char) : Prop :=
  (c = '\t' ∨ 0x20 ≤ c.toNat ∧ c.toNat ≠ 0x7f) ∧ c ≠ '"' ∧ c ≠ '\\'

theorem literal_iff {c : Char} : Literal c ↔ isPrintable c = true ∧ c ≠ '"' ∧ c ≠ '\\' := by
  unfold Literal isPrintable
  simp

instance : DecidablePred Literal := fun _ => decidable_of_iff _ literal_iff.symm

/-! ## On one line -/

theorem readBasic_literal {cs : List Char} (literal : ∀ c ∈ cs, Literal c)
    (before rest : List Char) :
    readBasic before (cs ++ '"' :: rest) = some (before.reverse ++ cs, rest) := by
  induction cs generalizing before with
  | nil => rw [List.nil_append, readBasic, List.append_nil]
  | cons c cs ih =>
    obtain ⟨here, literal⟩ := List.forall_mem_cons.1 literal
    obtain ⟨printable, unquoted, unescaped⟩ := literal_iff.1 here
    rw [List.cons_append, readBasic.eq_4 _ _ _ unquoted unescaped, if_pos printable, ih literal,
      List.reverse_cons, List.append_assoc, List.singleton_append]

theorem readEscape_suffix {cs rest : List Char} {c : Char} (h : readEscape cs = some (c, rest)) :
    rest <:+ cs := by
  fun_cases readEscape cs with
  | case1 a b tail =>
    obtain ⟨_, -, h⟩ := Option.bind_eq_some_iff.1 h
    obtain ⟨_, -, h⟩ := Option.map_eq_some_iff.1 h
    cases h
    exact ⟨['x', a, b], rfl⟩
  | case2 a b c d tail =>
    obtain ⟨_, -, h⟩ := Option.bind_eq_some_iff.1 h
    obtain ⟨_, -, h⟩ := Option.map_eq_some_iff.1 h
    cases h
    exact ⟨['u', a, b, c, d], rfl⟩
  | case3 a b c d e f g i tail =>
    obtain ⟨_, -, h⟩ := Option.bind_eq_some_iff.1 h
    obtain ⟨_, -, h⟩ := Option.bind_eq_some_iff.1 h
    obtain ⟨_, -, h⟩ := Option.bind_eq_some_iff.1 h
    cases h
    exact ⟨['U', a, b, c, d, e, f, g, i], rfl⟩
  | case4 c tail noByte noShort noLong =>
    rw [readEscape.eq_4 _ _ noByte noShort noLong] at h
    obtain ⟨_, -, h⟩ := Option.map_eq_some_iff.1 h
    cases h
    exact List.suffix_cons _ _
  | case5 => cases h

/-- What is read up to the closing quote is what is written there, if this is literal, and otherwise
it is shorter. -/
theorem readBasic_cases {before cs text rest : List Char}
    (h : readBasic before cs = some (text, rest)) :
    '"' :: rest <:+ cs ∧
      ((∃ raw, cs = raw ++ '"' :: rest ∧ text = before.reverse ++ raw ∧ ∀ c ∈ raw, Literal c) ∨
        text.length + rest.length + 1 < before.length + cs.length) := by
  fun_induction readBasic before cs with
  | case1 => cases h
  | case2 before tail =>
    cases h
    exact ⟨List.suffix_rfl, .inl ⟨[], rfl, by simp, List.forall_mem_nil _⟩⟩
  | case3 => cases h
  | case4 before escape c left hread ih =>
    obtain ⟨suffix, read⟩ := ih h
    refine ⟨(suffix.trans (readEscape_suffix hread)).trans (List.suffix_cons _ _), .inr ?_⟩
    have shorter := length_of_readEscape hread
    simp only [List.length_cons] at *
    rcases read with ⟨raw, rfl, rfl, -⟩ | less
    · simp only [List.length_append, List.length_cons, List.length_reverse] at *
      omega
    · omega
  | case5 before c tail unquoted unescaped printable ih =>
    obtain ⟨suffix, read⟩ := ih h
    refine ⟨suffix.trans (List.suffix_cons _ _), ?_⟩
    rcases read with ⟨raw, rfl, rfl, literal⟩ | less
    · refine .inl ⟨c :: raw, rfl, by simp, List.forall_mem_cons.2 ⟨?_, literal⟩⟩
      exact literal_iff.2 ⟨printable, unquoted, unescaped⟩
    · refine .inr ?_
      simp only [List.length_cons] at *
      omega
  | case6 => cases h

/-! ## Over several lines -/

theorem length_dropFirstBreak_le (cs : List Char) : (dropFirstBreak cs).length ≤ cs.length := by
  fun_cases dropFirstBreak cs with
  | case1 rest => exact Nat.le_succ _
  | case2 rest => exact Nat.le_add_right _ 2
  | case3 => exact Nat.le_refl _

theorem length_extraQuotes (quote : Char) (cs : List Char) :
    (extraQuotes quote cs).1.length + (extraQuotes quote cs).2.length = cs.length := by
  have most := (List.takeWhile_sublist (fun c => decide (c = quote)) (l := cs)).length_le
  unfold extraQuotes
  simp only [List.length_take, List.length_drop]
  omega

theorem readLongBasic_length {before cs text rest : List Char}
    (h : readLongBasic before cs = some (text, rest)) :
    text.length + rest.length + 3 ≤ before.length + cs.length := by
  fun_induction readLongBasic before cs with
  | case2 before tail extra left quotes =>
    cases h
    have parted := length_extraQuotes '"' tail
    rw [quotes] at parted
    simp only [List.length_append, List.length_reverse, List.length_cons] at *
    omega
  | case3 before escape left line ih =>
    have := ih h
    have := length_of_afterLineEscape line
    simp only [List.length_cons] at *
    omega
  | case5 before escape _ c left read ih =>
    have := ih h
    have := length_of_readEscape read
    simp only [List.length_cons] at *
    omega
  | case6 before tail ih | case7 before c tail _ _ _ _ ih =>
    have := ih h
    simp only [List.length_cons] at *
    omega
  | case1 | case4 | case8 => cases h

/-! ## Quoted texts -/

section Quoted

variable {cs ending : List Char} (short : ending = [] ∨ ending = ['\n'])
include short

/-- Between double quotes a literal text is read as it stands. -/
theorem readText_literal (literal : ∀ c ∈ cs, Literal c) :
    readText ('"' :: (cs ++ '"' :: ending)) = some (cs, ending) := by
  unfold readText
  split
  case h_1 tail opened =>
    have opened := List.tail_eq_of_cons_eq opened
    cases cs with
    | nil => rcases short with rfl | rfl <;> cases opened
    | cons c cs =>
      obtain ⟨rfl, -⟩ := List.cons.inj opened
      exact absurd rfl (literal '"' List.mem_cons_self).2.1
  case h_2 tail opened => cases opened
  case h_3 => exact readBasic_literal literal [] ending

/-- Only a literal text is read as it stands. -/
theorem literal_of_readText {rest : List Char}
    (h : readText ('"' :: (cs ++ '"' :: ending)) = some (cs, rest)) : ∀ c ∈ cs, Literal c := by
  have ends : ending.length ≤ 1 := by rcases short with rfl | rfl <;> decide
  unfold readText at h
  split at h
  case h_1 tail opened =>
    -- the quotes that open a long text are not part of it
    have written := congrArg List.length opened
    have most := length_dropFirstBreak_le tail
    have := readLongBasic_length h
    simp only [List.length_cons, List.length_append, List.length_nil] at *
    omega
  case h_2 tail opened => cases opened
  case h_3 =>
    obtain ⟨suffix, ⟨raw, split, rfl, literal⟩ | less⟩ := readBasic_cases h
    · exact literal
    · -- the closing quote would stand behind the ending
      simp only [List.length_nil, List.length_append, List.length_cons] at less
      obtain rfl : rest = [] := List.length_eq_zero_iff.1 (by omega)
      obtain ⟨front, same⟩ := suffix
      have final := congrArg List.getLast? same
      rcases short with rfl | rfl
      · simp only [List.length_nil] at less
        omega
      · simp at final

end Quoted

end Nearby.Toml
