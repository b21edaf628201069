/-
What is split off the front of a text. A splitter takes a token as the grammar spells it, and all
of it: what is left does not make a number longer. So the tokens that the front of a text is made
of are the same however far one looks, and the scan of the text is all of them.
-/
import Nearby.Proofs.Json.Spelling

namespace Nearby.Json

open Decimal (NoDigit spanDigits)

/-! ## Parts of numbers -/

theorem of_splitDigits {cs ds rest : List Char} (split : splitDigits cs = some (ds, rest)) :
    cs = ds ++ rest ∧ Digits ds ∧ NoDigit rest := by
  unfold splitDigits spanDigits at split
  dsimp only at split
  split at split
  · cases split
  next some =>
    cases split
    refine ⟨List.takeWhile_append_dropWhile.symm, ⟨fun none => ?_, fun d mem => ?_⟩, ?_⟩
    · simp [none] at some
    · exact List.mem_takeWhile_imp mem
    · intro c next
      have stop := List.head?_dropWhile_not Char.isDigit cs
      rw [next] at stop
      exact stop

theorem of_splitWhole {cs ds rest : List Char} (split : splitWhole cs = some (ds, rest)) :
    cs = ds ++ rest ∧ Whole ds ∧ NoDigit rest := by
  obtain ⟨digits, zero⟩ := Option.filter_eq_some_iff.1 split
  obtain ⟨whole, digits, stop⟩ := of_splitDigits digits
  refine ⟨whole, ⟨digits, fun begins => ?_⟩, stop⟩
  simpa [begins] using zero

theorem of_splitFraction {cs part rest : List Char}
    (split : splitFraction cs = some (part, rest)) (stop : NoDigit cs) :
    cs = part ++ rest ∧ Fraction part ∧
      ∀ c ∈ rest.head?, c.isDigit = false ∧ (part = [] → c ≠ '.') := by
  unfold splitFraction at split
  split at split
  case h_1 tail =>
    obtain ⟨⟨ds, left⟩, digits, same⟩ := Option.map_eq_some_iff.1 split
    cases same
    obtain ⟨rfl, digits, stop⟩ := of_splitDigits digits
    exact ⟨rfl, .inr ⟨ds, rfl, digits⟩, fun c next => ⟨stop c next, nofun⟩⟩
  case h_2 pointless =>
    cases split
    refine ⟨rfl, .inl rfl, fun c next => ⟨stop c next, fun _ => ?_⟩⟩
    rintro rfl
    obtain ⟨tail, rfl⟩ := List.head?_eq_some_iff.1 next
    exact pointless tail rfl

theorem of_splitMark (marks cs : List Char) :
    cs = (splitMark marks cs).1 ++ (splitMark marks cs).2 ∧
      ((splitMark marks cs).1 = [] ∨ ∃ c ∈ marks, (splitMark marks cs).1 = [c]) := by
  unfold splitMark
  split
  · split
    next mark => exact ⟨rfl, .inr ⟨_, List.contains_iff_mem.1 mark, rfl⟩⟩
    · exact ⟨rfl, .inl rfl⟩
  · exact ⟨rfl, .inl rfl⟩

theorem of_splitExponent {cs part rest : List Char}
    (split : splitExponent cs = some (part, rest)) (stop : NoDigit cs) :
    cs = part ++ rest ∧ Exponent part ∧
      (∀ c ∈ rest.head?, c.isDigit = false ∧ (part = [] → c ≠ 'e' ∧ c ≠ 'E')) := by
  unfold splitExponent at split
  split at split
  case h_1 =>
    cases split
    exact ⟨rfl, .inl rfl, nofun⟩
  case h_2 mark tail =>
    split at split
    next marked =>
      obtain ⟨⟨ds, left⟩, digits, same⟩ := Option.map_eq_some_iff.1 split
      cases same
      obtain ⟨signed, sign⟩ := of_splitMark ['+', '-'] tail
      obtain ⟨later, digits, stop⟩ := of_splitDigits digits
      refine ⟨?_, .inr ⟨mark, _, ds, rfl, marked, ?_, digits⟩, fun c next => ⟨stop c next, nofun⟩⟩
      · rw [later] at signed
        simpa using signed
      · simpa [or_assoc] using sign
    next unmarked =>
      cases split
      refine ⟨rfl, .inl rfl, ?_⟩
      rintro c ⟨⟩
      exact ⟨stop _ rfl, fun _ => not_or.1 unmarked⟩

/-! ## Tokens -/

theorem endsNumber_nil (spelling : List Char) : EndsNumber spelling [] := nofun

/-- A longer number would have been split off. -/
theorem endsNumber_of_halts {sign whole fraction exponent rest : List Char}
    (signed : sign = [] ∨ sign = ['-']) (hw : Whole whole) (hf : Fraction fraction)
    (he : Exponent exponent) (halts : Halts fraction exponent rest) :
    EndsNumber (sign ++ whole ++ fraction ++ exponent) rest := by
  intro c next
  refine ⟨(halts c next).1, fun more longer => ?_⟩
  have halts' : Halts fraction exponent (c :: more) := by
    rintro c' ⟨⟩
    exact halts c next
  have short := splitNumber_parts signed hw hf he halts'
  have long := splitNumber_append longer (endsNumber_nil _)
  rw [List.append_nil, short] at long
  have none := congrArg (List.length ∘ Prod.snd) (Option.some.inj long)
  cases none

theorem of_splitNumber {cs spelling rest : List Char}
    (split : splitNumber cs = some (spelling, rest)) :
    cs = spelling ++ rest ∧ NumberSpelling spelling ∧ EndsNumber spelling rest := by
  simp only [splitNumber, Option.bind_eq_bind, Option.bind_eq_some_iff, Option.pure_def,
    Option.some.injEq, Prod.mk.injEq] at split
  obtain ⟨⟨whole, _⟩, split₁, ⟨fraction, _⟩, split₂, ⟨exponent, _⟩, split₃, rfl, rfl⟩ := split
  obtain ⟨signed, sign⟩ := of_splitMark ['-'] cs
  obtain ⟨eq₁, hw, stop₁⟩ := of_splitWhole split₁
  obtain ⟨eq₂, hf, stop₂⟩ := of_splitFraction split₂ stop₁
  obtain ⟨eq₃, he, stop₃⟩ := of_splitExponent split₃ fun c next => (stop₂ c next).1
  simp only at eq₁ eq₂ eq₃ hw hf he stop₂ stop₃ ⊢
  have minus : (splitMark ['-'] cs).1 = [] ∨ (splitMark ['-'] cs).1 = ['-'] := by simpa using sign
  refine ⟨?_, ⟨_, whole, fraction, exponent, rfl, minus, hw, hf, he⟩,
    endsNumber_of_halts minus hw hf he fun c next => ⟨(stop₃ c next).1, ?_⟩⟩
  · rw [eq₃] at eq₂
    rw [eq₂] at eq₁
    rw [eq₁] at signed
    simpa using signed
  · rintro rfl
    rw [List.nil_append] at eq₃
    have unmarked := (stop₃ c next).2 rfl
    exact ⟨unmarked.1, unmarked.2, (stop₂ c (eq₃ ▸ next)).2⟩

theorem of_splitString {before cs spelling rest : List Char}
    (split : splitString before cs = some (spelling, rest)) :
    ∃ inside, spelling = before.reverse ++ inside ∧ cs = inside ++ '"' :: rest ∧
      StringSpelling inside := by
  fun_induction splitString before cs with
  | case1 => cases split
  | case2 =>
    cases split
    exact ⟨[], by simp, rfl, .nil⟩
  | case3 before a b c d cs hex ih =>
    obtain ⟨inside, rfl, rfl, legal⟩ := ih split
    obtain ⟨n, unit⟩ := Option.isSome_iff_exists.1 hex
    exact ⟨_, by simp, rfl, .unit unit legal⟩
  | case4 => cases split
  | case5 before letter cs _ short ih =>
    obtain ⟨inside, rfl, rfl, legal⟩ := ih split
    obtain ⟨c, escape⟩ := Option.isSome_iff_exists.1 short
    exact ⟨_, by simp, rfl, .short escape legal⟩
  | case6 => cases split
  | case7 => cases split
  | case8 before c cs quote _ _ plain ih =>
    obtain ⟨inside, rfl, rfl, legal⟩ := ih split
    obtain ⟨slash, control⟩ := not_or.1 plain
    exact ⟨_, by simp, rfl, .plain quote slash (Nat.le_of_not_lt control) legal⟩

theorem of_splitWord {cs rest : List Char} {token : Token}
    (split : splitWord cs = some (token, rest)) :
    cs = token.chars ++ rest ∧ token.Legal ∧ token.Ends rest := by
  fun_cases splitWord cs with
  | case1 => cases split; exact ⟨rfl, .inl rfl, trivial⟩
  | case2 => cases split; exact ⟨rfl, .inr ⟨_, rfl⟩, trivial⟩
  | case3 => cases split; exact ⟨rfl, .inr ⟨_, rfl⟩, trivial⟩
  | case4 => rw [splitWord] at split <;> simp_all

/-- What is split off is a token, as the grammar spells it and as long as it goes. -/
theorem of_splitToken {cs rest : List Char} {token : Token}
    (split : splitToken cs = some (token, rest)) :
    cs = token.chars ++ rest ∧ token.Legal ∧ token.Ends rest := by
  fun_cases splitToken cs with
  | case1 => cases split
  | case8 tail =>
    obtain ⟨⟨spelling, left⟩, string, same⟩ := Option.map_eq_some_iff.1 split
    cases same
    obtain ⟨inside, rfl, rfl, legal⟩ := of_splitString string
    exact ⟨by simp [Token.chars, quoted], legal, trivial⟩
  | case9 c tail _ _ _ _ _ _ _ first =>
    rw [splitToken, if_pos first] at split
    · obtain ⟨⟨spelling, left⟩, number, same⟩ := Option.map_eq_some_iff.1 split
      cases same
      exact of_splitNumber number
    all_goals simp_all
  | case10 c tail _ _ _ _ _ _ _ other =>
    rw [splitToken, if_neg other] at split
    · exact of_splitWord split
    all_goals simp_all
  | _ => cases split; exact ⟨rfl, trivial, trivial⟩

/-! ## The front of a text -/

/-- The text begins with the tokens, with any blanks in front of each. What is behind a token does
not make it longer. -/
inductive Begins : List Char → List Token → Prop where
  | nil {cs : List Char} : Begins cs []
  | cons {gap rest : List Char} {token : Token} {tokens : List Token} : Gap gap → token.Legal →
      token.Ends rest → Begins rest tokens → Begins (gap ++ token.chars ++ rest) (token :: tokens)

theorem Begins.left {cs : List Char} {tokens more : List Token}
    (begins : Begins cs (tokens ++ more)) : Begins cs tokens := by
  induction tokens generalizing cs with
  | nil => exact .nil
  | cons token tokens ih =>
    cases begins with
    | cons blank legal ends begins => exact .cons blank legal ends (ih begins)

theorem Begins.legal {cs : List Char} {tokens : List Token} (begins : Begins cs tokens) :
    ∀ token ∈ tokens, token.Legal := by
  induction begins with
  | nil => exact nofun
  | cons _ legal _ _ ih => exact List.forall_mem_cons.2 ⟨legal, ih⟩

theorem scanAfter_gap {gap : List Char} (blank : Gap gap) (before : List Token) :
    scanAfter before gap = ⟨before.reverse, true⟩ := by
  have none : gap.dropWhile isGap = [] := List.dropWhile_eq_nil_iff.2 blank
  rw [scanAfter]
  split
  · rfl
  · simp_all

theorem scanAfter_token {gap rest : List Char} {token : Token} (blank : Gap gap)
    (legal : token.Legal) (ends : token.Ends rest) (before : List Token) :
    scanAfter before (gap ++ token.chars ++ rest) = scanAfter (token :: before) rest := by
  obtain ⟨c, more, spelled, visible⟩ := head_of_chars legal
  have taken := splitToken_chars legal ends
  have drop : (gap ++ token.chars ++ rest).dropWhile isGap = token.chars ++ rest := by
    rw [List.append_assoc, List.dropWhile_append_of_pos blank, spelled]
    simp [visible]
  rw [spelled, List.cons_append] at taken drop
  rw [spelled, scanAfter]
  split
  case h_1 none => rw [drop] at none; cases none
  case h_2 c' more' found =>
    rw [drop] at found
    obtain ⟨rfl, rfl⟩ := List.cons_eq_cons.1 found
    split
    case h_1 none => rw [taken] at none; cases none
    case h_2 token' left found' => rw [taken] at found'; cases found'; rfl

/-- The scan goes on from what was found before to the tokens that the text begins with; it is
whole if these are all of the text. -/
theorem scanAfter_spec (before : List Token) (cs : List Char) :
    ∃ tokens, (scanAfter before cs).tokens = before.reverse ++ tokens ∧ Begins cs tokens ∧
      ((scanAfter before cs).whole = true → LaysOut cs tokens) := by
  fun_induction scanAfter before cs with
  | case1 before cs gap =>
    have blank : Gap cs := List.dropWhile_eq_nil_iff.1 gap
    exact ⟨[], by simp, .nil, fun _ => .nil blank⟩
  | case2 => exact ⟨[], by simp, .nil, nofun⟩
  | case3 before cs c more gap token left split ih =>
    obtain ⟨tokens, found, begins, whole⟩ := ih
    obtain ⟨taken, legal, ends⟩ := of_splitToken split
    have parts : cs = cs.takeWhile isGap ++ token.chars ++ left := by
      rw [List.append_assoc, ← taken, ← gap, List.takeWhile_append_dropWhile]
    have blank : Gap (cs.takeWhile isGap) := fun c mem => List.mem_takeWhile_imp mem
    refine ⟨token :: tokens, by simpa using found, ?_, fun all => ?_⟩
    · rw [parts]
      exact .cons blank legal ends begins
    · rw [parts]
      exact .cons blank legal (whole all)

theorem Begins.scanAfter {cs : List Char} {tokens : List Token} (begins : Begins cs tokens)
    (before : List Token) : before.reverse ++ tokens <+: (Json.scanAfter before cs).tokens := by
  induction begins generalizing before with
  | nil =>
    obtain ⟨more, found, -⟩ := scanAfter_spec before _
    rw [found, List.append_nil]
    exact List.prefix_append _ _
  | cons blank legal ends _ ih =>
    rw [scanAfter_token blank legal ends]
    simpa using ih (_ :: before)

/-- A text begins with some tokens if and only if its scan does. -/
theorem begins_iff {cs : List Char} {tokens : List Token} :
    Begins cs tokens ↔ tokens <+: (scan cs).tokens := by
  constructor
  · exact fun begins => begins.scanAfter []
  · rintro ⟨more, all⟩
    obtain ⟨tokens', found, begins, -⟩ := scanAfter_spec [] cs
    rw [List.reverse_nil, List.nil_append] at found
    rw [← found, show (scanAfter [] cs).tokens = (scan cs).tokens from rfl, ← all] at begins
    exact begins.left

theorem laysOut_of_whole {cs : List Char} (whole : (scan cs).whole = true) :
    LaysOut cs (scan cs).tokens := by
  obtain ⟨tokens, found, -, all⟩ := scanAfter_spec [] cs
  rw [List.reverse_nil, List.nil_append] at found
  exact (show (scan cs).tokens = tokens from found) ▸ all whole

/-! ## Texts laid out -/

/-- A number is followed by a mark or by nothing. -/
def Parted (tokens : List Token) : Prop :=
  tokens.IsChain fun a b => a.isNumber = true → b.isMark = true

/-- The characters of numbers. -/
def InNumber (c : Char) : Prop :=
  c.isDigit = true ∨ c = '-' ∨ c = '+' ∨ c = '.' ∨ c = 'e' ∨ c = 'E'

theorem inNumber_of_mem {cs : List Char} (number : NumberSpelling cs) {c : Char} (mem : c ∈ cs) :
    InNumber c := by
  obtain ⟨sign, whole, fraction, exponent, rfl, signed, hw, hf, he⟩ := number
  simp only [List.mem_append] at mem
  rcases mem with ((mem | mem) | mem) | mem
  · rcases signed with rfl | rfl
    · cases mem
    · exact .inr (.inl (List.mem_singleton.1 mem))
  · exact .inl (hw.1.2 c mem)
  · rcases hf with rfl | ⟨ds, rfl, digits⟩
    · cases mem
    · rcases List.mem_cons.1 mem with rfl | mem
      · exact .inr (.inr (.inr (.inl rfl)))
      · exact .inl (digits.2 c mem)
  · rcases he with rfl | ⟨mark, sign, ds, rfl, marked, signed, digits⟩
    · cases mem
    · simp only [List.cons_append, List.mem_cons, List.mem_append] at mem
      rcases mem with rfl | mem | mem
      · exact .inr (.inr (.inr (.inr marked)))
      · rcases signed with rfl | rfl | rfl
        · cases mem
        · exact .inr (.inr (.inl (List.mem_singleton.1 mem)))
        · exact .inr (.inl (List.mem_singleton.1 mem))
      · exact .inl (digits.2 c mem)

theorem endsNumber_of_head {spelling rest : List Char}
    (other : ∀ c ∈ rest.head?, ¬ InNumber c) : EndsNumber spelling rest := by
  intro c next
  refine ⟨?_, fun more longer => other c next (inNumber_of_mem longer (by simp))⟩
  exact Bool.eq_false_iff.2 fun digit => other c next (.inl digit)

theorem not_inNumber_of_gap {c : Char} (blank : isGap c = true) : ¬ InNumber c := by
  simp only [isGap, Bool.or_eq_true, decide_eq_true_eq] at blank
  unfold InNumber
  rcases blank with ((rfl | rfl) | rfl) | rfl <;> decide

theorem LaysOut.ends {cs : List Char} {token : Token} {tokens : List Token}
    (laid : LaysOut cs tokens) (parted : Parted (token :: tokens)) : token.Ends cs := by
  cases token with
  | number spelling =>
    refine endsNumber_of_head fun c next => ?_
    cases laid with
    | nil blank => exact not_inNumber_of_gap (blank c (List.mem_of_mem_head? next))
    | @cons gap rest token tokens blank legal _ =>
      cases gap with
      | cons c' gap =>
        cases next
        exact not_inNumber_of_gap (blank c List.mem_cons_self)
      | nil =>
        have mark := (List.isChain_cons_cons.1 parted).1 rfl
        unfold InNumber
        cases token with
        | word | number | string => cases mark
        | _ => cases next; decide
  | _ => trivial

/-- A text that lays out tokens begins with them. -/
theorem LaysOut.begins {cs : List Char} {tokens : List Token} (laid : LaysOut cs tokens)
    (parted : Parted tokens) : Begins cs tokens := by
  induction laid with
  | nil => exact .nil
  | cons blank legal laid ih => exact .cons blank legal (laid.ends parted) (ih parted.tail)

theorem LaysOut.scanAfter {cs : List Char} {tokens : List Token} (laid : LaysOut cs tokens)
    (parted : Parted tokens) (before : List Token) :
    Json.scanAfter before cs = ⟨before.reverse ++ tokens, true⟩ := by
  induction laid generalizing before with
  | nil blank => rw [scanAfter_gap blank, List.append_nil]
  | cons blank legal laid ih =>
    -- only a number could run into what follows, and behind it is a mark or nothing
    rw [scanAfter_token blank legal (laid.ends parted), ih parted.tail]
    simp

/-- The scan of a text is the tokens that it lays out. -/
theorem LaysOut.scan {cs : List Char} {tokens : List Token} (laid : LaysOut cs tokens)
    (parted : Parted tokens) : Json.scan cs = ⟨tokens, true⟩ :=
  laid.scanAfter parted []

/-- A text is read as the tokens that it lays out. -/
theorem LaysOut.tokens {cs : List Char} {ts : List Token} (laid : LaysOut cs ts)
    (parted : Parted ts) : Json.tokens cs = some ts := by
  unfold Json.tokens
  rw [laid.scan parted]
  rfl

end Nearby.Json
