/-
How tokens are spelled. Strings and numbers are given by the grammar of JSON, not by the reader,
and a text lays out a list of tokens when it spells them one after another with any blanks
between. Reading such a text gives the tokens back, as long as no number is followed by what could
be more of it.
-/
import Nearby.Json.Printer
import Nearby.Json.Token
import Nearby.Proofs.Decimal.Digits
import Mathlib.Data.List.Chain

namespace Nearby.Json

/-! ## Strings -/

/-- What may stand between the quotes of a string: characters for themselves, apart from quotes,
backslashes and control characters, and escapes. -/
inductive StringSpelling : List Char → Prop where
  | nil : StringSpelling []
  | plain {c : Char} {rest : List Char} : c ≠ '"' → c ≠ '\\' → 0x20 ≤ c.toNat →
      StringSpelling rest → StringSpelling (c :: rest)
  | short {letter c : Char} {rest : List Char} : shortEscape letter = some c →
      StringSpelling rest → StringSpelling ('\\' :: letter :: rest)
  | unit {a b c d : Char} {n : Nat} {rest : List Char} : hexUnit a b c d = some n →
      StringSpelling rest → StringSpelling ('\\' :: 'u' :: a :: b :: c :: d :: rest)

/-- The spelling stands for the text. Surrogates come in pairs. -/
inductive Spells : List Char → List Char → Prop where
  | nil : Spells [] []
  | plain {c : Char} {rest text : List Char} : c ≠ '"' → c ≠ '\\' → 0x20 ≤ c.toNat →
      Spells rest text → Spells (c :: rest) (c :: text)
  | short {letter c : Char} {rest text : List Char} : shortEscape letter = some c →
      Spells rest text → Spells ('\\' :: letter :: rest) (c :: text)
  | unit {a b c d : Char} {n : Nat} {rest text : List Char} : hexUnit a b c d = some n →
      n < 0xd800 ∨ 0xe000 ≤ n → Spells rest text →
      Spells ('\\' :: 'u' :: a :: b :: c :: d :: rest) (Char.ofNat n :: text)
  | pair {a b c d e f g h : Char} {high low : Nat} {rest text : List Char} :
      hexUnit a b c d = some high → 0xd800 ≤ high → high < 0xdc00 →
      hexUnit e f g h = some low → 0xdc00 ≤ low → low < 0xe000 → Spells rest text →
      Spells ('\\' :: 'u' :: a :: b :: c :: d :: '\\' :: 'u' :: e :: f :: g :: h :: rest)
        (Char.ofNat (0x10000 + (high - 0xd800) * 0x400 + (low - 0xdc00)) :: text)

/-- What stands for a text may stand between quotes. -/
theorem Spells.spelling {spelling text : List Char} (h : Spells spelling text) :
    StringSpelling spelling := by
  induction h with
  | nil => exact .nil
  | plain quote slash control _ ih => exact .plain quote slash control ih
  | short escape _ ih => exact .short escape ih
  | unit hex _ _ ih => exact .unit hex ih
  | pair hex _ _ hex' _ _ _ ih => exact .unit hex (.unit hex' ih)

theorem shortEscape_ne_u {letter c : Char} (h : shortEscape letter = some c) : letter ≠ 'u' := by
  rintro rfl
  cases h

theorem unescape_plain {c : Char} (slash : c ≠ '\\') (rest : List Char) :
    unescape (c :: rest) = (unescape rest).map (c :: ·) := by
  rw [unescape, if_neg slash]
  all_goals intros; contradiction

theorem unescape_short {letter c : Char} (escape : shortEscape letter = some c)
    (rest : List Char) : unescape ('\\' :: letter :: rest) = (unescape rest).map (c :: ·) := by
  have other := shortEscape_ne_u escape
  rw [unescape, escape]
  all_goals intros; contradiction

/-- A spelling is read as the text that it stands for. -/
theorem Spells.unescape {spelling text : List Char} (h : Spells spelling text) :
    Json.unescape spelling = some text := by
  induction h with
  | nil => rfl
  | plain _ slash _ _ ih => rw [unescape_plain slash, ih]; rfl
  | short escape _ ih => rw [unescape_short escape, ih]; rfl
  | unit hex single _ ih =>
    rw [Json.unescape, hex]
    simp only
    rw [if_pos single, ih]
    rfl
  | pair hex least most hex' least' most' _ ih =>
    rw [Json.unescape, hex]
    simp only
    rw [if_neg (by omega), if_neg (by omega), hex']
    simp only
    rw [if_pos ⟨least', most'⟩, ih]
    rfl

theorem splitString_plain {c : Char} (quote : c ≠ '"') (slash : c ≠ '\\')
    (control : 0x20 ≤ c.toNat) (before rest : List Char) :
    splitString before (c :: rest) = splitString (c :: before) rest := by
  rw [splitString, if_neg (by simp [slash, control])]
  all_goals intros; contradiction

theorem splitString_short {letter c : Char} (escape : shortEscape letter = some c)
    (before rest : List Char) :
    splitString before ('\\' :: letter :: rest) = splitString (letter :: '\\' :: before) rest := by
  have other := shortEscape_ne_u escape
  rw [splitString, if_pos (by simp [escape])]
  all_goals intros; contradiction

/-- A spelling ends at the quote behind it. -/
theorem splitString_append {spelling : List Char} (h : StringSpelling spelling)
    (before rest : List Char) :
    splitString before (spelling ++ '"' :: rest) = some (before.reverse ++ spelling, rest) := by
  induction h generalizing before with
  | nil => simp [splitString]
  | plain quote slash control _ ih =>
    rw [List.cons_append, splitString_plain quote slash control, ih]
    simp
  | short escape _ ih =>
    rw [List.cons_append, List.cons_append, splitString_short escape, ih]
    simp
  | unit hex _ ih =>
    simp only [List.cons_append]
    rw [splitString, if_pos (by simp [isHexUnit, hex]), ih]
    simp

theorem hexUnit_control : ∀ n < 0x20,
    hexUnit '0' '0' (hexDigit (n / 16)) (hexDigit (n % 16)) = some n := by
  decide

theorem spells_escapeChar (c : Char) {rest text : List Char} (h : Spells rest text) :
    Spells (escapeChar c ++ rest) (c :: text) := by
  unfold escapeChar
  split_ifs with quote slash back form feed carriage tab control
  · subst quote; exact .short rfl h
  · subst slash; exact .short rfl h
  · subst back; exact .short rfl h
  · subst form; exact .short rfl h
  · subst feed; exact .short rfl h
  · subst carriage; exact .short rfl h
  · subst tab; exact .short rfl h
  · have spelled := Spells.unit (hexUnit_control c.toNat control) (by omega) h
    rwa [Char.ofNat_toNat] at spelled
  · exact .plain quote slash (by omega) h

/-- What is written for a text stands for it. -/
theorem spells_escape (cs : List Char) : Spells (escape cs) cs := by
  induction cs with
  | nil => exact .nil
  | cons c cs ih =>
    unfold escape at *
    rw [List.flatMap_cons]
    exact spells_escapeChar c ih

/-! ## Numbers -/

/-- One digit or more. -/
def Digits (ds : List Char) : Prop := ds ≠ [] ∧ ∀ d ∈ ds, d.isDigit = true

/-- The digits before the point; only zero begins with a zero. -/
def Whole (ds : List Char) : Prop := Digits ds ∧ (ds.head? = some '0' → ds.length = 1)

/-- Nothing, or a point and digits. -/
def Fraction (cs : List Char) : Prop := cs = [] ∨ ∃ ds, cs = '.' :: ds ∧ Digits ds

/-- Nothing, or a mark and digits that may have a sign. -/
def Exponent (cs : List Char) : Prop :=
  cs = [] ∨ ∃ mark sign ds, cs = mark :: sign ++ ds ∧ (mark = 'e' ∨ mark = 'E') ∧
    (sign = [] ∨ sign = ['+'] ∨ sign = ['-']) ∧ Digits ds

/-- The spelling of a number. -/
def NumberSpelling (cs : List Char) : Prop :=
  ∃ sign whole fraction exponent, cs = sign ++ whole ++ fraction ++ exponent ∧
    (sign = [] ∨ sign = ['-']) ∧ Whole whole ∧ Fraction fraction ∧ Exponent exponent

theorem splitDigits_append {ds rest : List Char} (digits : Digits ds)
    (stop : ∀ c ∈ rest.head?, c.isDigit = false) : splitDigits (ds ++ rest) = some (ds, rest) := by
  obtain ⟨nonempty, all⟩ := digits
  unfold splitDigits
  rw [Decimal.spanDigits_append all stop]
  exact if_neg (by simpa using nonempty)

theorem splitWhole_append {ds rest : List Char} (whole : Whole ds)
    (stop : ∀ c ∈ rest.head?, c.isDigit = false) : splitWhole (ds ++ rest) = some (ds, rest) := by
  unfold splitWhole
  rw [splitDigits_append whole.1 stop]
  refine Option.filter_eq_some_iff.2 ⟨rfl, ?_⟩
  by_cases zero : ds.head? = some '0'
  · simp [whole.2 zero]
  · simp [zero]

theorem splitFraction_append {cs rest : List Char} (fraction : Fraction cs)
    (stop : ∀ c ∈ rest.head?, c.isDigit = false ∧ (cs = [] → c ≠ '.')) :
    splitFraction (cs ++ rest) = some (cs, rest) := by
  rcases fraction with rfl | ⟨ds, rfl, digits⟩
  · cases rest with
    | nil => rfl
    | cons c rest =>
      rw [List.nil_append, splitFraction.eq_def]
      have point := (stop c rfl).2 rfl
      split <;> simp_all
  · rw [List.cons_append, splitFraction, splitDigits_append digits fun c hc => (stop c hc).1]
    rfl

theorem splitMark_append {sign ds rest : List Char}
    (signed : sign = [] ∨ sign = ['+'] ∨ sign = ['-']) (digits : Digits ds) :
    splitMark ['+', '-'] (sign ++ (ds ++ rest)) = (sign, ds ++ rest) := by
  obtain ⟨nonempty, all⟩ := digits
  rcases signed with rfl | rfl | rfl
  · cases ds with
    | nil => exact absurd rfl nonempty
    | cons d ds =>
      have digit := all d List.mem_cons_self
      have unsigned : (['+', '-'].contains d) = false := by
        simp only [List.contains_cons, List.contains_nil, Bool.or_false, Bool.or_eq_false_iff,
          beq_eq_false_iff_ne]
        constructor <;> rintro rfl <;> cases digit
      simp only [List.nil_append, List.cons_append, splitMark, unsigned]
      rfl
  · rfl
  · rfl

theorem splitExponent_append {cs rest : List Char} (exponent : Exponent cs)
    (stop : ∀ c ∈ rest.head?, c.isDigit = false ∧ (cs = [] → c ≠ 'e' ∧ c ≠ 'E')) :
    splitExponent (cs ++ rest) = some (cs, rest) := by
  rcases exponent with rfl | ⟨mark, sign, ds, rfl, marked, signed, digits⟩
  · cases rest with
    | nil => rfl
    | cons c rest =>
      obtain ⟨small, capital⟩ := (stop c rfl).2 rfl
      exact if_neg (by simp [small, capital])
  · have whole : mark :: sign ++ ds ++ rest = mark :: (sign ++ (ds ++ rest)) := by simp
    rw [whole, splitExponent, if_pos marked, splitMark_append signed digits]
    simp only
    rw [splitDigits_append digits fun c hc => (stop c hc).1]
    simp

/-- The characters do not go on with a number that has the fraction and the exponent. -/
def Halts (fraction exponent rest : List Char) : Prop :=
  ∀ c ∈ rest.head?, c.isDigit = false ∧
    (exponent = [] → c ≠ 'e' ∧ c ≠ 'E' ∧ (fraction = [] → c ≠ '.'))

/-- A number ends where what follows does not go on with its parts. -/
theorem splitNumber_parts {sign whole fraction exponent rest : List Char}
    (signed : sign = [] ∨ sign = ['-']) (hw : Whole whole) (hf : Fraction fraction)
    (he : Exponent exponent) (halts : Halts fraction exponent rest) :
    splitNumber (sign ++ whole ++ fraction ++ exponent ++ rest) =
      some (sign ++ whole ++ fraction ++ exponent, rest) := by
  have marked : splitMark ['-'] (sign ++ (whole ++ (fraction ++ (exponent ++ rest)))) =
      (sign, whole ++ (fraction ++ (exponent ++ rest))) := by
    rcases signed with rfl | rfl
    · obtain ⟨⟨nonempty, all⟩, -⟩ := hw
      cases whole with
      | nil => exact absurd rfl nonempty
      | cons d ds =>
        have digit := all d List.mem_cons_self
        have unsigned : (['-'].contains d) = false := by
          simp only [List.contains_cons, List.contains_nil, Bool.or_false, beq_eq_false_iff_ne]
          rintro rfl
          cases digit
        simp only [List.nil_append, List.cons_append, splitMark, unsigned]
        rfl
    · rfl
  -- what follows a part is the next part that is there, or the rest
  have afterExponent : ∀ c ∈ rest.head?,
      c.isDigit = false ∧ (exponent = [] → c ≠ 'e' ∧ c ≠ 'E') :=
    fun c hc => ⟨(halts c hc).1, fun none => ⟨((halts c hc).2 none).1, ((halts c hc).2 none).2.1⟩⟩
  have afterFraction : ∀ c ∈ (exponent ++ rest).head?,
      c.isDigit = false ∧ (fraction = [] → c ≠ '.') := by
    rcases he with rfl | ⟨mark, _, _, rfl, rfl | rfl, -⟩
    · exact fun c hc => ⟨(halts c hc).1, ((halts c hc).2 rfl).2.2⟩
    · rintro c ⟨⟩; exact ⟨rfl, fun _ => by decide⟩
    · rintro c ⟨⟩; exact ⟨rfl, fun _ => by decide⟩
  have afterWhole : ∀ c ∈ (fraction ++ (exponent ++ rest)).head?, c.isDigit = false := by
    rcases hf with rfl | ⟨_, rfl, -⟩
    · exact fun c hc => (afterFraction c hc).1
    · rintro c ⟨⟩; decide
  unfold splitNumber
  simp only [List.append_assoc, marked, splitWhole_append hw afterWhole,
    Option.bind_eq_bind, Option.bind_some, splitFraction_append hf afterFraction,
    splitExponent_append he afterExponent]
  rfl

/-- No digit follows the spelling, and nothing that would make it a longer number. -/
def EndsNumber (spelling rest : List Char) : Prop :=
  ∀ c ∈ rest.head?, c.isDigit = false ∧ ∀ more, ¬ NumberSpelling (spelling ++ c :: more)

theorem EndsNumber.halts {sign whole fraction exponent rest : List Char}
    (signed : sign = [] ∨ sign = ['-']) (hw : Whole whole) (hf : Fraction fraction)
    (ends : EndsNumber (sign ++ whole ++ fraction ++ exponent) rest) :
    Halts fraction exponent rest := by
  have zero : Digits ['0'] := ⟨List.cons_ne_nil _ _, List.forall_mem_singleton.2 rfl⟩
  intro c next
  obtain ⟨digit, longer⟩ := ends c next
  refine ⟨digit, ?_⟩
  rintro rfl
  have marked : c = 'e' ∨ c = 'E' → False := fun mark =>
    longer ['0'] ⟨sign, whole, fraction, [c, '0'], by simp, signed, hw, hf,
      .inr ⟨c, [], ['0'], rfl, mark, .inl rfl, zero⟩⟩
  refine ⟨fun small => marked (.inl small), fun capital => marked (.inr capital), ?_⟩
  rintro rfl rfl
  exact longer ['0'] ⟨sign, whole, ['.', '0'], [], by simp, signed, hw, .inr ⟨['0'], rfl, zero⟩,
    .inl rfl⟩

/-- A number is split off in front of what does not make it longer. -/
theorem splitNumber_append {cs rest : List Char} (number : NumberSpelling cs)
    (ends : EndsNumber cs rest) : splitNumber (cs ++ rest) = some (cs, rest) := by
  obtain ⟨sign, whole, fraction, exponent, rfl, signed, hw, hf, he⟩ := number
  exact splitNumber_parts signed hw hf he (ends.halts signed hw hf)

/-! ## Tokens -/

/-- The characters of a token. -/
def Token.chars : Token → List Char
  | openArray => ['[']
  | closeArray => [']']
  | openObject => ['{']
  | closeObject => ['}']
  | comma => [',']
  | colon => [':']
  | word value => compactChars value
  | number spelling => spelling
  | string spelling => quoted spelling

/-- The token is a mark, one of the three words, or is spelled by the grammar. -/
def Token.Legal : Token → Prop
  | word value => value = .null ∨ ∃ b, value = .bool b
  | number spelling => NumberSpelling spelling
  | string spelling => StringSpelling spelling
  | _ => True

/-- The token ends in front of the characters. -/
def Token.Ends : Token → List Char → Prop
  | number spelling, rest => EndsNumber spelling rest
  | _, _ => True

/-- The token is a number. -/
def Token.isNumber : Token → Bool
  | number _ => true
  | _ => false

/-- The token is a mark of punctuation. -/
def Token.isMark : Token → Bool
  | word _ => false
  | number _ => false
  | string _ => false
  | _ => true

/-- Only blanks. -/
def Gap (cs : List Char) : Prop := ∀ c ∈ cs, isGap c = true

instance : DecidablePred Gap := fun cs => List.decidableBAll (isGap · = true) cs

/-- The text spells the tokens one after another, with any blanks around them. -/
inductive LaysOut : List Char → List Token → Prop where
  | nil {gap : List Char} : Gap gap → LaysOut gap []
  | cons {gap rest : List Char} {token : Token} {tokens : List Token} : Gap gap → token.Legal →
      LaysOut rest tokens → LaysOut (gap ++ token.chars ++ rest) (token :: tokens)

theorem head_of_number {cs : List Char} (number : NumberSpelling cs) :
    ∃ c rest, cs = c :: rest ∧ (c = '-' ∨ c.isDigit = true) := by
  obtain ⟨sign, whole, fraction, exponent, rfl, rfl | rfl, ⟨⟨nonempty, all⟩, -⟩, -, -⟩ := number
  · cases whole with
    | nil => exact absurd rfl nonempty
    | cons d ds => exact ⟨d, _, rfl, .inr (all d List.mem_cons_self)⟩
  · exact ⟨'-', _, rfl, .inl rfl⟩

/-- A token is split off in front of what it does not run into. -/
theorem splitToken_chars {token : Token} (legal : token.Legal) {rest : List Char}
    (ends : token.Ends rest) : splitToken (token.chars ++ rest) = some (token, rest) := by
  cases token with
  | word value =>
    rcases legal with rfl | ⟨b, rfl⟩
    · rfl
    · cases b <;> rfl
  | number spelling =>
    obtain ⟨c, more, rfl, first⟩ := head_of_number legal
    have split := splitNumber_append legal ends
    show splitToken (c :: (more ++ rest)) = _
    rw [List.cons_append] at split
    rw [splitToken, if_pos first, split]
    · rfl
    all_goals
      rintro rfl
      rcases first with first | digit
      · cases first
      · cases digit
  | string spelling =>
    show splitToken ('"' :: (spelling ++ ['"'] ++ rest)) = _
    rw [splitToken, List.append_assoc, List.singleton_append, splitString_append legal]
    rfl
  | _ => rfl

/-- A token does not begin with a blank. -/
theorem head_of_chars {token : Token} (legal : token.Legal) :
    ∃ c rest, token.chars = c :: rest ∧ isGap c = false := by
  cases token with
  | word value =>
    rcases legal with rfl | ⟨b, rfl⟩
    · exact ⟨'n', _, rfl, rfl⟩
    · cases b
      · exact ⟨'f', _, rfl, rfl⟩
      · exact ⟨'t', _, rfl, rfl⟩
  | number spelling =>
    obtain ⟨c, rest, rfl, first⟩ := head_of_number legal
    refine ⟨c, rest, rfl, ?_⟩
    rcases first with rfl | digit
    · rfl
    · have other : c ≠ ' ' ∧ c ≠ '\t' ∧ c ≠ '\n' ∧ c ≠ '\r' := by
        refine ⟨?_, ?_, ?_, ?_⟩ <;> rintro rfl <;> cases digit
      simp [isGap, other]
  | string spelling => exact ⟨'"', _, rfl, rfl⟩
  | _ => exact ⟨_, [], rfl, rfl⟩

end Nearby.Json
