/-
Lines of a document that are written without quotes around their keys, and what a document begins
with: a header and an entry below it are the first two lines of it, whatever comes after them.
-/
import Nearby.Proofs.Decimal.Digits
import Nearby.Proofs.Toml.Table
import Nearby.Toml.Reader
import Mathlib.Data.List.Basic

namespace Nearby.Toml

/-! ## Keys without quotes -/

/-- The characters are a key that needs no quotes. -/
structure IsBare (key : List Char) : Prop where
  nonempty : key ≠ []
  bare : ∀ c ∈ key, isBareChar c = true

/-- No key without quotes goes on at the beginning of the characters. -/
def EndsKey (rest : List Char) : Prop :=
  (∀ c ∈ rest.head?, isBareChar c = false) ∧ (dropBlanks rest).head? ≠ some '.'

section Bare

variable {key rest : List Char}

theorem marks_of_bare {c : Char} (bare : isBareChar c = true) :
    isInlineBlank c = false ∧ c ∉ ['"', '\'', '[', '\n', '\r', '#'] := by
  constructor
  · cases blank : isInlineBlank c
    case false => rfl
    case true =>
      unfold isInlineBlank at blank
      rcases (by simpa using blank : c = ' ' ∨ c = '\t') with rfl | rfl <;> cases bare
  · intro mark
    simp only [List.mem_cons, List.not_mem_nil, or_false] at mark
    rcases mark with rfl | rfl | rfl | rfl | rfl | rfl <;> cases bare

theorem dropBlanks_bare (isBare : IsBare key) : dropBlanks (key ++ rest) = key ++ rest := by
  obtain ⟨c, key, rfl⟩ := List.exists_cons_of_ne_nil isBare.nonempty
  have blank := (marks_of_bare (isBare.bare c List.mem_cons_self)).1
  exact List.dropWhile_cons_of_neg (by rw [blank]; exact Bool.false_ne_true)

theorem dropGap_bare (isBare : IsBare key) :
    dropGap false (key ++ rest) = some (key ++ rest) := by
  obtain ⟨c, key, rfl⟩ := List.exists_cons_of_ne_nil isBare.nonempty
  obtain ⟨blank, marks⟩ := marks_of_bare (isBare.bare c List.mem_cons_self)
  have noBreak : c ≠ '\n' := by rintro rfl; exact marks (by decide)
  have noReturn : c ≠ '\r' := by rintro rfl; exact marks (by decide)
  have noMark : c ≠ '#' := by rintro rfl; exact marks (by decide)
  rw [List.cons_append, dropGap.eq_3 _ _ _ fun _ here _ => noReturn here]
  simp [blank, noBreak, noMark]

theorem readKeyPart_bare (isBare : IsBare key)
    (ends : ∀ c ∈ rest.head?, isBareChar c = false) :
    readKeyPart (key ++ rest) = some (.ofList key, rest) := by
  obtain ⟨nonempty, bare⟩ := isBare
  obtain ⟨c, key, rfl⟩ := List.exists_cons_of_ne_nil nonempty
  obtain ⟨here, bare⟩ := List.forall_mem_cons.1 bare
  have unquoted : ¬(c = '"' ∨ c = '\'') := by
    rintro (rfl | rfl) <;> exact (marks_of_bare here).2 (by decide)
  rw [List.cons_append, readKeyPart, if_neg unquoted, if_pos here, Text.takeWhile_run bare ends,
    Text.dropWhile_run bare ends]

theorem readKey_bare (isBare : IsBare key) (ends : EndsKey rest) :
    readKey (key ++ rest) = some ([], .ofList key, dropBlanks rest) := by
  have part : readKeyPart (dropBlanks (key ++ rest)) = some (.ofList key, rest) := by
    rw [dropBlanks_bare isBare, readKeyPart_bare isBare ends.1]
  unfold readKey
  rw [readKeyAfter]
  split
  case h_1 none =>
    rw [part] at none
    cases none
  case h_2 read =>
    rw [part] at read
    cases read
    split
    case h_1 point => exact absurd (by rw [point]; rfl) ends.2
    case h_2 => rfl

theorem readHeader_bare (isBare : IsBare key) :
    readHeader (key ++ ']' :: rest) =
      (dropLineEnd rest).map (⟨false, [], .ofList key, []⟩, ·) := by
  have ends : EndsKey (']' :: rest) := ⟨by rintro c ⟨⟩; rfl, by simp [dropBlanks, isInlineBlank]⟩
  have read := readKey_bare isBare ends
  obtain ⟨c, key, rfl⟩ := List.exists_cons_of_ne_nil isBare.nonempty
  unfold readHeader
  split
  case h_1 bracket =>
    obtain ⟨rfl, -⟩ := List.cons.inj bracket
    exact absurd (by decide) (marks_of_bare (isBare.bare _ List.mem_cons_self)).2
  case h_2 => rw [read]; rfl

/-- An entry whose value begins with a quote is read by reading a text. -/
theorem readAssignment_quoted (isBare : IsBare key) (steps : Nat) :
    readAssignment (steps + 1) (key ++ ' ' :: '=' :: ' ' :: '"' :: rest) =
      (readText ('"' :: rest)).bind fun (text, left) =>
        (dropLineEnd left).map (⟨[], .ofList key, .string (.ofList text)⟩, ·) := by
  have ends : EndsKey (' ' :: '=' :: ' ' :: '"' :: rest) :=
    ⟨by rintro c ⟨⟩; rfl, by simp [dropBlanks, isInlineBlank]⟩
  have blanks : dropBlanks (' ' :: '=' :: ' ' :: '"' :: rest) = '=' :: ' ' :: '"' :: rest := rfl
  have value : readValueIn (steps + 1) deepest (dropBlanks (' ' :: '"' :: rest)) =
      (readText ('"' :: rest)).map fun (text, left) => (.string (.ofList text), left) := by
    rw [show dropBlanks (' ' :: '"' :: rest) = '"' :: rest from rfl]
    simp [readValueIn]
  unfold readAssignment
  rw [readKey_bare isBare ends, blanks]
  simp only
  rw [value]
  cases readText ('"' :: rest) <;> rfl

end Bare

/-! ## The first lines -/

/-- What is read already stays at the beginning. -/
theorem prefix_of_readLinesIn {steps lines : Nat} {before read : List Line} {cs : List Char}
    (h : readLinesIn steps lines before cs = some read) : before.reverse <+: read := by
  fun_induction readLinesIn steps lines before cs
  case case1 | case2 | case4 | case6 => cases h
  case case3 => cases h; exact List.prefix_rfl
  case case5 ih | case7 ih => exact (List.reverse_cons ▸ List.prefix_append _ _).trans (ih h)

/-- The beginning of a document: a header, an entry below it, and the quote that opens its value. -/
def opening (key inner : List Char) : List Char :=
  '[' :: (key ++ ']' :: '\n' :: (inner ++ [' ', '=', ' ', '"']))

section Opening

variable {key inner cs ending : List Char}

theorem readLinesIn_opening (isKey : IsBare key) (isInner : IsBare inner) (steps lines : Nat) :
    readLinesIn (steps + 1) (lines + 2) [] (opening key inner ++ cs) =
      (readText ('"' :: cs)).bind fun (text, left) => (dropLineEnd left).bind
        (readLinesIn (steps + 1) lines [.assignment ⟨[], .ofList inner, .string (.ofList text)⟩,
          .header ⟨false, [], .ofList key, []⟩]) := by
  have gap : dropGap false (opening key inner ++ cs) = some (opening key inner ++ cs) := rfl
  have whole : opening key inner ++ cs =
      '[' :: (key ++ ']' :: '\n' :: (inner ++ ' ' :: '=' :: ' ' :: '"' :: cs)) := by
    simp [opening]
  rw [readLinesIn, gap, whole]
  simp only
  rw [readHeader_bare isKey, show dropLineEnd ('\n' :: _) = some _ from rfl]
  simp only [Option.map_some]
  rw [readLinesIn, dropGap_bare isInner]
  split
  case h_1 none => cases none
  case h_2 none =>
    obtain ⟨none, -⟩ := List.append_eq_nil_iff.1 (Option.some.inj none)
    exact absurd none isInner.nonempty
  case h_3 bracket =>
    obtain ⟨c, inner, rfl⟩ := List.exists_cons_of_ne_nil isInner.nonempty
    obtain ⟨rfl, -⟩ := List.cons.inj (Option.some.inj bracket)
    exact absurd (by decide) (marks_of_bare (isInner.bare _ List.mem_cons_self)).2
  case h_4 line _ _ same =>
    obtain rfl := Option.some.inj same
    rw [readAssignment_quoted isInner]
    cases readText ('"' :: cs) with
    | none => rfl
    | some read =>
      obtain ⟨text, left⟩ := read
      simp only [Option.bind_some]
      cases dropLineEnd left <;> rfl

/-- The lines of a document that is begun so: the two it is begun with are the first. -/
theorem readLines_opening (isKey : IsBare key) (isInner : IsBare inner) (cs : List Char) :
    ∃ steps lines, readLines (opening key inner ++ cs) =
      (readText ('"' :: cs)).bind fun (text, left) => (dropLineEnd left).bind
        (readLinesIn steps (lines + 1) [.assignment ⟨[], .ofList inner, .string (.ofList text)⟩,
          .header ⟨false, [], .ofList key, []⟩]) := by
  have long : 2 ≤ (opening key inner ++ cs).length := by
    simp only [opening, List.length_cons, List.length_append]
    omega
  obtain ⟨lines, length⟩ := Nat.exists_eq_add_of_le' long
  refine ⟨2 * (opening key inner ++ cs).length + 2, lines, ?_⟩
  unfold readLines
  rw [← readLinesIn_opening isKey isInner, length]

theorem read_eq_readLines : read (.ofList (opening key inner ++ cs)) =
    (readLines (opening key inner ++ cs)).bind
      fun lines => ofSections (sections lines).1 (sections lines).2 := by
  unfold read
  rw [String.toList_ofList]
  rfl

/-- A text that is read there is the first one below the first header at the end. -/
theorem hasText_of_read (isKey : IsBare key) (isInner : IsBare inner) {entries : Entries}
    (built : read (.ofList (opening key inner ++ cs)) = some entries) :
    ∃ text left, readText ('"' :: cs) = some (text, left) ∧
      HasTable (.ofList key) (HasText (.ofList inner) (.ofList text)) (.header, entries) := by
  obtain ⟨steps, lines, opened⟩ := readLines_opening isKey isInner cs
  rw [read_eq_readLines, opened] at built
  obtain ⟨read, opened, built⟩ := Option.bind_eq_some_iff.1 built
  obtain ⟨⟨text, left⟩, here, opened⟩ := Option.bind_eq_some_iff.1 opened
  obtain ⟨left', -, opened⟩ := Option.bind_eq_some_iff.1 opened
  obtain ⟨more, rfl⟩ := prefix_of_readLinesIn opened
  exact ⟨text, left, here, hasText_ofSections built⟩

/-- The document that ends with the text. -/
theorem read_opening (isKey : IsBare key) (isInner : IsBare inner) {text : List Char}
    (short : ending = [] ∨ ending = ['\n']) (here : readText ('"' :: cs) = some (text, ending)) :
    read (.ofList (opening key inner ++ cs)) =
      some [(.ofList key, .table .header [(.ofList inner, .string (.ofList text))])] := by
  obtain ⟨steps, lines, opened⟩ := readLines_opening isKey isInner cs
  rw [read_eq_readLines, opened, here]
  rcases short with rfl | rfl <;> rfl

end Opening

end Nearby.Toml
