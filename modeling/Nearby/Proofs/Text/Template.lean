/-
What filling in a template does. A template falls in one way into its placeholders, the first one
first, and the texts between them; each placeholder is the earliest that begins in what is left, and
the search goes on after it. Filling in puts the values into their places and keeps everything else,
so values are not looked into, and names that stand for nothing leave the template as it is.
-/
import Nearby.Proofs.Decimal.Digits
import Nearby.Text.Template
import Mathlib.Logic.ExistsUnique

namespace Nearby.Text

/-! ## Names -/

/-- The characters can be the name of a placeholder. -/
structure IsName (name : List Char) : Prop where
  nonempty : name ≠ []
  closed : '}' ∉ name

theorem splitName_append {name : List Char} (isName : IsName name) (rest : List Char) :
    splitName (name ++ '}' :: rest) = some (name, rest) := by
  obtain ⟨nonempty, closed⟩ := isName
  have inside : ∀ c ∈ name, decide (c ≠ '}') = true := by
    intro c hc
    exact decide_eq_true fun same => closed (same ▸ hc)
  have stop : ∀ c ∈ ('}' :: rest).head?, decide (c ≠ '}') = false := by
    rintro c ⟨⟩
    rfl
  unfold splitName
  rw [takeWhile_run inside stop, dropWhile_run inside stop]
  obtain ⟨c, name, rfl⟩ := List.exists_cons_of_ne_nil nonempty
  rfl

theorem splitName_eq_some {cs name rest : List Char} (h : splitName cs = some (name, rest)) :
    cs = name ++ '}' :: rest ∧ IsName name := by
  have whole := List.takeWhile_append_dropWhile (p := fun c => decide (c ≠ '}')) (l := cs)
  unfold splitName at h
  split at h
  case h_2 => cases h
  case h_1 c name d rest front back =>
    cases h
    have stop : d = '}' := by
      have := List.head?_dropWhile_not (fun c => decide (c ≠ '}')) cs
      rw [back] at this
      simpa using this
    rw [front, back, stop] at whole
    refine ⟨whole.symm, List.cons_ne_nil _ _, fun inside => ?_⟩
    have before := List.all_takeWhile (p := fun c => decide (c ≠ '}')) (l := cs)
    rw [front] at before
    simpa using List.all_eq_true.1 before _ inside

theorem splitName_eq_none {cs : List Char} (h : splitName cs = none) {name rest : List Char}
    (isName : IsName name) : cs ≠ name ++ '}' :: rest := by
  rintro rfl
  rw [splitName_append isName] at h
  cases h

theorem written_append (name rest : List Char) :
    written name ++ rest = '$' :: '{' :: (name ++ '}' :: rest) := by
  simp [written]

/-! ## Splitting -/

/-- In the text the first placeholder has the given name and stands between the given texts: no
placeholder begins before it. -/
structure First (text before name after : List Char) : Prop where
  split : text = before ++ written name ++ after
  isName : IsName name
  earliest : ∀ before' name' after', text = before' ++ written name' ++ after' → IsName name' →
    before.length ≤ before'.length

/-- The template falls into placeholders, each given by its name with the text before it, and the
text after the last one. -/
inductive Splits : List Char → List (List Char × List Char) → List Char → Prop where
  | last {text : List Char}
      (bare : ∀ before name after, text = before ++ written name ++ after → ¬ IsName name) :
      Splits text [] text
  | next {text before name after : List Char} {parts : List (List Char × List Char)}
      {last : List Char} (first : First text before name after) (later : Splits after parts last) :
      Splits text ((before, name) :: parts) last

/-- What a placeholder becomes. -/
def valueOr (valueOf : String → Option String) (name : List Char) : List Char :=
  ((valueOf (.ofList name)).map String.toList).getD (written name)

/-- The parts of a template with the placeholders filled in. -/
def filled (valueOf : String → Option String) (parts : List (List Char × List Char))
    (last : List Char) : List Char :=
  parts.flatMap (fun part => part.1 ++ valueOr valueOf part.2) ++ last

section Splits

variable {text before name after last : List Char} {parts : List (List Char × List Char)}

theorem First.unique (first : First text before name after) {before' name' after' : List Char}
    (first' : First text before' name' after') :
    before' = before ∧ name' = name ∧ after' = after := by
  have length : before'.length = before.length :=
    Nat.le_antisymm (first'.earliest _ _ _ first.split first.isName)
      (first.earliest _ _ _ first'.split first'.isName)
  have same := first'.split.symm.trans first.split
  rw [List.append_assoc, List.append_assoc] at same
  obtain ⟨rfl, tails⟩ := List.append_inj same length
  rw [written_append, written_append] at tails
  have named := splitName_append first'.isName after'
  rw [List.tail_eq_of_cons_eq (List.tail_eq_of_cons_eq tails),
    splitName_append first.isName after] at named
  cases named
  exact ⟨rfl, rfl, rfl⟩

theorem Splits.unique (splits : Splits text parts last) {parts' : List (List Char × List Char)}
    {last' : List Char} (splits' : Splits text parts' last') : parts' = parts ∧ last' = last := by
  induction splits generalizing parts' last' with
  | last bare =>
    cases splits' with
    | last => exact ⟨rfl, rfl⟩
    | next first => exact absurd first.isName (bare _ _ _ first.split)
  | next first _ ih =>
    cases splits' with
    | last bare => exact absurd first.isName (bare _ _ _ first.split)
    | next first' later' =>
      obtain ⟨rfl, rfl, rfl⟩ := first.unique first'
      obtain ⟨rfl, rfl⟩ := ih later'
      exact ⟨rfl, rfl⟩

/-- Where no name stands for anything the template stays as it is. -/
theorem Splits.filled_unset (splits : Splits text parts last) {valueOf : String → Option String}
    (unset : ∀ part ∈ parts, valueOf (.ofList part.2) = none) :
    filled valueOf parts last = text := by
  induction splits with
  | last => rfl
  | @next _ before name after parts last first later ih =>
    obtain ⟨here, unset⟩ := List.forall_mem_cons.1 unset
    have rest := ih unset
    have kept : valueOr valueOf name = written name := by
      unfold valueOr
      rw [here]
      rfl
    unfold filled at *
    rw [List.flatMap_cons, kept, List.append_assoc, rest, first.split]

theorem splits_nil : Splits [] [] [] := by
  refine .last ?_
  intro before name after split
  simp [written] at split

/-- A character at which no placeholder begins belongs to the text before the first one. -/
theorem Splits.cons (splits : Splits text parts last) {c : Char}
    (bare : ∀ name after, c :: text = written name ++ after → ¬ IsName name) :
    ∃ parts' last', Splits (c :: text) parts' last' ∧
      ∀ valueOf, filled valueOf parts' last' = c :: filled valueOf parts last := by
  cases splits with
  | last none =>
    refine ⟨[], c :: text, .last ?_, fun _ => rfl⟩
    intro before name after split
    cases before with
    | nil => exact bare name after split
    | cons _ before => exact none before name after (List.tail_eq_of_cons_eq split)
  | @next _ before name after parts _ first later =>
    refine ⟨(c :: before, name) :: parts, last, .next ⟨?_, first.isName, ?_⟩ later, ?_⟩
    · rw [first.split]; rfl
    · intro before' name' after' split isName
      cases before' with
      | nil => exact absurd isName (bare name' after' split)
      | cons _ before' =>
        exact Nat.succ_le_succ
          (first.earliest before' name' after' (List.tail_eq_of_cons_eq split) isName)
    · intro valueOf
      simp [filled]

end Splits

/-! ## Filling in -/

theorem pieces_placeholder {name : List Char} (isName : IsName name) (rest : List Char) :
    pieces (written name ++ rest) = .placeholder name :: pieces rest := by
  rw [written_append, pieces, splitName_append isName]

theorem fillPiece_placeholder (valueOf : String → Option String) (name : List Char) :
    fillPiece valueOf (.placeholder name) = valueOr valueOf name := by
  simp only [fillPiece, valueOr]
  cases valueOf (.ofList name) <;> rfl

theorem pieces_plain {cs : List Char} (plain : '$' ∉ cs) (rest : List Char) :
    pieces (cs ++ rest) = cs.map .char ++ pieces rest := by
  induction cs with
  | nil => rfl
  | cons c cs ih =>
    rw [List.mem_cons, not_or] at plain
    obtain ⟨here, plain⟩ := plain
    rw [List.cons_append, pieces.eq_3 _ _ fun _ same _ => here same.symm, ih plain]
    rfl

/-- A template with one placeholder and no other dollar sign. -/
theorem fill_placeholder {before name after : List Char} (plain : '$' ∉ before)
    (isName : IsName name) (plain' : '$' ∉ after) (valueOf : String → Option String) :
    fill valueOf (.ofList (before ++ (written name ++ after))) =
      .ofList (before ++ (valueOr valueOf name ++ after)) := by
  have chars : ∀ cs : List Char, (cs.map Piece.char).flatMap (fillPiece valueOf) = cs := by
    intro cs
    rw [List.flatMap_map]
    exact List.flatMap_singleton' cs
  have rest : pieces after = after.map .char := by
    simpa [pieces] using pieces_plain plain' []
  unfold fill
  rw [String.toList_ofList, pieces_plain plain, pieces_placeholder isName, rest,
    List.flatMap_append, List.flatMap_cons, chars, chars, fillPiece_placeholder]

/-- The pieces of a template follow the way it splits. -/
theorem exists_splits (cs : List Char) : ∃ parts last, Splits cs parts last ∧
    ∀ valueOf, (pieces cs).flatMap (fillPiece valueOf) = filled valueOf parts last := by
  fun_induction pieces cs with
  | case1 => exact ⟨[], [], splits_nil, fun _ => rfl⟩
  | case2 rest name left named ih =>
    obtain ⟨parts, last, splits, fills⟩ := ih
    obtain ⟨split, isName⟩ := splitName_eq_some named
    have first : First ('$' :: '{' :: rest) [] name left :=
      ⟨by rw [List.nil_append, written_append, split], isName, fun _ _ _ _ _ => Nat.zero_le _⟩
    refine ⟨([], name) :: parts, last, .next first splits, fun valueOf => ?_⟩
    rw [List.flatMap_cons, fills, fillPiece_placeholder]
    unfold filled
    rw [List.flatMap_cons, List.nil_append, List.append_assoc]
  | case3 rest named ih =>
    -- an opening without a name or without an end
    obtain ⟨parts, last, splits, fills⟩ := ih
    obtain ⟨parts', last', splits', adds⟩ := splits.cons (c := '$') (by
      intro name after split isName
      rw [written_append] at split
      exact splitName_eq_none named isName
        (List.tail_eq_of_cons_eq (List.tail_eq_of_cons_eq split)))
    refine ⟨parts', last', splits', fun valueOf => ?_⟩
    rw [List.flatMap_cons, fills, adds]
    rfl
  | case4 c rest other ih =>
    obtain ⟨parts, last, splits, fills⟩ := ih
    obtain ⟨parts', last', splits', adds⟩ := splits.cons (c := c) (by
      intro name after split
      rw [written_append] at split
      cases split
      exact absurd rfl (other _ rfl))
    refine ⟨parts', last', splits', fun valueOf => ?_⟩
    rw [List.flatMap_cons, fills, adds]
    rfl

/-- Filling in is one pass from left to right. -/
theorem fill_splits (template : String) :
    (∃! split : List (List Char × List Char) × List Char,
      Splits template.toList split.1 split.2) ∧
    ∀ parts last, Splits template.toList parts last →
      (∀ valueOf, (fill valueOf template).toList = filled valueOf parts last) ∧
      ∀ valueOf, (∀ part ∈ parts, valueOf (.ofList part.2) = none) →
        fill valueOf template = template := by
  obtain ⟨parts, last, splits, fills⟩ := exists_splits template.toList
  refine ⟨⟨(parts, last), splits, ?_⟩, ?_⟩
  · rintro ⟨parts', last'⟩ splits'
    obtain ⟨rfl, rfl⟩ := splits.unique splits'
    rfl
  · intro parts' last' splits'
    obtain ⟨rfl, rfl⟩ := splits.unique splits'
    refine ⟨fun valueOf => ?_, fun valueOf unset => ?_⟩
    · unfold fill
      rw [String.toList_ofList, fills]
    · unfold fill
      rw [fills, splits.filled_unset unset, String.ofList_toList]

-- an opening without a name, one inside a name, and one without an end
example : fill (fun _ => some "x") "$\x7b\x7d$\x7ba$\x7bb\x7d$\x7bc" = "$\x7b\x7dx$\x7bc" := by
  cbv

/-- A variable whose value holds a placeholder of its own name, and the same variable unset. -/
theorem fill_splits_of_variable :
    Splits "$\x7bV\x7d".toList [([], ['V'])] [] ∧
      (fill (fun _ => some "$\x7bV\x7d!") "$\x7bV\x7d").toList = "$\x7bV\x7d!".toList ∧
      fill (fun _ => none) "$\x7bV\x7d" = "$\x7bV\x7d" := by
  have first : First "$\x7bV\x7d".toList [] ['V'] [] :=
    ⟨by decide, ⟨by decide, by decide⟩, fun _ _ _ _ _ => Nat.zero_le _⟩
  have splits : Splits "$\x7bV\x7d".toList [([], ['V'])] [] := .next first splits_nil
  obtain ⟨fills, keeps⟩ := (fill_splits "$\x7bV\x7d").2 _ _ splits
  exact ⟨splits, fills _, keeps _ fun _ _ => rfl⟩

end Nearby.Text
