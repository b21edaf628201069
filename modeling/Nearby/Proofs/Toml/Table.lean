/-
What a document keeps while it is built. Nothing that is added to a table takes the place of a text
that it has, and nothing that is added to a document takes the place of a table: at most the table
grows. So a text that one entry of a section puts into its table is found there at the end.
-/
import Nearby.Toml.Table

namespace Nearby.Toml

/-! ## Lookups -/

section Lookup

variable {key other : String} {value : Toml} {entries : Entries}

theorem lookup_put_self : (put key value entries).lookup key = some value := by
  induction entries with
  | nil => simp [put]
  | cons entry rest ih =>
    rw [put]
    split
    case isTrue => exact List.lookup_cons_self
    case isFalse differ => rw [List.lookup_cons, beq_eq_false_iff_ne.2 (Ne.symm differ)]; exact ih

theorem lookup_put_of_ne (differ : other ≠ key) :
    (put key value entries).lookup other = entries.lookup other := by
  induction entries with
  | nil => simp [put, List.lookup_cons, beq_eq_false_iff_ne.2 differ]
  | cons entry rest ih =>
    rw [put]
    split
    case isTrue same =>
      rw [List.lookup_cons, List.lookup_cons, same, beq_eq_false_iff_ne.2 differ]
    case isFalse => rw [List.lookup_cons, List.lookup_cons, ih]

/-- What is kept of a table by name is found there as before. -/
theorem lookup_filter (keeps : String → Bool) (kept : keeps key = true) :
    (entries.filter fun entry => keeps entry.1).lookup key = entries.lookup key := by
  induction entries with
  | nil => rfl
  | cons entry rest ih =>
    by_cases same : key = entry.1
    · rw [List.filter_cons_of_pos (by rw [← same]; exact kept), List.lookup_cons, List.lookup_cons,
        same, beq_self_eq_true]
    · rw [List.lookup_cons, beq_eq_false_iff_ne.2 same, ← ih, List.filter_cons]
      split
      case isTrue => rw [List.lookup_cons, beq_eq_false_iff_ne.2 same]
      case isFalse => rfl

end Lookup

/-! ## Changes that keep something -/

/-- Whatever the change makes of a table in which the condition holds, it still holds there. -/
def Keeps (holds : Draft → Prop) (change : Draft → Option Draft) : Prop :=
  ∀ draft draft', change draft = some draft' → holds draft → holds draft'

/-- The table has the text under the key. -/
def HasText (key s : String) (draft : Draft) : Prop := draft.2.lookup key = some (.string s)

/-- The table has a table under the key in which the condition holds. -/
def HasTable (key : String) (holds : Draft → Prop) (draft : Draft) : Prop :=
  ∃ form entries, draft.2.lookup key = some (.table form entries) ∧ holds (form, entries)

theorem keeps_foldlM {α : Type} {holds : Draft → Prop} {f : Draft → α → Option Draft}
    (each : ∀ a, Keeps holds (f · a)) (as : List α) : Keeps holds (as.foldlM f) := by
  induction as with
  | nil =>
    intro draft draft' same
    cases same
    exact id
  | cons a as ih =>
    intro draft draft' built here
    change List.foldlM f draft (a :: as) = some draft' at built
    rw [List.foldlM_cons] at built
    obtain ⟨next, first, rest⟩ := Option.bind_eq_some_iff.1 built
    exact ih _ _ rest (each a _ _ first here)

section Keeps

variable {key s : String} {dotted : Bool} {change : Draft → Option Draft} {holds : Draft → Prop}

/-- A change at the end of a path goes through a table that is made for it, one that is there, or
the last one of an array. -/
theorem changeAt_cons {path : List String} {draft draft' : Draft}
    (h : changeAt dotted change (key :: path) draft = some draft') :
    ∃ changed, draft' = (draft.1, put key changed draft.2) ∧
      (draft.2.lookup key = none ∨ (∃ items, draft.2.lookup key = some (.tables items)) ∨
        ∃ inner inner', draft.2.lookup key = some (.table inner.1 inner.2) ∧
          changeAt dotted change path inner = some inner' ∧
          changed = .table inner'.1 inner'.2) := by
  obtain ⟨form, entries⟩ := draft
  rw [changeAt] at h
  split at h
  case h_1 none =>
    obtain ⟨inner, -, h⟩ := Option.bind_eq_some_iff.1 h
    cases h
    exact ⟨_, rfl, .inl none⟩
  case h_2 form entries some =>
    split at h
    case isTrue =>
      obtain ⟨inner, made, h⟩ := Option.bind_eq_some_iff.1 h
      cases h
      exact ⟨_, rfl, .inr (.inr ⟨(form, entries), inner, some, made, rfl⟩)⟩
    case isFalse => cases h
  case h_3 items some =>
    split at h
    case h_1 =>
      obtain ⟨inner, -, h⟩ := Option.bind_eq_some_iff.1 h
      cases h
      exact ⟨_, rfl, .inr (.inl ⟨items, some⟩)⟩
    case h_2 => cases h
  case h_4 => cases h

theorem keeps_text_changeAt (keeps : Keeps (HasText key s) change) (path : List String) :
    Keeps (HasText key s) (changeAt dotted change path) := by
  cases path with
  | nil => exact keeps
  | cons other path =>
    intro draft draft' changed here
    obtain ⟨value, rfl, found⟩ := changeAt_cons changed
    have differ : key ≠ other := by
      rintro rfl
      unfold HasText at here
      rw [here] at found
      rcases found with none | ⟨_, some⟩ | ⟨_, _, some, -⟩
      · cases none
      · cases some
      · cases some
    exact (lookup_put_of_ne differ).trans here

theorem keeps_table_changeAt (keeps : Keeps (HasTable key holds) change)
    (inside : ∀ path, Keeps holds (changeAt dotted change path)) (path : List String) :
    Keeps (HasTable key holds) (changeAt dotted change path) := by
  cases path with
  | nil => exact keeps
  | cons other path =>
    rintro draft draft' changed ⟨form, entries, here, holding⟩
    obtain ⟨value, rfl, found⟩ := changeAt_cons changed
    by_cases same : key = other
    · subst same
      rw [here] at found
      rcases found with none | ⟨_, some⟩ | ⟨inner, inner', some, made, rfl⟩
      · cases none
      · cases some
      · cases some
        exact ⟨_, _, lookup_put_self, inside path _ _ made holding⟩
    · exact ⟨form, entries, (lookup_put_of_ne same).trans here, holding⟩

end Keeps

/-! ## Entries and sections -/

theorem keeps_text_assign (key s : String) (a : Assignment) :
    Keeps (HasText key s) (assign · a) := by
  intro draft draft' h
  refine keeps_text_changeAt ?_ a.path draft draft' h
  rintro ⟨form, entries⟩ draft' changed here
  simp only at changed
  split at changed
  case isTrue => cases changed
  case isFalse =>
    split at changed
    case isTrue => cases changed
    case isFalse absent =>
      cases changed
      refine (lookup_put_of_ne ?_).trans here
      rintro rfl
      rw [show entries.lookup a.key = _ from here] at absent
      exact absent rfl

theorem hasText_of_assign {key s : String} {draft draft' : Draft}
    (assigned : assign draft ⟨[], key, .string s⟩ = some draft') : HasText key s draft' := by
  obtain ⟨form, entries⟩ := draft
  change (if _ then none else if _ then none else some _) = some draft' at assigned
  split at assigned
  case isTrue => cases assigned
  case isFalse =>
    split at assigned
    case isTrue => cases assigned
    case isFalse =>
      cases assigned
      exact lookup_put_self

/-- The section as it is put into a table. -/
def Section.add (added : Section) (draft : Draft) : Option Draft :=
  (added.placed (draft.2.lookup added.key)).map fun value => (draft.1, put added.key value draft.2)

theorem addSection_eq (added : Section) (draft : Draft) :
    addSection draft added = changeAt false added.add added.path draft := by
  unfold addSection
  congr 1
  funext ⟨form, entries⟩
  show (added.placed (entries.lookup added.key) >>= fun value => some (form, _)) =
    (added.placed (entries.lookup added.key)).map _
  cases added.placed (entries.lookup added.key) <;> rfl

theorem keeps_text_add (key s : String) (added : Section) : Keeps (HasText key s) added.add := by
  intro draft draft' changed here
  obtain ⟨value, placed, rfl⟩ := Option.map_eq_some_iff.1 changed
  refine (lookup_put_of_ne ?_).trans here
  rintro rfl
  -- a section does not take the place of a text
  rw [show draft.2.lookup added.key = _ from here] at placed
  unfold Section.placed at placed
  split at placed <;> cases placed

/-- A table that a section opens again keeps its texts. -/
theorem hasText_of_placed {key s : String} {added : Section} {form : TableForm} {entries : Entries}
    {value : Toml} (placed : added.placed (some (.table form entries)) = some value)
    (here : HasText key s (form, entries)) :
    ∃ form' entries', value = .table form' entries' ∧ HasText key s (form', entries') := by
  have opened : added.toTable entries = some value := by
    unfold Section.placed at placed
    split at placed
    case isTrue => cases placed
    case isFalse =>
      cases form with
      | implicit => exact placed
      | _ => cases placed
  obtain ⟨⟨form', entries'⟩, built, opened⟩ := Option.bind_eq_some_iff.1 opened
  cases opened
  exact ⟨form', entries', rfl,
    keeps_foldlM (keeps_text_assign key s) added.assignments _ _ built here⟩

theorem keeps_table_add (key inner s : String) (added : Section) :
    Keeps (HasTable key (HasText inner s)) added.add := by
  rintro draft draft' changed ⟨form, entries, here, holding⟩
  obtain ⟨value, placed, rfl⟩ := Option.map_eq_some_iff.1 changed
  by_cases same : key = added.key
  · subst same
    rw [here] at placed
    obtain ⟨form', entries', rfl, holding'⟩ := hasText_of_placed placed holding
    exact ⟨form', entries', lookup_put_self, holding'⟩
  · exact ⟨form, entries, (lookup_put_of_ne same).trans here, holding⟩

/-- The texts of a table of the document stay there, whatever sections come after it. -/
theorem keeps_table_addSection (key inner s : String) (added : Section) :
    Keeps (HasTable key (HasText inner s)) (addSection · added) := by
  intro draft draft' h
  change addSection draft added = some draft' at h
  rw [addSection_eq] at h
  exact keeps_table_changeAt (keeps_table_add key inner s added)
    (keeps_text_changeAt (keeps_text_add inner s added)) added.path draft draft' h

/-- The text that comes first below the first header is under its key at the end. -/
theorem hasText_ofSections {key inner s : String} {later : List Assignment} {more : List Section}
    {entries : Entries} (built : ofSections []
      (⟨false, [], key, ⟨[], inner, .string s⟩ :: later⟩ :: more) = some entries) :
    HasTable key (HasText inner s) (.header, entries) := by
  obtain ⟨⟨form, entries'⟩, folded, built⟩ := Option.bind_eq_some_iff.1 built
  cases built
  rw [List.foldlM_cons] at folded
  obtain ⟨next, first, rest⟩ := Option.bind_eq_some_iff.1 folded
  have here : HasTable key (HasText inner s) next := by
    rw [addSection_eq] at first
    obtain ⟨value, opened, rfl⟩ := Option.map_eq_some_iff.1 first
    obtain ⟨⟨form', entries'⟩, assigned, opened⟩ := Option.bind_eq_some_iff.1 opened
    cases opened
    rw [List.foldlM_cons] at assigned
    obtain ⟨begun, written, assigned⟩ := Option.bind_eq_some_iff.1 assigned
    exact ⟨form', entries', lookup_put_self, keeps_foldlM (keeps_text_assign inner s) later _ _
      assigned (hasText_of_assign written)⟩
  exact keeps_foldlM (keeps_table_addSection key inner s) more next (form, entries) rest here

end Nearby.Toml
