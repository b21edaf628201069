/-
Rows from their text. A field is spelled bare or between quotes, a row by its fields with commas
between, and a table by its rows with line ends behind them, of which there may be more than one.
The reader keeps what it has completed and collects the field at hand, so one field leaves it just
before the field's end, and the end of a field, a row or the text completes what is open.
-/
import Nearby.Table.Rows
import Mathlib.Data.List.TakeWhile

namespace Nearby.Table

/-! ## Spelling -/

/-- The character ends a line. -/
def EndsLine (c : Char) : Prop := c = '\n' ∨ c = '\r'

instance : DecidablePred EndsLine := fun c => inferInstanceAs (Decidable (c = '\n' ∨ c = '\r'))

/-- A quote inside quotes is written twice. -/
def doubled (c : Char) : List Char := if c = '"' then ['"', '"'] else [c]

/-- Characters that neither end a field nor a line. -/
def Bare (cs : List Char) : Prop := ∀ c ∈ cs, c ≠ ',' ∧ ¬ EndsLine c

/-- The characters spell the field: as it is, where it does not begin with a quote, or between
quotes. Behind the closing quote the field may go on as it is. -/
inductive SpellsField : List Char → List Char → Prop where
  | bare {field : List Char} : Bare field → field.head? ≠ some '"' → SpellsField field field
  | quoted (field : List Char) {tail : List Char} : Bare tail → tail.head? ≠ some '"' →
      SpellsField ('"' :: (field.flatMap doubled ++ '"' :: tail)) (field ++ tail)

/-- The characters spell the last field of a text, whose closing quote may be missing. -/
inductive SpellsLast : List Char → List Char → Prop where
  | field {cs field : List Char} : SpellsField cs field → SpellsLast cs field
  | unclosed (field : List Char) : SpellsLast ('"' :: field.flatMap doubled) field

/-- The characters spell the fields of a row, with commas between them. -/
inductive SpellsRow (Last : List Char → List Char → Prop) : List Char → List String → Prop where
  | last {cs : List Char} {field : String} : Last cs field.toList → SpellsRow Last cs [field]
  | more {cs rest : List Char} {field : String} {fields : List String} :
      SpellsField cs field.toList → SpellsRow Last rest fields →
      SpellsRow Last (cs ++ ',' :: rest) (field :: fields)

/-- The characters spell rows, each on a line that is not empty. Behind a row is a line feed, a
carriage return or both, and there may be any empty lines; the last row may do without. -/
inductive SpellsRows : List Char → List (List String) → Prop where
  | nil : SpellsRows [] []
  | last {cs : List Char} {row : List String} : cs ≠ [] → SpellsRow SpellsLast cs row →
      SpellsRows cs [row]
  | blank {c : Char} {rest : List Char} {rows : List (List String)} : EndsLine c →
      SpellsRows rest rows → SpellsRows (c :: rest) rows
  | more {cs rest : List Char} {c : Char} {row : List String} {rows : List (List String)} :
      cs ≠ [] → SpellsRow SpellsField cs row → EndsLine c → SpellsRows rest rows →
      SpellsRows (cs ++ c :: rest) (row :: rows)

/-- The text spells the rows, with a byte-order mark in front of them or without. -/
def Spells (text : String) (rows : List (List String)) : Prop :=
  ∃ mark body, text.toList = mark ++ body ∧
    (mark = [byteOrderMark] ∨ mark = [] ∧ body.head? ≠ some byteOrderMark) ∧ SpellsRows body rows

theorem bare_nil : Bare [] := nofun

theorem SpellsField.closed (field : List Char) :
    SpellsField ('"' :: (field.flatMap doubled ++ ['"'])) field := by
  have closed := SpellsField.quoted field bare_nil (by simp)
  rwa [List.append_nil] at closed

theorem exists_spellsRow {row : List String} (nonempty : row ≠ []) :
    ∃ cs, cs ≠ [] ∧ SpellsRow SpellsField cs row := by
  induction row with
  | nil => exact absurd rfl nonempty
  | cons field fields ih =>
    have closed := SpellsField.closed field.toList
    cases fields with
    | nil => exact ⟨_, List.cons_ne_nil _ _, .last closed⟩
    | cons next rest =>
      obtain ⟨cs, -, spells⟩ := ih (List.cons_ne_nil _ _)
      exact ⟨_, List.cons_ne_nil _ _, .more closed spells⟩

/-- Rows of any fields can be spelled. -/
theorem exists_spells {rows : List (List String)} (nonempty : ∀ row ∈ rows, row ≠ []) :
    ∃ text, Spells text rows := by
  have body : ∃ cs, SpellsRows cs rows := by
    induction rows with
    | nil => exact ⟨[], .nil⟩
    | cons row rows ih =>
      obtain ⟨first, rest⟩ := List.forall_mem_cons.1 nonempty
      obtain ⟨cs, visible, spells⟩ := exists_spellsRow first
      obtain ⟨later, spells'⟩ := ih rest
      exact ⟨_, .more visible spells (.inl rfl) spells'⟩
  obtain ⟨cs, spells⟩ := body
  exact ⟨.ofList (byteOrderMark :: cs), [byteOrderMark], cs, String.toList_ofList, .inl rfl, spells⟩

/-! ## Every text spells rows -/

/-- A text begins with bare characters, and behind them is a comma, a line end or nothing. -/
theorem exists_bare {cs : List Char} (unquoted : cs.head? ≠ some '"') : ∃ bare left,
    cs = bare ++ left ∧ Bare bare ∧ bare.head? ≠ some '"' ∧
      (left = [] ∨ ∃ c rest, left = c :: rest ∧ (c = ',' ∨ EndsLine c)) := by
  let isBare (c : Char) : Bool := c ≠ ',' && ! EndsLine c
  have parts : cs = cs.takeWhile isBare ++ cs.dropWhile isBare :=
    List.takeWhile_append_dropWhile.symm
  refine ⟨_, _, parts, ?_, ?_, ?_⟩
  · intro c mem
    simpa [isBare] using List.mem_takeWhile_imp mem
  · rw [List.head?_takeWhile]
    exact fun quote => unquoted (Option.filter_eq_some_iff.1 quote).1
  · cases left : cs.dropWhile isBare with
    | nil => exact .inl rfl
    | cons c rest =>
      have stop := List.head?_dropWhile_not isBare cs
      rw [left] at stop
      refine .inr ⟨c, rest, rfl, ?_⟩
      by_contra neither
      obtain ⟨comma, ends⟩ := not_or.1 neither
      simp [isBare, comma, ends] at stop

/-- Inside quotes a text runs on to its end, or to a quote that is not doubled. -/
theorem exists_inside (cs : List Char) : ∃ field : List Char, cs = field.flatMap doubled ∨
    ∃ rest, cs = field.flatMap doubled ++ '"' :: rest ∧ rest.head? ≠ some '"' := by
  rcases cs with - | ⟨c, rest⟩
  · exact ⟨[], .inl rfl⟩
  by_cases quote : c = '"'
  · subst quote
    rcases rest with - | ⟨c, rest⟩
    · exact ⟨[], .inr ⟨[], rfl, nofun⟩⟩
    by_cases again : c = '"'
    · subst again
      obtain ⟨field, all | ⟨rest', split, closed⟩⟩ := exists_inside rest
      · exact ⟨'"' :: field, .inl (by rw [all]; rfl)⟩
      · exact ⟨'"' :: field, .inr ⟨rest', by rw [split]; rfl, closed⟩⟩
    · exact ⟨[], .inr ⟨c :: rest, rfl, fun same => again (Option.some.inj same)⟩⟩
  · have single : doubled c = [c] := if_neg quote
    obtain ⟨field, all | ⟨rest', split, closed⟩⟩ := exists_inside rest
    · exact ⟨c :: field, .inl (by rw [List.flatMap_cons, single, all]; rfl)⟩
    · exact ⟨c :: field, .inr ⟨rest', by rw [List.flatMap_cons, single, split]; rfl, closed⟩⟩
termination_by cs.length

/-- A text begins with a field that a comma or a line end is behind, or is one. -/
theorem exists_field (cs : List Char) : ∃ field, SpellsLast cs field ∨
    ∃ spelling c rest, cs = spelling ++ c :: rest ∧ SpellsField spelling field ∧
      (c = ',' ∨ EndsLine c) := by
  by_cases quote : cs.head? = some '"'
  · obtain ⟨inside, rfl⟩ := List.head?_eq_some_iff.1 quote
    obtain ⟨field, rfl | ⟨tail, rfl, closed⟩⟩ := exists_inside inside
    · exact ⟨field, .inl (.unclosed field)⟩
    · obtain ⟨bare, left, rfl, plain, unquoted, rfl | ⟨c, rest, rfl, ends⟩⟩ := exists_bare closed
      · rw [List.append_nil]
        exact ⟨_, .inl (.field (.quoted field plain unquoted))⟩
      · exact ⟨_, .inr ⟨_, c, rest, by simp, .quoted field plain unquoted, ends⟩⟩
  · obtain ⟨bare, left, rfl, plain, unquoted, rfl | ⟨c, rest, rfl, ends⟩⟩ := exists_bare quote
    · rw [List.append_nil]
      exact ⟨_, .inl (.field (.bare plain unquoted))⟩
    · exact ⟨_, .inr ⟨_, c, rest, rfl, .bare plain unquoted, ends⟩⟩

/-- A text begins with a row that a line end is behind, or is one. -/
theorem exists_row (cs : List Char) : ∃ row, SpellsRow SpellsLast cs row ∨
    ∃ spelling c rest, cs = spelling ++ c :: rest ∧ SpellsRow SpellsField spelling row ∧
      EndsLine c := by
  obtain ⟨field, last | ⟨spelling, c, rest, split, spells, ends⟩⟩ := exists_field cs
  · exact ⟨[.ofList field], .inl (.last (by rwa [String.toList_ofList]))⟩
  · rw [← String.toList_ofList (l := field)] at spells
    rcases ends with rfl | ends
    · obtain ⟨row, last | ⟨spelling', c, rest', split', spells', ends⟩⟩ := exists_row rest
      · rw [split]
        exact ⟨_, .inl (.more spells last)⟩
      · exact ⟨_, .inr ⟨_, c, rest', by simp [split, split'], .more spells spells', ends⟩⟩
    · exact ⟨_, .inr ⟨spelling, c, rest, split, .last spells, ends⟩⟩
termination_by cs.length
decreasing_by
  have := congrArg List.length split
  simp at this
  omega

theorem exists_spellsRows (cs : List Char) : ∃ rows, SpellsRows cs rows := by
  match cs with
  | [] => exact ⟨[], .nil⟩
  | c :: cs =>
    by_cases ends : EndsLine c
    · obtain ⟨rows, spells⟩ := exists_spellsRows cs
      exact ⟨rows, .blank ends spells⟩
    · obtain ⟨row, last | ⟨spelling, c', rest, split, spells, ends'⟩⟩ := exists_row (c :: cs)
      · exact ⟨[row], .last (List.cons_ne_nil _ _) last⟩
      · have visible : spelling ≠ [] := by
          rintro rfl
          obtain ⟨rfl, -⟩ := List.cons_eq_cons.1 split
          exact ends ends'
        obtain ⟨rows, later⟩ := exists_spellsRows rest
        rw [split]
        exact ⟨row :: rows, .more visible spells ends' later⟩
termination_by cs.length
decreasing_by
  · simp
  · have := congrArg List.length split
    simp at this ⊢
    omega

/-- Any text spells rows. -/
theorem spells_some (text : String) : ∃ rows, Spells text rows := by
  by_cases marked : text.toList.head? = some byteOrderMark
  · obtain ⟨body, chars⟩ := List.head?_eq_some_iff.1 marked
    obtain ⟨rows, spells⟩ := exists_spellsRows body
    exact ⟨rows, [byteOrderMark], body, chars, .inl rfl, spells⟩
  · obtain ⟨rows, spells⟩ := exists_spellsRows text.toList
    exact ⟨rows, [], _, rfl, .inr ⟨rfl, marked⟩, spells⟩

/-! ## Fields -/

/-- The reader is in a field that a comma or a line end completes. -/
def Place.Open (place : Place) : Prop :=
  place = .fieldStart ∨ place = .plain ∨ place = .quoteInQuoted

theorem Place.Open.ne_rowStart {place : Place} (h : place.Open) : place ≠ .rowStart := by
  rintro rfl
  rcases h with h | h | h <;> cases h

namespace Progress

/-- The reader is in front of a field. -/
def Fresh (p : Progress) : Prop := (p.place = .rowStart ∨ p.place = .fieldStart) ∧ p.field = []

theorem step_comma {p : Progress} (h : p.place.Open ∨ p.place = .rowStart) :
    p.step ',' = p.endField := by
  obtain ⟨place, rows, fields, field⟩ := p
  rcases h with (h | h | h) | h <;> cases h <;> rfl

theorem step_lineEnd {p : Progress} (h : p.place.Open) {c : Char} (ends : EndsLine c) :
    p.step c = p.endRow := by
  obtain ⟨place, rows, fields, field⟩ := p
  rcases h with h | h | h <;> cases h <;> rcases ends with rfl | rfl <;> rfl

theorem stepPlain_put (p : Progress) {c : Char} (comma : c ≠ ',') (ends : ¬ EndsLine c) :
    p.stepPlain c = p.put .plain c :=
  (if_neg comma).trans (if_neg ends)

theorem finish_of_ne {p : Progress} (h : p.place ≠ .rowStart) :
    p.finish = p.endRow.rows.reverse :=
  if_neg h

/-- Bare characters are collected. -/
theorem foldl_plain {cs : List Char} (bare : Bare cs)
    (rows : List (List String)) (fields : List String) (field : List Char) :
    cs.foldl step ⟨.plain, rows, fields, field⟩ = ⟨.plain, rows, fields, cs.reverse ++ field⟩ := by
  induction cs generalizing field with
  | nil => rfl
  | cons c cs ih =>
    obtain ⟨comma, ends⟩ := bare c List.mem_cons_self
    have put : step ⟨.plain, rows, fields, field⟩ c = ⟨.plain, rows, fields, c :: field⟩ :=
      stepPlain_put _ comma ends
    rw [List.foldl_cons, put, ih fun c hc => bare c (List.mem_cons_of_mem _ hc)]
    simp

/-- Characters between quotes are collected, doubled quotes as one. -/
theorem foldl_quoted (cs : List Char) (rows : List (List String)) (fields : List String)
    (field : List Char) :
    (cs.flatMap doubled).foldl step ⟨.quoted, rows, fields, field⟩ =
      ⟨.quoted, rows, fields, cs.reverse ++ field⟩ := by
  induction cs generalizing field with
  | nil => rfl
  | cons c cs ih =>
    have put : (doubled c).foldl step ⟨.quoted, rows, fields, field⟩ =
        ⟨.quoted, rows, fields, c :: field⟩ := by
      unfold doubled
      split_ifs with quote
      · subst quote; rfl
      · exact if_neg quote
    rw [List.flatMap_cons, List.foldl_append, put, ih]
    simp

/-- The spelling of a field leaves the reader in that field, or still in front of the row. -/
theorem foldl_field {cs field : List Char} (spells : SpellsField cs field) {p : Progress}
    (fresh : p.Fresh) :
    ∃ place, cs.foldl step p = { p with place := place, field := field.reverse } ∧
      (place.Open ∨ cs = [] ∧ place = .rowStart) := by
  obtain ⟨place, rows, fields, before⟩ := p
  obtain ⟨start, rfl : before = []⟩ := fresh
  cases spells with
  | bare bare quote =>
    cases cs with
    | nil =>
      refine ⟨place, rfl, ?_⟩
      rcases start with start | start
      · exact .inr ⟨rfl, start⟩
      · exact .inl (.inl start)
    | cons c cs =>
      obtain ⟨comma, ends⟩ := bare c List.mem_cons_self
      have unquoted : c ≠ '"' := fun quoted => quote (congrArg some quoted)
      have put : step ⟨place, rows, fields, []⟩ c = ⟨.plain, rows, fields, [c]⟩ := by
        have plain : stepPlain ⟨place, rows, fields, []⟩ c = ⟨.plain, rows, fields, [c]⟩ :=
          stepPlain_put _ comma ends
        rcases start with start | start <;> cases start
        · exact ((if_neg ends).trans (if_neg unquoted)).trans plain
        · exact (if_neg unquoted).trans plain
      refine ⟨.plain, ?_, .inl (.inr (.inl rfl))⟩
      rw [List.foldl_cons, put, foldl_plain fun c hc => bare c (List.mem_cons_of_mem _ hc)]
      simp
  | @quoted field tail bare quote =>
    have opened : step ⟨place, rows, fields, []⟩ '"' = ⟨.quoted, rows, fields, []⟩ := by
      rcases start with start | start <;> cases start <;> rfl
    have closed : ('"' :: (field.flatMap doubled ++ '"' :: tail)).foldl step
        ⟨place, rows, fields, []⟩ =
          tail.foldl step ⟨.quoteInQuoted, rows, fields, field.reverse⟩ := by
      rw [List.foldl_cons, opened, List.foldl_append, foldl_quoted, List.append_nil]
      rfl
    rw [closed]
    cases tail with
    | nil =>
      refine ⟨.quoteInQuoted, ?_, .inl (.inr (.inr rfl))⟩
      rw [List.append_nil]
      rfl
    | cons c tail =>
      obtain ⟨comma, ends⟩ := bare c List.mem_cons_self
      have unquoted : c ≠ '"' := fun quoted => quote (congrArg some quoted)
      have put : step ⟨.quoteInQuoted, rows, fields, field.reverse⟩ c =
          ⟨.plain, rows, fields, c :: field.reverse⟩ :=
        (if_neg unquoted).trans (stepPlain_put _ comma ends)
      refine ⟨.plain, ?_, .inl (.inr (.inl rfl))⟩
      rw [List.foldl_cons, put, foldl_plain fun c hc => bare c (List.mem_cons_of_mem _ hc)]
      simp

/-- So does that of the last field of a text, which may leave it inside quotes. -/
theorem foldl_last {cs field : List Char} (spells : SpellsLast cs field) {p : Progress}
    (fresh : p.Fresh) :
    ∃ place, cs.foldl step p = { p with place := place, field := field.reverse } ∧
      (place ≠ .rowStart ∨ cs = [] ∧ place = .rowStart) := by
  cases spells with
  | field spells =>
    obtain ⟨place, folded, ended⟩ := foldl_field spells fresh
    exact ⟨place, folded, ended.imp_left Place.Open.ne_rowStart⟩
  | unclosed =>
    obtain ⟨place, rows, fields, before⟩ := p
    obtain ⟨start, rfl : before = []⟩ := fresh
    have opened : step ⟨place, rows, fields, []⟩ '"' = ⟨.quoted, rows, fields, []⟩ := by
      rcases start with start | start <;> cases start <;> rfl
    refine ⟨.quoted, ?_, .inl nofun⟩
    rw [List.foldl_cons, opened, foldl_quoted, List.append_nil]

/-! ## Rows -/

/-- The spelling of a row leaves the reader where the last field does, unless it is the spelling
of nothing, and completing the row there adds it. -/
theorem foldl_row {Last : List Char → List Char → Prop} {Good : Place → Prop}
    (opens : ∀ place : Place, place.Open → Good place)
    (last : ∀ {cs field : List Char} {p : Progress}, Last cs field → p.Fresh →
      ∃ place, cs.foldl step p = { p with place := place, field := field.reverse } ∧
        (Good place ∨ cs = [] ∧ place = .rowStart))
    {cs : List Char} {row : List String} (spells : SpellsRow Last cs row) {p : Progress}
    (fresh : p.Fresh) :
    (cs.foldl step p).endRow = ⟨.rowStart, (p.fields.reverse ++ row) :: p.rows, [], []⟩ ∧
      (cs ≠ [] → Good (cs.foldl step p).place) := by
  induction spells generalizing p with
  | @last cs field spells =>
    obtain ⟨place, folded, ended⟩ := last spells fresh
    rw [folded]
    refine ⟨by simp [endRow, endField], fun visible => ?_⟩
    exact ended.resolve_right fun empty => visible empty.1
  | @more cs rest field fields spells _ ih =>
    obtain ⟨place, folded, ended⟩ := foldl_field spells fresh
    have completed : (cs ++ ',' :: rest).foldl step p =
        rest.foldl step ⟨.fieldStart, p.rows, field :: p.fields, []⟩ := by
      rw [List.foldl_append, folded, List.foldl_cons, step_comma (ended.imp id fun h => h.2)]
      simp [endField]
    obtain ⟨row, opened⟩ := @ih ⟨.fieldStart, p.rows, field :: p.fields, []⟩ ⟨.inr rfl, rfl⟩
    rw [completed]
    refine ⟨by simp [row], fun _ => ?_⟩
    by_cases empty : rest = []
    · subst empty
      exact opens _ (.inl rfl)
    · exact opened empty

/-- Rows are completed one after another, and the end of the text completes the last one. -/
theorem foldl_rows {cs : List Char} {rows : List (List String)} (spells : SpellsRows cs rows)
    (before : List (List String)) :
    (cs.foldl step ⟨.rowStart, before, [], []⟩).finish = before.reverse ++ rows := by
  induction spells generalizing before with
  | nil => simp [finish]
  | last visible spells =>
    have fresh : Fresh ⟨.rowStart, before, [], []⟩ := ⟨.inl rfl, rfl⟩
    obtain ⟨row, ended⟩ := foldl_row (fun _ => Place.Open.ne_rowStart)
      (fun spells fresh => foldl_last spells fresh) spells fresh
    rw [finish_of_ne (ended visible), row]
    simp
  | @blank c rest rows ends _ ih =>
    have stays : step ⟨.rowStart, before, [], []⟩ c = ⟨.rowStart, before, [], []⟩ := if_pos ends
    rw [List.foldl_cons, stays, ih]
  | @more cs rest c row rows visible spells ends _ ih =>
    have fresh : Fresh ⟨.rowStart, before, [], []⟩ := ⟨.inl rfl, rfl⟩
    obtain ⟨completed, opened⟩ := foldl_row (fun _ opens => opens)
      (fun spells fresh => foldl_field spells fresh) spells fresh
    rw [List.foldl_append, List.foldl_cons, step_lineEnd (opened visible) ends, completed, ih]
    simp

end Progress

/-! ## Tables -/

theorem rows_marked {text : String} {cs : List Char} (chars : text.toList = byteOrderMark :: cs) :
    Table.rows text = (cs.foldl Progress.step {}).finish := by
  unfold Table.rows
  rw [chars]
  rfl

theorem rows_unmarked {text : String} (unmarked : text.toList.head? ≠ some byteOrderMark) :
    Table.rows text = (text.toList.foldl Progress.step {}).finish := by
  unfold Table.rows
  cases chars : text.toList with
  | nil => rfl
  | cons c cs =>
    rw [chars] at unmarked
    dsimp only
    rw [if_neg fun mark => unmarked (congrArg some mark)]

/-- A text is read as the rows that it spells. -/
theorem rows_of_spells {text : String} {rows : List (List String)} (spells : Spells text rows) :
    Table.rows text = rows := by
  obtain ⟨mark, body, chars, marked, spelled⟩ := spells
  have read : (body.foldl Progress.step {}).finish = rows := Progress.foldl_rows spelled []
  rcases marked with rfl | ⟨rfl, unmarked⟩
  · exact (rows_marked chars).trans read
  · rw [List.nil_append] at chars
    rw [← chars] at unmarked read
    exact (rows_unmarked unmarked).trans read

/-- A text spells the rows that it is read as, and no others. -/
theorem spells_iff {text : String} {rows : List (List String)} :
    Spells text rows ↔ Table.rows text = rows := by
  refine ⟨rows_of_spells, ?_⟩
  rintro rfl
  obtain ⟨rows, spells⟩ := spells_some text
  rwa [rows_of_spells spells]

end Nearby.Table
