/-
Building tables. An entry is added under a path of keys; the tables on the way are made where
they are missing, and entered where their form allows it.
-/
import Nearby.Toml.Value

namespace Nearby.Toml

/-! ## Descending -/

/-- A table under construction. -/
abbrev Draft := TableForm × Entries

/-- A table of the given form may be passed on the way to an entry. A dotted key passes only
tables that no header has defined. -/
def mayPass (dotted : Bool) (form : TableForm) : Bool :=
  match form with
  | .inline => false
  | .header => ! dotted
  | .implicit => true
  | .dotted => true

/-- Changes the table at the end of a path. Arrays of tables are entered at their last table. -/
def changeAt (dotted : Bool) (change : Draft → Option Draft) : List String → Draft → Option Draft
  | [], draft => change draft
  | key :: path, (form, entries) => do
    let changed ← match entries.lookup key with
      | none => do
        let (inner, innerEntries) ←
          changeAt dotted change path (if dotted then .dotted else .implicit, [])
        pure (Toml.table inner innerEntries)
      | some (.table inner innerEntries) =>
        if mayPass dotted inner then do
          let (inner, innerEntries) ← changeAt dotted change path (inner, innerEntries)
          pure (Toml.table inner innerEntries)
        else none
      | some (.tables items) =>
        match items.reverse with
        | .table inner innerEntries :: before => do
          let (inner, innerEntries) ← changeAt dotted change path (inner, innerEntries)
          pure (Toml.tables (Toml.table inner innerEntries :: before).reverse)
        | _ => none
      | some _ => none
    return (form, put key changed entries)

/-! ## Adding -/

/-- An entry as it is written: the path of its key, the key's last part, and the value. -/
structure Assignment where
  path : List String
  key : String
  value : Toml

/-- Adds an entry to a table. A key that is there already is refused, and so is a dotted key into
a table that was not made by dotted keys. -/
def assign (draft : Draft) (a : Assignment) : Option Draft :=
  let dotted := ! a.path.isEmpty
  changeAt dotted (fun (form, entries) =>
    if (form = .dotted) ≠ (dotted = true) then none
    else if (entries.lookup a.key).isSome then none
    else some (form, put a.key a.value entries)) a.path draft

/-- A table in braces with the given entries. -/
def ofAssignments (assignments : List Assignment) : Option Toml := do
  let (form, entries) ← assignments.foldlM assign (.inline, [])
  return .table form entries

/-! ## Sections -/

/-- A header with the entries below it. -/
structure Section where
  /-- The header opens a further table of an array. -/
  inArray : Bool
  path : List String
  key : String
  assignments : List Assignment

/-- The table of a section, begun with the entries that its place already has. -/
def Section.toTable (s : Section) (entries : Entries) : Option Toml := do
  let (form, entries) ← s.assignments.foldlM assign (.header, entries)
  return .table form entries

/-- The value that a section leaves where the given one was. A table is opened by a header once;
before that it may have been passed on the way to others. -/
def Section.placed (s : Section) (old : Option Toml) : Option Toml :=
  if s.inArray then match old with
    | none => do return .tables [← s.toTable []]
    | some (.tables items) => do return .tables (items ++ [← s.toTable []])
    | some _ => none
  else match old with
    | none => s.toTable []
    | some (.table .implicit entries) => s.toTable entries
    | some _ => none

/-- Adds a section to a document. -/
def addSection (draft : Draft) (s : Section) : Option Draft :=
  changeAt false (fun (form, entries) => do
    let value ← s.placed (entries.lookup s.key)
    return (form, put s.key value entries)) s.path draft

/-- The document with the given entries at its top and sections below them. -/
def ofSections (top : List Assignment) (sections : List Section) : Option Entries := do
  let draft ← top.foldlM assign (.header, [])
  let (_, entries) ← sections.foldlM addSection draft
  return entries

end Nearby.Toml
