/-
Records from their entries. Both formats give the values of a record under its keys; they differ in
what stands for a text, a number and nothing. The entries describe a record if each of them can be
part of one and no field is missing that must be there; else they have one flaw, that of the first
entry that cannot, or the first field that is missing. A record is read back from its entries in
either format, whatever their order is and whatever else is entered under other keys.
-/
import Nearby.Dataset.Record
import Nearby.Proofs.Json.Spelling
import Mathlib.Data.List.Forall2

namespace Nearby

open Time

/-! ## Lists with keys -/

section Keyed

variable {κ α : Type} [BEq κ] [LawfulBEq κ] {entries : List (κ × α)} {key : κ}

/-- Where no key comes twice, an entry is found under its key. -/
theorem lookup_of_mem (distinct : (entries.map Prod.fst).Nodup) {a : α}
    (mem : (key, a) ∈ entries) : entries.lookup key = some a := by
  induction entries with
  | nil => cases mem
  | cons entry rest ih =>
    obtain ⟨other, b⟩ := entry
    obtain ⟨fresh, distinct⟩ := List.nodup_cons.1 distinct
    rcases List.mem_cons.1 mem with same | mem
    · cases same
      exact List.lookup_cons_self
    · have differ : key ≠ other := fun same => fresh (List.mem_map.2 ⟨_, mem, same⟩)
      rw [List.lookup_cons, beq_eq_false_iff_ne.2 differ]
      exact ih distinct mem

theorem mem_of_lookup {a : α} (found : entries.lookup key = some a) : (key, a) ∈ entries := by
  obtain ⟨before, after, rfl, -⟩ := List.lookup_eq_some_iff.1 found
  simp

end Keyed

/-! ## Steps that may fail -/

section Traversal

variable {α β ε : Type}

theorem bind_eq_ok_iff {x : Except ε α} {f : α → Except ε β} {b : β} :
    x >>= f = .ok b ↔ ∃ a, x = .ok a ∧ f a = .ok b := by
  cases x <;> simp [bind, Except.bind]

theorem bind_eq_error_iff {x : Except ε α} {f : α → Except ε β} {e : ε} :
    x >>= f = .error e ↔ x = .error e ∨ ∃ a, x = .ok a ∧ f a = .error e := by
  cases x <;> simp [bind, Except.bind]

theorem mapError_eq_ok_iff {x : Except ε α} {g : ε → β} {a : α} :
    x.mapError g = .ok a ↔ x = .ok a := by
  cases x <;> simp [Except.mapError]

theorem mapError_eq_error_iff {x : Except ε α} {g : ε → β} {e : β} :
    x.mapError g = .error e ↔ ∃ e', x = .error e' ∧ g e' = e := by
  cases x <;> simp [Except.mapError]

/-- A fold that fails does so at the first element that does. -/
theorem foldlM_eq_error_iff {f : β → α → Except ε β} {l : List α} {b : β} {e : ε} :
    l.foldlM f b = .error e ↔ ∃ before a after c, l = before ++ a :: after ∧
      before.foldlM f b = .ok c ∧ f c a = .error e := by
  constructor
  · induction l generalizing b with
    | nil => intro h; cases h
    | cons a l ih =>
      intro h
      rw [List.foldlM_cons] at h
      rcases bind_eq_error_iff.1 h with here | ⟨b', here, later⟩
      · exact ⟨[], a, l, b, rfl, rfl, here⟩
      · obtain ⟨before, a', after, c, rfl, fine, fails⟩ := ih later
        exact ⟨a :: before, a', after, c, rfl, bind_eq_ok_iff.2 ⟨b', here, fine⟩, fails⟩
  · rintro ⟨before, a, after, c, rfl, fine, fails⟩
    rw [List.foldlM_append, fine]
    show (a :: after).foldlM f c = _
    rw [List.foldlM_cons, fails]
    rfl

/-- There is one first element without a property. -/
theorem eq_of_first {p : α → Prop} {early early' late late' : List α} {a a' : α}
    (same : early ++ a :: late = early' ++ a' :: late') (have_it : ∀ b ∈ early, p b) (first : ¬ p a)
    (have_it' : ∀ b ∈ early', p b) (first' : ¬ p a') : a = a' := by
  induction early generalizing early' with
  | nil =>
    cases early' with
    | nil => exact (List.cons_eq_cons.1 same).1
    | cons b early' =>
      obtain ⟨rfl, -⟩ := List.cons_eq_cons.1 same
      exact absurd (have_it' _ List.mem_cons_self) first
  | cons b early ih =>
    obtain ⟨has, have_it⟩ := List.forall_mem_cons.1 have_it
    cases early' with
    | nil =>
      obtain ⟨rfl, -⟩ := List.cons_eq_cons.1 same
      exact absurd has first'
    | cons c early' =>
      exact ih (List.cons_eq_cons.1 same).2 have_it (List.forall_mem_cons.1 have_it').2

variable {f : α → Except ε β}

/-- A traversal that succeeds is pointwise. -/
theorem mapM_eq_ok_iff {l : List α} {m : List β} :
    l.mapM f = .ok m ↔ List.Forall₂ (fun a b => f a = .ok b) l m := by
  induction l generalizing m with
  | nil =>
    rw [List.forall₂_nil_left_iff]
    exact ⟨fun h => (Except.ok.inj h).symm, fun h => h ▸ rfl⟩
  | cons a l ih =>
    rw [List.mapM_cons, List.forall₂_cons_left_iff]
    simp only [bind_eq_ok_iff, pure, Except.pure, Except.ok.injEq, ih]
    constructor
    · rintro ⟨b, here, bs, each, rfl⟩
      exact ⟨b, bs, here, each, rfl⟩
    · rintro ⟨b, bs, here, each, rfl⟩
      exact ⟨b, here, bs, each, rfl⟩

/-- A traversal that fails does so at the first element that does. -/
theorem mapM_eq_error_iff {l : List α} {e : ε} :
    l.mapM f = .error e ↔ ∃ before a after, l = before ++ a :: after ∧
      (∀ b ∈ before, ∃ c, f b = .ok c) ∧ f a = .error e := by
  constructor
  · induction l with
    | nil => intro h; cases h
    | cons a l ih =>
      intro h
      rw [List.mapM_cons] at h
      rcases bind_eq_error_iff.1 h with here | ⟨b, here, later⟩
      · exact ⟨[], a, l, rfl, nofun, here⟩
      · rcases bind_eq_error_iff.1 later with rest | ⟨_, _, ends⟩
        · obtain ⟨before, a', after, rfl, fine, fails⟩ := ih rest
          exact ⟨a :: before, a', after, rfl, List.forall_mem_cons.2 ⟨⟨b, here⟩, fine⟩, fails⟩
        · cases ends
  · rintro ⟨before, a, after, rfl, fine, fails⟩
    induction before with
    | nil => rw [List.nil_append, List.mapM_cons, fails]; rfl
    | cons b before ih =>
      obtain ⟨⟨c, here⟩, fine⟩ := List.forall_mem_cons.1 fine
      rw [List.cons_append, List.mapM_cons, here, ih fine]
      rfl

theorem forall_mem_zipIdx (p : α → Prop) {l : List α} {k : Nat} :
    (∀ q ∈ l.zipIdx k, p q.1) ↔ ∀ a ∈ l, p a := by
  rw [← List.forall_mem_map, List.zipIdx_map_fst]

/-- So does one that numbers the elements. -/
theorem mapM_zipIdx_eq_error_iff {f : α × Nat → Except ε β} {l : List α} {k : Nat} {e : ε} :
    (l.zipIdx k).mapM f = .error e ↔ ∃ before a after, l = before ++ a :: after ∧
      (∀ p ∈ before.zipIdx k, ∃ c, f p = .ok c) ∧ f (a, k + before.length) = .error e := by
  rw [mapM_eq_error_iff]
  constructor
  · rintro ⟨_, _, _, split, fine, fails⟩
    obtain ⟨before, rest, rfl, rfl, later⟩ := List.zipIdx_eq_append_iff.1 split
    obtain ⟨a, after, rfl, rfl, -⟩ := List.zipIdx_eq_cons_iff.1 later.symm
    exact ⟨before, a, after, rfl, fine, fails⟩
  · rintro ⟨before, a, after, rfl, fine, fails⟩
    rw [List.zipIdx_append, List.zipIdx_cons]
    exact ⟨_, _, _, rfl, fine, fails⟩

end Traversal

/-! ## Keys of fields -/

namespace Field

theorem ofKey_key (field : Field) : ofKey field.key = some field := by
  cases field <;> decide

theorem key_of_ofKey {key : String} {field : Field} (named : ofKey key = some field) :
    field.key = key := by
  unfold ofKey at named
  have same := List.find?_some named
  exact of_decide_eq_true same

theorem key_injective {field other : Field} (same : field.key = other.key) : field = other := by
  have named := ofKey_key field
  rw [same, ofKey_key] at named
  exact (Option.some.inj named).symm

/-- The fields that a record must have, in order. -/
def required : List Field := [.id, .name, .latitude, .longitude, .kind]

end Field

/-- The decoder accepts those values of a field that are read so. -/
def Decoder.Reads {α β : Type} (decoder : Decoder α) (field : Field) (read : α → Option β) : Prop :=
  ∀ value, decoder.accepts field value = (read value).isSome

namespace Record

/-! ## What entries say -/

section Entries

variable {α β : Type}

section Gives

variable (entries : List (Option String × α)) (field : Field)

/-- The value is entered for the field. -/
def Gives (value : α) : Prop := (some field.key, value) ∈ entries

/-- Nothing is entered for the field. -/
def Absent : Prop := ∀ value, ¬ Gives entries field value

variable (read : α → Option β)

/-- What is entered for the field is read so. -/
def Stated (b : β) : Prop := ∃ value, Gives entries field value ∧ read value = some b

/-- What is entered for the field is read so, or nothing is and it is the default. -/
def StatedOr (default b : β) : Prop :=
  Stated entries field read b ∨ Absent entries field ∧ b = default

end Gives

variable (decoder : Decoder α)

/-- Each entry can be part of a record: it has a key, no field comes twice, and each field has a
value that it may have. -/
structure Readable (entries : List (Option String × α)) : Prop where
  keyed : ∀ entry ∈ entries, entry.1 ≠ none
  distinct : entries.Pairwise fun a b => ∀ field : Field, a.1 = some field.key →
    b.1 ≠ some field.key
  accepted : ∀ field value, Gives entries field value → decoder.accepts field value = true

/-- The record has the values that are entered. An address that is not entered is empty, a status
that is not entered is active, and a moment that is not entered is absent. -/
structure Describes (entries : List (Option String × α)) (r : Record) : Prop where
  readable : Readable decoder entries
  id : Stated entries .id decoder.text r.id
  name : Stated entries .name decoder.text r.name
  latitude : Stated entries .latitude decoder.number r.place.latitude
  longitude : Stated entries .longitude decoder.number r.place.longitude
  kind : Stated entries .kind decoder.kind r.kind
  address : StatedOr entries .address decoder.text "" r.address
  status : StatedOr entries .status decoder.status .active r.status
  createdAt : StatedOr entries .createdAt decoder.moment none r.createdAt
  updatedAt : StatedOr entries .updatedAt decoder.moment none r.updatedAt

/-- The entry can be part of a record with those before it. -/
def Fits (before : List (Option String × α)) (entry : Option String × α) : Prop :=
  entry.1 ≠ none ∧ ∀ field : Field, entry.1 = some field.key →
    Absent before field ∧ decoder.accepts field entry.2 = true

/-- What is wrong with an entry that cannot. -/
inductive Spoils (before : List (Option String × α)) : Option String × α → RecordFlaw → Prop where
  | form {value : α} : Spoils before (none, value) .form
  | repeated {field : Field} {value : α} : ¬ Absent before field →
      Spoils before (some field.key, value) (.repeated field.key)
  | invalid {field : Field} {value : α} : Absent before field →
      decoder.accepts field value = false →
      Spoils before (some field.key, value) (.invalid field.key)

/-- The first thing that is wrong with the entries. -/
inductive Flawed : List (Option String × α) → RecordFlaw → Prop where
  /-- An entry cannot be part of a record with those before it. -/
  | entry {before after : List (Option String × α)} {entry : Option String × α}
      {flaw : RecordFlaw} : Readable decoder before → Spoils decoder before entry flaw →
      Flawed (before ++ entry :: after) flaw
  /-- All can, but a field is missing. -/
  | missing {entries : List (Option String × α)} {early late : List Field} {field : Field} :
      Readable decoder entries → Field.required = early ++ field :: late →
      (∀ other ∈ early, ¬ Absent entries other) → Absent entries field →
      Flawed entries (.missing field.key)

/-! ## Entering values -/

/-- The values that are entered for fields, last one first. -/
def givenIn (entries : List (Option String × α)) : List (Field × α) :=
  (entries.filterMap fun entry => (entry.1.bind Field.ofKey).map (·, entry.2)).reverse

variable {decoder} {entries : List (Option String × α)}

theorem mem_givenIn {field : Field} {value : α} :
    (field, value) ∈ givenIn entries ↔ Gives entries field value := by
  unfold givenIn Gives
  rw [List.mem_reverse, List.mem_filterMap]
  constructor
  · rintro ⟨⟨key, value'⟩, mem, found⟩
    obtain ⟨field', named, same⟩ := Option.map_eq_some_iff.1 found
    obtain ⟨key', rfl, named⟩ := Option.bind_eq_some_iff.1 named
    cases same
    rwa [← Field.key_of_ofKey named] at mem
  · intro mem
    exact ⟨_, mem, by simp [Field.ofKey_key]⟩

theorem readable_nil : Readable decoder [] := ⟨nofun, .nil, nofun⟩

theorem readable_append {entry : Option String × α} : Readable decoder (entries ++ [entry]) ↔
    Readable decoder entries ∧ Fits decoder entries entry := by
  constructor
  · rintro ⟨keyed, distinct, accepted⟩
    rw [List.pairwise_append] at distinct
    refine ⟨⟨fun e mem => keyed e (List.mem_append_left _ mem), distinct.1,
      fun field value gives => accepted field value (List.mem_append_left _ gives)⟩,
      keyed entry (by simp), fun field is => ⟨fun value gives => ?_, accepted field _ ?_⟩⟩
    · exact distinct.2.2 _ gives entry (by simp) field rfl is
    · unfold Gives
      rw [← is]
      simp
  · rintro ⟨⟨keyed, distinct, accepted⟩, key, new⟩
    refine ⟨fun e mem => ?_, ?_, fun field value gives => ?_⟩
    · rcases List.mem_append.1 mem with mem | last
      · exact keyed e mem
      · rwa [List.mem_singleton.1 last]
    · refine List.pairwise_append.2 ⟨distinct, List.pairwise_singleton .., ?_⟩
      intro e mem e' last field is is'
      rw [List.mem_singleton.1 last] at is'
      exact (new field is').1 e.2 (by unfold Gives; rw [← is]; exact mem)
    · rcases List.mem_append.1 gives with mem | last
      · exact accepted field value mem
      · have is := List.mem_singleton.1 last
        rw [← is] at new
        exact (new field rfl).2

theorem lookup_givenIn_eq_none {field : Field} :
    (givenIn entries).lookup field = none ↔ Absent entries field := by
  rw [List.lookup_eq_none_iff]
  constructor
  · intro none value gives
    simpa using none _ (mem_givenIn.2 gives)
  · rintro absent ⟨other, value⟩ mem
    refine bne_iff_ne.2 ?_
    rintro rfl
    exact absent value (mem_givenIn.1 mem)

theorem givenIn_append (entry : Option String × α) : givenIn (entries ++ [entry]) =
    ((entry.1.bind Field.ofKey).map (·, entry.2)).toList ++ givenIn entries := by
  unfold givenIn
  rw [List.filterMap_append, List.reverse_append, List.filterMap_cons, List.filterMap_nil]
  cases entry.1.bind Field.ofKey <;> rfl

theorem enter_of_spoils {entry : Option String × α} {flaw : RecordFlaw}
    (spoils : Spoils decoder entries entry flaw) :
    enter decoder (givenIn entries) entry = .error flaw := by
  cases spoils with
  | form => rfl
  | repeated again =>
    have given := Option.isSome_iff_ne_none.2 fun none => again (lookup_givenIn_eq_none.1 none)
    simp [enter, Field.ofKey_key, given]
  | invalid absent refused =>
    simp [enter, Field.ofKey_key, lookup_givenIn_eq_none.2 absent, refused]

theorem enter_of_fits {entry : Option String × α} (fits : Fits decoder entries entry) :
    enter decoder (givenIn entries) entry = .ok (givenIn (entries ++ [entry])) := by
  obtain ⟨key, value⟩ := entry
  rw [givenIn_append]
  cases key with
  | none => exact absurd rfl fits.1
  | some key =>
    cases named : Field.ofKey key with
    | none => simp [enter, named]
    | some field =>
      obtain rfl := Field.key_of_ofKey named
      obtain ⟨absent, accepted⟩ := fits.2 field rfl
      simp [enter, named, lookup_givenIn_eq_none.2 absent, accepted]

variable (decoder entries) in
/-- An entry fits, or something is wrong with it. -/
theorem fits_or_spoils (entry : Option String × α) :
    Fits decoder entries entry ∨ ∃ flaw, Spoils decoder entries entry flaw := by
  obtain ⟨key, value⟩ := entry
  cases key with
  | none => exact .inr ⟨_, .form⟩
  | some key =>
    cases named : Field.ofKey key with
    | none =>
      refine .inl ⟨nofun, fun field is => ?_⟩
      rw [Option.some.inj is, Field.ofKey_key] at named
      cases named
    | some field =>
      obtain rfl := Field.key_of_ofKey named
      by_cases absent : Absent entries field
      · cases accepted : decoder.accepts field value with
        | false => exact .inr ⟨_, .invalid absent accepted⟩
        | true =>
          refine .inl ⟨nofun, fun other is => ?_⟩
          rw [← Field.key_injective (Option.some.inj is)]
          exact ⟨absent, accepted⟩
      · exact .inr ⟨_, .repeated absent⟩

theorem enter_eq_ok_iff {entry : Option String × α} {given : List (Field × α)} :
    enter decoder (givenIn entries) entry = .ok given ↔
      Fits decoder entries entry ∧ given = givenIn (entries ++ [entry]) := by
  constructor
  · intro entered
    rcases fits_or_spoils decoder entries entry with fits | ⟨_, spoils⟩
    · rw [enter_of_fits fits] at entered
      exact ⟨fits, (Except.ok.inj entered).symm⟩
    · rw [enter_of_spoils spoils] at entered
      cases entered
  · rintro ⟨fits, rfl⟩
    exact enter_of_fits fits

theorem enter_eq_error_iff {entry : Option String × α} {flaw : RecordFlaw} :
    enter decoder (givenIn entries) entry = .error flaw ↔ Spoils decoder entries entry flaw := by
  refine ⟨fun refused => ?_, enter_of_spoils⟩
  rcases fits_or_spoils decoder entries entry with fits | ⟨_, spoils⟩
  · rw [enter_of_fits fits] at refused
    cases refused
  · rw [enter_of_spoils spoils] at refused
    rwa [← Except.error.inj refused]

/-- Entries are entered one after another as long as they can be part of a record. -/
theorem foldlM_enter_eq_ok_iff {given : List (Field × α)} :
    entries.foldlM (enter decoder) [] = .ok given ↔
      Readable decoder entries ∧ given = givenIn entries := by
  induction entries using List.reverseRecOn generalizing given with
  | nil => exact ⟨fun same => ⟨readable_nil, (Except.ok.inj same).symm⟩, fun h => h.2 ▸ rfl⟩
  | append_singleton entries entry ih =>
    have last : [entry].foldlM (enter decoder) (givenIn entries) =
        enter decoder (givenIn entries) entry := by
      simp
    rw [List.foldlM_append, readable_append, bind_eq_ok_iff]
    constructor
    · rintro ⟨given', before, entered⟩
      obtain ⟨readable, rfl⟩ := ih.1 before
      obtain ⟨fits, same⟩ := enter_eq_ok_iff.1 (last.symm.trans entered)
      exact ⟨⟨readable, fits⟩, same⟩
    · rintro ⟨⟨readable, fits⟩, rfl⟩
      exact ⟨_, ih.2 ⟨readable, rfl⟩, last.trans (enter_of_fits fits)⟩

/-! ## Records -/

theorem lookup_givenIn (readable : Readable decoder entries) {field : Field} {value : α} :
    (givenIn entries).lookup field = some value ↔ Gives entries field value := by
  refine ⟨fun found => mem_givenIn.1 (mem_of_lookup found), fun gives => ?_⟩
  cases found : (givenIn entries).lookup field with
  | none => exact absurd gives (lookup_givenIn_eq_none.1 found value)
  | some other =>
    have gives' : Gives entries field other := mem_givenIn.1 (mem_of_lookup found)
    have symmetric : Std.Symm fun a b : Option String × α => ∀ field : Field,
        a.1 = some field.key → b.1 ≠ some field.key :=
      ⟨fun a b apart field is is' => apart field is' is⟩
    by_contra differ
    have apart : ((some field.key, value) : Option String × α) ≠ (some field.key, other) :=
      fun same => differ (congrArg some (Prod.ext_iff.1 same).2.symm)
    exact readable.distinct.forall gives gives' apart field rfl rfl

section Value

variable (readable : Readable decoder entries) {read : α → Option β} {field : Field}
include readable

theorem value?_eq_some_iff {b : β} :
    value? read (givenIn entries) field = some b ↔ Stated entries field read b := by
  unfold value? Stated
  rw [Option.bind_eq_some_iff]
  simp only [lookup_givenIn readable]

theorem required_eq_ok_iff {b : β} :
    required read (givenIn entries) field = .ok b ↔ Stated entries field read b := by
  rw [← value?_eq_some_iff readable]
  unfold required
  cases value? read (givenIn entries) field <;> simp

variable (reads : decoder.Reads field read)
include reads

theorem value?_eq_none_iff : value? read (givenIn entries) field = none ↔ Absent entries field := by
  rw [← lookup_givenIn_eq_none]
  unfold value?
  cases found : (givenIn entries).lookup field with
  | none => simp
  | some value =>
    have accepted := readable.accepted field value ((lookup_givenIn readable).1 found)
    rw [reads] at accepted
    simpa [Option.isSome_iff_ne_none] using accepted

theorem getD_value?_iff {default b : β} : (value? read (givenIn entries) field).getD default = b ↔
    StatedOr entries field read default b := by
  unfold StatedOr
  rw [← value?_eq_some_iff readable, ← value?_eq_none_iff readable reads]
  cases value? read (givenIn entries) field <;> simp [eq_comm]

theorem required_eq_error_iff {flaw : RecordFlaw} :
    required read (givenIn entries) field = .error flaw ↔
      Absent entries field ∧ .missing field.key = flaw := by
  rw [← value?_eq_none_iff readable reads]
  unfold required
  cases value? read (givenIn entries) field <;> simp

end Value

theorem ofGiven_eq_ok_iff (readable : Readable decoder entries) {r : Record} :
    ofGiven decoder (givenIn entries) = .ok r ↔ Describes decoder entries r := by
  have address : ∀ {s}, (value? decoder.text (givenIn entries) .address).getD "" = s ↔
      StatedOr entries .address decoder.text "" s :=
    getD_value?_iff readable fun _ => rfl
  have status : ∀ {s}, (value? decoder.status (givenIn entries) .status).getD .active = s ↔
      StatedOr entries .status decoder.status .active s :=
    getD_value?_iff readable fun _ => rfl
  have createdAt : ∀ {t}, (value? decoder.moment (givenIn entries) .createdAt).getD none = t ↔
      StatedOr entries .createdAt decoder.moment none t :=
    getD_value?_iff readable fun _ => rfl
  have updatedAt : ∀ {t}, (value? decoder.moment (givenIn entries) .updatedAt).getD none = t ↔
      StatedOr entries .updatedAt decoder.moment none t :=
    getD_value?_iff readable fun _ => rfl
  unfold ofGiven
  simp only [bind_eq_ok_iff, pure, Except.pure, Except.ok.injEq, required_eq_ok_iff readable]
  constructor
  · rintro ⟨id, hid, name, hname, lat, hlat, lon, hlon, kind, hkind, rfl⟩
    exact ⟨readable, hid, hname, hlat, hlon, hkind, address.1 rfl, status.1 rfl, createdAt.1 rfl,
      updatedAt.1 rfl⟩
  · intro h
    refine ⟨_, h.id, _, h.name, _, h.latitude, _, h.longitude, _, h.kind, ?_⟩
    rw [address.2 h.address, status.2 h.status, createdAt.2 h.createdAt, updatedAt.2 h.updatedAt]

theorem Stated.present {read : α → Option β} {field : Field} {b : β}
    (stated : Stated entries field read b) : ¬ Absent entries field :=
  fun absent => stated.elim fun value h => absent value h.1

/-- A record has all that it must have. -/
theorem Describes.present {r : Record} (describes : Describes decoder entries r) {field : Field}
    (must : field ∈ Field.required) : ¬ Absent entries field := by
  simp only [Field.required, List.mem_cons, List.not_mem_nil, or_false] at must
  rcases must with rfl | rfl | rfl | rfl | rfl
  exacts [describes.id.present, describes.name.present, describes.latitude.present,
    describes.longitude.present, describes.kind.present]

theorem missing_of_ofGiven (readable : Readable decoder entries) {flaw : RecordFlaw}
    (refused : ofGiven decoder (givenIn entries) = .error flaw) : ∃ early late field,
      Field.required = early ++ field :: late ∧ (∀ other ∈ early, ¬ Absent entries other) ∧
        Absent entries field ∧ .missing field.key = flaw := by
  have id : required decoder.text (givenIn entries) .id = .error flaw ↔ _ :=
    required_eq_error_iff readable fun _ => rfl
  have name : required decoder.text (givenIn entries) .name = .error flaw ↔ _ :=
    required_eq_error_iff readable fun _ => rfl
  have latitude : required decoder.number (givenIn entries) .latitude = .error flaw ↔ _ :=
    required_eq_error_iff readable fun _ => rfl
  have longitude : required decoder.number (givenIn entries) .longitude = .error flaw ↔ _ :=
    required_eq_error_iff readable fun _ => rfl
  have kind : required decoder.kind (givenIn entries) .kind = .error flaw ↔ _ :=
    required_eq_error_iff readable fun _ => rfl
  unfold ofGiven at refused
  simp only [bind_eq_error_iff, required_eq_ok_iff readable, id, name, latitude, longitude, kind,
    pure, Except.pure, reduceCtorEq, and_false, exists_false, or_false] at refused
  rcases refused with ⟨absent, rfl⟩ | ⟨_, hid, ⟨absent, rfl⟩ | ⟨_, hname, ⟨absent, rfl⟩ |
    ⟨_, hlat, ⟨absent, rfl⟩ | ⟨_, hlon, absent, rfl⟩⟩⟩⟩
  · exact ⟨[], _, _, rfl, nofun, absent, rfl⟩
  · exact ⟨[_], _, _, rfl, by simpa using hid.present, absent, rfl⟩
  · exact ⟨[_, _], _, _, rfl, by simpa using ⟨hid.present, hname.present⟩, absent, rfl⟩
  · exact ⟨[_, _, _], _, _, rfl, by simpa using ⟨hid.present, hname.present, hlat.present⟩,
      absent, rfl⟩
  · exact ⟨[_, _, _, _], _, _, rfl,
      by simpa using ⟨hid.present, hname.present, hlat.present, hlon.present⟩, absent, rfl⟩

/-- A record is refused for the first field that it must have and does not. -/
theorem ofGiven_of_missing (readable : Readable decoder entries) {early late : List Field}
    {field : Field} (split : Field.required = early ++ field :: late)
    (present : ∀ other ∈ early, ¬ Absent entries other) (absent : Absent entries field) :
    ofGiven decoder (givenIn entries) = .error (.missing field.key) := by
  cases made : ofGiven decoder (givenIn entries) with
  | ok r =>
    have must : field ∈ Field.required := by rw [split]; simp
    exact absurd absent (((ofGiven_eq_ok_iff readable).1 made).present must)
  | error flaw =>
    obtain ⟨early', late', field', split', present', absent', rfl⟩ :=
      missing_of_ofGiven readable made
    rw [eq_of_first (split.symm.trans split') present (not_not.2 absent) present'
      (not_not.2 absent')]

/-- Where nothing is wrong and nothing is missing, the entries describe a record. -/
theorem exists_describes (readable : Readable decoder entries)
    (present : ∀ field ∈ Field.required, ¬ Absent entries field) :
    ∃ r, Describes decoder entries r := by
  cases made : ofGiven decoder (givenIn entries) with
  | ok r => exact ⟨r, (ofGiven_eq_ok_iff readable).1 made⟩
  | error flaw =>
    obtain ⟨early, late, field, split, -, absent, -⟩ := missing_of_ofGiven readable made
    exact absurd absent (present field (by rw [split]; simp))

theorem ofEntries_eq_ok_iff {r : Record} :
    ofEntries decoder entries = .ok r ↔ Describes decoder entries r := by
  unfold ofEntries
  rw [bind_eq_ok_iff]
  constructor
  · rintro ⟨given, entered, made⟩
    obtain ⟨readable, rfl⟩ := foldlM_enter_eq_ok_iff.1 entered
    exact (ofGiven_eq_ok_iff readable).1 made
  · intro describes
    exact ⟨_, foldlM_enter_eq_ok_iff.2 ⟨describes.readable, rfl⟩,
      (ofGiven_eq_ok_iff describes.readable).2 describes⟩

theorem ofEntries_eq_error_iff {flaw : RecordFlaw} :
    ofEntries decoder entries = .error flaw ↔ Flawed decoder entries flaw := by
  unfold ofEntries
  rw [bind_eq_error_iff, foldlM_eq_error_iff]
  constructor
  · rintro (⟨before, entry, after, given, rfl, entered, refused⟩ | ⟨given, entered, refused⟩)
    · obtain ⟨readable, rfl⟩ := foldlM_enter_eq_ok_iff.1 entered
      exact .entry readable (enter_eq_error_iff.1 refused)
    · obtain ⟨readable, rfl⟩ := foldlM_enter_eq_ok_iff.1 entered
      obtain ⟨early, late, field, split, present, absent, rfl⟩ :=
        missing_of_ofGiven readable refused
      exact .missing readable split present absent
  · rintro (⟨readable, spoils⟩ | ⟨readable, split, present, absent⟩)
    · exact .inl ⟨_, _, _, _, rfl, foldlM_enter_eq_ok_iff.2 ⟨readable, rfl⟩,
        enter_of_spoils spoils⟩
    · exact .inr ⟨_, foldlM_enter_eq_ok_iff.2 ⟨readable, rfl⟩,
        ofGiven_of_missing readable split present absent⟩

end Entries

/-! ## Records of documents -/

section Document

variable {j : Json}

theorem ofJson_eq_ok_iff {r : Record} : Record.ofJson j = .ok r ↔
    ∃ entries, entries? j = some entries ∧ Describes .json entries r := by
  unfold Record.ofJson
  cases entries? j with
  | none => simp
  | some entries => simp [ofEntries_eq_ok_iff]

theorem ofJson_eq_error_iff {flaw : RecordFlaw} : Record.ofJson j = .error flaw ↔
    entries? j = none ∧ flaw = .form ∨
      ∃ entries, entries? j = some entries ∧ Flawed .json entries flaw := by
  unfold Record.ofJson
  cases entries? j with
  | none => simp [eq_comm]
  | some entries => simp [ofEntries_eq_error_iff]

end Document

end Record

end Nearby
