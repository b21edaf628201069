/-
Records of an array, read as the text goes on. Over the tokens of a document the records are those
of its items, up to the first item that is no record; that item is refused for its own flaw, on a
token of it. So a flaw is the same for all documents that begin with the tokens read so far.
-/
import Nearby.Dataset.Document
import Nearby.Proofs.Dataset.Entries
import Nearby.Proofs.Json.Reading
import Mathlib.Data.List.Nodup

namespace Nearby.Dataset

open Json Record

/-! ## Steps -/

/-- The reader takes in the tokens. -/
def run (tokens : List Token) (intake : Intake) : Except DocumentFlaw Intake :=
  tokens.foldlM Intake.step intake

/-- What comes of a flaw, if there is one. -/
def outcome (records : List Record) (r : Reading) : Option RecordFlaw → Except DocumentFlaw Intake
  | some flaw => .error (.after records.length flaw)
  | none => .ok ⟨records, r⟩

/-- What comes of a complete item. -/
def itemOutcome (records : List Record) (before : List Json) (item : Json) :
    Except DocumentFlaw Intake :=
  match Record.ofJson item with
  | .ok record => .ok ⟨record :: records, .complete [.items before] item⟩
  | .error flaw => .error (.after records.length flaw)

/-- An item of the array is complete. -/
def isItem : Reading → Bool
  | .complete [_] _ => true
  | _ => false

section Run

variable {records : List Record} {token : Token} {tokens more : List Token} {r r' : Reading}
  {flaw : RecordFlaw}

theorem step_eq (stepped : r.step token = some r') (inside : isItem r' = false) :
    Intake.step ⟨records, r⟩ token = outcome records r' (flaw? r') := by
  have advanced : Intake.advance ⟨records, r⟩ r' =
      match flaw? r' with
      | some flaw => .error flaw
      | none => .ok ⟨records, r'⟩ := by
    unfold Intake.advance
    split
    · cases inside
    · rfl
  unfold Intake.step
  simp only [stepped, advanced]
  cases flaw? r' <;> rfl

/-- Where an item is complete, it is a record or refused. -/
theorem step_item {before : List Json} {item : Json}
    (stepped : r.step token = some (.complete [.items before] item)) :
    Intake.step ⟨records, r⟩ token = itemOutcome records before item := by
  unfold Intake.step itemOutcome
  simp only [stepped, Intake.advance]
  cases Record.ofJson item <;> rfl

theorem run_append {intake intake' : Intake} (first : run tokens intake = .ok intake') :
    run (tokens ++ more) intake = run more intake' := by
  unfold run at *
  rw [List.foldlM_append, first]
  rfl

theorem of_run_append {intake intake' : Intake} (all : run (tokens ++ more) intake = .ok intake') :
    ∃ between, run tokens intake = .ok between ∧ run more between = .ok intake' := by
  unfold run at all
  rw [List.foldlM_append] at all
  exact bind_eq_ok_iff.1 all

theorem of_run_cons {intake intake' : Intake} (all : run (token :: tokens) intake = .ok intake') :
    ∃ next, intake.step token = .ok next ∧ run tokens next = .ok intake' := by
  unfold run at all
  rw [List.foldlM_cons] at all
  exact bind_eq_ok_iff.1 all

theorem run_append_error {intake : Intake} {flaw : DocumentFlaw}
    (first : run tokens intake = .error flaw) : run (tokens ++ more) intake = .error flaw := by
  unfold run at *
  rw [List.foldlM_append, first]
  rfl

theorem run_cons (stepped : r.step token = some r') (inside : isItem r' = false)
    (quiet : flaw? r' = none) : run (token :: tokens) ⟨records, r⟩ = run tokens ⟨records, r'⟩ := by
  unfold run
  rw [List.foldlM_cons, step_eq stepped inside, quiet]
  rfl

theorem run_cons_flawed (stepped : r.step token = some r') (inside : isItem r' = false)
    (flawed : flaw? r' = some flaw) :
    run (token :: tokens) ⟨records, r⟩ = .error (.after records.length flaw) := by
  unfold run
  rw [List.foldlM_cons, step_eq stepped inside, flawed]
  rfl

theorem run_cons_item {before : List Json} {item : Json}
    (stepped : r.step token = some (.complete [.items before] item)) :
    run (token :: tokens) ⟨records, r⟩ = (itemOutcome records before item).bind (run tokens) := by
  unfold run
  rw [List.foldlM_cons, step_item stepped]
  rfl

theorem run_one (stepped : r.step token = some r') (inside : isItem r' = false) :
    run [token] ⟨records, r⟩ = outcome records r' (flaw? r') := by
  rw [← step_eq stepped inside]
  exact bind_pure _

/-- Nothing is known to be wrong, and no item is complete. -/
def quiet (r : Reading) : Bool := !isItem r && (flaw? r).isNone

theorem run_of_leads (leads : Leads quiet tokens r r') :
    run tokens ⟨records, r⟩ = .ok ⟨records, r'⟩ := by
  induction tokens generalizing r with
  | nil =>
    cases leads
    rfl
  | cons token tokens ih =>
    unfold Leads at leads
    rw [List.foldlM_cons] at leads
    obtain ⟨next, stepped, later⟩ := Option.bind_eq_some_iff.1 leads
    obtain ⟨stepped, allow⟩ := Option.filter_eq_some_iff.1 stepped
    simp only [quiet, Bool.and_eq_true, Bool.not_eq_true', Option.isNone_iff_eq_none] at allow
    rw [run_cons stepped allow.1 allow.2]
    exact ih later

end Run

/-! ## Values -/

/-- The field, if it is one, may have the value. -/
def Suits (field? : Option Field) (value : Json) : Prop :=
  ∀ field, field? = some field → Decoder.json.accepts field value = true

theorem valueFlaw_of_none {frame : Frame} (passed : fieldIn frame = none) (bad : Field → Bool) :
    valueFlaw frame bad = none := by
  unfold valueFlaw
  rw [passed]
  rfl

theorem valueFlaw_of_some {frame : Frame} {field : Field} (known : fieldIn frame = some field)
    (bad : Field → Bool) :
    valueFlaw frame bad = if bad field then some (.invalid field.key) else none := by
  unfold valueFlaw
  rw [known, Option.filter_some]
  split <;> rfl

/-- An array that goes on has a field for the next value. -/
theorem length_lt_of_lengthFlaw {slots : List Json} (goesOn : lengthFlaw (.items slots) = none) :
    slots.length < Field.all.length := by
  by_contra long
  have flawed : lengthFlaw (.items slots) = some .form := if_neg long
  rw [flawed] at goesOn
  cases goesOn

section Value

variable {frame : Frame} {before : List Json} {field : Field} {records : List Record}

theorem accepts_array (field : Field) (items : List Json) :
    Decoder.json.accepts field (.array items) = false := by
  cases field <;> rfl

theorem accepts_object (plain : field.isChoice = false) (members : List (List Char × Json)) :
    Decoder.json.accepts field (.object members) = false := by
  cases field <;> first | rfl | cases plain

/-- A choice may be named by the one key of an object. -/
theorem accepts_named (choice : field.isChoice = true) (key : List Char) :
    Decoder.json.accepts field (.object [(key, .null)]) =
      Decoder.json.accepts field (.string key) := by
  cases field <;> first | rfl | cases choice

theorem of_choice {α : Type} {ofName : String → Option α} {members : List (List Char × Json)}
    (named : (choice ofName (.object members)).isSome = true) :
    ∃ key, members = [(key, .null)] := by
  unfold choice at named
  split at named
  case h_1 is => cases is
  case h_2 is => cases is; exact ⟨_, rfl⟩
  case h_3 => cases named

theorem of_accepts_object {members : List (List Char × Json)}
    (accepted : Decoder.json.accepts field (.object members) = true) :
    field.isChoice = true ∧ ∃ key, members = [(key, .null)] ∧
      Decoder.json.accepts field (.string key) = true := by
  cases choice : field.isChoice with
  | false =>
    rw [accepts_object choice] at accepted
    cases accepted
  | true =>
    have single : ∃ key, members = [(key, .null)] := by
      cases field <;> first | exact of_choice accepted | cases choice
    obtain ⟨key, rfl⟩ := single
    exact ⟨rfl, key, rfl, by rwa [accepts_named choice] at accepted⟩

theorem quiet_above {members : List (List Char × Json)} {key : List Char}
    (passed : fieldIn (.member members key) = none) :
    AllowedAbove quiet [.member members key, .items before] := by
  intro r inner is
  have length := congrArg List.length is
  have inside : isItem r = false := by
    unfold isItem
    split
    · simp [Reading.stack] at length
    · rfl
  have unflawed : flaw? r = none := by
    unfold flaw?
    split
    all_goals rcases inner with - | ⟨frame, - | ⟨frame', inner⟩⟩
    all_goals first | rfl | cases is | (simp [Reading.stack] at length)
    all_goals first | rfl | exact valueFlaw_of_none passed _
  simp [quiet, inside, unflawed]

/-- What a record is not asked for may have any value. -/
theorem run_passed {members : List (List Char × Json)} {key : List Char}
    (passed : fieldIn (.member members key) = none) (value : Json) :
    run (toTokens value) ⟨records, .value [.member members key, .items before]⟩ =
      .ok ⟨records, .complete [.member members key, .items before] value⟩ :=
  run_of_leads (leads_value value (quiet_above passed))

/-! ### Fields -/

section Known

variable (known : fieldIn frame = some field)
include known

/-- A bad value is noticed by its end. -/
theorem run_refused {token : Token} {value : Json} {r : Reading} (more : List Token)
    (stepped : r.step token = some (.complete [frame, .items before] value))
    (refused : Decoder.json.accepts field value = false) :
    run (token :: more) ⟨records, r⟩ = .error (.after records.length (.invalid field.key)) := by
  refine run_cons_flawed stepped rfl ((valueFlaw_of_some known _).trans ?_)
  rw [refused]
  rfl

theorem run_accepted {token : Token} {value : Json} {r : Reading}
    (stepped : r.step token = some (.complete [frame, .items before] value))
    (accepted : Decoder.json.accepts field value = true) :
    run [token] ⟨records, r⟩ = .ok ⟨records, .complete [frame, .items before] value⟩ := by
  have quiet : flaw? (.complete [frame, .items before] value) = none :=
    (valueFlaw_of_some known _).trans (by rw [accepted]; rfl)
  rw [run_one stepped rfl, quiet]
  rfl

/-- Only null may stand beside the name of a choice. -/
theorem run_beside {value : Json} (other : value ≠ .null) (key : List Char) (more : List Token) :
    run (toTokens value ++ more) ⟨records, .value [.member [] key, frame, .items before]⟩ =
      .error (.after records.length (.invalid field.key)) := by
  have flawed : valueFlaw frame (fun _ => true) = some (.invalid field.key) :=
    valueFlaw_of_some known _
  cases value with
  | null => exact absurd rfl other
  | _ => exact run_cons_flawed rfl rfl flawed

/-- A choice is named by an object with that one key and nothing beside it. -/
theorem run_members_refused (choice : field.isChoice = true) {members : List (List Char × Json)}
    (refused : Decoder.json.accepts field (.object members) = false) :
    run (memberTokens members ++ [.closeObject]) ⟨records, .firstKey [frame, .items before]⟩ =
      .error (.after records.length (.invalid field.key)) := by
  cases members with
  | nil => exact run_refused known [] rfl refused
  | cons member rest =>
    obtain ⟨key, value⟩ := member
    have begun : ∃ more, memberTokens ((key, value) :: rest) ++ [.closeObject] =
        .string key :: .colon :: (toTokens value ++ more) ∧
          (rest ≠ [] → ∃ more', more = .comma :: more') := by
      cases rest with
      | nil => exact ⟨[.closeObject], by simp [memberTokens], fun none => absurd rfl none⟩
      | cons next rest =>
        refine ⟨.comma :: (memberTokens (next :: rest) ++ [.closeObject]), ?_, fun _ => ⟨_, rfl⟩⟩
        simp [memberTokens]
    obtain ⟨more, begun, listed⟩ := begun
    rw [begun]
    have named : flaw? (.colon [frame, .items before] [] key) =
        if !Decoder.json.accepts field (.string key) then some (.invalid field.key) else none :=
      valueFlaw_of_some known _
    cases accepted : Decoder.json.accepts field (.string key) with
    | false =>
      rw [accepted] at named
      exact run_cons_flawed rfl rfl named
    | true =>
      rw [accepted] at named
      rw [run_cons rfl rfl named, run_cons rfl rfl rfl]
      by_cases null : value = .null
      · -- the key would do, so it is not the only one
        subst null
        have several : rest ≠ [] := by
          rintro rfl
          rw [accepts_named choice, accepted] at refused
          cases refused
        obtain ⟨more', rfl⟩ := listed several
        rw [toTokens, List.cons_append, List.nil_append, run_cons rfl rfl rfl]
        exact run_cons_flawed rfl rfl (valueFlaw_of_some known _)
      · exact run_beside known null key more

theorem run_object {members : List (List Char × Json)} (choice : field.isChoice = true) :
    run (toTokens (.object members)) ⟨records, .value [frame, .items before]⟩ =
      run (memberTokens members ++ [.closeObject]) ⟨records, .firstKey [frame, .items before]⟩ := by
  have quiet : flaw? (.firstKey [frame, .items before]) = none :=
    (valueFlaw_of_some known _).trans (by rw [choice]; rfl)
  rw [toTokens]
  exact run_cons rfl rfl quiet

/-- A bad value of a field is refused on one of its tokens. -/
theorem run_value_refused {value : Json} (more : List Token)
    (refused : Decoder.json.accepts field value = false) :
    run (toTokens value ++ more) ⟨records, .value [frame, .items before]⟩ =
      .error (.after records.length (.invalid field.key)) := by
  cases value with
  | array items => exact run_cons_flawed rfl rfl (valueFlaw_of_some known _)
  | object members =>
    cases choice : field.isChoice with
    | false =>
      exact run_cons_flawed rfl rfl ((valueFlaw_of_some known _).trans (by rw [choice]; rfl))
    | true =>
      refine run_append_error ?_
      rw [run_object known choice, run_members_refused known choice refused]
  | _ => exact run_refused known more rfl refused

/-- A value that the field may have is passed. -/
theorem run_value_accepted {value : Json} (accepted : Decoder.json.accepts field value = true) :
    run (toTokens value) ⟨records, .value [frame, .items before]⟩ =
      .ok ⟨records, .complete [frame, .items before] value⟩ := by
  cases value with
  | array items =>
    rw [accepts_array] at accepted
    cases accepted
  | object members =>
    obtain ⟨choice, key, rfl, named⟩ := of_accepts_object accepted
    have quiet : flaw? (.colon [frame, .items before] [] key) = none :=
      (valueFlaw_of_some known _).trans (by rw [named]; rfl)
    rw [run_object known choice]
    show run (.string key :: .colon :: .word .null :: [.closeObject]) _ = _
    rw [run_cons rfl rfl quiet, run_cons rfl rfl rfl, run_cons rfl rfl rfl]
    exact run_accepted known rfl accepted
  | _ => exact run_accepted known rfl accepted

end Known

/-- The flaw of a value, where one may come, is noticed on one of its tokens. -/
theorem run_value (goesOn : lengthFlaw frame = none) (value : Json) (more : List Token) :
    run (toTokens value ++ more) ⟨records, .value [frame, .items before]⟩ =
      (outcome records (.complete [frame, .items before] value)
        (valueFlaw frame fun field => !Decoder.json.accepts field value)).bind (run more) := by
  cases known : fieldIn frame with
  | none =>
    rw [valueFlaw_of_none known]
    cases frame with
    | member members key => exact run_append (run_passed known value)
    | items slots =>
      change Field.all[slots.length]? = none at known
      rw [List.getElem?_eq_getElem (length_lt_of_lengthFlaw goesOn)] at known
      cases known
  | some field =>
    rw [valueFlaw_of_some known]
    cases accepted : Decoder.json.accepts field value with
    | false => exact run_value_refused known more accepted
    | true => exact run_append (run_value_accepted known accepted)

end Value

/-! ## Entries of what is open -/

/-- The entries of an object. -/
def memberEntries (members : List (List Char × Json)) : List (Option String × Json) :=
  members.map fun (key, value) => ((Json.string key).text?, value)

/-- The entries of an array. -/
def slotEntries (items : List Json) : List (Option String × Json) :=
  items.mapIdx fun i value => (Field.all[i]?.map Field.key, value)

/-- The entries of a record that is open. -/
def entriesIn : Frame → List (Option String × Json)
  | .member before _ => memberEntries before.reverse
  | .items before => slotEntries before.reverse

/-- The key of the value that comes next in it. -/
def keyIn : Frame → Option String
  | .member _ key => (Json.string key).text?
  | .items before => Field.all[before.length]?.map Field.key

theorem fieldIn_eq (frame : Frame) : fieldIn frame = (keyIn frame).bind Field.ofKey := by
  cases frame with
  | member => rfl
  | items before =>
    show Field.all[before.length]? = (Field.all[before.length]?.map Field.key).bind Field.ofKey
    cases Field.all[before.length]? with
    | none => rfl
    | some field => exact field.ofKey_key.symm

theorem memberEntries_append (members more : List (List Char × Json)) :
    memberEntries (members ++ more) = memberEntries members ++ memberEntries more :=
  List.map_append

theorem slotEntries_append (items : List Json) (item : Json) (more : List Json) :
    ∃ after, slotEntries (items ++ item :: more) =
      slotEntries items ++ (Field.all[items.length]?.map Field.key, item) :: after ∧
        (more = [] → after = []) := by
  unfold slotEntries
  rw [List.mapIdx_append, List.mapIdx_cons, Nat.zero_add]
  exact ⟨_, rfl, by rintro rfl; rfl⟩

/-- A value in front of the next one is among the entries. -/
theorem entriesIn_member (before : List (List Char × Json)) (key next : List Char) (value : Json) :
    entriesIn (.member ((key, value) :: before) next) =
      entriesIn (.member before key) ++ [(keyIn (.member before key), value)] := by
  show memberEntries ((key, value) :: before).reverse = _
  rw [List.reverse_cons, memberEntries_append]
  rfl

theorem entriesIn_items (before : List Json) (value : Json) :
    entriesIn (.items (value :: before)) =
      entriesIn (.items before) ++ [(keyIn (.items before), value)] := by
  obtain ⟨after, split, none⟩ := slotEntries_append before.reverse value []
  show slotEntries (value :: before).reverse = _
  rw [List.reverse_cons, split, none rfl, List.length_reverse]
  rfl

/-- The value of a field is at the place of the field. -/
theorem gives_slotEntries {items : List Json} {field : Field} {value : Json} :
    Gives (slotEntries items) field value ↔
      ∃ i : Nat, Field.all[i]? = some field ∧ items[i]? = some value := by
  unfold Gives slotEntries
  rw [List.mem_mapIdx]
  constructor
  · rintro ⟨i, h, entry⟩
    obtain ⟨key, rfl⟩ := Prod.mk.inj entry
    obtain ⟨other, is, same⟩ := Option.map_eq_some_iff.1 key
    obtain rfl := Field.key_injective same
    exact ⟨i, is, List.getElem?_eq_getElem h⟩
  · rintro ⟨i, is, value⟩
    obtain ⟨h, rfl⟩ := List.getElem?_eq_some_iff.1 value
    exact ⟨i, h, by rw [is]; rfl⟩

/-- No field comes twice. -/
theorem index_unique {field : Field} {i j : Nat} (at_i : Field.all[i]? = some field)
    (at_j : Field.all[j]? = some field) : i = j := by
  obtain ⟨h, is⟩ := List.getElem?_eq_some_iff.1 at_i
  obtain ⟨h', is'⟩ := List.getElem?_eq_some_iff.1 at_j
  have distinct : Field.all.Nodup := by decide
  exact (List.Nodup.getElem_inj_iff distinct).1 (is.trans is'.symm)

/-- An entry with the key may follow. -/
def Opens (entries : List (Option String × Json)) (key : Option String) : Prop :=
  key ≠ none ∧ ∀ field : Field, key = some field.key → Absent entries field

section Frame

variable {before : List (List Char × Json)} {key : List Char} {flaw : RecordFlaw}

theorem any_iff {name : String} :
    (before.any fun member => (Json.string member.1).text? = some name) = true ↔
      ∃ value, (some name, value) ∈ memberEntries before.reverse := by
  simp only [List.any_eq_true, decide_eq_true_eq, memberEntries, List.mem_map, List.mem_reverse,
    Prod.mk.injEq]
  constructor
  · rintro ⟨member, mem, named⟩
    exact ⟨member.2, member, mem, named, rfl⟩
  · rintro ⟨value, member, mem, named, -⟩
    exact ⟨member, mem, named⟩

theorem opens_of_keyFlaw (fine : keyFlaw before key = none) :
    Opens (memberEntries before.reverse) (Json.string key).text? := by
  unfold keyFlaw at fine
  cases named : (Json.string key).text? with
  | none => rw [named] at fine; cases fine
  | some name =>
    refine ⟨nofun, fun field is value gives => ?_⟩
    cases is
    rw [named] at fine
    have taken := any_iff.2 ⟨value, gives⟩
    simp [Field.ofKey_key, taken] at fine

theorem spoils_of_keyFlaw (flawed : keyFlaw before key = some flaw) (value : Json) :
    Spoils .json (memberEntries before.reverse) ((Json.string key).text?, value) flaw := by
  unfold keyFlaw at flawed
  cases named : (Json.string key).text? with
  | none =>
    rw [named] at flawed
    cases flawed
    exact .form
  | some name =>
    rw [named] at flawed
    dsimp only at flawed
    split at flawed
    case isTrue both =>
      cases flawed
      obtain ⟨known, taken⟩ := both
      obtain ⟨field, known⟩ := Option.isSome_iff_exists.1 known
      obtain rfl := Field.key_of_ofKey known
      obtain ⟨value', gives⟩ := any_iff.1 taken
      exact .repeated fun absent => absent value' gives
    case isFalse => cases flawed

/-- An array has a next field until all fields have a value. -/
theorem opens_of_lengthFlaw {before : List Json} (goesOn : lengthFlaw (.items before) = none) :
    Opens (slotEntries before.reverse) (keyIn (.items before)) := by
  have short := length_lt_of_lengthFlaw goesOn
  have next : keyIn (.items before) = some Field.all[before.length].key := by
    show Field.all[before.length]?.map Field.key = _
    rw [List.getElem?_eq_getElem short, Option.map_some]
  rw [next]
  refine ⟨nofun, fun field is value gives => ?_⟩
  obtain rfl := Field.key_injective (Option.some.inj is)
  obtain ⟨i, earlier, given⟩ := gives_slotEntries.1 gives
  obtain ⟨h, -⟩ := List.getElem?_eq_some_iff.1 given
  rw [List.length_reverse, index_unique earlier (List.getElem?_eq_getElem short)] at h
  exact Nat.lt_irrefl _ h

theorem spoils_of_lengthFlaw {before : List Json} (ended : lengthFlaw (.items before) = some flaw)
    (value : Json) :
    Spoils .json (entriesIn (.items before)) (keyIn (.items before), value) flaw := by
  change (if before.length < Field.all.length then none else some .form) = some flaw at ended
  split at ended
  case isTrue => cases ended
  case isFalse long =>
    cases ended
    have none : keyIn (.items before) = none := by
      show Field.all[before.length]?.map Field.key = none
      rw [List.getElem?_eq_none (Nat.le_of_not_lt long)]
      rfl
    rw [none]
    exact .form

/-- A value is bad for the field, or the entry can be part of the record. -/
theorem value_cases (frame : Frame) (readable : Readable .json (entriesIn frame))
    (opens : Opens (entriesIn frame) (keyIn frame)) (value : Json) :
    (∃ flaw, valueFlaw frame (fun field => !Decoder.json.accepts field value) = some flaw ∧
      ∀ after, Flawed .json (entriesIn frame ++ (keyIn frame, value) :: after) flaw) ∨
    valueFlaw frame (fun field => !Decoder.json.accepts field value) = none ∧
      Readable .json (entriesIn frame ++ [(keyIn frame, value)]) := by
  obtain ⟨keyed, absent⟩ := opens
  cases known : fieldIn frame with
  | none =>
    refine .inr ⟨valueFlaw_of_none known _, readable_append.2 ⟨readable, keyed, fun field is => ?_⟩⟩
    change keyIn frame = _ at is
    rw [fieldIn_eq, is, Option.bind_some, Field.ofKey_key] at known
    cases known
  | some field =>
    have key : keyIn frame = some field.key := by
      rw [fieldIn_eq] at known
      obtain ⟨key, is, named⟩ := Option.bind_eq_some_iff.1 known
      rw [is, Field.key_of_ofKey named]
    rw [valueFlaw_of_some known]
    cases accepted : Decoder.json.accepts field value with
    | false =>
      refine .inl ⟨_, rfl, fun after => ?_⟩
      rw [key]
      exact .entry readable (.invalid (absent field key) accepted)
    | true =>
      refine .inr ⟨rfl, readable_append.2 ⟨readable, keyed, fun other is => ⟨absent other is, ?_⟩⟩⟩
      change keyIn frame = _ at is
      rw [key] at is
      rwa [← Field.key_injective (Option.some.inj is)]

end Frame

/-! ## Records -/

section Records

variable {records : List Record} {items : List Json} {entries : List (Option String × Json)}
  {flaw : RecordFlaw}

theorem itemOutcome_of_flawed {item : Json} (is : entries? item = some entries)
    (flawed : Flawed .json entries flaw) :
    itemOutcome records items item = .error (.after records.length flaw) := by
  unfold itemOutcome
  rw [ofJson_eq_error_iff.2 (.inr ⟨entries, is, flawed⟩)]

/-- The members of an object are entered as they come. -/
theorem run_members {members : List (List Char × Json)} (nonempty : members ≠ [])
    {before : List (List Char × Json)} (readable : Readable .json (memberEntries before.reverse))
    (more : List Token) :
    run (memberTokens members ++ .closeObject :: more) ⟨records, .key [.items items] before⟩ =
      (itemOutcome records items (.object (before.reverse ++ members))).bind (run more) := by
  induction members generalizing before with
  | nil => exact absurd rfl nonempty
  | cons member rest ih =>
    obtain ⟨key, value⟩ := member
    have split : entries? (.object (before.reverse ++ (key, value) :: rest)) =
        some (memberEntries before.reverse ++
          ((Json.string key).text?, value) :: memberEntries rest) :=
      congrArg some (memberEntries_append _ _)
    have begun : ∃ after, memberTokens ((key, value) :: rest) ++ .closeObject :: more =
        .string key :: .colon :: (toTokens value ++ after) ∧
          (rest = [] → after = .closeObject :: more) ∧
          (rest ≠ [] → after = .comma :: (memberTokens rest ++ .closeObject :: more)) := by
      cases rest <;> simp [memberTokens]
    obtain ⟨after, begun, last, listed⟩ := begun
    rw [begun]
    cases bad : keyFlaw before key with
    | some flaw =>
      rw [itemOutcome_of_flawed split (.entry readable (spoils_of_keyFlaw bad value))]
      exact run_cons_flawed rfl rfl bad
    | none =>
      have quiet : flaw? (.colon [.items items] before key) = none := bad
      have opens : Opens (entriesIn (.member before key)) (keyIn (.member before key)) :=
        opens_of_keyFlaw bad
      rw [run_cons rfl rfl quiet, run_cons rfl rfl rfl, run_value rfl]
      rcases value_cases (.member before key) readable opens value with
        ⟨flaw, bad, flawed⟩ | ⟨fine, readable⟩
      · rw [bad, itemOutcome_of_flawed split (flawed _)]
        rfl
      · rw [fine]
        show run after ⟨records, .complete [.member before key, .items items] value⟩ = _
        by_cases empty : rest = []
        · subst empty
          rw [last rfl]
          refine run_cons_item ?_
          simp [Reading.step, continueAfter]
        · rw [← entriesIn_member before key []] at readable
          rw [listed empty, run_cons rfl rfl rfl, ih empty readable, List.reverse_cons,
            List.append_assoc]
          rfl

/-- The items of an array are entered as they come, until all fields have a value. -/
theorem run_slots {slots : List Json} (nonempty : slots ≠ []) {before : List Json}
    (readable : Readable .json (slotEntries before.reverse))
    (goesOn : lengthFlaw (.items before) = none) (more : List Token) :
    run (itemTokens slots ++ .closeArray :: more) ⟨records, .value [.items before, .items items]⟩ =
      (itemOutcome records items (.array (before.reverse ++ slots))).bind (run more) := by
  induction slots generalizing before with
  | nil => exact absurd rfl nonempty
  | cons value rest ih =>
    obtain ⟨next, split, -⟩ := slotEntries_append before.reverse value rest
    rw [List.length_reverse] at split
    have is : entries? (.array (before.reverse ++ value :: rest)) =
        some (entriesIn (.items before) ++ (keyIn (.items before), value) :: next) :=
      congrArg some split
    have begun : ∃ after, itemTokens (value :: rest) ++ .closeArray :: more =
        toTokens value ++ after ∧ (rest = [] → after = .closeArray :: more) ∧
          (rest ≠ [] → after = .comma :: (itemTokens rest ++ .closeArray :: more)) := by
      cases rest <;> simp [itemTokens]
    obtain ⟨after, begun, last, listed⟩ := begun
    rw [begun, run_value goesOn]
    rcases value_cases (.items before) readable (opens_of_lengthFlaw goesOn) value with
      ⟨flaw, bad, flawed⟩ | ⟨fine, readable⟩
    · rw [bad, itemOutcome_of_flawed is (flawed _)]
      rfl
    · rw [fine]
      show run after ⟨records, .complete [.items before, .items items] value⟩ = _
      by_cases empty : rest = []
      · subst empty
        rw [last rfl]
        refine run_cons_item ?_
        simp [Reading.step, continueAfter]
      · rw [← entriesIn_items] at readable
        rw [listed empty]
        cases ended : lengthFlaw (.items (value :: before)) with
        | none =>
          have quiet : flaw? (.value [.items (value :: before), .items items]) = none := ended
          rw [run_cons rfl rfl quiet, ih empty readable ended, List.reverse_cons, List.append_assoc]
          rfl
        | some flaw =>
          -- there is a value more than there are fields
          obtain ⟨extra, rest, rfl⟩ := List.exists_cons_of_ne_nil empty
          obtain ⟨after, split, -⟩ := slotEntries_append (value :: before).reverse extra rest
          rw [List.length_reverse] at split
          have same : before.reverse ++ value :: extra :: rest =
              (value :: before).reverse ++ extra :: rest := by simp
          have is : entries? (.array ((value :: before).reverse ++ extra :: rest)) = _ :=
            congrArg some split
          rw [same, itemOutcome_of_flawed is (.entry readable (spoils_of_lengthFlaw ended extra))]
          exact run_cons_flawed rfl rfl ended

/-! ## Items -/

theorem run_firstItem (item : Json) (more : List Token) (stack : List Frame) :
    run (toTokens item ++ more) ⟨records, .firstItem stack⟩ =
      run (toTokens item ++ more) ⟨records, .value (.items [] :: stack)⟩ := by
  cases item <;> rfl

theorem run_firstKey (member : List Char × Json) (rest : List (List Char × Json))
    (more : List Token) (stack : List Frame) :
    run (memberTokens (member :: rest) ++ more) ⟨records, .firstKey stack⟩ =
      run (memberTokens (member :: rest) ++ more) ⟨records, .key stack []⟩ := by
  cases rest <;> rfl

/-- An item is read as its record, or refused for its flaw. -/
theorem run_item (item : Json) (more : List Token) :
    run (toTokens item ++ more) ⟨records, .value [.items items]⟩ =
      (itemOutcome records items item).bind (run more) := by
  cases item with
  | array slots =>
    rw [toTokens, List.cons_append, List.append_assoc, run_cons rfl rfl rfl]
    cases slots with
    | nil => exact run_cons_item rfl
    | cons slot rest =>
      obtain ⟨after, begun⟩ : ∃ after, itemTokens (slot :: rest) ++ .closeArray :: more =
          toTokens slot ++ after := by
        cases rest <;> simp [itemTokens]
      rw [List.singleton_append, begun, run_firstItem, ← begun]
      exact run_slots (List.cons_ne_nil slot rest) readable_nil rfl more
  | object members =>
    rw [toTokens, List.cons_append, List.append_assoc, run_cons rfl rfl rfl]
    cases members with
    | nil => exact run_cons_item rfl
    | cons member rest =>
      rw [run_firstKey]
      exact run_members (List.cons_ne_nil member rest) readable_nil more
  | _ => exact run_cons_item rfl

/-- The documents are those of the records, one by one. -/
def Hold (items : List Json) (records : List Record) : Prop :=
  List.Forall₂ (fun item record => Record.ofJson item = .ok record) items records

theorem itemOutcome_of_ok {item : Json} {record : Record} (read : Record.ofJson item = .ok record) :
    itemOutcome records items item = .ok ⟨record :: records, .complete [.items items] item⟩ := by
  unfold itemOutcome
  rw [read]

theorem itemOutcome_of_error {item : Json} (refused : Record.ofJson item = .error flaw) :
    itemOutcome records items item = .error (.after records.length flaw) := by
  unfold itemOutcome
  rw [refused]

/-- Items that hold records are read one after another. -/
theorem run_listed {before : List Json} {found : List Record} (hold : Hold before found)
    (more : List Token) : run (listed before ++ more) ⟨records, .value [.items items]⟩ =
      run more ⟨found.reverse ++ records, .value [.items (before.reverse ++ items)]⟩ := by
  unfold listed
  induction hold generalizing records items with
  | nil => rfl
  | @cons item record before found read _ ih =>
    have later := @ih (record :: records) (item :: items)
    rw [List.flatMap_cons, List.append_assoc, List.append_assoc, run_item, itemOutcome_of_ok read]
    show run (.comma :: _) _ = _
    rw [run_cons rfl rfl rfl]
    simpa using later

theorem run_begun {before : List Json} {found : List Record} (hold : Hold before found)
    (item : Json) (more : List Token) :
    run (.openArray :: (listed before ++ (toTokens item ++ more))) {} =
      (itemOutcome found.reverse before.reverse item).bind (run more) := by
  have opened : run (listed before ++ (toTokens item ++ more)) ⟨[], .firstItem []⟩ =
      run (listed before ++ (toTokens item ++ more)) ⟨[], .value [.items []]⟩ := by
    cases before with
    | nil => exact run_firstItem item more []
    | cons first rest =>
      rw [listed, List.flatMap_cons, List.append_assoc, List.append_assoc]
      exact run_firstItem first _ []
  show run _ ⟨[], .value []⟩ = _
  rw [run_cons rfl rfl rfl, opened, run_listed hold, run_item, List.append_nil, List.append_nil]

/-! ## Documents -/

theorem exists_hold (fine : ∀ item ∈ items, ∃ record, Record.ofJson item = .ok record) :
    ∃ found, Hold items found := by
  induction items with
  | nil => exact ⟨[], .nil⟩
  | cons item items ih =>
    obtain ⟨⟨record, read⟩, fine⟩ := List.forall_mem_cons.1 fine
    obtain ⟨found, hold⟩ := ih fine
    exact ⟨record :: found, .cons read hold⟩

theorem hold_reverse : Hold items.reverse records.reverse ↔ Hold items records :=
  List.forall₂_reverse_iff

theorem hold_concat {item : Json} : Hold (items ++ [item]) records ↔
    ∃ found record, records = found ++ [record] ∧ Hold items found ∧
      Record.ofJson item = .ok record := by
  constructor
  · intro hold
    rw [← hold_reverse, List.reverse_append] at hold
    obtain ⟨record, rest, read, hold, reversed⟩ := List.forall₂_cons_left_iff.1 hold
    rw [← List.reverse_reverse rest] at hold
    refine ⟨rest.reverse, record, ?_, hold_reverse.1 hold, read⟩
    rw [← List.reverse_reverse records, reversed, List.reverse_cons]
  · rintro ⟨found, record, rfl, hold, read⟩
    exact List.rel_append hold (.cons read .nil)

/-- Items that hold records are read as these. -/
theorem run_items {found : List Record} (hold : Hold items found) {item : Json} {record : Record}
    (read : Record.ofJson item = .ok record) (more : List Token) :
    run (.openArray :: (itemTokens (items ++ [item]) ++ more)) {} =
      run more ⟨(found ++ [record]).reverse, .complete [.items items.reverse] item⟩ := by
  rw [itemTokens_append, List.append_assoc, run_begun hold, itemOutcome_of_ok read,
    List.reverse_append]
  rfl

/-- So is an array of them. -/
theorem run_array {found : List Record} (hold : Hold items found) :
    run (toTokens (.array items)) {} = .ok ⟨found.reverse, .complete [] (.array items)⟩ := by
  rcases List.eq_nil_or_concat' items with rfl | ⟨before, item, rfl⟩
  · cases hold
    rfl
  · obtain ⟨found, record, rfl, hold, read⟩ := hold_concat.1 hold
    rw [toTokens, run_items hold read, run_one rfl rfl]
    simp [outcome, flaw?]

/-- The first item that holds no record is refused, whatever follows. -/
theorem run_spoiled {before : List Json} {found : List Record} (hold : Hold before found)
    {item : Json} (refused : Record.ofJson item = .error flaw) (more : List Token) :
    run (.openArray :: (listed before ++ (toTokens item ++ more))) {} =
      .error (.after before.length flaw) := by
  rw [run_begun hold, itemOutcome_of_error refused, List.length_reverse, hold.length_eq]
  rfl

/-- What is no array is refused on its first token. -/
theorem run_other {j : Json} (other : ∀ items, j ≠ .array items) :
    run (toTokens j) {} = .error (.after 0 .form) := by
  cases j with
  | array items => exact absurd rfl (other items)
  | _ => exact run_cons_flawed rfl rfl rfl

end Records

end Nearby.Dataset
