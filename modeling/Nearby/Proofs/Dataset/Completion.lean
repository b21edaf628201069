/-
What may still become of an array of records. What has been read without a flaw is what some array
of records begins with: a value that is open can be completed to one that its field may have, a
record that is open by the fields that it lacks, and the array at any item. So the reader does not
pass a flaw, and what it refuses it refuses as early as possible.
-/
import Nearby.Proofs.Dataset.Intake

namespace Nearby.Dataset

open Json Record

/-! ## Values -/

/-- The key names the choice that the frame asks for. -/
def Names (frame : Frame) (key : List Char) : Prop :=
  ∃ field, fieldIn frame = some field ∧
    Decoder.json.accepts field (.object [(key, .null)]) = true

/-- What has been read of the value that the frame asks for. -/
inductive InValue (frame : Frame) (base : List Frame) : Reading → Prop where
  /-- A record is not asked for it. -/
  | passed {r : Reading} {inner : List Frame} : fieldIn frame = none →
      r.stack = inner ++ frame :: base → InValue frame base r
  | value : InValue frame base (.value (frame :: base))
  | complete {value : Json} : Suits (fieldIn frame) value →
      InValue frame base (.complete (frame :: base) value)
  | object {field : Field} : fieldIn frame = some field → field.isChoice = true →
      InValue frame base (.firstKey (frame :: base))
  | key {key : List Char} : Names frame key → InValue frame base (.colon (frame :: base) [] key)
  | colon {key : List Char} : Names frame key →
      InValue frame base (.value (.member [] key :: frame :: base))
  | null {key : List Char} : Names frame key →
      InValue frame base (.complete (.member [] key :: frame :: base) .null)

/-- A value that a field may have. -/
def sampleValue : Field → Json
  | .id | .name | .address => .string []
  | .latitude | .longitude => .number ['0']
  | .kind => .ofText Kind.atmOnly.name
  | .status => .ofText Status.active.name
  | .createdAt | .updatedAt => .null

theorem accepts_sampleValue (field : Field) :
    Decoder.json.accepts field (sampleValue field) = true := by
  cases field <;> decide +kernel

theorem exists_suits (field? : Option Field) : ∃ value, Suits field? value := by
  cases field? with
  | none => exact ⟨.null, nofun⟩
  | some field =>
    refine ⟨sampleValue field, fun other is => ?_⟩
    cases is
    exact accepts_sampleValue field

theorem Names.suits {frame : Frame} {key : List Char} (names : Names frame key) :
    Suits (fieldIn frame) (.object [(key, .null)]) := by
  obtain ⟨field, known, accepted⟩ := names
  intro other is
  rw [known] at is
  cases is
  exact accepted

theorem exists_names {frame : Frame} {field : Field} (known : fieldIn frame = some field)
    (choice : field.isChoice = true) : ∃ key, Names frame key := by
  have named : ∃ key, sampleValue field = .string key := by
    cases field <;> first | exact ⟨_, rfl⟩ | cases choice
  obtain ⟨key, sample⟩ := named
  have accepted := accepts_sampleValue field
  rw [sample, ← accepts_named choice] at accepted
  exact ⟨key, field, known, accepted⟩

section InValue

variable {frame : Frame} {base : List Frame} {before : List Json} {r r' : Reading} {token : Token}

/-- A value that is open can be completed to one that its field may have. -/
theorem InValue.completes (within : InValue frame base r) : ∃ value,
    Suits (fieldIn frame) value ∧ r.tokens <+: stackTokens (frame :: base) ++ toTokens value := by
  cases within with
  | passed passed is =>
    obtain ⟨value, longer⟩ := exists_value is
    refine ⟨value, ?_, longer⟩
    rw [passed]
    exact nofun
  | value =>
    obtain ⟨value, suits⟩ := exists_suits (fieldIn frame)
    exact ⟨value, suits, List.prefix_append _ _⟩
  | complete suits => exact ⟨_, suits, List.prefix_rfl⟩
  | object known choice =>
    obtain ⟨key, names⟩ := exists_names known choice
    refine ⟨_, names.suits, ?_⟩
    simp [Reading.tokens, toTokens]
  | key names | colon names | null names =>
    refine ⟨_, names.suits, ?_⟩
    simp [Reading.tokens, toTokens, stackTokens, Frame.tokens, memberTokens, listedMembers]

theorem suits_of_valueFlaw {value : Json}
    (fine : valueFlaw frame (fun field => !Decoder.json.accepts field value) = none) :
    Suits (fieldIn frame) value := by
  intro field known
  rw [valueFlaw_of_some known] at fine
  simpa using fine

theorem passed_of_valueFlaw (fine : valueFlaw frame (fun _ => true) = none) :
    fieldIn frame = none := by
  cases known : fieldIn frame with
  | none => rfl
  | some field =>
    rw [valueFlaw_of_some known] at fine
    cases fine

theorem Names.valueFlaw_ne {key : List Char} (names : Names frame key) :
    valueFlaw frame (fun _ => true) ≠ none := by
  intro fine
  obtain ⟨field, known, -⟩ := names
  rw [passed_of_valueFlaw fine] at known
  cases known

/-- A value without a flaw goes on as one of these. -/
theorem InValue.step (within : InValue frame [.items before] r)
    (inside : ∀ value, r ≠ .complete [frame, .items before] value) (legal : token.Legal)
    (stepped : r.step token = some r') (quiet : flaw? r' = none) :
    InValue frame [.items before] r' := by
  cases within with
  | passed passed is =>
    obtain ⟨inner, is⟩ := stack_of_step is inside stepped
    exact .passed passed is
  | value =>
    cases token with
    | openArray =>
      cases stepped
      exact .passed (passed_of_valueFlaw quiet) (List.nil_append _).symm
    | openObject =>
      cases stepped
      cases known : fieldIn frame with
      | none => exact .passed known (List.nil_append _).symm
      | some field =>
        have choice : valueFlaw frame (fun field => !field.isChoice) = none := quiet
        rw [valueFlaw_of_some known] at choice
        exact .object known (by simpa using choice)
    | word | number | string =>
      cases stepped
      exact .complete (suits_of_valueFlaw quiet)
    | _ => cases stepped
  | complete suits => exact absurd rfl (inside _)
  | @object field known choice =>
    cases token with
    | closeObject =>
      cases stepped
      exact .complete (suits_of_valueFlaw quiet)
    | string key =>
      cases stepped
      have named : valueFlaw frame
          (fun field => !(true && Decoder.json.accepts field (.string key))) = none := quiet
      rw [valueFlaw_of_some known, ← accepts_named choice] at named
      exact .key ⟨field, known, by simpa using named⟩
    | _ => cases stepped
  | key names =>
    cases token <;> cases stepped
    exact .colon names
  | colon names =>
    cases token with
    | word value =>
      cases stepped
      rcases legal with rfl | ⟨b, rfl⟩
      · exact .null names
      · exact absurd quiet names.valueFlaw_ne
    | openArray | openObject | number | string =>
      cases stepped
      exact absurd quiet names.valueFlaw_ne
    | _ => cases stepped
  | null names =>
    cases token <;> cases stepped
    · exact .complete names.suits
    · exact absurd quiet names.valueFlaw_ne

end InValue

/-! ## Records -/

/-- The entries of the record that is open can be part of one, and so can one with the next key. -/
structure Ready (frame : Frame) : Prop where
  readable : Readable .json (entriesIn frame)
  opens : Opens (entriesIn frame) (keyIn frame)

theorem Ready.entry {frame : Frame} (ready : Ready frame) {value : Json}
    (suits : Suits (fieldIn frame) value) :
    Readable .json (entriesIn frame ++ [(keyIn frame, value)]) := by
  refine readable_append.2 ⟨ready.readable, ready.opens.1, fun field is => ?_⟩
  refine ⟨ready.opens.2 field is, suits field ?_⟩
  change keyIn frame = _ at is
  rw [fieldIn_eq, is, Option.bind_some, Field.ofKey_key]

/-- What has been read of a record, behind the items before it. -/
inductive InRecord (before : List Json) : Reading → Prop where
  | value : InRecord before (.value [.items before])
  | array : InRecord before (.firstItem [.items before])
  | object : InRecord before (.firstKey [.items before])
  | comma {members : List (List Char × Json)} : Readable .json (memberEntries members.reverse) →
      InRecord before (.key [.items before] members)
  | key {members : List (List Char × Json)} {key : List Char} : Ready (.member members key) →
      InRecord before (.colon [.items before] members key)
  | within {frame : Frame} {r : Reading} : Ready frame → InValue frame [.items before] r →
      InRecord before r

/-! ### Records with what they lack -/

/-- The entry of a field with a value that it may have. -/
def sampleEntry (field : Field) : Option String × Json := (some field.key, sampleValue field)

/-- Fields that are absent can be entered. -/
theorem readable_samples {entries : List (Option String × Json)} (readable : Readable .json entries)
    {fields : List Field} (distinct : fields.Nodup)
    (absent : ∀ field ∈ fields, Absent entries field) :
    Readable .json (entries ++ fields.map sampleEntry) := by
  induction fields using List.reverseRecOn with
  | nil => simpa using readable
  | append_singleton fields field ih =>
    obtain ⟨distinct, -, apart⟩ := List.nodup_append.1 distinct
    have earlier := ih distinct fun other mem => absent other (List.mem_append_left _ mem)
    rw [List.map_append, List.map_singleton, ← List.append_assoc]
    refine readable_append.2 ⟨earlier, nofun, fun other is => ?_⟩
    obtain rfl := Field.key_injective (Option.some.inj is)
    refine ⟨fun value gives => ?_, accepts_sampleValue field⟩
    rcases List.mem_append.1 gives with gives | sample
    · exact absent field (by simp) value gives
    · obtain ⟨other, mem, same⟩ := List.mem_map.1 sample
      have key := Field.key_injective (Option.some.inj (Prod.ext_iff.1 same).1)
      exact apart other mem field (List.mem_singleton_self _) key

/-- Entries can be completed by the fields that they lack. -/
theorem exists_describes_samples {entries : List (Option String × Json)}
    (readable : Readable .json entries) {fields : List Field} (distinct : fields.Nodup)
    (absent : ∀ field ∈ fields, Absent entries field)
    (rest : ∀ field ∈ Field.required, Absent entries field → field ∈ fields) :
    ∃ record, Describes .json (entries ++ fields.map sampleEntry) record := by
  refine exists_describes (readable_samples readable distinct absent) fun field must lacking => ?_
  have earlier : Absent entries field := fun value gives =>
    lacking value (List.mem_append_left _ gives)
  exact lacking _ (List.mem_append_right _ (List.mem_map_of_mem (rest field must earlier)))

/-- An object can be completed to that of a record. -/
theorem exists_object {members : List (List Char × Json)}
    (readable : Readable .json (memberEntries members)) :
    ∃ more record, Record.ofJson (.object (members ++ more)) = .ok record := by
  classical
  let lacking := Field.required.filter fun field => Absent (memberEntries members) field
  have distinct : lacking.Nodup := List.Nodup.filter _ (by decide)
  obtain ⟨record, describes⟩ := exists_describes_samples readable distinct
    (fun field mem => of_decide_eq_true (List.mem_filter.1 mem).2)
    fun field must absent => List.mem_filter.2 ⟨must, decide_eq_true absent⟩
  have samples : memberEntries (lacking.map fun field =>
      (escape field.key.toList, sampleValue field)) = lacking.map sampleEntry := by
    unfold memberEntries
    rw [List.map_map]
    refine List.map_congr_left fun field _ => ?_
    have text : (Json.string (escape field.key.toList)).text? = some field.key := by
      show (unescape _).map String.ofList = _
      rw [(spells_escape _).unescape, Option.map_some, String.ofList_toList]
    exact congrArg (·, sampleValue field) text
  rw [← samples, ← memberEntries_append] at describes
  exact ⟨_, record, ofJson_eq_ok_iff.2 ⟨_, rfl, describes⟩⟩

/-- An array can be completed to that of a record. -/
theorem exists_array {slots : List Json} (readable : Readable .json (slotEntries slots)) :
    ∃ more record, Record.ofJson (.array (slots ++ more)) = .ok record := by
  have distinct : (Field.all.drop slots.length).Nodup :=
    (List.drop_sublist _ _).nodup (by decide)
  have place : ∀ {field : Field}, field ∈ Field.all.drop slots.length ↔
      ∃ i, Field.all[slots.length + i]? = some field := by
    intro field
    rw [List.mem_iff_getElem?]
    simp only [List.getElem?_drop]
  -- a field whose place is not among those of the values is lacking, and only such a field
  have absent : ∀ field ∈ Field.all.drop slots.length, Absent (slotEntries slots) field := by
    intro field mem value gives
    obtain ⟨i, is⟩ := place.1 mem
    obtain ⟨j, is', given⟩ := gives_slotEntries.1 gives
    obtain ⟨h, -⟩ := List.getElem?_eq_some_iff.1 given
    rw [index_unique is' is] at h
    omega
  have rest : ∀ field ∈ Field.required, Absent (slotEntries slots) field →
      field ∈ Field.all.drop slots.length := by
    intro field _ absent
    have known : field ∈ Field.all := by cases field <;> decide
    obtain ⟨i, is⟩ := List.mem_iff_getElem?.1 known
    have late : slots.length ≤ i := by
      by_contra early
      have given := List.getElem?_eq_getElem (Nat.lt_of_not_le early)
      exact absent _ (gives_slotEntries.2 ⟨i, is, given⟩)
    exact place.2 ⟨i - slots.length, by rwa [Nat.add_sub_cancel' late]⟩
  obtain ⟨record, describes⟩ := exists_describes_samples readable distinct absent rest
  have samples : slotEntries (slots ++ (Field.all.drop slots.length).map sampleValue) =
      slotEntries slots ++ (Field.all.drop slots.length).map sampleEntry := by
    unfold slotEntries
    rw [List.mapIdx_append]
    refine congrArg _ (List.ext_getElem? fun i => ?_)
    simp only [List.getElem?_mapIdx, List.getElem?_map, List.getElem?_drop,
      Nat.add_comm i slots.length]
    cases Field.all[slots.length + i]? <;> rfl
  rw [← samples] at describes
  exact ⟨_, record, ofJson_eq_ok_iff.2 ⟨_, rfl, describes⟩⟩

/-! ### Records that are open -/

section InRecord

variable {before : List Json} {frame : Frame} {r r' : Reading} {token : Token}

/-- A record whose next value can be completed can be completed. -/
theorem Ready.completes (ready : Ready frame) (within : InValue frame [.items before] r) :
    ∃ item record, Record.ofJson item = .ok record ∧
      r.tokens <+: stackTokens [.items before] ++ toTokens item := by
  obtain ⟨value, suits, longer⟩ := within.completes
  have readable := ready.entry suits
  cases frame with
  | member members key =>
    rw [← entriesIn_member members key []] at readable
    obtain ⟨more, record, read⟩ := exists_object readable
    rw [List.reverse_cons, List.append_assoc, List.singleton_append] at read
    exact ⟨_, record, read, longer.trans (member_longer _ _ _ _ _)⟩
  | items slots =>
    rw [← entriesIn_items] at readable
    obtain ⟨more, record, read⟩ := exists_array readable
    rw [List.reverse_cons, List.append_assoc, List.singleton_append] at read
    exact ⟨_, record, read, longer.trans (items_longer _ _ _ _)⟩

/-- A member of another name may always follow. -/
theorem ready_unknown {members : List (List Char × Json)}
    (readable : Readable .json (memberEntries members.reverse)) : Ready (.member members []) := by
  refine ⟨readable, nofun, fun field is => ?_⟩
  have named : "" = field.key := Option.some.inj is
  cases field <;> exact absurd named (by decide)

theorem ready_object : Ready (.member [] []) :=
  have readable : Readable .json (memberEntries [].reverse) := readable_nil
  ready_unknown readable

theorem ready_array : Ready (.items []) := ⟨readable_nil, opens_of_lengthFlaw rfl⟩

/-- A record that is open can be completed. -/
theorem InRecord.completes (within : InRecord before r) :
    ∃ item record, Record.ofJson item = .ok record ∧
      r.tokens <+: stackTokens [.items before] ++ toTokens item := by
  -- what is not inside a value yet goes on to one
  have next : ∀ {frame : Frame}, Ready frame →
      r.tokens <+: stackTokens [frame, .items before] → ∃ item record,
        Record.ofJson item = .ok record ∧
          r.tokens <+: stackTokens [.items before] ++ toTokens item := by
    intro frame ready shorter
    obtain ⟨item, record, read, longer⟩ := ready.completes .value
    exact ⟨item, record, read, shorter.trans longer⟩
  cases within with
  | value => exact next ready_array (List.prefix_append _ _)
  | array => exact next ready_array (List.prefix_refl (stackTokens [.items [], .items before]))
  | object =>
    refine next ready_object ?_
    simp [Reading.tokens, stackTokens, Frame.tokens]
  | comma readable =>
    refine next (ready_unknown readable) ?_
    simp [Reading.tokens, stackTokens, Frame.tokens]
  | key ready =>
    refine next ready ?_
    simp [Reading.tokens, stackTokens, Frame.tokens]
  | within ready within => exact ready.completes within

theorem InValue.suits {base : List Frame} {value : Json}
    (within : InValue frame base (.complete (frame :: base) value)) :
    Suits (fieldIn frame) value := by
  cases within with
  | passed passed _ =>
    rw [passed]
    exact nofun
  | complete suits => exact suits

/-- Behind a value of a record comes the next one, or the end of the record. -/
theorem Ready.step (ready : Ready frame) {value : Json} (suits : Suits (fieldIn frame) value)
    (stepped : (Reading.complete [frame, .items before] value).step token = some r')
    (quiet : flaw? r' = none) :
    InRecord before r' ∨ ∃ item, r' = .complete [.items before] item := by
  have readable := ready.entry suits
  cases frame with
  | member members key =>
    cases token with
    | comma =>
      cases stepped
      rw [← entriesIn_member members key []] at readable
      exact .inl (.comma readable)
    | closeObject =>
      cases stepped
      exact .inr ⟨_, rfl⟩
    | _ => cases stepped
  | items slots =>
    cases token with
    | comma =>
      cases stepped
      rw [← entriesIn_items] at readable
      exact .inl (.within ⟨readable, opens_of_lengthFlaw quiet⟩ .value)
    | closeArray =>
      cases stepped
      exact .inr ⟨_, rfl⟩
    | _ => cases stepped

/-- A record without a flaw goes on as one, or it is complete. -/
theorem InRecord.step (within : InRecord before r) (legal : token.Legal)
    (stepped : r.step token = some r') (quiet : flaw? r' = none) :
    InRecord before r' ∨ ∃ item, r' = .complete [.items before] item := by
  cases within with
  | value =>
    cases token with
    | openArray => cases stepped; exact .inl .array
    | openObject => cases stepped; exact .inl .object
    | word | number | string => cases stepped; exact .inr ⟨_, rfl⟩
    | _ => cases stepped
  | array =>
    by_cases ends : token = .closeArray
    · subst ends
      cases stepped
      exact .inr ⟨_, rfl⟩
    · -- what begins a value begins the first value of the record
      have begun : (Reading.value [.items [], .items before]).step token = some r' := by
        cases token <;> first | exact stepped | exact absurd rfl ends
      exact .inl (.within ready_array (InValue.value.step nofun legal begun quiet))
  | object =>
    cases token with
    | closeObject => cases stepped; exact .inr ⟨_, rfl⟩
    | string key => cases stepped; exact .inl (.key ⟨readable_nil, opens_of_keyFlaw quiet⟩)
    | _ => cases stepped
  | comma readable =>
    cases token with
    | string key => cases stepped; exact .inl (.key ⟨readable, opens_of_keyFlaw quiet⟩)
    | _ => cases stepped
  | key ready =>
    cases token with
    | colon => cases stepped; exact .inl (.within ready .value)
    | _ => cases stepped
  | @within frame _ ready within =>
    by_cases complete : ∃ value, r = .complete [frame, .items before] value
    · obtain ⟨value, rfl⟩ := complete
      exact ready.step within.suits stepped quiet
    · have inside : ∀ value, r ≠ .complete [frame, .items before] value :=
        fun value is => complete ⟨value, is⟩
      exact .inl (.within ready (within.step inside legal stepped quiet))

end InRecord

/-! ## Arrays -/

/-- Nothing that has been read is wrong: the items are those of the records, and the next one is a
record as far as it goes. -/
inductive Sound : Intake → Prop where
  | start : Sound {}
  | array : Sound ⟨[], .firstItem []⟩
  | record {before : List Json} {records : List Record} {r : Reading} : Hold before records →
      InRecord before r → Sound ⟨records, r⟩
  | item {before : List Json} {item : Json} {records : List Record} :
      Hold (item :: before) records → Sound ⟨records, .complete [.items before] item⟩
  | whole {items : List Json} {records : List Record} : Hold items records.reverse →
      Sound ⟨records, .complete [] (.array items)⟩

section Sound

variable {before : List Json} {records : List Record} {r r' : Reading} {token : Token}
  {intake intake' : Intake}

theorem quiet_of_step (stepped : r.step token = some r')
    (taken : Intake.step ⟨records, r⟩ token = .ok intake) : flaw? r' = none := by
  cases inside : isItem r' with
  | false =>
    rw [step_eq stepped inside] at taken
    cases flawed : flaw? r' with
    | none => rfl
    | some flaw => rw [flawed] at taken; cases taken
  | true =>
    unfold isItem at inside
    split at inside
    · rfl
    · cases inside

/-- What is open stays open until the item is complete. -/
theorem InRecord.isItem (within : InRecord before r) : isItem r = false := by
  cases within with
  | within _ within =>
    cases within with
    | passed _ is =>
      unfold Dataset.isItem
      split
      · have length := congrArg List.length is
        simp [Reading.stack] at length
      · rfl
    | _ => rfl
  | _ => rfl

theorem InRecord.stack (within : InRecord before r) :
    ∃ inner, r.stack = inner ++ [.items before] := by
  cases within with
  | @within frame _ _ within =>
    cases within with
    | @passed _ inner _ is => exact ⟨inner ++ [frame], by rw [is, List.append_assoc]; rfl⟩
    | @colon key | @null key => exact ⟨[.member [] key, frame], rfl⟩
    | _ => exact ⟨[frame], rfl⟩
  | _ => exact ⟨[], rfl⟩

/-- From a record without a flaw the reader goes on in it or reads it. -/
theorem Sound.of_record (hold : Hold before records) (within : InRecord before r)
    (legal : token.Legal) (stepped : r.step token = some r')
    (taken : Intake.step ⟨records, r⟩ token = .ok intake) : Sound intake := by
  have quiet := quiet_of_step stepped taken
  rcases within.step legal stepped quiet with within | ⟨item, rfl⟩
  · rw [step_eq stepped within.isItem, quiet] at taken
    cases taken
    exact .record hold within
  · rw [step_item stepped] at taken
    cases read : Record.ofJson item with
    | error flaw => rw [itemOutcome_of_error read] at taken; cases taken
    | ok record =>
      rw [itemOutcome_of_ok read] at taken
      cases taken
      exact .item (.cons read hold)

/-- A step that is not refused leaves nothing wrong. -/
theorem Sound.step (sound : Sound intake) (legal : token.Legal)
    (taken : intake.step token = .ok intake') : Sound intake' := by
  cases stepped : intake.reading.step token with
  | none =>
    unfold Intake.step at taken
    rw [stepped] at taken
    cases taken
  | some r' =>
    cases sound with
    | start =>
      have quiet := quiet_of_step stepped taken
      cases token with
      | openArray => cases stepped; cases taken; exact .array
      | word value =>
        cases stepped
        rcases legal with rfl | ⟨b, rfl⟩ <;> cases quiet
      | openObject | number | string => cases stepped; cases quiet
      | _ => cases stepped
    | array =>
      by_cases ends : token = .closeArray
      · subst ends
        cases stepped
        cases taken
        exact .whole .nil
      · -- what begins a value begins the first item
        have begun : (Reading.value [.items []]).step token = some r' := by
          cases token <;> first | exact stepped | exact absurd rfl ends
        have taken : Intake.step ⟨[], .value [.items []]⟩ token = .ok intake' := by
          unfold Intake.step at taken ⊢
          rw [stepped] at taken
          rw [begun]
          exact taken
        exact .of_record .nil .value legal begun taken
    | record hold within => exact .of_record hold within legal stepped taken
    | @item before item records hold =>
      cases token with
      | comma => cases stepped; cases taken; exact .record hold .value
      | closeArray =>
        cases stepped
        cases taken
        exact .whole (hold_reverse.2 hold)
      | _ => cases stepped
    | whole hold => cases stepped

/-- What has been read without a flaw has nothing wrong in it. -/
theorem Sound.run {tokens : List Token} (sound : Sound intake)
    (legal : ∀ token ∈ tokens, token.Legal) (read : run tokens intake = .ok intake') :
    Sound intake' := by
  induction tokens generalizing intake with
  | nil =>
    cases read
    exact sound
  | cons token tokens ih =>
    obtain ⟨first, rest⟩ := List.forall_mem_cons.1 legal
    obtain ⟨next, taken, later⟩ := of_run_cons read
    exact ih (sound.step first taken) rest later

theorem of_advance (advanced : intake.advance r = .ok intake') :
    intake'.reading = r ∧ intake.records <:+ intake'.records := by
  unfold Intake.advance at advanced
  split at advanced
  case h_1 item =>
    cases read : Record.ofJson item with
    | error flaw => rw [read] at advanced; cases advanced
    | ok record => rw [read] at advanced; cases advanced; exact ⟨rfl, List.suffix_cons _ _⟩
  case h_2 =>
    split at advanced <;> cases advanced
    exact ⟨rfl, List.suffix_rfl⟩

/-- What is taken in is what the reader goes over, and records are only added. -/
theorem of_step (taken : intake.step token = .ok intake') :
    intake.reading.step token = some intake'.reading ∧ intake.records <:+ intake'.records := by
  unfold Intake.step at taken
  cases stepped : intake.reading.step token with
  | none => rw [stepped] at taken; cases taken
  | some r' =>
    rw [stepped] at taken
    dsimp only at taken
    cases advanced : intake.advance r' with
    | error flaw => rw [advanced] at taken; cases taken
    | ok next =>
      rw [advanced] at taken
      cases taken
      obtain ⟨same, added⟩ := of_advance advanced
      exact ⟨by rw [same], added⟩

theorem of_run {tokens : List Token} (read : Dataset.run tokens intake = .ok intake') :
    tokens.foldlM Reading.step intake.reading = some intake'.reading ∧
      intake.records <:+ intake'.records := by
  induction tokens generalizing intake with
  | nil =>
    cases read
    exact ⟨rfl, List.suffix_rfl⟩
  | cons token tokens ih =>
    obtain ⟨next, taken, later⟩ := of_run_cons read
    obtain ⟨stepped, added⟩ := of_step taken
    obtain ⟨folded, added'⟩ := ih later
    rw [List.foldlM_cons, stepped]
    exact ⟨folded, added.trans added'⟩

theorem tokens_of_run {tokens : List Token} (legal : ∀ token ∈ tokens, token.Legal)
    (read : Dataset.run tokens {} = .ok intake) : intake.reading.tokens = tokens :=
  tokens_of_foldlM legal (of_run read).1

/-- What has nothing wrong in it is what some array of records begins with. -/
theorem Sound.completes (sound : Sound intake) : ∃ items found, Hold items found ∧
    intake.reading.tokens <+: toTokens (.array items) := by
  have one : ∀ {before : List Json} {item : Json} {records : List Record},
      Hold (item :: before) records → Hold (before.reverse ++ [item]) records.reverse := by
    intro before item records hold
    rw [← List.reverse_cons]
    exact hold_reverse.2 hold
  cases sound with
  | start => exact ⟨[], [], .nil, List.nil_prefix⟩
  | array => exact ⟨[], [], .nil, by simp [Reading.tokens, stackTokens, toTokens]⟩
  | record hold within =>
    obtain ⟨item, record, read, longer⟩ := within.completes
    exact ⟨_, _, one (.cons read hold), longer.trans (items_longer _ [] _ _)⟩
  | item hold => exact ⟨_, _, one hold, items_longer _ [] _ _⟩
  | whole hold => exact ⟨_, _, hold, List.prefix_rfl⟩

/-- A value outside of which nothing is open is an array of records. -/
theorem Sound.of_complete {value : Json} (sound : Sound ⟨records, .complete [] value⟩) :
    ∃ items, value = .array items ∧ Hold items records.reverse := by
  cases sound with
  | record _ within =>
    obtain ⟨inner, is⟩ := within.stack
    have length := congrArg List.length is
    simp [Reading.stack] at length
  | whole hold => exact ⟨_, rfl, hold⟩

/-- As many items are complete as there are records. -/
theorem Sound.counted (sound : Sound intake) : ∃ items : List Json,
    items.length = intake.records.length ∧
      (items = [] ∨ .openArray :: itemTokens items <+: intake.reading.tokens) := by
  cases sound with
  | start | array => exact ⟨[], rfl, .inl rfl⟩
  | @record before records r hold within =>
    refine ⟨before.reverse, by rw [List.length_reverse, hold.length_eq], .inr ?_⟩
    obtain ⟨inner, is⟩ := within.stack
    have read := (stackTokens_append inner [.items before]).trans (is ▸ stackTokens_tokens r)
    refine List.IsPrefix.trans ?_ read
    exact (List.prefix_cons_inj _).2 (itemTokens_listed _)
  | @item before item records hold =>
    refine ⟨(item :: before).reverse, by rw [List.length_reverse, hold.length_eq], .inr ?_⟩
    rw [List.reverse_cons, itemTokens_append]
    exact List.prefix_rfl
  | whole hold =>
    refine ⟨_, by rw [hold.length_eq, List.length_reverse], .inr ?_⟩
    simp [Reading.tokens, stackTokens, toTokens]

/-- There are as many records as items were read, and maybe more. -/
theorem length_le_records {items : List Json} {tokens : List Token}
    (begun : .openArray :: itemTokens items <+: tokens)
    (read : Dataset.run tokens {} = .ok intake) : items.length ≤ intake.records.length := by
  obtain ⟨more, rfl⟩ := begun
  cases each : items.mapM Record.ofJson with
  | error flaw =>
    obtain ⟨before, item, after, rfl, fine, fails⟩ := mapM_eq_error_iff.1 each
    obtain ⟨found, hold⟩ := exists_hold fine
    obtain ⟨rest, longer⟩ := itemTokens_longer before item after
    have refused := run_spoiled hold fails (rest ++ more)
    simp only [← longer, List.cons_append, List.append_assoc] at read
    rw [refused] at read
    cases read
  | ok records =>
    have hold : Hold items records := mapM_eq_ok_iff.1 each
    rcases List.eq_nil_or_concat' items with rfl | ⟨before, item, rfl⟩
    · exact Nat.zero_le _
    · obtain ⟨found, record, rfl, hold', one⟩ := hold_concat.1 hold
      rw [List.cons_append, run_items hold' one] at read
      have added := (of_run read).2.length_le
      rwa [List.length_reverse, ← hold.length_eq] at added

end Sound

end Nearby.Dataset
