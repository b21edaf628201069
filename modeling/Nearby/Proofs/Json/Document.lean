/-
Documents from their tokens. The tokens of a document are given by recursion on it; the reader
goes over them with a stack and is back at the same stack, with the document complete, behind the
last one. So a text that lays out the tokens of a document is read as that document.
-/
import Nearby.Json.Reader
import Nearby.Proofs.Json.Scanning

namespace Nearby.Json

/-! ## The tokens of a document -/

mutual

/-- The tokens of a document, in order. -/
def toTokens : Json → List Token
  | null => [.word null]
  | bool value => [.word (bool value)]
  | number spelling => [.number spelling]
  | string spelling => [.string spelling]
  | array items => .openArray :: (itemTokens items ++ [.closeArray])
  | object members => .openObject :: (memberTokens members ++ [.closeObject])

/-- The tokens of items, with commas between them. -/
def itemTokens : List Json → List Token
  | [] => []
  | [item] => toTokens item
  | item :: next :: rest => toTokens item ++ .comma :: itemTokens (next :: rest)

/-- The tokens of members, with commas between them. -/
def memberTokens : List (List Char × Json) → List Token
  | [] => []
  | [(key, value)] => .string key :: .colon :: toTokens value
  | (key, value) :: next :: rest =>
    .string key :: .colon :: (toTokens value ++ .comma :: memberTokens (next :: rest))

end

/-! ## Numbers stand apart -/

theorem parted_cons {token : Token} {more : List Token}
    (next : token.isNumber = true → ∀ t ∈ more.head?, t.isMark = true) (follows : Parted more) :
    Parted (token :: more) := by
  cases more with
  | nil => exact .singleton token
  | cons t more => exact List.isChain_cons_cons.2 ⟨fun number => next number t rfl, follows⟩

mutual

/-- Before a mark, or at the end, the numbers of a document are followed by marks only. -/
theorem parted_value (j : Json) {more : List Token} (mark : ∀ t ∈ more.head?, t.isMark = true)
    (follows : Parted more) : Parted (toTokens j ++ more) := by
  match j with
  | null => exact parted_cons nofun follows
  | bool value => exact parted_cons nofun follows
  | number spelling => exact parted_cons (fun _ => mark) follows
  | string spelling => exact parted_cons nofun follows
  | array items =>
    rw [toTokens, List.cons_append, List.append_assoc]
    exact parted_cons nofun
      (parted_items items (by simp [Token.isMark]) (parted_cons nofun follows))
  | object members =>
    rw [toTokens, List.cons_append, List.append_assoc]
    exact parted_cons nofun
      (parted_members members (by simp [Token.isMark]) (parted_cons nofun follows))

theorem parted_items (items : List Json) {more : List Token}
    (mark : ∀ t ∈ more.head?, t.isMark = true) (follows : Parted more) :
    Parted (itemTokens items ++ more) := by
  match items with
  | [] => exact follows
  | [item] => exact parted_value item mark follows
  | item :: next :: rest =>
    rw [itemTokens, List.append_assoc]
    exact parted_value item (by simp [Token.isMark])
      (parted_cons nofun (parted_items (next :: rest) mark follows))

theorem parted_members (members : List (List Char × Json)) {more : List Token}
    (mark : ∀ t ∈ more.head?, t.isMark = true) (follows : Parted more) :
    Parted (memberTokens members ++ more) := by
  match members with
  | [] => exact follows
  | [(key, value)] => exact parted_cons nofun (parted_cons nofun (parted_value value mark follows))
  | (key, value) :: next :: rest =>
    rw [memberTokens, List.cons_append, List.cons_append, List.append_assoc]
    exact parted_cons nofun (parted_cons nofun (parted_value value (by simp [Token.isMark])
      (parted_cons nofun (parted_members (next :: rest) mark follows))))

end

theorem parted_toTokens (j : Json) : Parted (toTokens j) := by
  rw [← List.append_nil (toTokens j)]
  exact parted_value j nofun .nil

/-! ## Reading a document -/

/-- What is open. -/
def Reading.stack : Reading → List Frame
  | value stack | firstItem stack | firstKey stack | key stack _ | colon stack _ _
  | complete stack _ => stack

section Leads

variable (allowed : Reading → Bool)

/-- The tokens lead the reader from one state to another, through states that are allowed. -/
def Leads (tokens : List Token) (r r' : Reading) : Prop :=
  tokens.foldlM (fun r token => (r.step token).filter allowed) r = some r'

variable {allowed}

theorem Leads.append {first second : List Token} {r r' r'' : Reading}
    (h : Leads allowed first r r') (h' : Leads allowed second r' r'') :
    Leads allowed (first ++ second) r r'' := by
  unfold Leads at *
  rw [List.foldlM_append, h]
  exact h'

theorem Leads.cons {token : Token} {tokens : List Token} {r r' r'' : Reading}
    (h : r.step token = some r') (allow : allowed r' = true) (h' : Leads allowed tokens r' r'') :
    Leads allowed (token :: tokens) r r'' := by
  unfold Leads at *
  rw [List.foldlM_cons, h, Option.filter_some, if_pos allow]
  exact h'

theorem Leads.one {token : Token} {r r' : Reading} (h : r.step token = some r')
    (allow : allowed r' = true) : Leads allowed [token] r r' :=
  .cons h allow rfl

theorem Leads.foldlM {tokens : List Token} {r r' : Reading} (h : Leads allowed tokens r r') :
    tokens.foldlM Reading.step r = some r' := by
  induction tokens generalizing r with
  | nil => exact h
  | cons token tokens ih =>
    unfold Leads at h
    rw [List.foldlM_cons] at h ⊢
    obtain ⟨next, stepped, later⟩ := Option.bind_eq_some_iff.1 h
    rw [(Option.filter_eq_some_iff.1 stepped).1]
    exact ih later

/-- What begins a value begins the first item of an array as well. -/
theorem leads_firstItem (item : Json) {more : List Token} {stack : List Frame} {r : Reading}
    (h : Leads allowed (toTokens item ++ more) (.value (.items [] :: stack)) r) :
    Leads allowed (toTokens item ++ more) (.firstItem stack) r := by
  cases item <;> exact h

/-- What goes on with a further key begins the first member of an object as well. -/
theorem leads_firstKey (member : List Char × Json) {rest : List (List Char × Json)}
    {more : List Token} {stack : List Frame} {r : Reading}
    (h : Leads allowed (memberTokens (member :: rest) ++ more) (.key stack []) r) :
    Leads allowed (memberTokens (member :: rest) ++ more) (.firstKey stack) r := by
  cases rest <;> exact h

/-- All states in which the given arrays and objects are open are allowed. -/
def AllowedAbove (allowed : Reading → Bool) (stack : List Frame) : Prop :=
  ∀ (r : Reading) (inner : List Frame), r.stack = inner ++ stack → allowed r = true

theorem AllowedAbove.push {stack : List Frame} (above : AllowedAbove allowed stack)
    (frame : Frame) : AllowedAbove allowed (frame :: stack) :=
  fun r inner is => above r (inner ++ [frame]) (by rw [is, List.append_assoc]; rfl)

theorem AllowedAbove.here {stack : List Frame} (above : AllowedAbove allowed stack) {r : Reading}
    (is : r.stack = stack) : allowed r = true :=
  above r [] is

mutual

/-- Where a value must come, a document is completed by its tokens. -/
theorem leads_value (j : Json) {stack : List Frame} (above : AllowedAbove allowed stack) :
    Leads allowed (toTokens j) (.value stack) (.complete stack j) := by
  match j with
  | null => exact .one rfl (above.here rfl)
  | bool value => exact .one rfl (above.here rfl)
  | number spelling => exact .one rfl (above.here rfl)
  | string spelling => exact .one rfl (above.here rfl)
  | array [] => exact .cons rfl (above.here rfl) (.one rfl (above.here rfl))
  | array (item :: rest) =>
    -- the first item is read from a state of its own, in which the array may also end
    have items := leads_items (item :: rest) (by simp) [] above
    refine .cons rfl (above.here rfl) ?_
    cases rest with
    | nil => exact leads_firstItem item items
    | cons next rest =>
      rw [itemTokens, List.append_assoc] at items ⊢
      exact leads_firstItem item items
  | object [] => exact .cons rfl (above.here rfl) (.one rfl (above.here rfl))
  | object (member :: rest) =>
    exact .cons rfl (above.here rfl)
      (leads_firstKey member (leads_members (member :: rest) (by simp) [] above))

/-- Items complete the array that they are in. -/
theorem leads_items (items : List Json) (nonempty : items ≠ []) (before : List Json)
    {stack : List Frame} (above : AllowedAbove allowed stack) :
    Leads allowed (itemTokens items ++ [.closeArray]) (.value (.items before :: stack))
      (.complete stack (.array (before.reverse ++ items))) := by
  match items with
  | [] => exact absurd rfl nonempty
  | [item] =>
    refine (leads_value item (above.push _)).append (.one ?_ (above.here rfl))
    simp [Reading.step, continueAfter]
  | item :: next :: rest =>
    rw [itemTokens, List.append_assoc]
    refine (leads_value item (above.push _)).append
      (.cons rfl ((above.push (.items (item :: before))).here rfl) ?_)
    -- behind the comma the item is one of those before
    have later := leads_items (next :: rest) (by simp) (item :: before) above
    rwa [List.reverse_cons, List.append_assoc] at later

/-- Members complete the object that they are in. -/
theorem leads_members (members : List (List Char × Json)) (nonempty : members ≠ [])
    (before : List (List Char × Json)) {stack : List Frame} (above : AllowedAbove allowed stack) :
    Leads allowed (memberTokens members ++ [.closeObject]) (.key stack before)
      (.complete stack (.object (before.reverse ++ members))) := by
  match members with
  | [] => exact absurd rfl nonempty
  | [(key, value)] =>
    refine .cons rfl (above.here rfl) (.cons rfl ((above.push (.member before key)).here rfl)
      ((leads_value value (above.push _)).append (.one ?_ (above.here rfl))))
    simp [Reading.step, continueAfter]
  | (key, value) :: next :: rest =>
    rw [memberTokens, List.cons_append, List.cons_append, List.append_assoc]
    refine .cons rfl (above.here rfl) (.cons rfl ((above.push (.member before key)).here rfl)
      ((leads_value value (above.push _)).append (.cons rfl (above.here rfl) ?_)))
    have later := leads_members (next :: rest) (by simp) ((key, value) :: before) above
    rwa [List.reverse_cons, List.append_assoc] at later

end

end Leads

/-- The reader comes to a document by its tokens. -/
theorem foldlM_toTokens (j : Json) :
    (toTokens j).foldlM Reading.step (.value []) = some (.complete [] j) := by
  have above : AllowedAbove (fun _ => true) [] := fun _ _ _ => rfl
  exact (leads_value j above).foldlM

/-- The tokens of a document make up that document. -/
theorem ofTokens_toTokens (j : Json) : ofTokens (toTokens j) = some j := by
  unfold ofTokens
  rw [foldlM_toTokens]

/-- A text that lays out the tokens of a document is read as the document. -/
theorem read_of_laysOut {j : Json} {text : String} (laid : LaysOut text.toList j.toTokens) :
    Json.read text = some j := by
  unfold Json.read
  rw [laid.tokens (parted_toTokens j)]
  exact ofTokens_toTokens j

/-! ## Writing a document -/

mutual

/-- The strings and numbers of the document are spelled by the grammar. -/
def Legal : Json → Prop
  | null => True
  | bool _ => True
  | number spelling => NumberSpelling spelling
  | string spelling => StringSpelling spelling
  | array items => LegalItems items
  | object members => LegalMembers members

/-- So are those of all items. -/
def LegalItems : List Json → Prop
  | [] => True
  | item :: rest => Legal item ∧ LegalItems rest

/-- So are the keys and values of all members. -/
def LegalMembers : List (List Char × Json) → Prop
  | [] => True
  | (key, value) :: rest => StringSpelling key ∧ Legal value ∧ LegalMembers rest

end

theorem legal_ofText (text : String) : Legal (ofText text) := (spells_escape _).spelling

/-- An object is spelled by the grammar if its values are. -/
theorem legal_ofMembers {members : List (String × Json)}
    (legal : ∀ member ∈ members, Legal member.2) : Legal (ofMembers members) := by
  show LegalMembers (members.map _)
  induction members with
  | nil => trivial
  | cons member rest ih =>
    obtain ⟨first, rest⟩ := List.forall_mem_cons.1 legal
    exact ⟨(spells_escape _).spelling, first, ih rest⟩

/-- An array is spelled by the grammar if its items are. -/
theorem legal_array {items : List Json} (legal : ∀ item ∈ items, Legal item) :
    Legal (.array items) := by
  show LegalItems items
  induction items with
  | nil => trivial
  | cons item rest ih =>
    obtain ⟨first, rest⟩ := List.forall_mem_cons.1 legal
    exact ⟨first, ih rest⟩

theorem LaysOut.after {cs : List Char} {tokens : List Token} (laid : LaysOut cs tokens)
    {gap : List Char} (blank : Gap gap) : LaysOut (gap ++ cs) tokens := by
  have both : ∀ {gap' : List Char}, Gap gap' → Gap (gap ++ gap') :=
    fun blank' c hc => (List.mem_append.1 hc).elim (blank c) (blank' c)
  cases laid with
  | nil blank' => exact .nil (both blank')
  | cons blank' legal laid =>
    rw [← List.append_assoc, ← List.append_assoc]
    exact .cons (both blank') legal laid

/-- A token may follow without a blank. -/
theorem LaysOut.next {cs : List Char} {tokens : List Token} (token : Token) (legal : token.Legal)
    (laid : LaysOut cs tokens) : LaysOut (token.chars ++ cs) (token :: tokens) :=
  have none : Gap [] := nofun
  .cons none legal laid

mutual

/-- A document on one line lays out its tokens. -/
theorem laysOut_compact (j : Json) (legal : Legal j) {cs : List Char} {tokens : List Token}
    (laid : LaysOut cs tokens) : LaysOut (compactChars j ++ cs) (toTokens j ++ tokens) := by
  match j with
  | null => exact laid.next (.word null) (.inl rfl)
  | bool value => exact laid.next (.word (bool value)) (.inr ⟨value, rfl⟩)
  | number spelling => exact laid.next (.number spelling) legal
  | string spelling => exact laid.next (.string spelling) legal
  | array items =>
    simp only [compactChars, toTokens, List.cons_append, List.append_assoc]
    exact (laysOut_items items legal (laid.next .closeArray trivial)).next .openArray trivial
  | object members =>
    simp only [compactChars, toTokens, List.cons_append, List.append_assoc]
    exact (laysOut_members members legal (laid.next .closeObject trivial)).next .openObject trivial

theorem laysOut_items (items : List Json) (legal : LegalItems items) {cs : List Char}
    {tokens : List Token} (laid : LaysOut cs tokens) :
    LaysOut (compactItems items ++ cs) (itemTokens items ++ tokens) := by
  match items with
  | [] => exact laid
  | [item] => exact laysOut_compact item legal.1 laid
  | item :: next :: rest =>
    rw [compactItems, itemTokens, List.append_assoc, List.append_assoc]
    exact laysOut_compact item legal.1
      ((laysOut_items (next :: rest) legal.2 laid).next .comma trivial)

theorem laysOut_members (members : List (List Char × Json)) (legal : LegalMembers members)
    {cs : List Char} {tokens : List Token} (laid : LaysOut cs tokens) :
    LaysOut (compactMembers members ++ cs) (memberTokens members ++ tokens) := by
  match members with
  | [] => exact laid
  | [(key, value)] =>
    rw [compactMembers, memberTokens, List.append_assoc]
    exact ((laysOut_compact value legal.2.1 laid).next .colon trivial).next (.string key) legal.1
  | (key, value) :: next :: rest =>
    simp only [compactMembers, memberTokens, List.cons_append, List.append_assoc]
    exact ((laysOut_compact value legal.2.1
      ((laysOut_members (next :: rest) legal.2.2 laid).next .comma trivial)).next .colon
        trivial).next (.string key) legal.1

end

theorem laysOut_toList_compact {j : Json} (legal : Legal j) :
    LaysOut (compact j).toList j.toTokens := by
  have none : LaysOut [] [] := .nil nofun
  have laid := laysOut_compact j legal none
  rw [List.append_nil, List.append_nil] at laid
  unfold compact
  rwa [String.toList_ofList]

/-- What is written on one line is read back. -/
theorem read_compact {j : Json} (legal : Legal j) : Json.read (compact j) = some j :=
  read_of_laysOut (laysOut_toList_compact legal)

end Nearby.Json
