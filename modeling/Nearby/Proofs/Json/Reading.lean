/-
What the reader has read. A state holds all of it: the tokens that were taken in can be told from
the arrays and objects that are open and from their parts. Whatever is open can be closed, so the
tokens read are always those that some document begins with.
-/
import Nearby.Proofs.Json.Document

namespace Nearby.Json

/-! ## Parts with commas behind them -/

/-- The tokens of items, with a comma behind each. -/
def listed (items : List Json) : List Token := items.flatMap fun item => toTokens item ++ [.comma]

/-- The tokens of a member. -/
def memberTokensOf : List Char × Json → List Token
  | (key, value) => .string key :: .colon :: toTokens value

/-- The tokens of members, with a comma behind each. -/
def listedMembers (members : List (List Char × Json)) : List Token :=
  members.flatMap fun member => memberTokensOf member ++ [.comma]

theorem itemTokens_append (items : List Json) (item : Json) :
    itemTokens (items ++ [item]) = listed items ++ toTokens item := by
  induction items with
  | nil => rfl
  | cons first rest ih =>
    cases rest with
    | nil => simp [itemTokens, listed]
    | cons next rest =>
      simp only [List.cons_append, itemTokens] at ih ⊢
      simp [ih, listed]

theorem memberTokens_append (members : List (List Char × Json)) (member : List Char × Json) :
    memberTokens (members ++ [member]) = listedMembers members ++ memberTokensOf member := by
  induction members with
  | nil => rfl
  | cons first rest ih =>
    cases rest with
    | nil => simp [memberTokens, listedMembers, memberTokensOf]
    | cons next rest =>
      simp only [List.cons_append, memberTokens] at ih ⊢
      simp [ih, listedMembers, memberTokensOf]

/-- Items with a comma behind each are longer by the last one. -/
theorem itemTokens_listed (items : List Json) : itemTokens items <+: listed items := by
  rcases List.eq_nil_or_concat' items with rfl | ⟨before, item, rfl⟩
  · exact List.prefix_rfl
  · rw [itemTokens_append]
    simp [listed]

/-- More items only add tokens. -/
theorem itemTokens_longer (items : List Json) (item : Json) (more : List Json) :
    listed items ++ toTokens item <+: itemTokens (items ++ item :: more) := by
  induction items with
  | nil =>
    cases more with
    | nil => exact List.prefix_rfl
    | cons next more => exact List.prefix_append _ _
  | cons first items ih =>
    have rest : ∃ next more', items ++ item :: more = next :: more' := by
      cases items <;> exact ⟨_, _, rfl⟩
    obtain ⟨next, more', split⟩ := rest
    rw [split] at ih
    rw [List.cons_append, split, itemTokens]
    simp only [listed, List.flatMap_cons, List.append_assoc] at ih ⊢
    exact (List.prefix_append_right_inj _).2 (List.prefix_cons_inj _ |>.2 ih)

theorem memberTokens_longer (members : List (List Char × Json)) (member : List Char × Json)
    (more : List (List Char × Json)) : listedMembers members ++ memberTokensOf member <+:
      memberTokens (members ++ member :: more) := by
  induction members with
  | nil =>
    cases more with
    | nil => exact List.prefix_rfl
    | cons next more =>
      simp only [listedMembers, memberTokensOf, memberTokens, List.flatMap_nil, List.nil_append,
        List.prefix_cons_inj]
      exact List.prefix_append _ _
  | cons first members ih =>
    have rest : ∃ next more', members ++ member :: more = next :: more' := by
      cases members <;> exact ⟨_, _, rfl⟩
    obtain ⟨next, more', split⟩ := rest
    rw [split] at ih
    rw [List.cons_append, split, memberTokens]
    simp only [listedMembers, memberTokensOf, List.flatMap_cons, List.append_assoc,
      List.cons_append, List.prefix_cons_inj] at ih ⊢
    exact (List.prefix_append_right_inj _).2 (List.prefix_cons_inj _ |>.2 ih)

/-! ## The tokens of a state -/

/-- The tokens of an open array or object, up to the value that comes next. -/
def Frame.tokens : Frame → List Token
  | items before => .openArray :: listed before.reverse
  | member before key => .openObject :: (listedMembers before.reverse ++ [.string key, .colon])

/-- The tokens of all that is open, the outermost first. -/
def stackTokens : List Frame → List Token
  | [] => []
  | frame :: stack => stackTokens stack ++ frame.tokens

/-- The tokens that were read. -/
def Reading.tokens : Reading → List Token
  | value stack => stackTokens stack
  | firstItem stack => stackTokens stack ++ [.openArray]
  | firstKey stack => stackTokens stack ++ [.openObject]
  | key stack before => stackTokens stack ++ .openObject :: listedMembers before.reverse
  | colon stack before name =>
    stackTokens stack ++ .openObject :: (listedMembers before.reverse ++ [.string name])
  | complete stack done => stackTokens stack ++ toTokens done

theorem tokens_of_beginValue {stack : List Frame} {token : Token} (legal : token.Legal)
    {r : Reading} (begun : beginValue stack token = some r) :
    r.tokens = stackTokens stack ++ [token] := by
  cases token with
  | word value =>
    rcases legal with rfl | ⟨b, rfl⟩ <;> cases begun <;> rfl
  | _ => cases begun <;> rfl

theorem tokens_of_continueAfter {done : Json} {stack : List Frame} {token : Token} {r : Reading}
    (continued : continueAfter done stack token = some r) :
    r.tokens = stackTokens stack ++ toTokens done ++ [token] := by
  unfold continueAfter at continued
  split at continued <;> cases continued
  all_goals simp [Reading.tokens, stackTokens, Frame.tokens, listed, listedMembers, toTokens,
    itemTokens_append, memberTokens_append, memberTokensOf]

/-- A step adds the token to those read. -/
theorem tokens_of_step {r r' : Reading} {token : Token} (legal : token.Legal)
    (stepped : r.step token = some r') : r'.tokens = r.tokens ++ [token] := by
  unfold Reading.step at stepped
  split at stepped
  case h_1 => exact tokens_of_beginValue legal stepped
  case h_2 =>
    cases stepped
    simp [Reading.tokens, toTokens, itemTokens]
  case h_3 =>
    rw [tokens_of_beginValue legal stepped]
    simp [Reading.tokens, stackTokens, Frame.tokens, listed]
  case h_11 => exact tokens_of_continueAfter stepped
  all_goals cases stepped
  all_goals simp [Reading.tokens, stackTokens, Frame.tokens, listedMembers, toTokens, memberTokens]

/-- What the reader comes to holds the tokens that it was given. -/
theorem tokens_of_foldlM {tokens : List Token} (legal : ∀ token ∈ tokens, token.Legal)
    {r r' : Reading} (read : tokens.foldlM Reading.step r = some r') :
    r'.tokens = r.tokens ++ tokens := by
  induction tokens generalizing r with
  | nil =>
    cases read
    rw [List.append_nil]
  | cons token tokens ih =>
    obtain ⟨first, rest⟩ := List.forall_mem_cons.1 legal
    rw [List.foldlM_cons] at read
    obtain ⟨next, stepped, later⟩ := Option.bind_eq_some_iff.1 read
    rw [ih rest later, tokens_of_step first stepped, List.append_assoc]
    rfl

/-! ## Closing what is open -/

/-- What is open with a value in it begins an array or object with that value. -/
theorem items_longer (before : List Json) (base : List Frame) (value : Json) (more : List Json) :
    stackTokens (.items before :: base) ++ toTokens value <+:
      stackTokens base ++ toTokens (.array (before.reverse ++ value :: more)) := by
  simp only [stackTokens, Frame.tokens, toTokens, List.append_assoc, List.cons_append,
    List.prefix_append_right_inj, List.prefix_cons_inj]
  exact (itemTokens_longer _ _ _).trans (List.prefix_append _ _)

theorem member_longer (before : List (List Char × Json)) (key : List Char) (base : List Frame)
    (value : Json) (more : List (List Char × Json)) :
    stackTokens (.member before key :: base) ++ toTokens value <+:
      stackTokens base ++ toTokens (.object (before.reverse ++ (key, value) :: more)) := by
  have parts := memberTokens_longer before.reverse (key, value) more
  simp only [stackTokens, Frame.tokens, toTokens, memberTokensOf, List.append_assoc,
    List.cons_append, List.nil_append, List.prefix_append_right_inj,
    List.prefix_cons_inj] at parts ⊢
  exact parts.trans (List.prefix_append _ _)

/-- A value in open arrays and objects can be completed to one outside of them. -/
theorem exists_closed (inner base : List Frame) (done : Json) :
    ∃ whole, stackTokens (inner ++ base) ++ toTokens done <+:
      stackTokens base ++ toTokens whole := by
  induction inner generalizing done with
  | nil => exact ⟨done, List.prefix_rfl⟩
  | cons frame inner ih =>
    cases frame with
    | items before =>
      obtain ⟨whole, longer⟩ := ih (.array (before.reverse ++ [done]))
      exact ⟨whole, (items_longer _ _ _ _).trans longer⟩
    | member before key =>
      obtain ⟨whole, longer⟩ := ih (.object (before.reverse ++ [(key, done)]))
      exact ⟨whole, (member_longer _ _ _ _ _).trans longer⟩

/-- So can whatever was begun in them. -/
theorem exists_value {r : Reading} {inner base : List Frame} (is : r.stack = inner ++ base) :
    ∃ whole, r.tokens <+: stackTokens base ++ toTokens whole := by
  have closed : ∃ done, r.tokens <+: stackTokens r.stack ++ toTokens done := by
    cases r with
    | value stack => exact ⟨.null, List.prefix_append _ _⟩
    | firstItem stack => exact ⟨.array [], by simp [Reading.tokens, Reading.stack, toTokens]⟩
    | firstKey stack => exact ⟨.object [], by simp [Reading.tokens, Reading.stack, toTokens]⟩
    | key stack before =>
      refine ⟨.object (before.reverse ++ [([], .null)]), ?_⟩
      simp [Reading.tokens, Reading.stack, toTokens, memberTokens_append]
    | colon stack before name =>
      refine ⟨.object (before.reverse ++ [(name, .null)]), ?_⟩
      simp [Reading.tokens, Reading.stack, toTokens, memberTokens_append, memberTokensOf]
    | complete stack done => exact ⟨done, List.prefix_rfl⟩
  obtain ⟨done, longer⟩ := closed
  rw [is] at longer
  obtain ⟨whole, longer'⟩ := exists_closed inner base done
  exact ⟨whole, longer.trans longer'⟩

/-- What was read is what some document begins with. -/
theorem exists_begun (r : Reading) : ∃ j, r.tokens <+: toTokens j :=
  have whole : r.stack = r.stack ++ [] := (List.append_nil r.stack).symm
  exists_value whole

/-! ## What stays open -/

theorem stackTokens_append (inner base : List Frame) :
    stackTokens base <+: stackTokens (inner ++ base) := by
  induction inner with
  | nil => exact List.prefix_rfl
  | cons frame inner ih => exact ih.trans (List.prefix_append _ _)

/-- What is open was read. -/
theorem stackTokens_tokens (r : Reading) : stackTokens r.stack <+: r.tokens := by
  cases r with
  | value => exact List.prefix_rfl
  | _ => exact List.prefix_append _ _

theorem stack_of_beginValue {stack : List Frame} {token : Token} {r : Reading}
    (begun : beginValue stack token = some r) : r.stack = stack := by
  cases token <;> cases begun <;> rfl

/-- What is open stays open until the value in it is complete. -/
theorem stack_of_step {r r' : Reading} {token : Token} {inner base : List Frame}
    (is : r.stack = inner ++ base) (inside : ∀ value, r ≠ .complete base value)
    (stepped : r.step token = some r') : ∃ inner', r'.stack = inner' ++ base := by
  unfold Reading.step at stepped
  split at stepped
  case h_1 => exact ⟨inner, (stack_of_beginValue stepped).trans is⟩
  case h_3 stack _ _ =>
    exact ⟨.items [] :: inner, (stack_of_beginValue stepped).trans (congrArg _ is)⟩
  case h_9 => cases stepped; exact ⟨.member _ _ :: inner, congrArg _ is⟩
  case h_11 stack value =>
    obtain rfl : stack = inner ++ base := is
    cases inner with
    | nil => exact absurd rfl (inside value)
    | cons frame inner =>
      cases frame <;> cases token <;> cases stepped
      all_goals first | exact ⟨inner, rfl⟩ | exact ⟨.items _ :: inner, rfl⟩
  all_goals cases stepped
  all_goals exact ⟨inner, is⟩

end Nearby.Json
