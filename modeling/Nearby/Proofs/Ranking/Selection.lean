/-
Ranking as an exact selection. Hits are told apart by the bits of their distance and by their
identifier, and by nothing else; on these the order is total, whatever the bits spell. The first
hits of a list are the first of its one stable sort, so they do not depend on how hits that differ
were arranged, and asking for more of them only adds to the end.
-/
import Nearby.Proofs.Ranking
import Mathlib

namespace Nearby

open Decimal

/-! ## The total order of doubles -/

namespace Decimal

open Float.Model Float.Model.UnpackedFloat

/-- The sign bit is set. -/
def HasSign (bits : UInt64) : Prop := 2 ^ 63 ≤ bits.toNat

/-- The bits spell no number: those below the sign are beyond the ones of infinity. -/
def IsNoNumber (bits : UInt64) : Prop := 2047 * 2 ^ 52 < bits.toNat % 2 ^ 63

/-- The total order on all patterns of bits, said case by case. -/
inductive Precedes : UInt64 → UInt64 → Prop where
  /-- Numbers stand by value. -/
  | less {p q : UInt64} : ¬ IsNoNumber p → ¬ IsNoNumber q → Float.ofBits p < Float.ofBits q →
      Precedes p q
  /-- The negative zero stands before the other. -/
  | zeros : Precedes 0x8000000000000000 0
  /-- What is no number and has a sign stands before all else. -/
  | first {p q : UInt64} : IsNoNumber p → HasSign p → ¬ (IsNoNumber q ∧ HasSign q) → Precedes p q
  /-- What is no number and has no sign stands after all else. -/
  | last {p q : UInt64} : ¬ (IsNoNumber p ∧ ¬ HasSign p) → IsNoNumber q → ¬ HasSign q →
      Precedes p q
  /-- Among those with a sign the greater payload stands first. -/
  | greater {p q : UInt64} : IsNoNumber p → IsNoNumber q → HasSign p → HasSign q → q < p →
      Precedes p q
  /-- Among those without a sign the lesser payload stands first. -/
  | lesser {p q : UInt64} : IsNoNumber p → IsNoNumber q → ¬ HasSign p → ¬ HasSign q → p < q →
      Precedes p q

/-- No two patterns share a place. -/
theorem patternKey_injective {p q : UInt64} (same : patternKey p = patternKey q) : p = q := by
  have power : twoTo 63 = 2 ^ 63 := rfl
  unfold patternKey at same
  rw [power] at same
  refine UInt64.toNat_inj.1 ?_
  split_ifs at same <;> omega

/-! ### Numbers -/

/-- Numbers keep their bits. -/
theorem toBits_ofBits {p : UInt64} (number : ¬ IsNoNumber p) : (Float.ofBits p).toBits = p := by
  unfold IsNoNumber at number
  have valid : Format.binary64.Valid p.toBitVec := by
    constructor
    intro full some
    have all : p.toNat / 2 ^ 52 % 2 ^ 11 = 2047 := by rw [← exponent_field, full]; rfl
    have more : p.toNat % 2 ^ 52 ≠ 0 := by
      rw [← fraction_field]
      exact fun none => some (BitVec.eq_of_toNat_eq none)
    omega
  exact congrArg Float.toBits (Float.ofBits_toBits ⟨⟨p, valid⟩⟩)

theorem isNaN_ofBits {p : UInt64} (number : ¬ IsNoNumber p) : (Float.ofBits p).isNaN = false := by
  by_contra isNaN
  have bits := toBits_of_isNaN (Bool.eq_true_of_not_eq_false isNaN)
  rw [toBits_ofBits number] at bits
  unfold IsNoNumber at number
  omega

/-- Numbers with different keys and equal values are the two zeros. -/
theorem patternKey_lt_iff_of_numbers {p q : UInt64} (hp : ¬ IsNoNumber p) (hq : ¬ IsNoNumber q) :
    patternKey p < patternKey q ↔ Float.ofBits p < Float.ofBits q ∨
      (p = 0x8000000000000000 ∧ q = 0) := by
  have power : twoTo 63 = 2 ^ 63 := rfl
  have zeros : (p = 0x8000000000000000 ∧ q = 0) ↔ (p.toNat = 2 ^ 63 ∧ q.toNat = 0) := by
    rw [← UInt64.toNat_inj, ← UInt64.toNat_inj]
    rfl
  rw [zeros, lt_iff, isNaN_ofBits hp, isNaN_ofBits hq]
  unfold patternKey signedBits
  rw [toBits_ofBits hp, toBits_ofBits hq, power]
  simp only [true_and]
  split_ifs <;> omega

/-! ### All patterns -/

/-- The key is that of the total order. -/
theorem patternKey_lt_iff (p q : UInt64) : patternKey p < patternKey q ↔ Precedes p q := by
  have power : twoTo 63 = 2 ^ 63 := rfl
  have hp := p.toNat_lt
  have hq := q.toNat_lt
  constructor
  · intro key
    by_cases np : IsNoNumber p
    · by_cases sp : HasSign p
      · by_cases outside : IsNoNumber q ∧ HasSign q
        · refine .greater np outside.1 sp outside.2 ?_
          simp only [IsNoNumber, HasSign, UInt64.lt_iff_toNat_lt, patternKey, power] at *
          split_ifs at key <;> omega
        · exact .first np sp outside
      · -- above a greatest one there are only those with greater payloads
        have beyond : IsNoNumber q ∧ ¬ HasSign q ∧ p < q := by
          simp only [IsNoNumber, HasSign, UInt64.lt_iff_toNat_lt, patternKey, power] at *
          split_ifs at key <;> omega
        exact .lesser np beyond.1 sp beyond.2.1 beyond.2.2
    · by_cases nq : IsNoNumber q
      · refine .last (fun outside => np outside.1) nq fun sq => ?_
        simp only [IsNoNumber, HasSign, patternKey, power] at *
        split_ifs at key <;> omega
      · rcases (patternKey_lt_iff_of_numbers np nq).1 key with less | ⟨rfl, rfl⟩
        · exact .less np nq less
        · exact .zeros
  · intro precedes
    cases precedes with
    | less np nq less => exact (patternKey_lt_iff_of_numbers np nq).2 (.inl less)
    | zeros => decide
    | _ =>
      simp only [IsNoNumber, HasSign, UInt64.lt_iff_toNat_lt, patternKey, power] at *
      split_ifs <;> omega

end Decimal

/-! ## The order of hits -/

variable {δ : Type} [Binary64 δ]

/-- All that the order looks at in a hit. -/
structure Standing where
  distance : UInt64
  id : String

/-- By the total order of distances, then by identifier. -/
def Standing.compare (a b : Standing) : Ordering :=
  (Ord.compare (patternKey a.distance) (patternKey b.distance)).then (Ord.compare a.id b.id)

instance : Std.TransCmp Standing.compare :=
  inferInstanceAs (Std.TransCmp (compareLex (compareOn fun s : Standing => patternKey s.distance)
    (compareOn fun s : Standing => s.id)))

instance : Std.LawfulEqCmp Standing.compare where
  eq_of_compare {a b} equal := by
    obtain ⟨p, i⟩ := a
    obtain ⟨q, j⟩ := b
    obtain ⟨near, named⟩ := Ordering.then_eq_eq.1 equal
    obtain rfl : p = q := patternKey_injective (Std.LawfulEqCmp.eq_of_compare near)
    obtain rfl : i = j := Std.LawfulEqCmp.eq_of_compare named
    rfl
  compare_self := Std.ReflCmp.compare_self

namespace Hit

/-- What the order looks at in the hit. -/
def standing (hit : Hit δ) : Standing := ⟨Binary64.bits hit.distanceKm, hit.branch.id⟩

theorem compare_eq_standing (a b : Hit δ) : a.compare b = a.standing.compare b.standing := rfl

theorem compare_swap (a b : Hit δ) : b.compare a = (a.compare b).swap := Std.OrientedCmp.eq_swap

theorem compare_self (a : Hit δ) : a.compare a = .eq := Std.ReflCmp.compare_self

theorem compare_eq_iff (a b : Hit δ) : a.compare b = .eq ↔
    Binary64.bits a.distanceKm = Binary64.bits b.distanceKm ∧ a.branch.id = b.branch.id := by
  rw [compare_eq_standing, Std.LawfulEqCmp.compare_eq_iff_eq]
  exact Standing.mk.injEq .. ▸ Iff.rfl

/-- Nearer hits come first, and of hits at the same distance those with the lesser identifier. -/
theorem compare_lt_iff (a b : Hit δ) : a.compare b = .lt ↔
    Precedes (Binary64.bits a.distanceKm) (Binary64.bits b.distanceKm) ∨
    (Binary64.bits a.distanceKm = Binary64.bits b.distanceKm ∧ a.branch.id < b.branch.id) := by
  unfold Hit.compare totalKey
  rw [Ordering.then_eq_lt, compare_lt_iff_lt, patternKey_lt_iff]
  refine or_congr Iff.rfl (and_congr ?_ compareOfLessAndEq_eq_lt)
  rw [Std.LawfulEqCmp.compare_eq_iff_eq]
  exact ⟨patternKey_injective, congrArg patternKey⟩

/-- The zeros are different distances, and so not a tie. -/
example (b : Branch) (bearing : Option Float) :
    (⟨b, -0.0, bearing⟩ : Hit).compare ⟨b, 0.0, bearing⟩ = .lt :=
  have bits : (-0.0 : Float).toBits = 0x8000000000000000 ∧ (0.0 : Float).toBits = 0 := by
    decide +kernel
  (compare_lt_iff _ _).2 (.inl (show Precedes (-0.0 : Float).toBits (0.0 : Float).toBits from
    bits.1 ▸ bits.2 ▸ .zeros))

/-- What is no number comes before every number, under a sign. -/
example (b : Branch) : (⟨b, 0xFFF8000000000000, none⟩ : Hit UInt64).compare ⟨b, 0, none⟩ = .lt :=
  have noNumber : IsNoNumber 0xFFF8000000000000 := by unfold IsNoNumber; decide
  have sign : HasSign 0xFFF8000000000000 := by unfold HasSign; decide
  have zero : ¬ (IsNoNumber 0 ∧ HasSign 0) := by unfold IsNoNumber HasSign; decide
  (compare_lt_iff _ _).2 (.inl (.first noNumber sign zero))

theorem notAfter_iff {a b : Hit δ} : a.notAfter b = true ↔ a.compare b ≠ .gt := bne_iff_ne

/-- Hits that compare equal do so with the same hits. -/
theorem notAfter_of_compare_eq {a b c : Hit δ} (ab : a.compare b = .eq) (ac : a.compare c = .eq) :
    b.notAfter c = true := by
  have ba : b.compare a = .eq := by rw [compare_swap, ab]; rfl
  have trans := notAfter_trans b a c
  simp only [notAfter, ba, ac] at trans ⊢
  exact trans rfl rfl

end Hit

/-! ## The stable sort -/

/-- The hits that compare equal to a given one, in the order they are listed in. -/
def tiedWith (hit : Hit δ) (hits : List (Hit δ)) : List (Hit δ) := hits.filter (hit.compare · = .eq)

theorem mem_tiedWith {hit a : Hit δ} {hits : List (Hit δ)} :
    a ∈ tiedWith hit hits ↔ a ∈ hits ∧ hit.compare a = .eq := by
  simp [tiedWith]

theorem tiedWith_tiedWith (hit : Hit δ) (hits : List (Hit δ)) :
    tiedWith hit (tiedWith hit hits) = tiedWith hit hits := by
  simp [tiedWith]

theorem tiedWith_cons_of_eq {hit a : Hit δ} {hits : List (Hit δ)} (tie : hit.compare a = .eq) :
    tiedWith hit (a :: hits) = a :: tiedWith hit hits :=
  List.filter_cons_of_pos (decide_eq_true tie)

theorem tiedWith_cons_inj {hit a : Hit δ} {l m : List (Hit δ)}
    (same : tiedWith hit (a :: l) = tiedWith hit (a :: m)) : tiedWith hit l = tiedWith hit m := by
  unfold tiedWith at same ⊢
  rw [List.filter_cons, List.filter_cons] at same
  split at same
  · exact (List.cons_eq_cons.1 same).2
  · exact same

theorem first_le {a b : Hit δ} {l : List (Hit δ)}
    (ordered : (a :: l).Pairwise fun a b => a.compare b ≠ .gt) (mem : b ∈ a :: l) :
    a.compare b ≠ .gt := by
  rcases List.mem_cons.1 mem with rfl | mem
  · rw [Hit.compare_self]
    decide
  · exact (List.pairwise_cons.1 ordered).1 b mem

/-- The same hits in order, those that compare equal as they came. -/
structure StableSort (hits sorted : List (Hit δ)) : Prop where
  perm : sorted.Perm hits
  ordered : sorted.Pairwise fun a b => a.compare b ≠ .gt
  stable : ∀ hit, tiedWith hit sorted = tiedWith hit hits

/-- There is such a list. -/
theorem stableSort_mergeSort (hits : List (Hit δ)) :
    StableSort hits (hits.mergeSort Hit.notAfter) where
  perm := List.mergeSort_perm hits _
  ordered := (List.pairwise_mergeSort Hit.notAfter_trans Hit.notAfter_total hits).imp
    Hit.notAfter_iff.1
  stable hit := by
    have sorted : (tiedWith hit hits).Pairwise fun a b => a.notAfter b = true := by
      refine List.pairwise_of_forall_mem_list fun a ha b hb => ?_
      exact Hit.notAfter_of_compare_eq (mem_tiedWith.1 ha).2 (mem_tiedWith.1 hb).2
    have kept := List.sublist_mergeSort Hit.notAfter_trans Hit.notAfter_total sorted
      List.filter_sublist
    -- the tied hits are among the sorted ones, and no more of those are tied
    have inner : (tiedWith hit (tiedWith hit hits)).Sublist
        (tiedWith hit (hits.mergeSort Hit.notAfter)) := kept.filter _
    rw [tiedWith_tiedWith] at inner
    refine (inner.eq_of_length ?_).symm
    exact ((List.mergeSort_perm hits Hit.notAfter).filter _).length_eq.symm

/-- Lists in order with the same ties are the same: the first hits tie, so they are the first of
their ties, and the rest follows. -/
theorem eq_of_tiedWith_eq {l m : List (Hit δ)} (perm : l.Perm m)
    (ordered : l.Pairwise fun a b => a.compare b ≠ .gt)
    (ordered' : m.Pairwise fun a b => a.compare b ≠ .gt)
    (same : ∀ hit, tiedWith hit l = tiedWith hit m) : l = m := by
  induction l generalizing m with
  | nil => exact (List.nil_perm.1 perm).symm
  | cons a l ih =>
    cases m with
    | nil => exact absurd perm.length_eq (by simp)
    | cons b m =>
      have le : a.compare b ≠ .gt := first_le ordered (perm.mem_iff.2 List.mem_cons_self)
      have ge : b.compare a ≠ .gt := first_le ordered' (perm.mem_iff.1 List.mem_cons_self)
      have tie : a.compare b = .eq := by
        rw [Hit.compare_swap] at ge
        cases h : a.compare b <;> simp_all
      have heads := same a
      rw [tiedWith_cons_of_eq (Hit.compare_self a), tiedWith_cons_of_eq tie] at heads
      obtain ⟨rfl, -⟩ := List.cons_eq_cons.1 heads
      refine congrArg (a :: ·) (ih perm.cons_inv ordered.of_cons ordered'.of_cons fun hit => ?_)
      exact tiedWith_cons_inj (same hit)

/-- There is no other. -/
theorem StableSort.unique {hits sorted sorted' : List (Hit δ)} (h : StableSort hits sorted)
    (h' : StableSort hits sorted') : sorted = sorted' :=
  eq_of_tiedWith_eq (h.perm.trans h'.perm.symm) h.ordered h'.ordered fun hit =>
    (h.stable hit).trans (h'.stable hit).symm

/-- Without ties, a list and any rearrangement of it have the same stable sort. -/
theorem mergeSort_eq_of_perm {hits hits' : List (Hit δ)} (perm : hits.Perm hits')
    (apart : hits.Pairwise fun a b => a.compare b ≠ .eq) :
    hits.mergeSort Hit.notAfter = hits'.mergeSort Hit.notAfter := by
  have h := stableSort_mergeSort hits
  have h' := stableSort_mergeSort hits'
  have symmetric : Std.Symm fun a b : Hit δ => a.compare b ≠ .eq := by
    constructor
    intro a b differ tie
    rw [Hit.compare_swap] at tie
    cases ab : a.compare b <;> simp_all
  refine List.Perm.eq_of_pairwise ?_ h.ordered h'.ordered
    ((h.perm.trans perm).trans h'.perm.symm)
  intro a b ha hb le ge
  by_contra differ
  have between := apart.forall (h.perm.mem_iff.1 ha)
    (perm.mem_iff.2 (h'.perm.mem_iff.1 hb)) differ
  rw [Hit.compare_swap] at ge
  cases ab : a.compare b <;> simp_all

/-! ## The first hits -/

/-- The list is the first hits of another: a part of its stable sort from the start, as long as
the limit and the hits allow. -/
structure FirstOf (hits : List (Hit δ)) (limit : Nat) (top : List (Hit δ)) : Prop where
  length : top.length = min limit hits.length
  sorted : ∃ sorted, StableSort hits sorted ∧ top <+: sorted
  ordered : top.Pairwise fun a b => a.compare b ≠ .gt
  /-- No hit is listed more often than it came in. -/
  subperm : top.Subperm hits
  /-- The others do not come before any of them. -/
  dropped : ∃ rest, hits.Perm (top ++ rest) ∧ ∀ kept ∈ top, ∀ other ∈ rest, kept.compare other ≠ .gt
  /-- Of hits that compare equal the earliest are listed, in the order they came in. -/
  stable : ∀ hit, tiedWith hit top <+: tiedWith hit hits

theorem firstOf_topHits (hits : List (Hit δ)) (limit : Nat) :
    FirstOf hits limit (topHits hits limit) := by
  have h := stableSort_mergeSort hits
  unfold topHits
  generalize hits.mergeSort Hit.notAfter = sorted at h
  have split := List.take_append_drop limit sorted
  have ordered := h.ordered
  have perm := h.perm
  rw [← split] at ordered perm
  obtain ⟨front, -, across⟩ := List.pairwise_append.1 ordered
  refine ⟨?_, ⟨sorted, h, List.take_prefix ..⟩, front, ?_, ⟨_, perm.symm, across⟩, fun hit => ?_⟩
  · rw [List.length_take, h.perm.length_eq]
  · exact (List.take_sublist limit sorted).subperm.trans h.perm.subperm
  · rw [← h.stable hit]
    exact (List.take_prefix limit sorted).filter _

/-- A way to choose hits from a list takes the first ones of it, the same however the list is
arranged if nothing ties, and more of them for a greater limit. -/
structure Selects {α : Type} (measure : α → Hit δ)
    (choose : List α → Nat → Except Fault (List (Hit δ))) : Prop where
  first : ∀ l limit, 1 ≤ limit →
    ∃ top, choose l limit = .ok top ∧ FirstOf (l.map measure) limit top
  arranged : ∀ l l' limit, l.Perm l' →
    ((l.map measure).Pairwise fun a b => a.compare b ≠ .eq) → choose l limit = choose l' limit
  longer : ∀ l limit limit' top top', limit ≤ limit' → choose l limit = .ok top →
    choose l limit' = .ok top' → top <+: top'

theorem topHits_of_rank {hits top : List (Hit δ)} {limit : Nat}
    (ranked : rank hits limit = .ok top) : top = topHits hits limit := by
  cases limit with
  | zero => cases ranked
  | succ limit =>
    rw [rank_of_pos hits (by omega)] at ranked
    cases ranked
    rfl

/-- Whatever is measured, ranking what came of it selects the first hits. -/
theorem selects_rank {α : Type} (measure : α → Hit δ) :
    Selects measure fun l limit => rank (l.map measure) limit where
  first l limit positive := ⟨_, rank_of_pos _ positive, firstOf_topHits _ limit⟩
  arranged l l' limit perm apart := by
    unfold rank topHits
    rw [mergeSort_eq_of_perm (perm.map measure) apart]
  longer l limit limit' top top' le ranked ranked' := by
    rw [topHits_of_rank ranked, topHits_of_rank ranked']
    exact List.take_prefix_take_left le

/-- Whatever type the doubles have, the order of hits is total and tells apart all that differ in
the bits of their distance or in their identifier, and ranking selects the first hits in it; so it
does on branches measured from any origin. -/
theorem ranking_selects_first :
    (Std.TransCmp Standing.compare ∧ Std.LawfulEqCmp Standing.compare) ∧
    (∀ (δ : Type) [Binary64 δ],
      (∀ a b : Hit δ, a.compare b = a.standing.compare b.standing) ∧
      Std.TransCmp (Hit.compare (δ := δ)) ∧
      (∀ a b : Hit δ, a.compare b = .lt ↔
        Precedes (Binary64.bits a.distanceKm) (Binary64.bits b.distanceKm) ∨
        (Binary64.bits a.distanceKm = Binary64.bits b.distanceKm ∧ a.branch.id < b.branch.id)) ∧
      (∀ a b : Hit δ, a.compare b = .eq ↔
        Binary64.bits a.distanceKm = Binary64.bits b.distanceKm ∧ a.branch.id = b.branch.id) ∧
      Selects (fun hit : Hit δ => hit) rank) ∧
    ∀ origin, Selects (Hit.measure origin false) (rankNearest origin) := by
  refine ⟨⟨inferInstance, inferInstance⟩, fun δ _ => ⟨Hit.compare_eq_standing, inferInstance,
    Hit.compare_lt_iff, Hit.compare_eq_iff, ?_⟩, fun origin => selects_rank _⟩
  have whole := selects_rank fun hit : Hit δ => hit
  simp only [List.map_id'] at whole
  exact whole

end Nearby
