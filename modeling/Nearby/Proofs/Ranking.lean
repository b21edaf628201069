/-
Ranking as a stable sort. The order of hits is a total preorder whatever the distances are. When
a part of a list comes strictly before the rest of it, sorting the list sorts that part and then
the rest; so the first hits of the whole are the first hits of the part, as long as the part holds
that many. This is why a search may stop at the first circle that holds enough.
-/
import Nearby.Ranking
import Nearby.Proofs.Decimal.Order
import Mathlib.Data.List.TakeWhile

namespace Nearby

open Decimal

/-! ## The order of hits -/

section Order

variable {δ : Type} [Binary64 δ]

instance : Std.TransCmp (Hit.compare (δ := δ)) :=
  inferInstanceAs (Std.TransCmp (compareLex (compareOn fun hit : Hit δ => totalKey hit.distanceKm)
    (compareOn fun hit : Hit δ => hit.branch.id)))

namespace Hit

theorem notAfter_trans (a b c : Hit δ) (ab : a.notAfter b = true) (bc : b.notAfter c = true) :
    a.notAfter c = true := by
  simp only [notAfter, bne_iff_ne, ne_eq, ← Ordering.isLE_iff_ne_gt] at *
  exact Std.TransCmp.isLE_trans ab bc

theorem notAfter_total (a b : Hit δ) : (a.notAfter b || b.notAfter a) = true := by
  have swapped : b.compare a = (a.compare b).swap := Std.OrientedCmp.eq_swap
  simp only [notAfter]
  rw [swapped]
  cases a.compare b <;> rfl

/-- A hit whose distance comes strictly first in the total order comes strictly first. -/
theorem compare_eq_lt_of_totalKey {a b : Hit δ}
    (h : totalKey a.distanceKm < totalKey b.distanceKm) : a.compare b = .lt := by
  unfold Hit.compare
  rw [compare_lt_iff_lt.2 h]; rfl

/-- A hit within a bound comes strictly before one that is not. -/
theorem compare_eq_lt_of_bound {a b : Hit} {bound : Float} (near : a.distanceKm ≤ bound)
    (far : ¬ b.distanceKm ≤ bound) : a.compare b = .lt :=
  compare_eq_lt_of_totalKey (totalKey_lt_of_le_of_not_le near far)

end Hit

end Order

/-! ## Sorting in two parts -/

section Sorting

variable {α : Type} {le : α → α → Bool}

theorem takeWhile_append_of_neg {p : α → Bool} {l m : List α} (hm : ∀ b ∈ m, p b = false) :
    (l ++ m).takeWhile p = l.takeWhile p := by
  induction l with
  | nil =>
    cases m with
    | nil => rfl
    | cons b m => simp [hm b (by simp)]
  | cons a l ih => cases h : p a <;> simp [h, ih]

theorem dropWhile_append_of_neg {p : α → Bool} {l m : List α} (hm : ∀ b ∈ m, p b = false) :
    (l ++ m).dropWhile p = l.dropWhile p ++ m := by
  induction l with
  | nil =>
    cases m with
    | nil => rfl
    | cons b m => simp [hm b (by simp)]
  | cons a l ih => cases h : p a <;> simp [h, ih]

/-- A stable sort puts the head in front of the first element that it does not follow. -/
theorem mergeSort_cons_eq (trans : ∀ a b c, le a b = true → le b c = true → le a c = true)
    (total : ∀ a b, (le a b || le b a) = true) (a : α) (l : List α) :
    (a :: l).mergeSort le = (l.mergeSort le).takeWhile (fun b => !le a b) ++
      a :: (l.mergeSort le).dropWhile (fun b => !le a b) := by
  obtain ⟨before, after, whole, rest, later⟩ := List.mergeSort_cons trans total a l
  have sorted := List.pairwise_mergeSort trans total (a :: l)
  rw [whole] at sorted
  have next : ∀ b ∈ after, (!le a b) = false := by
    intro b hb
    have := (List.pairwise_cons.1 (List.pairwise_append.1 sorted).2.1).1 b hb
    simp [this]
  rw [whole, rest, takeWhile_append_of_neg next, dropWhile_append_of_neg next,
    List.takeWhile_eq_self_iff.2 later, List.dropWhile_eq_nil_iff.2 later]
  rfl

/-- Sorting a list of which one part comes strictly before the rest sorts that part, then the
rest. -/
theorem mergeSort_eq_append (trans : ∀ a b c, le a b = true → le b c = true → le a c = true)
    (total : ∀ a b, (le a b || le b a) = true) {p : α → Bool} :
    ∀ {l : List α},
      (∀ a ∈ l, ∀ b ∈ l, p a = true → p b = false → le a b = true ∧ le b a = false) →
      l.mergeSort le = (l.filter p).mergeSort le ++ (l.filter fun a => !p a).mergeSort le
  | [], _ => by simp
  | a :: l, first => by
    have tail := mergeSort_eq_append trans total (p := p) (l := l) fun b hb c hc =>
      first b (List.mem_cons_of_mem _ hb) c (List.mem_cons_of_mem _ hc)
    rw [mergeSort_cons_eq trans total, tail]
    cases ha : p a with
    | true =>
      -- the head stays in the first part, before all of the rest
      have rest : ∀ b ∈ (l.filter fun a => !p a).mergeSort le, (!le a b) = false := by
        intro b hb
        obtain ⟨hb, hp⟩ := List.mem_filter.1 (List.mem_mergeSort.1 hb)
        have := first a (by simp) b (List.mem_cons_of_mem _ hb) ha (by simpa using hp)
        simp [this.1]
      rw [takeWhile_append_of_neg rest, dropWhile_append_of_neg rest]
      rw [List.filter_cons_of_pos ha, List.filter_cons_of_neg (by simp [ha]),
        mergeSort_cons_eq trans total]
      simp
    | false =>
      -- the head passes the whole first part
      have part : ∀ b ∈ (l.filter p).mergeSort le, (!le a b) = true := by
        intro b hb
        obtain ⟨hb, hp⟩ := List.mem_filter.1 (List.mem_mergeSort.1 hb)
        have := first b (List.mem_cons_of_mem _ hb) a (by simp) hp ha
        simp [this.2]
      rw [List.takeWhile_append_of_pos part, List.dropWhile_append_of_pos part]
      rw [List.filter_cons_of_neg (by simp [ha]), List.filter_cons_of_pos (by simp [ha]),
        mergeSort_cons_eq trans total]
      simp

end Sorting

/-! ## The first hits -/

/-- The first hits are among those within a bound, if there are enough of these. -/
theorem topHits_within (hits : List Hit) (bound : Float) {limit : Nat}
    (enough : limit ≤ (hits.filter fun hit => hit.distanceKm ≤ bound).length) :
    topHits (hits.filter fun hit => hit.distanceKm ≤ bound) limit = topHits hits limit := by
  have split := mergeSort_eq_append Hit.notAfter_trans Hit.notAfter_total
    (p := fun hit => decide (hit.distanceKm ≤ bound)) (l := hits) (by
      intro a _ b _ near far
      have lt := Hit.compare_eq_lt_of_bound (of_decide_eq_true near) (of_decide_eq_false far)
      have gt : b.compare a = .gt := by
        rw [show b.compare a = (a.compare b).swap from Std.OrientedCmp.eq_swap, lt]; rfl
      simp [Hit.notAfter, lt, gt])
  unfold topHits
  rw [split, List.take_append_of_le_length (by rw [List.length_mergeSort]; exact enough)]

theorem rank_of_pos {δ : Type} [Binary64 δ] (hits : List (Hit δ)) {limit : Nat}
    (positive : 1 ≤ limit) : rank hits limit = .ok (topHits hits limit) := by
  unfold rank checkLimit
  rw [if_neg (by omega)]; rfl

end Nearby
