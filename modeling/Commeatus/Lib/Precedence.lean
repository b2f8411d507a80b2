import Mathlib.Data.List.Sort

/-!
First match in order of precedence.

A list that is sorted by rank, stably, is searched for its first entry that
passes a test. The entry found is the least in the lexicographic order of rank
and position; it depends on the entries of each rank and their order, and not
on how entries of different ranks are interleaved.
-/

namespace Commeatus.Lib

variable {α : Type} (rank : α → Nat) (p : α → Bool)

/-- `sort_by_key`: sorted by rank, with entries of one rank in their order. -/
def byRank (l : List α) : List α := l.insertionSort fun x y => rank x ≤ rank y

/-- The entries of a rank. -/
def ofRank (k : Nat) (l : List α) : List α := l.filter fun x => rank x = k

/-- The position holds the least entry that passes, by rank and then by position. -/
structure Foremost (l : List α) (i : Nat) (a : α) : Prop where
  here : l[i]? = some a
  passes : p a = true
  least : ∀ j x, l[j]? = some x → p x = true → rank a < rank x ∨ rank a = rank x ∧ i ≤ j

variable {rank p} {l l' : List α} {a x : α}

@[simp] theorem mem_byRank : x ∈ byRank rank l ↔ x ∈ l := List.mem_insertionSort _

theorem pairwise_byRank (l : List α) : (byRank rank l).Pairwise fun x y => rank x ≤ rank y := by
  have : Std.Total fun x y : α => rank x ≤ rank y := ⟨fun x y => Nat.le_total _ _⟩
  have : IsTrans α fun x y => rank x ≤ rank y := ⟨fun x y z => Nat.le_trans⟩
  exact List.pairwise_insertionSort _ l

/-- An entry goes in front of those of its own rank. -/
theorem ofRank_orderedInsert (k : Nat) (l : List α) :
    ofRank rank k (l.orderedInsert (fun x y => rank x ≤ rank y) a) = ofRank rank k (a :: l) := by
  induction l with
  | nil => rfl
  | cons b l ih =>
      by_cases before : rank a ≤ rank b
      · rw [List.orderedInsert, if_pos before]
      · rw [List.orderedInsert, if_neg before]
        by_cases here : rank a = k
        · -- The entry that stays in front is of another rank.
          have other : rank b ≠ k := by omega
          simp only [ofRank, List.filter_cons, here, other, decide_true, decide_false] at ih ⊢
          exact ih
        · simp only [ofRank, List.filter_cons, here, decide_false] at ih ⊢
          rw [ih]
          rfl

/-- Sorting keeps the entries of each rank in their order. -/
theorem ofRank_byRank (k : Nat) (l : List α) : ofRank rank k (byRank rank l) = ofRank rank k l := by
  induction l with
  | nil => rfl
  | cons a l ih =>
      rw [byRank, List.insertionSort_cons, ofRank_orderedInsert]
      simp only [ofRank, List.filter_cons] at ih ⊢
      rw [← ih]
      rfl

/-- The first entry that passes in a sorted list is the first of its rank, and the rank is the
least. -/
theorem find?_sorted_iff (sorted : l.Pairwise fun x y => rank x ≤ rank y) :
    l.find? p = some a ↔ (ofRank rank (rank a) l).find? p = some a ∧ ∀ x ∈ l, p x = true →
      rank a ≤ rank x := by
  rw [ofRank, List.find?_filter, List.find?_eq_some_iff_append, List.find?_eq_some_iff_append]
  constructor
  · rintro ⟨passes, before, after, rfl, fail⟩
    constructor
    · refine ⟨by simp [passes], before, after, rfl, fun x earlier => ?_⟩
      have failing : p x = false := by simpa using fail x earlier
      simp [failing]
    · intro x member passing
      rcases List.mem_append.mp member with earlier | later
      · simpa [passing] using fail x earlier
      · rcases List.mem_cons.mp later with rfl | behind
        · exact Nat.le_refl _
        · exact List.rel_of_pairwise_cons (List.pairwise_append.mp sorted).2.1 behind
  · rintro ⟨⟨passes, before, after, rfl, fail⟩, least⟩
    refine ⟨by simpa using passes, before, after, rfl, fun x earlier => ?_⟩
    by_contra passing
    have passing : p x = true := by simpa using passing
    have low : rank x ≤ rank a :=
      (List.pairwise_append.mp sorted).2.2 x earlier a List.mem_cons_self
    have high : rank a ≤ rank x := least x (List.mem_append_left _ earlier) passing
    have failing := fail x earlier
    simp [Nat.le_antisymm low high, passing] at failing

/-- The search in the sorted list, in terms of the list itself. -/
theorem find?_byRank_iff :
    (byRank rank l).find? p = some a ↔
      (ofRank rank (rank a) l).find? p = some a ∧ ∀ x ∈ l, p x = true → rank a ≤ rank x := by
  rw [find?_sorted_iff (pairwise_byRank l), ofRank_byRank]
  simp only [mem_byRank]

theorem find?_byRank_eq_none_iff : (byRank rank l).find? p = none ↔ ∀ x ∈ l, p x = false := by
  simp

/-- The search finds the foremost entry. -/
theorem find?_byRank_foremost : (byRank rank l).find? p = some a ↔ ∃ i, Foremost rank p l i a := by
  rw [find?_byRank_iff, ofRank, List.find?_filter, List.find?_eq_some_iff_getElem]
  constructor
  · rintro ⟨⟨passes, i, inside, rfl, fail⟩, least⟩
    refine ⟨i, List.getElem?_eq_getElem inside, by simpa using passes, fun j x found passing => ?_⟩
    obtain ⟨bound, rfl⟩ := List.getElem?_eq_some_iff.mp found
    rcases Nat.lt_or_eq_of_le (least _ (List.getElem_mem bound) passing) with lower | same
    · exact .inl lower
    · refine .inr ⟨same, Nat.le_of_not_lt fun earlier => ?_⟩
      simpa [same.symm, passing] using fail j earlier
  · rintro ⟨i, here, passes, least⟩
    obtain ⟨inside, rfl⟩ := List.getElem?_eq_some_iff.mp here
    constructor
    · refine ⟨by simpa using passes, i, inside, rfl, fun j earlier => ?_⟩
      have bound : j < l.length := Nat.lt_trans earlier inside
      by_contra both
      have both : rank l[j] = rank l[i] ∧ p l[j] = true := by simpa using both
      rcases least j _ (List.getElem?_eq_getElem bound) both.2 with lower | ⟨-, behind⟩
      · omega
      · omega
    · intro x member passing
      obtain ⟨j, found⟩ := List.getElem?_of_mem member
      rcases least j x found passing with lower | ⟨same, -⟩
      · exact Nat.le_of_lt lower
      · exact Nat.le_of_eq same

/-- What is found up to a rank depends on the entries up to that rank, rank by rank. -/
theorem find?_byRank_congr {k : Nat} (same : ∀ j ≤ k, ofRank rank j l = ofRank rank j l')
    (low : rank a ≤ k)
    (found : (byRank rank l).find? p = some a) : (byRank rank l').find? p = some a := by
  rw [find?_byRank_iff] at found ⊢
  rw [← same _ low]
  refine ⟨found.1, fun x member passing => ?_⟩
  by_contra lower
  have kept : x ∈ ofRank rank (rank x) l := by
    rw [same (rank x) (by omega)]
    exact List.mem_filter.mpr ⟨member, by simp⟩
  exact lower (found.2 x (List.mem_of_mem_filter kept) passing)

end Commeatus.Lib
