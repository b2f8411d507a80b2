import Mathlib.Data.List.Destutter
import Mathlib.Data.List.Sort
import Mathlib.Order.Compare

/-!
Sorted lists: sorting, removal of consecutive duplicates, binary search.

The search halves a window of the list until one entry is left, and looks at
that entry last. On a strictly sorted list it finds exactly the members.
-/

namespace Commeatus.Lib

variable {α : Type}

/-- The loop of `binary_search_by`: the start of the window once it has shrunk to one entry. The
first argument bounds the number of halvings. -/
def bisect (order : α → Ordering) (l : List α) : Nat → Nat → Nat → Nat
  | 0, base, _ => base
  | rounds + 1, base, size =>
      if size ≤ 1 then base
      else
        let mid := base + size / 2
        bisect order l rounds (if (l[mid]?).map order = some .gt then base else mid)
          (size - size / 2)

/-- `binary_search_by`: the position of an entry that compares equal. -/
def binarySearchBy (order : α → Ordering) (l : List α) : Option Nat :=
  let base := bisect order l l.length 0 l.length
  if (l[base]?).map order = some .eq then some base else none

variable [LinearOrder α]

/-- The window keeps the position of the entry that is looked for. -/
theorem bisect_eq {l : List α} (sorted : l.Pairwise (· < ·)) {x : α} {k : Nat}
    (found : l[k]? = some x)
    {rounds base size : Nat} (enough : size ≤ rounds + 1)
    (window : base + size ≤ l.length) (low : base ≤ k)
    (high : k < base + size) : bisect (compare · x) l rounds base size = k := by
  induction rounds generalizing base size with
  | zero =>
      rw [bisect]
      omega
  | succ rounds ih =>
      rw [bisect]
      split
      · omega
      rename_i wide
      obtain ⟨inside, here⟩ := List.getElem?_eq_some_iff.mp found
      have bound : base + size / 2 < l.length := by omega
      have middle : (l[base + size / 2]?).map (compare · x) = some .gt ↔
          x < l[base + size / 2] := by
        rw [List.getElem?_eq_getElem bound, Option.map_some, Option.some.injEq, compare_gt_iff_gt]
      dsimp only
      by_cases past : base + size / 2 ≤ k
      · -- The middle is not behind the entry, so it does not compare greater.
        have before : l[base + size / 2] ≤ x := by
          rw [← here]
          rcases Nat.lt_or_eq_of_le past with strict | same
          · exact le_of_lt (List.pairwise_iff_getElem.mp sorted _ _ bound inside strict)
          · simp only [same, le_refl]
        rw [if_neg (mt middle.mp (not_lt.mpr before))]
        exact ih (by omega) (by omega) past (by omega)
      · have behind : k < base + size / 2 := Nat.lt_of_not_le past
        have after : x < l[base + size / 2] := by
          rw [← here]
          exact List.pairwise_iff_getElem.mp sorted _ _ inside bound behind
        rw [if_pos (middle.mpr after)]
        exact ih (by omega) (by omega) low (by omega)

/-- Whether the search for a value succeeds. -/
def searched (l : List α) (x : α) : Bool := (binarySearchBy (compare · x) l).isSome

/-- On a strictly sorted list the search succeeds exactly for the members. -/
theorem searched_iff {l : List α} (sorted : l.Pairwise (· < ·)) (x : α) :
    searched l x = true ↔ x ∈ l := by
  unfold searched binarySearchBy
  dsimp only
  constructor
  · intro succeeds
    split at succeeds
    · rename_i equal
      obtain ⟨y, found, same⟩ := Option.map_eq_some_iff.mp equal
      rw [← compare_eq_iff_eq.mp same]
      exact List.mem_of_getElem? found
    · cases succeeds
  · intro member
    obtain ⟨k, found⟩ := List.getElem?_of_mem member
    have inside : k < l.length := (List.getElem?_eq_some_iff.mp found).1
    have position : bisect (compare · x) l l.length 0 l.length = k :=
      bisect_eq sorted found (Nat.le_succ _) (by omega) (Nat.zero_le k) (by omega)
    rw [position, found, Option.map_some, compare_eq_iff_eq.mpr rfl, if_pos rfl]
    rfl

/-- `sort_unstable`, then `dedup`: consecutive duplicates are removed. -/
def sortDedup (l : List α) : List α := (l.insertionSort (· ≤ ·)).destutter (· ≠ ·)

theorem sortDedup_sorted (l : List α) : (sortDedup l).Pairwise (· < ·) := by
  have sorted : (sortDedup l).Pairwise (· ≤ ·) :=
    (List.pairwise_insertionSort (· ≤ ·) l).sublist (List.destutter_sublist _ _)
  have distinct : (sortDedup l).IsChain (· ≠ ·) := List.isChain_destutter _ _
  have strict : (sortDedup l).IsChain (· < ·) := by
    rw [List.isChain_iff_getElem] at distinct ⊢
    intro i bound
    refine lt_of_le_of_ne ?_ (distinct i bound)
    exact List.pairwise_iff_getElem.mp sorted i (i + 1) _ _ (Nat.lt_succ_self i)
  exact List.isChain_iff_pairwise.mp strict

/-- Removing consecutive duplicates removes no member. -/
theorem mem_destutter' {x a : α} (l : List α) : x ∈ l.destutter' (· ≠ ·) a ↔ x ∈ a :: l := by
  induction l generalizing a with
  | nil => rfl
  | cons b l ih =>
      by_cases same : a = b
      · rw [List.destutter'_cons_neg _ (not_not.mpr same), ih, same]
        simp
      · rw [List.destutter'_cons_pos _ same, List.mem_cons, ih, ← List.mem_cons]

theorem mem_sortDedup {l : List α} {x : α} : x ∈ sortDedup l ↔ x ∈ l := by
  have sorted : x ∈ l.insertionSort (· ≤ ·) ↔ x ∈ l := List.mem_insertionSort _
  rw [← sorted, sortDedup]
  cases l.insertionSort (· ≤ ·) with
  | nil => rfl
  | cons a l => exact mem_destutter' l

/-- The order and the repetition of the entries do not matter. -/
theorem sortDedup_congr {l l' : List α} (same : ∀ x, x ∈ l ↔ x ∈ l') :
    sortDedup l = sortDedup l' := by
  refine (sortDedup_sorted l).eq_of_mem_iff (sortDedup_sorted l') fun x => ?_
  rw [mem_sortDedup, mem_sortDedup]
  exact same x

end Commeatus.Lib
