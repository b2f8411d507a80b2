import Mathlib.Data.List.Basic

/-!
The first delimiter in a sequence.

A delimiter may share entries with what stands before it, so the place where it
stands first is not the end of a search in the front.
-/

namespace Commeatus.Lib

variable {β : Type} {mark items front rest front' rest' : List β}

/-- The delimiter stands in the sequence between the two parts, and nowhere earlier. -/
structure FirstAt (mark items front rest : List β) : Prop where
  split : items = front ++ (mark ++ rest)
  first : ∀ front' rest', items = front' ++ (mark ++ rest') → front.length ≤ front'.length

namespace FirstAt

/-- There is one first delimiter. -/
theorem unique (one : FirstAt mark items front rest) (other : FirstAt mark items front' rest') :
    front = front' ∧ rest = rest' := by
  have same : front.length = front'.length :=
    Nat.le_antisymm (one.first _ _ other.split) (other.first _ _ one.split)
  obtain ⟨fronts, rests⟩ := List.append_inj (one.split.symm.trans other.split) same
  exact ⟨fronts, List.append_cancel_left rests⟩

/-- A delimiter behind a front that has none is the first if none begins in the front and ends in
the delimiter. -/
theorem of_front (split : items = front ++ (mark ++ rest))
    (none : ∀ front' rest', (front ++ mark).dropLast ≠ front' ++ (mark ++ rest')) :
    FirstAt mark items front rest := by
  refine ⟨split, fun front' rest' split' => ?_⟩
  by_contra early
  have inside : (front' ++ mark).length ≤ (front ++ mark).dropLast.length := by
    simp only [List.length_append, List.length_dropLast]
    omega
  have cut : (front ++ mark).dropLast <+: items := by
    rw [split, ← List.append_assoc]
    exact (List.dropLast_prefix _).trans ⟨rest, rfl⟩
  rw [← List.append_assoc] at split'
  obtain ⟨between, whole⟩ := List.prefix_of_prefix_length_le ⟨rest', split'.symm⟩ cut inside
  exact none front' between (by rw [← whole, List.append_assoc])

end FirstAt

end Commeatus.Lib
