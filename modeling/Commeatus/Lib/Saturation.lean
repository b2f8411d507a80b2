import Mathlib.Data.Finset.Card
import Mathlib.Order.Iterate

/-!
Finite sets that are widened in rounds.

The sets of the rounds grow until one round adds nothing, and from then on they
are the same; as long as every round adds something, the set has one more
element than there were rounds. A list can be ordered so that what the sets
take in later comes first.
-/

namespace Commeatus.Lib

variable {α : Type}

section Rounds

variable {widen : Finset α → Finset α} (inflates : ∀ s, s ⊆ widen s)
include inflates

theorem rounds_mono (start : Finset α) {k j : Nat} (le : k ≤ j) :
    widen^[k] start ⊆ widen^[j] start :=
  Function.monotone_iterate_of_id_le (f := widen) (fun s => inflates s) le start

omit inflates in
/-- A round that adds nothing is the last that could. -/
theorem rounds_fixed {start : Finset α} {k : Nat} (fixed : widen^[k + 1] start = widen^[k] start)
    {j : Nat} (le : k ≤ j) :
    widen^[j] start = widen^[k] start := by
  rw [Function.iterate_succ_apply'] at fixed
  obtain ⟨more, rfl⟩ := Nat.exists_eq_add_of_le le
  rw [Nat.add_comm, Function.iterate_add_apply, Function.iterate_fixed fixed]

/-- Every round up to one that adds something has added something. -/
theorem card_rounds {start : Finset α} (nonempty : start.Nonempty) {k : Nat}
    (grows : widen^[k + 1] start ≠ widen^[k] start) : k + 2 ≤ (widen^[k + 1] start).card := by
  have larger : (widen^[k] start).card < (widen^[k + 1] start).card :=
    Finset.card_lt_card ((rounds_mono inflates start (Nat.le_succ k)).ssubset_of_ne (Ne.symm grows))
  induction k with
  | zero =>
      have one : 0 < (widen^[0] start).card := nonempty.card_pos
      omega
  | succ k ih =>
      have grew : widen^[k + 1] start ≠ widen^[k] start := by
        intro fixed
        rw [rounds_fixed fixed (Nat.le_add_right k 2), rounds_fixed fixed (Nat.le_succ k)] at grows
        exact grows rfl
      have earlier := ih grew
        (Finset.card_lt_card ((rounds_mono inflates start (Nat.le_succ k)).ssubset_of_ne
          (Ne.symm grew)))
      omega

end Rounds

/-! ### What comes later first -/

/-- What has not been taken in precedes what has. -/
abbrev LateFirst (taken : α → Prop) (l : List α) : Prop := l.Pairwise fun a b => taken a → taken b

theorem LateFirst.split {taken : α → Prop} {l : List α} (late : LateFirst taken l) :
    ∃ front back, l = front ++ back ∧ (∀ a ∈ front, ¬ taken a) ∧ ∀ b ∈ back, taken b := by
  induction l with
  | nil => exact ⟨[], [], rfl, (fun _ no => nomatch no), fun _ no => nomatch no⟩
  | cons a l ih =>
      obtain ⟨after, rest⟩ := List.pairwise_cons.mp late
      by_cases is : taken a
      · refine ⟨[], a :: l, rfl, (fun _ no => nomatch no), fun b member => ?_⟩
        rcases List.mem_cons.mp member with rfl | later
        · exact is
        · exact after b later is
      · obtain ⟨front, back, rfl, untaken, taken⟩ := ih rest
        refine ⟨a :: front, back, rfl, fun b member => ?_, taken⟩
        rcases List.mem_cons.mp member with rfl | later
        · exact is
        · exact untaken b later

/-- A list can be ordered so in each of finitely many rounds, when what was taken in stays. -/
theorem exists_lateFirst (taken : Nat → α → Prop)
    (stays : ∀ {k j a}, k ≤ j → taken k a → taken j a) (l : List α)
    (rounds : Nat) : ∃ l' : List α, l'.Perm l ∧ ∀ k < rounds, LateFirst (taken k) l' := by
  classical
  induction rounds with
  | zero => exact ⟨l, .refl _, fun k no => absurd no (Nat.not_lt_zero k)⟩
  | succ n ih =>
      obtain ⟨l', perm, late⟩ := ih
      refine ⟨l'.filter (fun a => !decide (taken n a)) ++ l'.filter (fun a => decide (taken n a)),
        (List.perm_append_comm.trans (List.filter_append_perm _ _)).trans perm, fun k earlier => ?_⟩
      rcases Nat.lt_or_ge k n with before | same
      · refine List.pairwise_append.mpr ⟨(late k before).filter _, (late k before).filter _,
          fun a member b _ is => ?_⟩
        have isnt := (List.mem_filter.mp member).2
        exact absurd (stays (Nat.le_of_lt before) is) (by simpa using isnt)
      · have last : k = n := Nat.le_antisymm (Nat.le_of_lt_succ earlier) same
        subst last
        have front : ∀ a ∈ l'.filter (fun a => !decide (taken k a)), ¬ taken k a := by
          intro a member
          simpa using (List.mem_filter.mp member).2
        have back : ∀ a ∈ l'.filter (fun a => decide (taken k a)), taken k a := by
          intro a member
          simpa using (List.mem_filter.mp member).2
        refine List.pairwise_append.mpr ⟨?_, ?_, fun a member b _ is => absurd is (front a member)⟩
        · exact List.pairwise_of_forall_mem_list fun a member b _ is => absurd is (front a member)
        · exact List.pairwise_of_forall_mem_list fun a _ b member _ => back b member

end Commeatus.Lib
