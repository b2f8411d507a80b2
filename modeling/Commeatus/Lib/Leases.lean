import Mathlib.Logic.Relation
import Commeatus.Lib.Map

/-!
Leases: entries of a table that go when they have not been used for too long.

A lease is the time of its last use. A cleanup reads the clock and drops the
leases that are overdue at that reading. What becomes of a lease that nobody
uses is the same over one step and over a run: it stays as it is, or a reading
finds it overdue and it goes.
-/

namespace Commeatus.Lib

open Relation (ReflTransGen)

/-- What becomes of a lease without a use, and of the absence of one. -/
inductive Lapses (limit : Nat) (readings : List Nat) : Option Nat → Option Nat → Prop where
  | stays (lease : Option Nat) : Lapses limit readings lease lease
  | goes {last now : Nat} (read : now ∈ readings) (overdue : limit ≤ now - last) :
      Lapses limit readings (some last) none

namespace Lapses

variable {limit : Nat} {readings readings' : List Nat} {before between after : Option Nat}

theorem mono (more : readings ⊆ readings') (lapses : Lapses limit readings before after) :
    Lapses limit readings' before after := by
  cases lapses with
  | stays => exact .stays _
  | goes read overdue => exact .goes (more read) overdue

theorem trans (first : Lapses limit readings before between)
    (next : Lapses limit readings' between after) :
    Lapses limit (readings ++ readings') before after := by
  cases first with
  | stays => exact next.mono (List.subset_append_right _ _)
  | goes read overdue =>
      cases next with
      | stays => exact .goes (List.mem_append_left _ read) overdue

/-- A lease that is still there is the one that was there. -/
theorem eq_of_some {last : Nat} (lapses : Lapses limit readings before (some last)) :
    before = some last := by
  cases lapses with
  | stays => rfl

/-- A cleanup drops what is overdue at its reading. -/
theorem cleanup {now : Nat} (read : now ∈ readings) (lease : Option Nat) :
    Lapses limit readings lease (lease.filter fun last => !decide (limit ≤ now - last)) := by
  cases lease with
  | none => exact .stays none
  | some last =>
      by_cases overdue : limit ≤ now - last
      · simpa [Option.filter_some, overdue] using Lapses.goes read overdue
      · simpa [Option.filter_some, overdue] using Lapses.stays (some last)

/-- What holds of each step holds of a run, with the readings of all its steps. -/
theorem run {σ : Type} {step : σ → σ → Prop} {clock : σ → List Nat} {lease : σ → Option Nat}
    (each : ∀ s s', step s s' → ∃ new, clock s' = clock s ++ new ∧
      Lapses limit new (lease s) (lease s'))
    {s s' : σ} (run : ReflTransGen step s s') :
    ∃ new, clock s' = clock s ++ new ∧ Lapses limit new (lease s) (lease s') := by
  induction run with
  | refl => exact ⟨[], (List.append_nil _).symm, .stays _⟩
  | tail _ last ih =>
      obtain ⟨new, before, lapses⟩ := ih
      obtain ⟨more, after, lapses'⟩ := each _ _ last
      exact ⟨new ++ more, by rw [after, before, List.append_assoc], lapses.trans lapses'⟩

end Lapses

namespace Map

variable {α β : Type} [DecidableEq α]

/-- The keys of the entries that pass a test are erased, one after the other. -/
theorem lookup_erase_where (test : β → Bool) (m : Map α β) (a : α) :
    (((m.entries.filter fun entry => test entry.2).map (·.1)).foldl
      (fun m key => m.erase key) m).lookup a =
      (m.lookup a).filter fun b => !test b := by
  rw [lookup_foldl_erase]
  cases found : m.lookup a with
  | none => simp
  | some b =>
      have there : a ∈ (m.entries.filter fun entry => test entry.2).map (·.1) ↔ test b = true := by
        constructor
        · intro member
          obtain ⟨⟨key, b'⟩, entry, rfl⟩ := List.mem_map.mp member
          obtain ⟨entry, passes⟩ := List.mem_filter.mp entry
          have same := (mem_entries_iff.mp entry).symm.trans found
          cases same
          exact passes
        · intro passes
          exact List.mem_map.mpr ⟨⟨a, b⟩,
            List.mem_filter.mpr ⟨mem_entries_iff.mpr found, passes⟩, rfl⟩
      cases passes : test b with
      | true => simp [Option.filter_some, there, passes]
      | false => simp [Option.filter_some, there, passes]

theorem size_foldl_erase_le (keys : List α) (m : Map α β) :
    size (keys.foldl (fun m key => m.erase key) m) ≤ m.size := by
  induction keys generalizing m with
  | nil => exact le_refl _
  | cons key keys ih => exact Nat.le_trans (ih _) (size_erase_le m key)

end Map

end Commeatus.Lib
