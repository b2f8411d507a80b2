import Mathlib.Algebra.Ring.Nat

/-!
Runs of a system, moment by moment.

A run gives the state of the system at every moment; from one moment to the
next the system takes a step, or nothing happens. What holds first and is kept
by every step holds at every moment. A system each of whose steps is a step of
another one, or is not seen by it, has runs that are runs of the other one.
Threads that share a memory cell are such systems: a step is one atomic
operation of one thread.
-/

namespace Commeatus.Lib

/-- Where a system starts, and its steps. -/
structure Transitions (σ : Type) where
  initial : σ → Prop
  step : σ → σ → Prop

structure Execution {σ : Type} (system : Transitions σ) where
  state : Nat → σ
  starts : system.initial (state 0)
  moves : ∀ n, state (n + 1) = state n ∨ system.step (state n) (state (n + 1))

namespace Execution

variable {σ τ : Type} {system : Transitions σ} {other : Transitions τ}

theorem always (e : Execution system) {P : σ → Prop} (first : ∀ s, system.initial s → P s)
    (keeps : ∀ s s', P s → system.step s s' → P s') (n : Nat) : P (e.state n) := by
  induction n with
  | zero => exact first _ e.starts
  | succ n ih =>
      rcases e.moves n with same | step
      · rw [same]
        exact ih
      · exact keeps _ _ ih step

/-- The run as another system sees it. -/
def map (e : Execution system) (sees : σ → τ)
    (first : ∀ s, system.initial s → other.initial (sees s))
    (follows : ∀ s s', system.step s s' → sees s' = sees s ∨ other.step (sees s) (sees s')) :
      Execution other where
  state n := sees (e.state n)
  starts := first _ e.starts
  moves n := by
    rcases e.moves n with same | step
    · exact .inl (congrArg sees same)
    · exact follows _ _ step

end Execution

/-! ### Atomic operations -/

variable {w : Nat}

/-- `compare_exchange_weak` on a cell: what it returns, and what is then in the cell. It may fail on
the value it was to replace. -/
inductive CompareExchangeWeak (cell current new : BitVec w) : Except (BitVec w) (BitVec w) →
    BitVec w → Prop where
  | exchanged (same : cell = current) : CompareExchangeWeak cell current new (.ok cell) new
  | failed : CompareExchangeWeak cell current new (.error cell) cell

/-- What is in a cell after `fetch_sub`, which wraps around. -/
def fetchSub (cell value : BitVec w) : BitVec w := cell - value

theorem toNat_one_of_lt (wide : 1 < 2 ^ w) : (1 : BitVec w).toNat = 1 := by
  change 1 % 2 ^ w = 1
  exact Nat.mod_eq_of_lt wide

/-- Below a bound, counting up does not wrap around. -/
theorem toNat_add_one {cell bound : BitVec w} (below : cell < bound) :
    (cell + 1).toNat = cell.toNat + 1 := by
  have room : cell.toNat + 1 < 2 ^ w := Nat.lt_of_le_of_lt (BitVec.lt_def.mp below) bound.isLt
  rw [BitVec.toNat_add, toNat_one_of_lt (by omega), Nat.mod_eq_of_lt room]

/-- Above zero, counting down does not wrap around. -/
theorem toNat_fetchSub_one {cell : BitVec w} (positive : 0 < cell.toNat) :
    (fetchSub cell 1).toNat + 1 = cell.toNat := by
  have small := cell.isLt
  have one : (1 : BitVec w).toNat = 1 := toNat_one_of_lt (by omega)
  have below : 1 ≤ cell := by
    rw [BitVec.le_def, one]
    exact positive
  rw [fetchSub, BitVec.toNat_sub_of_le below, one]
  omega

end Commeatus.Lib
