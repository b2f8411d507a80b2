import Mathlib.Data.Finset.Card
import Commeatus.Lib.Executions

/-!
The connection limiter (`daemon/src/server.rs`).

Threads take permits in a retry loop over one atomic counter, and give them
back when they drop them. They take turns in any order, one atomic operation at
a time, so the value that a thread acts on may be one that others have changed
since. The counter still says at every moment how many permits there are.
-/

namespace Commeatus.Daemon

open Commeatus.Lib

/-- A permit. The program does not number its permits; the numbers tell them apart. -/
abbrev ConnectionPermit : Type := Nat

structure ConnectionLimiter (w : Nat) where
  active : BitVec w
  limit : BitVec w

def ConnectionLimiter.new {w : Nat} (limit : BitVec w) : ConnectionLimiter w := ⟨0, limit⟩

/-- Where a thread is in `try_acquire`: before the first load, or at the head of the loop with what
it read last. -/
inductive TryAcquire (w : Nat) where
  | outside
  | entered
  | looping (active : BitVec w)
  | returned (permit : Option ConnectionPermit)

/-- The call has begun and not returned. -/
def TryAcquire.Inside {w : Nat} : TryAcquire w → Prop
  | .outside | .returned _ => False
  | .entered | .looping _ => True

/-- Threads that share a limiter, with the number of permits that were issued and those that were
dropped. -/
structure Sharing (ι : Type) (w : Nat) where
  limiter : ConnectionLimiter w
  calls : ι → TryAcquire w
  issued : Nat
  dropped : Finset ConnectionPermit

inductive LimiterAct (ι : Type) where
  | call (thread : ι)
  | load (thread : ι)
  | full (thread : ι)
  | acquired (thread : ι)
  | again (thread : ι)
  | dropped (permit : ConnectionPermit)

/-- Neither issues nor drops a permit. -/
def LimiterAct.Keeps {ι : Type} : LimiterAct ι → Prop
  | .acquired _ | .dropped _ => False
  | _ => True

namespace Sharing

variable {ι : Type} {w : Nat}

/-- The permits that were issued and not yet dropped. -/
def outstanding (s : Sharing ι w) : Finset ConnectionPermit := Finset.range s.issued \ s.dropped

def start (ι : Type) (limit : BitVec w) : Sharing ι w := ⟨.new limit, fun _ => .outside, 0, ∅⟩

variable {s s' : Sharing ι w} {act : LimiterAct ι} {limit : BitVec w}

/-! ### The counter and the permits -/

/-- What an operation does to the counter and the permits. -/
inductive Effect (s s' : Sharing ι w) : LimiterAct ι → Prop where
  | none {act : LimiterAct ι} (keeps : act.Keeps) (cell : s'.limiter = s.limiter)
      (issued : s'.issued = s.issued)
      (dropped : s'.dropped = s.dropped) : Effect s s' act
  | issues {i : ι} (room : s.limiter.active < s.limiter.limit)
      (cell : s'.limiter = { s.limiter with active := s.limiter.active + 1 })
        (issued : s'.issued = s.issued + 1)
      (dropped : s'.dropped = s.dropped) : Effect s s' (.acquired i)
  | drops {permit : ConnectionPermit} (live : permit ∈ s.outstanding)
      (cell : s'.limiter = { s.limiter with active := fetchSub s.limiter.active 1 })
        (issued : s'.issued = s.issued)
      (dropped : s'.dropped = insert permit s.dropped) : Effect s s' (.dropped permit)

theorem outstanding_issues (known : s.dropped ⊆ Finset.range s.issued)
    (issued : s'.issued = s.issued + 1)
    (dropped : s'.dropped = s.dropped) : s'.outstanding = insert s.issued s.outstanding := by
  have fresh : s.issued ∉ s.dropped := fun member => by simpa using known member
  rw [outstanding, outstanding, issued, dropped, Finset.range_add_one,
    Finset.insert_sdiff_of_notMem _ fresh]

theorem issued_notMem_outstanding (s : Sharing ι w) : s.issued ∉ s.outstanding := by
  simp [outstanding]

theorem outstanding_drops {permit : ConnectionPermit} (issued : s'.issued = s.issued)
    (dropped : s'.dropped = insert permit s.dropped) :
    s'.outstanding = s.outstanding.erase permit := by
  rw [outstanding, outstanding, issued, dropped, Finset.sdiff_insert]

theorem outstanding_same (issued : s'.issued = s.issued) (dropped : s'.dropped = s.dropped) :
    s'.outstanding = s.outstanding := by
  rw [outstanding, outstanding, issued, dropped]

/-- The counter is the number of permits that were issued and not yet dropped, and at most the
limit. -/
structure Conserved (limit : BitVec w) (s : Sharing ι w) : Prop where
  limited : s.limiter.limit = limit
  counts : s.limiter.active.toNat = s.outstanding.card
  bounded : s.limiter.active ≤ limit
  known : s.dropped ⊆ Finset.range s.issued

theorem conserved_start (limit : BitVec w) : Conserved limit (start ι limit) where
  limited := rfl
  counts := by simp [start, ConnectionLimiter.new, outstanding]
  bounded := BitVec.le_def.mpr (Nat.zero_le _)
  known := Finset.empty_subset _

/-- A permit that can be dropped is counted. -/
theorem Conserved.positive (conserved : Conserved limit s) {permit : ConnectionPermit}
    (live : permit ∈ s.outstanding) :
    0 < s.limiter.active.toNat := by
  rw [conserved.counts]
  exact Finset.card_pos.mpr ⟨permit, live⟩

theorem Effect.conserved (effect : Effect s s' act) (conserved : Conserved limit s) :
    Conserved limit s' := by
  obtain ⟨limited, counts, bounded, known⟩ := conserved
  cases effect with
  | none keeps cell issued dropped =>
      refine ⟨?_, ?_, ?_, ?_⟩
      · rw [cell, limited]
      · rw [cell, outstanding_same issued dropped, counts]
      · rw [cell]
        exact bounded
      · rw [issued, dropped]
        exact known
  | issues room cell issued dropped =>
      have up := toNat_add_one room
      refine ⟨?_, ?_, ?_, ?_⟩
      · rw [cell, ← limited]
      · rw [cell, outstanding_issues known issued dropped,
          Finset.card_insert_of_notMem (issued_notMem_outstanding s), ← counts]
        exact up
      · rw [cell, BitVec.le_def, up, ← limited]
        exact BitVec.lt_def.mp room
      · rw [issued, dropped]
        exact known.trans (Finset.range_mono (Nat.le_succ _))
  | @drops permit live cell issued dropped =>
      have down := toNat_fetchSub_one (Conserved.positive ⟨limited, counts, bounded, known⟩ live)
      refine ⟨?_, ?_, ?_, ?_⟩
      · rw [cell, ← limited]
      · rw [cell, outstanding_drops issued dropped, Finset.card_erase_of_mem live, ← counts]
        exact Nat.eq_sub_of_add_eq down
      · rw [cell, BitVec.le_def]
        have within := BitVec.le_def.mp bounded
        dsimp only
        omega
      · rw [issued, dropped, Finset.insert_subset_iff]
        exact ⟨(Finset.mem_sdiff.mp live).1, known⟩

/-! ### Threads -/

variable [DecidableEq ι]

/-- The thread goes on to another place in its call. -/
def moved (s : Sharing ι w) (thread : ι) (call : TryAcquire w) : Sharing ι w :=
  { s with calls := Function.update s.calls thread call }

/-- One atomic operation. A permit that exists may be dropped by any thread, as permits are handed
around. -/
inductive Step : LimiterAct ι → Sharing ι w → Sharing ι w → Prop where
  | call {s : Sharing ι w} {i : ι} (free : ¬ (s.calls i).Inside) :
      Step (.call i) s (s.moved i .entered)
  | load {s : Sharing ι w} {i : ι} (place : s.calls i = .entered) :
      Step (.load i) s (s.moved i (.looping s.limiter.active))
  | full {s : Sharing ι w} {i : ι} {active : BitVec w} (place : s.calls i = .looping active)
      (reached : s.limiter.limit ≤ active) : Step (.full i) s (s.moved i (.returned none))
  | acquired {s : Sharing ι w} {i : ι} {active previous cell : BitVec w}
      (place : s.calls i = .looping active)
      (room : ¬ s.limiter.limit ≤ active)
      (exchange : CompareExchangeWeak s.limiter.active active (active + 1) (.ok previous) cell) :
      Step (.acquired i) s
        { s.moved i (.returned (some s.issued)) with
          limiter := { s.limiter with active := cell }, issued := s.issued + 1 }
  | again {s : Sharing ι w} {i : ι} {active current cell : BitVec w}
      (place : s.calls i = .looping active)
      (room : ¬ s.limiter.limit ≤ active)
      (exchange : CompareExchangeWeak s.limiter.active active (active + 1) (.error current) cell) :
      Step (.again i) s
        { s.moved i (.looping current) with limiter := { s.limiter with active := cell } }
  | dropped {s : Sharing ι w} {permit : ConnectionPermit} (live : permit ∈ s.outstanding) :
      Step (.dropped permit) s
        { s with
          limiter := { s.limiter with active := fetchSub s.limiter.active 1 }
          dropped := insert permit s.dropped }

/-- Threads that share a limiter with the given limit. -/
def system (ι : Type) [DecidableEq ι] (limit : BitVec w) : Transitions (Sharing ι w) where
  initial s := s = start ι limit
  step s s' := ∃ act, Step act s s'

theorem Step.effect (step : Step act s s') : Effect s s' act := by
  cases step with
  | call free => exact .none trivial rfl rfl rfl
  | load place => exact .none trivial rfl rfl rfl
  | full place reached => exact .none trivial rfl rfl rfl
  | acquired place room exchange =>
      cases exchange with
      | exchanged same =>
          subst same
          exact .issues (BitVec.not_le.mp room) rfl rfl rfl
  | again place room exchange =>
      cases exchange with
      | failed => exact .none trivial rfl rfl rfl
  | dropped live => exact .drops live rfl rfl rfl

theorem Step.counts_up {i : ι} (step : Step (.acquired i) s s') :
    s'.limiter.active.toNat = s.limiter.active.toNat + 1 := by
  cases step.effect with
  | none keeps => exact keeps.elim
  | issues room cell issued dropped =>
      rw [cell]
      exact toNat_add_one room

theorem Step.counts_down {permit : ConnectionPermit} (step : Step (.dropped permit) s s')
    (conserved : Conserved limit s) :
    s'.limiter.active.toNat + 1 = s.limiter.active.toNat := by
  cases step.effect with
  | none keeps => exact keeps.elim
  | drops live cell issued dropped =>
      rw [cell]
      exact toNat_fetchSub_one (conserved.positive live)

/-- Where a step takes a thread in its call. -/
inductive Turn (s : Sharing ι w) (i : ι) : TryAcquire w → Prop where
  | stays : Turn s i (s.calls i)
  | enters (free : ¬ (s.calls i).Inside) : Turn s i .entered
  | reads (inside : (s.calls i).Inside) : Turn s i (.looping s.limiter.active)
  | refused {active : BitVec w} (place : s.calls i = .looping active)
      (reached : s.limiter.limit ≤ active) :
      Turn s i (.returned none)
  | permitted {active : BitVec w} (place : s.calls i = .looping active) :
      Turn s i (.returned (some s.issued))

theorem turn_moved {j : ι} {call : TryAcquire w} (turn : Turn s j call) (i : ι) :
    Turn s i ((s.moved j call).calls i) := by
  by_cases same : i = j
  · subst same
    simpa [moved] using turn
  · simpa [moved, same] using Turn.stays

theorem Step.turn (step : Step act s s') (i : ι) : Turn s i (s'.calls i) := by
  cases step with
  | call free => exact turn_moved (.enters free) i
  | load place =>
      refine turn_moved (.reads ?_) i
      rw [place]
      trivial
  | full place reached => exact turn_moved (.refused place reached) i
  | acquired place room exchange => exact turn_moved (.permitted place) i
  | again place room exchange =>
      cases exchange with
      | failed =>
          refine turn_moved (.reads ?_) i
          rw [place]
          trivial
  | dropped live => exact .stays

theorem conserved (e : Execution (system ι limit)) (n : Nat) : Conserved limit (e.state n) := by
  refine e.always ?_ ?_ n
  · rintro _ rfl
    exact conserved_start limit
  · rintro s s' conserved ⟨act, step⟩
    exact step.effect.conserved conserved

/-! ### Calls -/

/-- From the first moment to the last, the thread is in one call of `try_acquire`, which then
returns the result. -/
structure Call (e : Execution (system ι limit)) (i : ι) (first last : Nat)
    (result : Option ConnectionPermit) : Prop where
  later : first ≤ last
  entered : (e.state first).calls i = .entered
  inside : ∀ k, first ≤ k → k < last → ((e.state k).calls i).Inside
  returned : (e.state last).calls i = .returned result

variable {e : Execution (system ι limit)} {i : ι} {first last : Nat}

/-- What a thread does from one moment to the next. -/
theorem turn_of_execution (e : Execution (system ι limit)) (i : ι) (n : Nat) :
    Turn (e.state n) i ((e.state (n + 1)).calls i) := by
  rcases e.moves n with same | ⟨act, step⟩
  · rw [same]
    exact .stays
  · exact step.turn i

/-- The value that a thread has in its loop was in the counter at some moment after the thread
entered. -/
theorem read_since (entered : (e.state first).calls i = .entered)
    (later : first ≤ last) {active : BitVec w}
    (place : (e.state last).calls i = .looping active) :
    ∃ k, first ≤ k ∧ k < last ∧ (e.state k).limiter.active = active := by
  induction last, later using Nat.le_induction with
  | base => cases entered.symm.trans place
  | succ last later ih =>
      have turn := turn_of_execution e i last
      rw [place] at turn
      generalize reached : TryAcquire.looping active = call at turn
      cases turn with
      | stays =>
          obtain ⟨k, after, before, value⟩ := ih reached.symm
          exact ⟨k, after, by omega, value⟩
      | reads inside =>
          cases reached
          exact ⟨last, later, by omega, rfl⟩
      | _ => cases reached

/-- A thread that was refused since it entered has read the limit. -/
theorem full_since (entered : (e.state first).calls i = .entered) (later : first ≤ last)
    (place : (e.state last).calls i = .returned none) :
    ∃ k, first ≤ k ∧ k < last ∧ (e.state k).limiter.active = limit := by
  induction last, later using Nat.le_induction with
  | base => cases entered.symm.trans place
  | succ last later ih =>
      have turn := turn_of_execution e i last
      rw [place] at turn
      generalize reached : TryAcquire.returned none = call at turn
      cases turn with
      | stays =>
          obtain ⟨k, after, before, value⟩ := ih reached.symm
          exact ⟨k, after, by omega, value⟩
      | @refused active looping full =>
          obtain ⟨k, after, before, value⟩ := read_since entered later looping
          refine ⟨k, after, by omega, BitVec.le_antisymm (conserved e k).bounded ?_⟩
          rw [value, ← (conserved e last).limited]
          exact full
      | _ => cases reached

end Sharing

end Commeatus.Daemon
