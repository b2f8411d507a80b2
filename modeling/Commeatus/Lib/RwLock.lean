import Commeatus.Lib.Threads
import Mathlib.Data.Set.Card

/-!
A value behind a reader-writer lock.

Threads lock for reading or writing, copy or assign the value while they hold
the lock, and release it; between sections they act elsewhere. Where every
thread keeps to that discipline, a writer is alone, some thread can always go
on, and every copy is the last value that was assigned before it.
-/

namespace Commeatus.Lib

/-- The actions on a value of type `ν`, with those elsewhere. -/
inductive RwAct (Out ν : Type) where
  | outside (action : Out)
  | write
  | assign (value : ν)
  | unwrite
  | read
  | copy
  | unread

/-- A lock says whether a thread panicked while it wrote: then the value is poisoned and the lock is
given back. -/
abbrev RwAns {Out : Type} (Res : Out → Type) (ν : Type) : RwAct Out ν → Type
  | .outside action => Res action
  | .write | .read => Bool
  | .copy => ν
  | .assign _ | .unwrite | .unread => Unit

/-- The value and its lock: whether a thread writes, and how many read. -/
structure RwLock (ν : Type) where
  value : ν
  writing : Bool := false
  readers : Nat := 0
  poisoned : Bool := false

namespace RwLock

open Prog

variable {Out ν α : Type} {Res : Out → Type}

/-- What an action does to the value and its lock; `outside` says what the actions elsewhere can
answer. -/
def Does (outside : (action : Out) → Res action → Prop) (lock : RwLock ν) :
    (action : RwAct Out ν) → RwAns Res ν action → RwLock ν → Prop
  | .outside action, answer, lock' => outside action answer ∧ lock' = lock
  | .write, poisoned, lock' =>
      lock.writing = false ∧ lock.readers = 0 ∧ poisoned = lock.poisoned ∧
        lock' = { lock with writing := !poisoned }
  | .assign value, _, lock' => lock' = { lock with value }
  | .unwrite, _, lock' => lock' = { lock with writing := false }
  | .read, poisoned, lock' =>
      lock.writing = false ∧ poisoned = lock.poisoned ∧
        lock' = { lock with readers := if poisoned then lock.readers else lock.readers + 1 }
  | .copy, value, lock' => value = lock.value ∧ lock' = lock
  | .unread, _, lock' => lock' = { lock with readers := lock.readers - 1 }

/-! ### The discipline -/

/-- Where a thread is: elsewhere, or in a section of the lock. -/
inductive Phase where
  | apart | writing | reading
  deriving DecidableEq

/-- The section that the next action is in. -/
def phase : Prog (RwAct Out ν) (RwAns Res ν) α → Phase
  | .act (.assign _) _ | .act .unwrite _ => .writing
  | .act .copy _ | .act .unread _ => .reading
  | _ => .apart

/-- The program assigns between a lock for writing and its release, copies between a lock for
reading and its release, and does neither with a poisoned lock. -/
inductive Disciplined : Prog (RwAct Out ν) (RwAns Res ν) α → Prop where
  | done (a : α) : Disciplined (.done a)
  | outside (action : Out) {next : Res action → Prog (RwAct Out ν) (RwAns Res ν) α}
      (stays : ∀ answer, phase (next answer) = .apart)
      (rest : ∀ answer, Disciplined (next answer)) : Disciplined (.act (.outside action) next)
  | write {next : Bool → Prog (RwAct Out ν) (RwAns Res ν) α} (stays : phase (next true) = .apart)
      (enters : phase (next false) = .writing) (rest : ∀ poisoned, Disciplined (next poisoned)) :
        Disciplined (.act .write next)
  | assign (value : ν) {next : Unit → Prog (RwAct Out ν) (RwAns Res ν) α}
      (stays : phase (next ()) = .writing)
      (rest : Disciplined (next ())) : Disciplined (.act (.assign value) next)
  | unwrite {next : Unit → Prog (RwAct Out ν) (RwAns Res ν) α} (leaves : phase (next ()) = .apart)
      (rest : Disciplined (next ())) : Disciplined (.act .unwrite next)
  | read {next : Bool → Prog (RwAct Out ν) (RwAns Res ν) α} (stays : phase (next true) = .apart)
      (enters : phase (next false) = .reading) (rest : ∀ poisoned, Disciplined (next poisoned)) :
        Disciplined (.act .read next)
  | copy {next : ν → Prog (RwAct Out ν) (RwAns Res ν) α}
      (stays : ∀ value, phase (next value) = .reading)
      (rest : ∀ value, Disciplined (next value)) : Disciplined (.act .copy next)
  | unread {next : Unit → Prog (RwAct Out ν) (RwAns Res ν) α} (leaves : phase (next ()) = .apart)
      (rest : Disciplined (next ())) : Disciplined (.act .unread next)

/-! ### Threads that keep to it -/

variable {ι : Type} {threads : ι → Prog (RwAct Out ν) (RwAns Res ν) α} {lock lock' : RwLock ν}
    {i : ι} {part : Phase}

/-- The threads that are in the section. -/
def among (threads : ι → Prog (RwAct Out ν) (RwAns Res ν) α) (part : Phase) : Set ι :=
  fun i => phase (threads i) = part

/-- One, if the program is in the section. -/
def within (p : Prog (RwAct Out ν) (RwAns Res ν) α) (part : Phase) : Nat :=
  if phase p = part then 1 else 0

theorem encard_among (threads : ι → Prog (RwAct Out ν) (RwAns Res ν) α) (part : Phase) (i : ι) :
    (among threads part).encard = (among threads part \ {i}).encard + within (threads i) part := by
  by_cases there : phase (threads i) = part
  · have member : i ∈ among threads part := there
    rw [within, if_pos there]
    exact (Set.encard_sdiff_singleton_add_one member).symm
  · have absent : i ∉ among threads part := there
    rw [within, if_neg there, Set.sdiff_singleton_eq_self absent]
    simp

/-- One thread changes its section. -/
theorem encard_among_update [DecidableEq ι]
    (threads : ι → Prog (RwAct Out ν) (RwAns Res ν) α) (i : ι)
    (p : Prog (RwAct Out ν) (RwAns Res ν) α) (part : Phase) :
    (among (Function.update threads i p) part).encard + within (threads i) part =
      (among threads part).encard + within p part := by
  have others : among (Function.update threads i p) part \ {i} = among threads part \ {i} := by
    ext j
    simp only [Set.mem_sdiff, Set.mem_singleton_iff, and_congr_left_iff]
    intro other
    change phase _ = part ↔ phase _ = part
    rw [Function.update_of_ne other]
  rw [encard_among _ part i, encard_among threads part i, others, Function.update_self]
  exact add_right_comm _ _ _

theorem among_counted {count : Nat} (counted : (among threads part).encard = count)
    (there : phase (threads i) = part) :
    0 < count := by
  have some : (among threads part).encard ≠ 0 := Set.encard_ne_zero_of_mem there
  rw [counted] at some
  exact Nat.pos_of_ne_zero fun none => some (by rw [none]; rfl)

theorem encard_among_of_apart (apart : ∀ i, phase (threads i) = .apart)
    (part_ne : Phase.apart ≠ part) :
    (among threads part).encard = (0 : Nat) := by
  rw [Nat.cast_zero, Set.encard_eq_zero, Set.eq_empty_iff_forall_notMem]
  intro i there
  exact part_ne ((apart i).symm.trans there)

/-- The lock knows who holds it: a writer is alone, and readers are counted. -/
structure Held (threads : ι → Prog (RwAct Out ν) (RwAns Res ν) α) (lock : RwLock ν) : Prop where
  disciplined : ∀ i, Disciplined (threads i)
  clean : lock.poisoned = false
  writers : (among threads .writing).encard = lock.writing.toNat
  readers : (among threads .reading).encard = lock.readers
  alone : lock.writing = true → lock.readers = 0

theorem Held.start {programs : ι → Prog (RwAct Out ν) (RwAns Res ν) α}
    (disciplined : ∀ i, Disciplined (programs i))
    (apart : ∀ i, phase (programs i) = .apart) (value : ν) : Held programs { value } where
  disciplined := disciplined
  clean := rfl
  writers := encard_among_of_apart apart (by simp)
  readers := encard_among_of_apart apart (by simp)
  alone := by simp

theorem Held.writes (held : Held threads lock) (there : phase (threads i) = .writing) :
    lock.writing = true := by
  have some := among_counted held.writers there
  cases writing : lock.writing with
  | false => simp [writing] at some
  | true => rfl

theorem Held.reads (held : Held threads lock) (there : phase (threads i) = .reading) :
    0 < lock.readers :=
  among_counted held.readers there

/-- Nobody writes while a thread reads. -/
theorem Held.unwritten (held : Held threads lock) (reading : 0 < lock.readers) :
    lock.writing = false := by
  cases writing : lock.writing with
  | false => rfl
  | true =>
      have none := held.alone writing
      omega

/-- While a thread writes, no other is in a section. -/
theorem Held.exclusive (held : Held threads lock) {j : ι} (writing : phase (threads i) = .writing)
    (inside : phase (threads j) ≠ .apart) : j = i := by
  have writes := held.writes writing
  cases other : phase (threads j) with
  | apart => exact absurd other inside
  | reading =>
      have reading := held.reads other
      have none := held.alone writes
      omega
  | writing =>
      have one : (among threads .writing).encard ≤ 1 := by
        rw [held.writers, writes]
        rfl
      exact Set.encard_le_one_iff.mp one j i other writing

section

variable [DecidableEq ι]

/-- The count goes with the thread that changes. -/
theorem among_moved {p : Prog (RwAct Out ν) (RwAns Res ν) α} {count count' : Nat}
    (counted : (among threads part).encard = count)
    (changed : count + within p part = count' + within (threads i) part) :
    (among (Function.update threads i p) part).encard = count' := by
  have moved := encard_among_update threads i p part
  rw [counted, ← Nat.cast_add, changed, Nat.cast_add] at moved
  exact WithTop.add_right_cancel (ENat.natCast_ne_top _) moved

/-- One thread goes on, and the lock with it. -/
theorem Held.moved (held : Held threads lock) {p : Prog (RwAct Out ν) (RwAns Res ν) α}
    (disciplined : Disciplined p)
    (clean : lock'.poisoned = false)
    (writers : lock.writing.toNat + within p .writing = lock'.writing.toNat +
      within (threads i) .writing)
    (readers : lock.readers + within p .reading = lock'.readers + within (threads i) .reading)
    (alone : lock'.writing = true → lock'.readers = 0) :
    Held (Function.update threads i p) lock' where
  disciplined := by
    rw [Function.forall_update_iff threads fun _ p => Disciplined p]
    exact ⟨disciplined, fun j _ => held.disciplined j⟩
  clean := clean
  writers := among_moved held.writers writers
  readers := among_moved held.readers readers
  alone := alone

/-- What one step does to threads and lock. -/
theorem Held.step {outside : (action : Out) → Res action → Prop} {action : RwAct Out ν}
    {next : RwAns Res ν action → Prog (RwAct Out ν) (RwAns Res ν) α} {answer : RwAns Res ν action}
    (held : Held threads lock) (ready : threads i = .act action next)
    (effect : Does outside lock action answer lock') :
    Held (Function.update threads i (next answer)) lock' := by
  have own := held.disciplined i
  have clean := held.clean
  have here : phase (threads i) = phase (.act action next) := congrArg phase ready
  rw [ready] at own
  cases own with
  | outside action stays rest =>
      obtain ⟨-, rfl⟩ := effect
      replace here : phase (threads i) = .apart := here
      exact held.moved (rest _) clean (by simp [within, stays, here])
        (by simp [within, stays, here]) held.alone
  | write stays enters rest =>
      obtain ⟨free, unread, rfl, rfl⟩ := effect
      replace here : phase (threads i) = .apart := here
      rw [clean]
      exact held.moved (rest _) rfl (by simp [within, enters, here, free])
        (by simp [within, enters, here, unread])
        fun _ => unread
  | assign value stays rest =>
      cases effect
      replace here : phase (threads i) = .writing := here
      exact held.moved rest clean (by simp [within, stays, here])
        (by simp [within, stays, here]) held.alone
  | unwrite leaves rest =>
      cases effect
      replace here : phase (threads i) = .writing := here
      have writing := held.writes here
      exact held.moved rest clean (by simp [within, leaves, here, writing])
        (by simp [within, leaves, here]) (by simp)
  | read stays enters rest =>
      obtain ⟨free, rfl, rfl⟩ := effect
      replace here : phase (threads i) = .apart := here
      rw [clean]
      exact held.moved (rest _) rfl (by simp [within, enters, here])
        (by simp [within, enters, here]) (by simp [free])
  | copy stays rest =>
      obtain ⟨rfl, rfl⟩ := effect
      replace here : phase (threads i) = .reading := here
      exact held.moved (rest _) clean (by simp [within, stays, here])
        (by simp [within, stays, here]) held.alone
  | unread leaves rest =>
      cases effect
      replace here : phase (threads i) = .reading := here
      have reading := held.reads here
      have unwritten := held.unwritten reading
      exact held.moved rest clean (by simp [within, leaves, here])
        (by simp [within, leaves, here]; omega)
        (by simp [unwritten])

variable {outside : (action : Out) → Res action → Prop}
  {programs : ι → Prog (RwAct Out ν) (RwAns Res ν) α} {value : ν}
  {s : System (RwAct Out ν) (RwAns Res ν) α ι (RwLock ν)}

/-- The states of threads that keep to the discipline. -/
theorem held_of_reachable (disciplined : ∀ i, Disciplined (programs i))
    (apart : ∀ i, phase (programs i) = .apart)
    (reachable : Relation.ReflTransGen (System.Step (Does outside))
      (System.start programs { value }) s) :
    Held s.threads s.shared := by
  induction reachable with
  | refl => exact .start disciplined apart value
  | tail earlier step ih =>
      cases step with
      | turn i answer ready effect => exact ih.step ready effect

/-- As long as a thread is left, some thread can go on. -/
theorem Held.goes_on (held : Held s.threads s.shared)
    (answers : ∀ action, ∃ answer, outside action answer) {i : ι}
    (left : (s.threads i).pending.isSome = true) : ∃ s', System.Step (Does outside) s s' := by
  -- A thread in a section is not held up; without one, the lock is free.
  by_cases inside : ∃ j, phase (s.threads j) ≠ .apart
  · obtain ⟨j, inside⟩ := inside
    cases place : s.threads j with
    | done a => exact absurd (by rw [place]; rfl) inside
    | act action next =>
        cases action with
        | outside action | write | read => exact absurd (by rw [place]; rfl) inside
        | assign value => exact ⟨_, .turn j () place rfl⟩
        | unwrite => exact ⟨_, .turn j () place rfl⟩
        | copy => exact ⟨_, .turn j s.shared.value place ⟨rfl, rfl⟩⟩
        | unread => exact ⟨_, .turn j () place rfl⟩
  · have apart : ∀ j, phase (s.threads j) = .apart :=
      fun j => not_not.mp fun inside' => inside ⟨j, inside'⟩
    have unwritten : s.shared.writing = false := by
      have none := held.writers.symm.trans (encard_among_of_apart apart (by simp))
      cases writing : s.shared.writing with
      | false => rfl
      | true => simp [writing] at none
    have unread : s.shared.readers = 0 := by
      have none := held.readers.symm.trans (encard_among_of_apart apart (by simp))
      exact_mod_cast none
    cases place : s.threads i with
    | done a => rw [place] at left; cases left
    | act action next =>
        have here := apart i
        rw [place] at here
        cases action with
        | outside action =>
            obtain ⟨answer, possible⟩ := answers action
            exact ⟨_, .turn i (show RwAns Res ν (.outside action) from answer) place
              ⟨possible, rfl⟩⟩
        | write => exact ⟨_, .turn i s.shared.poisoned place ⟨unwritten, unread, rfl, rfl⟩⟩
        | read => exact ⟨_, .turn i s.shared.poisoned place ⟨unwritten, rfl, rfl⟩⟩
        | assign | unwrite | copy | unread => cases here

end

/-! ### What is copied -/

/-- An entry that assigns no value. -/
def Keeps : ι × Event (RwAct Out ν) (RwAns Res ν) → Prop
  | (_, ⟨.assign _, _⟩) => False
  | _ => True

/-- The value after the entries: the one that was assigned last, or the first one. -/
def latest (value : ν) (log : List (ι × Event (RwAct Out ν) (RwAns Res ν))) : ν :=
  log.foldl (fun value entry =>
    match entry with
    | (_, ⟨.assign value, _⟩) => value
    | _ => value) value

variable {log : List (ι × Event (RwAct Out ν) (RwAns Res ν))}
    {entry : ι × Event (RwAct Out ν) (RwAns Res ν)}

theorem keeps_or_assigns (entry : ι × Event (RwAct Out ν) (RwAns Res ν)) :
    Keeps entry ∨ ∃ i value, entry = (i, ⟨.assign value, ()⟩) := by
  obtain ⟨i, action, answer⟩ := entry
  cases action with
  | assign value => exact .inr ⟨i, value, rfl⟩
  | outside | write | unwrite | read | copy | unread => exact .inl trivial

theorem latest_assign (value value' : ν) (i : ι) :
    latest value (log ++ [(i, ⟨.assign value', ()⟩)]) = value' := by
  rw [latest, List.foldl_append]
  rfl

theorem latest_keeps (value : ν) (keeps : Keeps entry) :
    latest value (log ++ [entry]) = latest value log := by
  obtain ⟨i, action, answer⟩ := entry
  rw [latest, List.foldl_append]
  cases action with
  | assign value => exact keeps.elim
  | outside | write | unwrite | read | copy | unread => rfl

/-- The latest value was assigned by the last entry that assigns one. -/
theorem latest_cases (value : ν) (log : List (ι × Event (RwAct Out ν) (RwAns Res ν))) :
    ((∀ entry ∈ log, Keeps entry) ∧ latest value log = value) ∨
      ∃ before i after, log = before ++ (i, ⟨.assign (latest value log), ()⟩) :: after ∧
        ∀ entry ∈ after, Keeps entry := by
  induction log using List.reverseRecOn with
  | nil => exact .inl ⟨by simp, rfl⟩
  | append_singleton log entry ih =>
      rcases keeps_or_assigns entry with kept | ⟨i, value', rfl⟩
      · have grown : ∀ entries : List (ι × Event (RwAct Out ν) (RwAns Res ν)),
          (∀ e ∈ entries, Keeps e) →
            ∀ e ∈ entries ++ [entry], Keeps e := by
          intro entries keeps e member
          rcases List.mem_append.mp member with earlier | last
          · exact keeps e earlier
          · rwa [List.mem_singleton.mp last]
        rw [latest_keeps value kept]
        rcases ih with ⟨keeps, same⟩ | ⟨before, j, after, split, keeps⟩
        · exact .inl ⟨grown log keeps, same⟩
        · refine .inr ⟨before, j, after ++ [entry], ?_, grown after keeps⟩
          rw [← List.cons_append, ← List.append_assoc, ← split]
      · rw [latest_assign]
        exact .inr ⟨log, i, [], rfl, by simp⟩

variable [DecidableEq ι] {outside : (action : Out) → Res action → Prop}
  {programs : ι → Prog (RwAct Out ν) (RwAns Res ν) α} {value : ν}
  {s : System (RwAct Out ν) (RwAns Res ν) α ι (RwLock ν)}

/-- The value is the latest one. -/
theorem value_of_reachable
    (reachable : Relation.ReflTransGen (System.Step (Does outside))
      (System.start programs { value }) s) :
    s.shared.value = latest value s.log := by
  induction reachable with
  | refl => rfl
  | tail earlier step ih =>
      cases step with
      | @turn i action next answer lock ready effect =>
          cases action with
          | assign value' =>
              cases effect
              exact (latest_assign value value' i).symm
          | outside action | copy =>
              obtain ⟨-, rfl⟩ := effect
              refine ih.trans (latest_keeps value ?_).symm
              trivial
          | unwrite | unread =>
              cases effect
              refine ih.trans (latest_keeps value ?_).symm
              trivial
          | write =>
              obtain ⟨-, -, -, rfl⟩ := effect
              refine ih.trans (latest_keeps value ?_).symm
              trivial
          | read =>
              obtain ⟨-, -, rfl⟩ := effect
              refine ih.trans (latest_keeps value ?_).symm
              trivial

/-- No lock is found poisoned, since no thread poisons it. -/
theorem clean_of_reachable
    (reachable : Relation.ReflTransGen (System.Step (Does outside))
      (System.start programs { value }) s) :
    s.shared.poisoned = false := by
  induction reachable with
  | refl => rfl
  | tail earlier step ih =>
      cases step with
      | @turn i action next answer lock ready effect =>
          cases action with
          | outside action | copy =>
              obtain ⟨-, rfl⟩ := effect
              exact ih
          | assign value' | unwrite | unread =>
              cases effect
              exact ih
          | write =>
              obtain ⟨-, -, -, rfl⟩ := effect
              exact ih
          | read =>
              obtain ⟨-, -, rfl⟩ := effect
              exact ih

theorem write_clean
    (reachable : Relation.ReflTransGen (System.Step (Does outside))
      (System.start programs { value }) s)
    {i : ι} {poisoned : Bool} (logged : ⟨.write, poisoned⟩ ∈ s.history i) : poisoned = false := by
  obtain ⟨before, after, split⟩ := List.append_of_mem (System.mem_history.mp logged)
  obtain ⟨earlier, reached, -, lock, -, -, same, -⟩ := System.made_of_reachable reachable split
  exact same.trans (clean_of_reachable reached)

theorem read_clean
    (reachable : Relation.ReflTransGen (System.Step (Does outside))
      (System.start programs { value }) s)
    {i : ι} {poisoned : Bool} (logged : ⟨.read, poisoned⟩ ∈ s.history i) : poisoned = false := by
  obtain ⟨before, after, split⟩ := List.append_of_mem (System.mem_history.mp logged)
  obtain ⟨earlier, reached, -, lock, -, same, -⟩ := System.made_of_reachable reachable split
  exact same.trans (clean_of_reachable reached)

/-- A copy is the value that was assigned last before it. -/
theorem copied_of_reachable
    (reachable : Relation.ReflTransGen (System.Step (Does outside))
      (System.start programs { value }) s)
    {before after : List (ι × Event (RwAct Out ν) (RwAns Res ν))} {i : ι} {copied : ν}
    (logged : s.log = before ++ (i, ⟨.copy, copied⟩) :: after) : copied = latest value before := by
  obtain ⟨earlier, reached, rfl, lock, same, -⟩ := System.made_of_reachable reachable logged
  exact same.trans (value_of_reachable reached)

end RwLock

end Commeatus.Lib
