import Mathlib.Algebra.BigOperators.Group.Finset.Piecewise
import Mathlib.Data.Fintype.Basic
import Mathlib.Data.List.Induction
import Mathlib.Logic.Function.Basic
import Mathlib.Logic.Relation

/-!
Programs of threads over a shared state.

A program is a tree of atomic actions: it performs one and goes on with what
follows the answer. Programs that run at once take turns in any order: a step
performs the next action of one of them on the shared state, and the log keeps
who did what with which answer. Whatever the order, the entries of one thread
are a path of its own program.
-/

namespace Commeatus.Lib

inductive Prog (Act : Type) (Ans : Act → Type) (α : Type) where
  | done (result : α)
  | act (action : Act) (next : Ans action → Prog Act Ans α)

namespace Prog

variable {Act : Type} {Ans : Act → Type} {α β : Type}

def andThen : Prog Act Ans α → (α → Prog Act Ans β) → Prog Act Ans β
  | .done a, f => f a
  | .act action next, f => .act action fun answer => (next answer).andThen f

instance : Monad (Prog Act Ans) where
  pure := .done
  bind := andThen

/-- The program of one action. -/
def perform (action : Act) : Prog Act Ans (Ans action) := .act action .done

/-- The action that the program performs next. -/
def pending : Prog Act Ans α → Option Act
  | .done _ => none
  | .act action _ => some action

/-- An action with its answer. -/
abbrev Event (Act : Type) (Ans : Act → Type) : Type := (action : Act) × Ans action

/-- The first program can do the events, and the second is then left of it. -/
inductive Path : Prog Act Ans α → List (Event Act Ans) → Prog Act Ans α → Prop where
  | here (p : Prog Act Ans α) : Path p [] p
  | step {action : Act} {next : Ans action → Prog Act Ans α} {events : List (Event Act Ans)}
      {q : Prog Act Ans α}
      (answer : Ans action) (rest : Path (next answer) events q) :
        Path (.act action next) (⟨action, answer⟩ :: events) q

theorem Path.snoc {p : Prog Act Ans α} {events : List (Event Act Ans)} {action : Act}
    {next : Ans action → Prog Act Ans α} (path : Path p events (.act action next))
    (answer : Ans action) :
    Path p (events ++ [⟨action, answer⟩]) (next answer) := by
  generalize left : Prog.act action next = q at path
  induction path with
  | here p =>
      subst left
      exact .step answer (.here _)
  | step first rest ih => exact .step first (ih left)

/-- The path of a program that starts with an action. -/
theorem Path.perform_cases {action : Act} {f : Ans action → Prog Act Ans α}
    {events : List (Event Act Ans)}
    {q : Prog Act Ans α} (path : Path (perform action >>= f) events q) :
    (events = [] ∧ q = .act action f) ∨
      ∃ answer rest, events = ⟨action, answer⟩ :: rest ∧ Path (f answer) rest q := by
  change Path (.act action f) events q at path
  cases path with
  | here => exact .inl ⟨rfl, rfl⟩
  | step answer rest => exact .inr ⟨answer, _, rfl, rest⟩

theorem Path.done_cases {a : α} {events : List (Event Act Ans)} {q : Prog Act Ans α}
    (path : Path (.done a) events q) : events = [] ∧ q = .done a := by
  cases path
  exact ⟨rfl, rfl⟩

/-- A sequence that came to its end: the first part came to its end, and the rest followed. -/
theorem Path.bind_done {p : Prog Act Ans α} {f : α → Prog Act Ans β}
    {events : List (Event Act Ans)} {b : β}
    (path : Path (p >>= f) events (.done b)) :
    ∃ before after a, events = before ++ after ∧ Path p before (.done a) ∧
      Path (f a) after (.done b) := by
  induction p generalizing events with
  | done a => exact ⟨[], events, a, rfl, .here _, path⟩
  | act action next ih =>
      change Path (.act action fun answer => (next answer).andThen f) events (.done b) at path
      cases path with
      | step answer rest =>
          obtain ⟨before, after, a, rfl, first, later⟩ := ih answer rest
          exact ⟨⟨action, answer⟩ :: before, after, a, rfl, .step answer first, later⟩

/-- A program of one action that came to its end. -/
theorem Path.perform_done {action : Act} {events : List (Event Act Ans)} {answer : Ans action}
    (path : Path (perform action) events (.done answer)) : events = [⟨action, answer⟩] := by
  cases path with
  | step answer' rest =>
      obtain ⟨rfl, same⟩ := rest.done_cases
      cases same
      rfl

/-- A program that is done after one action. -/
theorem Path.once {p : Prog Act Ans α} {action : Act} {next : Ans action → Prog Act Ans α}
    {answer : Ans action} {a : α}
    (starts : p = .act action next) (ends : next answer = .done a) :
    Path p [⟨action, answer⟩] (.done a) := by
  subst starts
  rw [← ends]
  exact .step answer (.here _)

/-! ### Programs in a world -/

variable {ω : Type} {moves : Event Act Ans → ω → ω → Prop} {w w' : ω}

/-- The program, started in the first world, ends with the result and leaves the second; `moves`
says which answers an action can have in a world, and what is then left of the world. -/
inductive Ends (moves : Event Act Ans → ω → ω → Prop) : Prog Act Ans α → ω → α → ω → Prop where
  | done (a : α) (w : ω) : Ends moves (.done a) w a w
  | act {action : Act} {next : Ans action → Prog Act Ans α} {w w' w'' : ω} {a : α}
      (answer : Ans action)
      (first : moves ⟨action, answer⟩ w w') (rest : Ends moves (next answer) w' a w'') :
        Ends moves (.act action next) w a w''

theorem Ends.done_iff {a b : α} : Ends moves (.done a) w b w' ↔ b = a ∧ w' = w := by
  constructor
  · intro ends
    cases ends
    exact ⟨rfl, rfl⟩
  · rintro ⟨rfl, rfl⟩
    exact .done _ _

theorem Ends.bind_iff {p : Prog Act Ans α} {f : α → Prog Act Ans β} {b : β} :
    Ends moves (p >>= f) w b w' ↔ ∃ a v, Ends moves p w a v ∧ Ends moves (f a) v b w' := by
  constructor
  · intro ends
    induction p generalizing w with
    | done a => exact ⟨a, w, .done a w, ends⟩
    | act action next ih =>
        change Ends moves (.act action fun answer => (next answer).andThen f) w b w' at ends
        cases ends with
        | act answer first rest =>
            obtain ⟨a, v, before, after⟩ := ih answer rest
            exact ⟨a, v, .act answer first before, after⟩
  · rintro ⟨a, v, before, after⟩
    induction before with
    | done a w => exact after
    | act answer first rest ih => exact .act answer first (ih after)

theorem Ends.perform_bind_iff {action : Act} {f : Ans action → Prog Act Ans β} {b : β} :
    Ends moves (perform action >>= f) w b w' ↔ ∃ answer v, moves ⟨action, answer⟩ w v ∧
      Ends moves (f answer) v b w' := by
  change Ends moves (.act action f) w b w' ↔ _
  constructor
  · intro ends
    cases ends with
    | act answer first rest => exact ⟨answer, _, first, rest⟩
  · rintro ⟨answer, v, first, rest⟩
    exact .act answer first rest

/-- Programs that run at once. -/
structure System (Act : Type) (Ans : Act → Type) (α ι σ : Type) where
  threads : ι → Prog Act Ans α
  shared : σ
  log : List (ι × Event Act Ans)

namespace System

variable {ι σ : Type} [DecidableEq ι]

/-- What a thread has done, in order. -/
def history (s : System Act Ans α ι σ) (i : ι) : List (Event Act Ans) :=
  (s.log.filter fun entry => entry.1 = i).map Prod.snd

/-- One thread performs its next action; `does` says what the action does to the shared state and
which answers it can give. -/
inductive Step (does : σ → (action : Act) → Ans action → σ → Prop) :
    System Act Ans α ι σ → System Act Ans α ι σ → Prop where
  | turn {s : System Act Ans α ι σ} (i : ι) {action : Act} {next : Ans action → Prog Act Ans α}
      (answer : Ans action)
      {shared : σ} (ready : s.threads i = .act action next)
        (effect : does s.shared action answer shared) :
      Step does s ⟨Function.update s.threads i (next answer), shared,
        s.log ++ [(i, ⟨action, answer⟩)]⟩

/-- Threads about to start, with nothing done yet. -/
def start (programs : ι → Prog Act Ans α) (shared : σ) :
    System Act Ans α ι σ := ⟨programs, shared, []⟩

variable {does : σ → (action : Act) → Ans action → σ → Prop}

/-- Whatever the order of the turns, each thread runs along its own program. -/
theorem path_of_reachable {programs : ι → Prog Act Ans α} {shared : σ} {s : System Act Ans α ι σ}
    (reachable : Relation.ReflTransGen (Step does) (start programs shared) s) (i : ι) :
    Path (programs i) (s.history i) (s.threads i) := by
  induction reachable with
  | refl => exact .here _
  | @tail s _ earlier step ih =>
      cases step with
      | @turn j action next answer shared' ready effect =>
          by_cases same : j = i
          · subst same
            rw [ready] at ih
            simp only [history, List.filter_append, List.map_append, Function.update_self]
            simpa [history] using ih.snoc answer
          · -- The log grows by an entry of another thread.
            simp only [history, List.filter_append, List.map_append,
              Function.update_of_ne (Ne.symm same)]
            simpa [history, same] using ih

theorem mem_history {s : System Act Ans α ι σ} {i : ι} {event : Event Act Ans} :
    event ∈ s.history i ↔ (i, event) ∈ s.log := by
  simp [history]

/-- What is counted in the log is what is counted of the threads, taken together. -/
theorem countP_log [Fintype ι] (s : System Act Ans α ι σ) (p : Event Act Ans → Bool) :
    (s.log.map Prod.snd).countP p = ∑ i, (s.history i).countP p := by
  unfold history
  induction s.log with
  | nil => simp
  | cons entry log ih =>
      have one : ∀ i, (((entry :: log).filter fun e => decide (e.1 = i)).map Prod.snd).countP p =
          ((log.filter fun e => decide (e.1 = i)).map Prod.snd).countP p +
            if entry.1 = i then (if p entry.2 then 1 else 0) else 0 := by
        intro i
        by_cases same : entry.1 = i
        · simp [same, List.countP_cons]
        · simp [same]
      rw [Finset.sum_congr rfl fun i _ => one i, Finset.sum_add_distrib, ← ih, Finset.sum_ite_eq]
      simp [List.countP_cons]

/-- An entry of the log was justified when it was made. -/
theorem justified_of_reachable {programs : ι → Prog Act Ans α} {shared : σ}
    {P : List (ι × Event Act Ans) → ι → Event Act Ans → Prop}
    (justify : ∀ {s : System Act Ans α ι σ} {i : ι} {action : Act}
      {next : Ans action → Prog Act Ans α}
      {answer : Ans action} {shared' : σ},
        Relation.ReflTransGen (Step does) (start programs shared) s →
      s.threads i = .act action next → does s.shared action answer shared' →
      P s.log i ⟨action, answer⟩)
    {s : System Act Ans α ι σ}
    (reachable : Relation.ReflTransGen (Step does) (start programs shared) s)
    {before after : List (ι × Event Act Ans)} {i : ι} {event : Event Act Ans}
    (logged : s.log = before ++ (i, event) :: after) :
    P before i event := by
  induction reachable generalizing after with
  | refl => exact absurd logged (by simp [start])
  | @tail s _ earlier step ih =>
      cases step with
      | @turn j action next answer shared' ready effect =>
          cases after using List.reverseRecOn with
          | nil =>
              -- The entry is the last one: it was made by this very step.
              obtain ⟨rfl, last⟩ := List.append_inj' logged rfl
              cases last
              exact justify earlier ready effect
          | append_singleton after last =>
              have same : s.log ++ [(j, (⟨action, answer⟩ : Event Act Ans))] =
                  (before ++ (i, event) :: after) ++ [last] := by
                simpa using logged
              exact ih (List.append_inj' same rfl).1

/-- An entry of the log was made in a state whose log was what comes before it. -/
theorem made_of_reachable {programs : ι → Prog Act Ans α} {shared : σ} {s : System Act Ans α ι σ}
    (reachable : Relation.ReflTransGen (Step does) (start programs shared) s)
    {before after : List (ι × Event Act Ans)} {i : ι} {event : Event Act Ans}
    (logged : s.log = before ++ (i, event) :: after) :
    ∃ earlier, Relation.ReflTransGen (Step does) (start programs shared) earlier ∧
      earlier.log = before ∧
      ∃ shared', does earlier.shared event.1 event.2 shared' :=
  justified_of_reachable (P := fun before _ event =>
      ∃ earlier, Relation.ReflTransGen (Step does) (start programs shared) earlier ∧
        earlier.log = before ∧
        ∃ shared', does earlier.shared event.1 event.2 shared')
    (fun reached _ effect => ⟨_, reached, rfl, _, effect⟩) reachable logged

end System

end Prog

end Commeatus.Lib
