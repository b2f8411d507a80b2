import Commeatus.Lib.Threads

/-!
Programs under a monitor.

A monitor watches the events of a program: in each of its states it allows some
actions and expects some answers, and an event takes it to its next state. A
program obeys the monitor when it performs allowed actions only, whatever the
expected answers are. `Obeys` is computed along the program, so its rules follow
the program's text; `obeys_of_path` says what it means for a run.

An `Attempt` is a program that may end with an error, as the functions of the
source do that leave by `?`.
-/

namespace Commeatus.Lib

theorem Prog.andThen_assoc {Act : Type} {Ans : Act → Type} {α β γ : Type} (p : Prog Act Ans α)
    (f : α → Prog Act Ans β)
    (g : β → Prog Act Ans γ) : (p.andThen f).andThen g = p.andThen fun a => (f a).andThen g := by
  induction p with
  | done a => rfl
  | act action next ih => exact congrArg (Prog.act action) (funext ih)

/-- A program that ends with a result or with an error. -/
def Attempt (Act : Type) (Ans : Act → Type) (ε α : Type) : Type := Prog Act Ans (Except ε α)

namespace Attempt

variable {Act : Type} {Ans : Act → Type} {ε α β : Type}

/-- What follows a result; an error is passed on. -/
def follow (f : α → Attempt Act Ans ε β) : Except ε α → Prog Act Ans (Except ε β)
  | .ok a => f a
  | .error e => .done (.error e)

instance : Monad (Attempt Act Ans ε) where
  pure a := Prog.done (.ok a)
  bind x f := Prog.andThen x (follow f)

/-- Leave with an error. -/
def fail (e : ε) : Attempt Act Ans ε α := Prog.done (.error e)

/-- Leave with the error of a pure result, if it is one. -/
def lift (result : Except ε α) : Attempt Act Ans ε α := Prog.done result

/-- Run the program and keep its error as a value. -/
def caught (x : Attempt Act Ans ε α) : Attempt Act Ans ε (Except ε α) :=
  Prog.andThen x fun result => .done (.ok result)

/-- A program that cannot fail. -/
def ofProg (p : Prog Act Ans α) : Attempt Act Ans ε α := Prog.andThen p fun a => .done (.ok a)

theorem bind_assoc {γ : Type} (x : Attempt Act Ans ε α) (f : α → Attempt Act Ans ε β)
    (g : β → Attempt Act Ans ε γ) :
    (x >>= f) >>= g = x >>= fun a => f a >>= g := by
  apply (Prog.andThen_assoc x (follow f) (follow g)).trans
  apply congrArg (Prog.andThen x)
  funext result
  cases result <;> rfl

/-- A path of the first part and then a path of what follows. -/
theorem path_append {p : Prog Act Ans α} {f : α → Prog Act Ans β} {a : α} {q : Prog Act Ans β}
    {before after : List (Prog.Event Act Ans)} (first : p.Path before (.done a))
    (second : (f a).Path after q) :
    (p.andThen f).Path (before ++ after) q := by
  induction p generalizing before with
  | done a' =>
      obtain ⟨rfl, same⟩ := first.done_cases
      cases same
      exact second
  | act action next ih =>
      cases first with
      | step answer rest => exact .step answer (ih answer rest)

/-- How a sequence comes to its end: its first part fails, or its second part follows a result. -/
theorem path_bind_iff {x : Attempt Act Ans ε α} {f : α → Attempt Act Ans ε β}
    {events : List (Prog.Event Act Ans)}
    {result : Except ε β} :
    Prog.Path (x >>= f : Attempt Act Ans ε β) events (.done result) ↔
      (∃ e, Prog.Path x events (.done (.error e)) ∧ result = .error e) ∨
        ∃ a before after, events = before ++ after ∧ Prog.Path x before (.done (.ok a)) ∧
          Prog.Path (f a) after (.done result) := by
  constructor
  · intro path
    obtain ⟨before, after, outcome, rfl, first, second⟩ := Prog.Path.bind_done path
    cases outcome with
    | error e =>
        obtain ⟨rfl, ended⟩ := second.done_cases
        cases ended
        exact .inl ⟨e, by rwa [List.append_nil], rfl⟩
    | ok a => exact .inr ⟨a, before, after, rfl, first, second⟩
  · rintro (⟨e, failed, rfl⟩ | ⟨a, before, after, rfl, first, second⟩)
    · rw [← List.append_nil events]
      exact path_append failed (.here _)
    · exact path_append first second

/-- The path of a program whose error is kept is a path of the program. -/
theorem path_caught {x : Attempt Act Ans ε α} {events : List (Prog.Event Act Ans)}
    {result : Except ε (Except ε α)}
    (path : Prog.Path x.caught events (.done result)) : ∃ outcome, result = .ok outcome ∧
      Prog.Path x events (.done outcome) := by
  obtain ⟨before, after, outcome, rfl, first, second⟩ :=
    Prog.Path.bind_done (show Prog.Path (Prog.andThen x fun outcome => .done (.ok outcome)) events
      (.done result) from path)
  obtain ⟨rfl, ended⟩ := second.done_cases
  cases ended
  exact ⟨outcome, rfl, by rwa [List.append_nil]⟩

end Attempt

/-- `allows` says which action may be performed in a state, `expects` which answer it may get, and
`next` where the event leads. -/
structure Monitor (Act : Type) (Ans : Act → Type) (μ : Type) where
  allows : μ → Act → Prop
  expects : μ → Prog.Event Act Ans → Prop
  next : μ → Prog.Event Act Ans → μ

namespace Monitor

variable {Act : Type} {Ans : Act → Type} {ε α β μ : Type} (monitor : Monitor Act Ans μ)

/-- Where the events take the monitor. -/
def after (m : μ) (events : List (Prog.Event Act Ans)) : μ := events.foldl monitor.next m

/-- Each answer is expected when it comes. -/
def Expected : μ → List (Prog.Event Act Ans) → Prop
  | _, [] => True
  | m, event :: events => monitor.expects m event ∧ Expected (monitor.next m event) events

/-- Whatever is answered, the program performs only what is allowed, and its result satisfies the
postcondition. -/
def Obeys : Prog Act Ans α → μ → (α → μ → Prop) → Prop
  | .done a, m, post => post a m
  | .act action next, m, post => monitor.allows m action ∧
      ∀ answer, monitor.expects m ⟨action, answer⟩ →
        Obeys (next answer) (monitor.next m ⟨action, answer⟩) post

/-- Along a path, the program that is left obeys the monitor where the events have taken it. -/
theorem obeys_of_path {monitor : Monitor Act Ans μ} {p q : Prog Act Ans α} {m : μ}
    {post : α → μ → Prop}
    {events : List (Prog.Event Act Ans)} (path : p.Path events q) (obeys : monitor.Obeys p m post)
    (expected : monitor.Expected m events) : monitor.Obeys q (monitor.after m events) post := by
  induction path generalizing m with
  | here p => exact obeys
  | step answer rest ih =>
      obtain ⟨-, onward⟩ := obeys
      obtain ⟨first, later⟩ := expected
      exact ih (onward answer first) later

theorem expected_append {monitor : Monitor Act Ans μ} {m : μ}
    {before after : List (Prog.Event Act Ans)} :
    monitor.Expected m (before ++ after) ↔ monitor.Expected m before ∧
    monitor.Expected (monitor.after m before) after := by
  induction before generalizing m with
  | nil => exact ⟨fun expected => ⟨trivial, expected⟩, fun both => both.2⟩
  | cons event before ih =>
      simp only [List.cons_append, Expected, ih, Monitor.after, List.foldl_cons, and_assoc]

/-- The events of a path, cut anywhere. -/
theorem path_append {p q : Prog Act Ans α} {before after : List (Prog.Event Act Ans)}
    (path : p.Path (before ++ after) q) :
    ∃ middle, p.Path before middle ∧ middle.Path after q := by
  induction before generalizing p with
  | nil => exact ⟨p, .here p, path⟩
  | cons event before ih =>
      cases path with
      | step answer rest =>
          obtain ⟨middle, first, last⟩ := ih rest
          exact ⟨middle, .step answer first, last⟩

/-- Every action of a path was allowed where the events before it had taken the monitor. -/
theorem allowed_of_path {monitor : Monitor Act Ans μ} {p q : Prog Act Ans α} {m : μ}
    {post : α → μ → Prop}
    {before after : List (Prog.Event Act Ans)} {event : Prog.Event Act Ans}
    (path : p.Path (before ++ event :: after) q)
    (obeys : monitor.Obeys p m post) (expected : monitor.Expected m (before ++ event :: after)) :
    monitor.allows (monitor.after m before) event.1 := by
  obtain ⟨middle, first, last⟩ := path_append path
  have left := obeys_of_path first obeys (expected_append.mp expected).1
  cases last with
  | step answer rest => exact left.1

/-! ### The rules -/

section Rules

variable {monitor : Monitor Act Ans μ} {m : μ}

theorem Obeys.mono {p : Prog Act Ans α} {post post' : α → μ → Prop} (obeys : monitor.Obeys p m post)
    (weaker : ∀ a m', post a m' → post' a m') : monitor.Obeys p m post' := by
  induction p generalizing m with
  | done a => exact weaker a m obeys
  | act action next ih =>
      obtain ⟨allowed, onward⟩ := obeys
      exact ⟨allowed, fun answer expected => ih answer (onward answer expected)⟩

theorem Obeys.andThen {p : Prog Act Ans α} {f : α → Prog Act Ans β} {post : β → μ → Prop}
    (obeys : monitor.Obeys p m fun a m' => monitor.Obeys (f a) m' post) :
      monitor.Obeys (p.andThen f) m post := by
  induction p generalizing m with
  | done a => exact obeys
  | act action next ih =>
      obtain ⟨allowed, onward⟩ := obeys
      exact ⟨allowed, fun answer expected => ih answer (onward answer expected)⟩

theorem Obeys.perform {action : Act} {post : Ans action → μ → Prop}
    (allowed : monitor.allows m action)
    (answered : ∀ answer, monitor.expects m ⟨action, answer⟩ →
      post answer (monitor.next m ⟨action, answer⟩)) :
    monitor.Obeys (Prog.perform action) m post :=
  ⟨allowed, answered⟩

/-- One postcondition for the result and one for the error. -/
def ends (good : α → μ → Prop) (bad : ε → μ → Prop) : Except ε α → μ → Prop
  | .ok a, m => good a m
  | .error e, m => bad e m

variable {x : Attempt Act Ans ε α} {f : α → Attempt Act Ans ε β}
    {good : β → μ → Prop} {bad : ε → μ → Prop}

theorem Obeys.bind
    (first : monitor.Obeys x m (ends (fun a m' => monitor.Obeys (f a) m' (ends good bad)) bad)) :
    monitor.Obeys (x >>= f : Attempt Act Ans ε β) m (ends good bad) := by
  apply Obeys.andThen
  apply first.mono
  intro result m' ended
  cases result with
  | ok a => exact ended
  | error e => exact ended

theorem Obeys.pure {a : β} (ended : good a m) :
    monitor.Obeys (pure a : Attempt Act Ans ε β) m (ends good bad) := ended

theorem Obeys.fail {e : ε} (ended : bad e m) :
    monitor.Obeys (Attempt.fail e : Attempt Act Ans ε β) m (ends good bad) := ended

theorem Obeys.caught {good : Except ε α → μ → Prop}
    (first : monitor.Obeys x m (ends (fun a m' => good (.ok a) m') fun e m' =>
      good (.error e) m')) :
    monitor.Obeys x.caught m (ends good bad) := by
  apply Obeys.andThen
  apply first.mono
  intro result m' ended
  cases result with
  | ok a => exact ended
  | error e => exact ended

theorem Obeys.ofProg {p : Prog Act Ans β} (first : monitor.Obeys p m good) :
    monitor.Obeys (Attempt.ofProg p : Attempt Act Ans ε β) m (ends good bad) := by
  apply Obeys.andThen
  apply first.mono
  intro result m' ended
  exact ended

theorem Obeys.ends_mono {good good' : α → μ → Prop} {bad bad' : ε → μ → Prop}
    (obeys : monitor.Obeys x m (ends good bad))
    (result : ∀ a m', good a m' → good' a m') (error : ∀ e m', bad e m' → bad' e m') :
    monitor.Obeys x m (ends good' bad') := by
  apply obeys.mono
  intro outcome m' ended
  cases outcome with
  | ok a => exact result a m' ended
  | error e => exact error e m' ended

end Rules

end Monitor

end Commeatus.Lib
