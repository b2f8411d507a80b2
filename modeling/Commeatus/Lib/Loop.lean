import Mathlib.Logic.Relation
import Commeatus.Lib.Io

/-!
Loops that leave by an early return.

A `loop { .. }` of the source is its body, run again until it is done. How many
rounds that takes may depend on the environment, so `iterate` counts rounds and
says when the loop has not returned yet. A `Run` is a fallible computation with
such loops in it.
-/

namespace Commeatus.Lib

variable {σ α β : Type}

/-- How one round of a loop ends. -/
inductive Round (α : Type) where
  | again
  | done (result : α)

/-- At most the given number of rounds, with the result if the loop returned. -/
def iterate (body : σ → Round α × σ) : Nat → σ → Option α × σ
  | 0, s => (none, s)
  | rounds + 1, s =>
      match body s with
      | (.again, s) => iterate body rounds s
      | (.done result, s) => (some result, s)

theorem iterate_done {body : σ → Round α × σ} {s s' : σ} {result : α}
    (h : body s = (.done result, s'))
    (rounds : Nat) : iterate body (rounds + 1) s = (some result, s') := by
  rw [iterate, h]

theorem iterate_again {body : σ → Round α × σ} {s s' : σ}
    (h : body s = (.again, s')) (rounds : Nat) :
    iterate body (rounds + 1) s = iterate body rounds s' := by
  rw [iterate, h]

/-- What every round preserves holds at every point of the loop. -/
theorem iterate_invariant {body : σ → Round α × σ} {I : σ → Prop} (round : ∀ s, I s → I (body s).2)
    (rounds : Nat) {s : σ} (start : I s) : I (iterate body rounds s).2 := by
  induction rounds generalizing s with
  | zero => exact start
  | succ rounds ih =>
      have next := round s start
      unfold iterate
      match hbody : body s with
      | (.again, s') =>
          rw [hbody] at next
          exact ih next
      | (.done result, s') =>
          rw [hbody] at next
          exact next

/-- A loop returns from some round. -/
theorem iterate_returns {body : σ → Round α × σ} {rounds : Nat} {s s' : σ} {result : α}
    (returned : iterate body rounds s = (some result, s')) :
    ∃ s₁, body s₁ = (.done result, s') := by
  induction rounds generalizing s with
  | zero => cases returned
  | succ rounds ih =>
      match hbody : body s with
      | (.again, s₁) =>
          rw [iterate_again hbody] at returned
          exact ih returned
      | (.done result', s₁) =>
          rw [iterate_done hbody] at returned
          cases returned
          exact ⟨s, hbody⟩

/-- A loop that returned has the same result with more rounds allowed. -/
theorem iterate_more {body : σ → Round α × σ} {rounds : Nat} {s s' : σ} {result : α}
    (returned : iterate body rounds s = (some result, s')) (extra : Nat) :
    iterate body (rounds + extra) s = (some result, s') := by
  induction rounds generalizing s with
  | zero => cases returned
  | succ rounds ih =>
      rw [Nat.succ_add]
      unfold iterate at returned ⊢
      match hbody : body s with
      | (.again, s₁) =>
          simp only [hbody] at returned ⊢
          exact ih returned
      | (.done result', s₁) =>
          simp only [hbody] at returned ⊢
          exact returned

/-- From a step to a point that stands still, a machine comes nowhere else. -/
theorem halted_of_step (next : α → Option α) {a b c : α} (stepped : next a = some b)
    (halted : next b = some b) (onward : Relation.ReflTransGen (fun x y => next x = some y) a c) :
    c = a ∨ c = b := by
  induction onward with
  | refl => exact .inl rfl
  | tail _ last ih =>
      rcases ih with rfl | rfl
      · rw [stepped] at last
        exact .inr (Option.some.inj last).symm
      · rw [halted] at last
        exact .inr (Option.some.inj last).symm

/-- A fallible computation that may not return. -/
def Run (σ α : Type) : Type := σ → Option (Except IoError α × σ)

namespace Run

instance : Monad (Run σ) where
  pure a := fun s => some (.ok a, s)
  bind x f := fun s =>
    match x s with
    | none => none
    | some (.ok a, s) => f a s
    | some (.error e, s) => some (.error e, s)

def fail (e : IoError) : Run σ α := fun s => some (.error e, s)

/-- A computation without loops. -/
def ofIo (x : IoM σ α) : Run σ α := fun s => some (x s)

/-- A loop with the given number of rounds. -/
def loop (rounds : Nat) (body : σ → Round (Except IoError α) × σ) : Run σ α := fun s =>
  match iterate body rounds s with
  | (none, _) => none
  | (some result, s) => some (result, s)

def modify (f : σ → σ) : Run σ Unit := fun s => some (.ok (), f s)

/-- A step made under a condition. -/
def when (condition : Bool) (x : Run σ Unit) : Run σ Unit := if condition then x else pure ()

/-- Whether the computation succeeds; its error is dropped. -/
def succeeds (x : Run σ α) : Run σ Bool := fun s =>
  match x s with
  | none => none
  | some (.ok _, s) => some (.ok true, s)
  | some (.error _, s) => some (.ok false, s)

/-- Work on a part of the state. -/
def zoom {τ : Type} (get : σ → τ) (set : τ → σ → σ) (x : Run τ α) : Run σ α := fun s =>
  match x (get s) with
  | none => none
  | some (result, t) => some (result, set t s)

theorem bind_of_ok {x : Run σ α} {f : α → Run σ β} {s s' : σ} {a : α} (h : x s = some (.ok a, s')) :
    (x >>= f) s = f a s' := by
  show (match x s with
    | none => none
    | some (.ok a, s) => f a s
    | some (.error e, s) => some (.error e, s)) = _
  rw [h]

theorem bind_of_error {x : Run σ α} {f : α → Run σ β} {s s' : σ} {e : IoError}
    (h : x s = some (.error e, s')) : (x >>= f) s = some (.error e, s') := by
  show (match x s with
    | none => none
    | some (.ok a, s) => f a s
    | some (.error e, s) => some (.error e, s)) = _
  rw [h]

/-- A sequence returns what its second part returns, or the error of its first part. -/
theorem bind_eq_some {x : Run σ α} {f : α → Run σ β} {s s'' : σ} {result : Except IoError β}
    (h : (x >>= f) s = some (result, s'')) :
    (∃ a s', x s = some (.ok a, s') ∧ f a s' = some (result, s'')) ∨
      ∃ e, x s = some (.error e, s'') ∧ result = .error e := by
  match hx : x s with
  | none =>
      change (match x s with
        | none => none
        | some (.ok a, s) => f a s
        | some (.error e, s) => some (.error e, s)) = _ at h
      rw [hx] at h
      cases h
  | some (.ok a, s') =>
      rw [bind_of_ok hx] at h
      exact .inl ⟨a, s', rfl, h⟩
  | some (.error e, s') =>
      rw [bind_of_error hx] at h
      cases h
      exact .inr ⟨e, rfl, rfl⟩

/-- An error of a sequence is an error of one of its parts. -/
theorem bind_eq_error {x : Run σ α} {f : α → Run σ β} {s s'' : σ} {e : IoError}
    (h : (x >>= f) s = some (.error e, s'')) :
    x s = some (.error e, s'') ∨ ∃ a s', x s = some (.ok a, s') ∧
      f a s' = some (.error e, s'') := by
  rcases bind_eq_some h with both | ⟨e', first, same⟩
  · exact .inr both
  · cases same
    exact .inl first

theorem bind_pure_eq_ok {x : Run σ α} {b b' : β} {s s' : σ}
    (h : (x >>= fun _ => (pure b : Run σ β)) s = some (.ok b', s')) : b' = b := by
  rcases bind_eq_some h with ⟨_, _, -, last⟩ | ⟨e, -, other⟩
  · cases last
    rfl
  · cases other

theorem loop_of_iterate {body : σ → Round (Except IoError α) × σ} {n m : Nat} {s s' : σ}
    {result : Except IoError α} (returned : iterate body n s = (some result, s')) (enough : n ≤ m) :
    loop m body s = some (result, s') := by
  obtain ⟨extra, rfl⟩ := Nat.exists_eq_add_of_le enough
  unfold loop
  rw [iterate_more returned extra]

theorem iterate_of_loop {rounds : Nat} {body : σ → Round (Except IoError α) × σ} {s s' : σ}
    {result : Except IoError α} (h : loop rounds body s = some (result, s')) :
    iterate body rounds s = (some result, s') := by
  unfold loop at h
  match hloop : iterate body rounds s with
  | (none, s₁) =>
      rw [hloop] at h
      cases h
  | (some result', s₁) =>
      rw [hloop] at h
      cases h
      rfl

theorem loop_returns {rounds : Nat} {body : σ → Round (Except IoError α) × σ} {s s' : σ}
    {result : Except IoError α} (h : loop rounds body s = some (result, s')) :
    ∃ s₁, body s₁ = (.done result, s') :=
  iterate_returns (iterate_of_loop h)

/-- However many rounds are allowed, a loop that returns has one result. -/
theorem loop_unique {body : σ → Round (Except IoError α) × σ} {n m : Nat} {s s₁ s₂ : σ}
    {result₁ result₂ : Except IoError α} (returned : iterate body n s = (some result₁, s₁))
    (h : loop m body s = some (result₂, s₂)) : result₂ = result₁ ∧ s₂ = s₁ := by
  have more := loop_of_iterate returned (Nat.le_add_right n m)
  have same := loop_of_iterate (iterate_of_loop h) (Nat.le_add_left m n)
  rw [more] at same
  cases same
  exact ⟨rfl, rfl⟩

theorem zoom_of_some {τ : Type} {get : σ → τ} {set : τ → σ → σ} {x : Run τ α} {s : σ} {t : τ}
    {result : Except IoError α} (h : x (get s) = some (result, t)) :
    zoom get set x s = some (result, set t s) := by
  rw [zoom, h]

theorem succeeds_zoom_of_error {τ : Type} {get : σ → τ} {set : τ → σ → σ}
    {x : Run τ α} {s : σ} {t : τ}
    {e : IoError} (h : x (get s) = some (.error e, t)) :
    succeeds (zoom get set x) s = some (.ok false, set t s) := by
  unfold succeeds zoom
  rw [h]

theorem of_zoom {τ : Type} {get : σ → τ} {set : τ → σ → σ} {x : Run τ α} {s s' : σ}
    {result : Except IoError α} (h : zoom get set x s = some (result, s')) :
    ∃ t, x (get s) = some (result, t) ∧ s' = set t s := by
  unfold zoom at h
  match hx : x (get s) with
  | none =>
      rw [hx] at h
      cases h
  | some (result', t) =>
      rw [hx] at h
      cases h
      exact ⟨t, rfl, rfl⟩

theorem of_succeeds {x : Run σ α} {s s' : σ} {result : Except IoError Bool}
    (h : succeeds x s = some (result, s')) :
    ∃ result', x s = some (result', s') ∧ result = .ok result'.toBool := by
  unfold succeeds at h
  match hx : x s with
  | none =>
      rw [hx] at h
      cases h
  | some (.ok a, t) =>
      rw [hx] at h
      cases h
      exact ⟨_, rfl, rfl⟩
  | some (.error e, t) =>
      rw [hx] at h
      cases h
      exact ⟨_, rfl, rfl⟩

theorem of_succeeds_zoom {τ : Type} {get : σ → τ} {set : τ → σ → σ} {x : Run τ α} {s s' : σ}
    {result : Except IoError Bool} (h : succeeds (zoom get set x) s = some (result, s')) :
    ∃ result' t, x (get s) = some (result', t) ∧ s' = set t s ∧ result = .ok result'.toBool := by
  obtain ⟨result', zoomed, same⟩ := of_succeeds h
  obtain ⟨t, inner, after⟩ := of_zoom zoomed
  exact ⟨result', t, inner, after, same⟩

/-- The computation leaves what `observe` sees of the state alone. -/
def Keeps {τ : Type} (observe : σ → τ) (x : Run σ α) : Prop :=
  ∀ s result s', x s = some (result, s') → observe s' = observe s

/-- The computation never returns the given error. -/
def Never (e : IoError) (x : Run σ α) : Prop := ∀ s s', x s ≠ some (.error e, s')

variable {τ : Type} {observe : σ → τ}

theorem Keeps.bind {x : Run σ α} {f : α → Run σ β} (first : Keeps observe x)
    (next : ∀ a, Keeps observe (f a)) : Keeps observe (x >>= f) := by
  intro s result s'' h
  rcases bind_eq_some h with ⟨a, s', hx, hf⟩ | ⟨e, hx, -⟩
  · rw [next a s' _ _ hf, first s _ _ hx]
  · exact first s _ _ hx

theorem Keeps.zoom {ρ υ : Type} {get : σ → ρ} {set : ρ → σ → σ} {part : ρ → υ} {x : Run ρ α}
    (inner : Keeps part x) (outer : ∀ s t, part t = part (get s) → observe (set t s) = observe s) :
    Keeps observe (zoom get set x) := by
  intro s result s' h
  obtain ⟨t, hx, rfl⟩ := of_zoom h
  exact outer s t (inner _ _ _ hx)

theorem Keeps.pure (a : α) : Keeps observe (pure a : Run σ α) := by
  intro s result s' h
  cases h
  rfl

theorem Keeps.when {condition : Bool} {x : Run σ Unit} (kept : Keeps observe x) :
    Keeps observe (when condition x) := by
  unfold Run.when
  split
  · exact kept
  · exact .pure ()

theorem Keeps.modify {f : σ → σ} (kept : ∀ s, observe (f s) = observe s) :
    Keeps observe (modify f) := by
  intro s result s' h
  cases h
  exact kept s

theorem Keeps.succeeds {x : Run σ α} (kept : Keeps observe x) : Keeps observe (succeeds x) := by
  intro s result s' h
  obtain ⟨result', inner, -⟩ := of_succeeds h
  exact kept s result' s' inner

/-- The computation keeps an invariant of the state. -/
def Preserves (I : σ → Prop) (x : Run σ α) : Prop :=
  ∀ s result s', x s = some (result, s') → I s → I s'

theorem Preserves.bind {I : σ → Prop} {x : Run σ α} {f : α → Run σ β} (first : Preserves I x)
    (next : ∀ a, Preserves I (f a)) : Preserves I (x >>= f) := by
  intro s result s'' h start
  rcases bind_eq_some h with ⟨a, s', hx, hf⟩ | ⟨e, hx, -⟩
  · exact next a s' _ _ hf (first s _ _ hx start)
  · exact first s _ _ hx start

theorem Preserves.ofIo {I : σ → Prop} {x : IoM σ α} (kept : ∀ s, I s → I (x s).2) :
    Preserves I (ofIo x) := by
  intro s result s' h start
  have eq : x s = (result, s') := Option.some.inj h
  have next := kept s start
  rw [eq] at next
  exact next

theorem Preserves.modify {I : σ → Prop} {f : σ → σ} (kept : ∀ s, I s → I (f s)) :
    Preserves I (modify f) := by
  intro s result s' h start
  cases h
  exact kept s start

theorem Preserves.pure {I : σ → Prop} (a : α) : Preserves I (pure a : Run σ α) := by
  intro s result s' h start
  cases h
  exact start

theorem Preserves.when {I : σ → Prop} {condition : Bool} {x : Run σ Unit} (kept : Preserves I x) :
    Preserves I (when condition x) := by
  unfold Run.when
  split
  · exact kept
  · exact .pure ()

theorem Preserves.loop {I : σ → Prop} {rounds : Nat} {body : σ → Round (Except IoError α) × σ}
    (round : ∀ s, I s → I (body s).2) : Preserves I (loop rounds body) := by
  intro s result s' h start
  have kept := iterate_invariant round rounds start
  unfold Run.loop at h
  match hloop : iterate body rounds s with
  | (none, s₁) =>
      rw [hloop] at h
      cases h
  | (some result', s₁) =>
      rw [hloop] at h kept
      cases h
      exact kept

theorem Keeps.loop {rounds : Nat} {body : σ → Round (Except IoError α) × σ}
    (round : ∀ s, observe (body s).2 = observe s) : Keeps observe (loop rounds body) := by
  intro s result s' h
  have kept : Preserves (fun s' => observe s' = observe s) (Run.loop rounds body) :=
    .loop fun s' eq => (round s').trans eq
  exact kept s result s' h rfl

/-- What is determined by something that is kept is preserved. -/
theorem Keeps.preserves {I : σ → Prop} {x : Run σ α} (kept : Keeps observe x)
    (determined : ∀ s s', observe s' = observe s → I s → I s') : Preserves I x :=
  fun s _ s' h start => determined s s' (kept s _ _ h) start

theorem Never.bind {e : IoError} {x : Run σ α} {f : α → Run σ β} (first : Never e x)
    (next : ∀ a, Never e (f a)) : Never e (x >>= f) := by
  intro s s'' h
  rcases bind_eq_error h with failed | ⟨a, s', -, failed⟩
  · exact first s s'' failed
  · exact next a s' s'' failed

theorem Never.pure {e : IoError} (a : α) : Never e (pure a : Run σ α) := fun _ _ h => nomatch h

theorem Never.modify {e : IoError} (f : σ → σ) : Never e (modify f) := fun _ _ h => nomatch h

theorem Never.when {e : IoError} {condition : Bool} {x : Run σ Unit} (never : Never e x) :
    Never e (when condition x) := by
  unfold Run.when
  split
  · exact never
  · exact .pure ()

/-- Where the error is dropped there is none. -/
theorem Never.zoom {ρ : Type} {e : IoError} {get : σ → ρ} {set : ρ → σ → σ} {x : Run ρ α}
    (inner : Never e x) : Never e (zoom get set x) := by
  intro s s' h
  obtain ⟨t, hx, -⟩ := of_zoom h
  exact inner _ _ hx

theorem Never.loop {e : IoError} {rounds : Nat} {body : σ → Round (Except IoError α) × σ}
    (round : ∀ s s', body s ≠ (.done (.error e), s')) : Never e (loop rounds body) := by
  have never : ∀ rounds s s', iterate body rounds s ≠ (some (.error e), s') := by
    intro rounds
    induction rounds with
    | zero => exact fun s s' h => nomatch h
    | succ rounds ih =>
        intro s s' h
        unfold iterate at h
        match hbody : body s with
        | (.again, s₁) =>
            rw [hbody] at h
            exact ih s₁ s' h
        | (.done result, s₁) =>
            rw [hbody] at h
            cases h
            exact round s s' hbody
  intro s s' h
  unfold Run.loop at h
  match hloop : iterate body rounds s with
  | (none, s₁) =>
      rw [hloop] at h
      cases h
  | (some result, s₁) =>
      rw [hloop] at h
      cases h
      exact never rounds s s' hloop

end Run

end Commeatus.Lib
