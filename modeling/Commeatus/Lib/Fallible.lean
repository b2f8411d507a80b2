import Commeatus.Lib.Sweep

/-!
Results that may be errors.

A sequence of fallible steps succeeds exactly when every step does, and a fold
over a list succeeds exactly when it does at every entry; the rules below turn
a successful run into the successes of its parts.
-/

namespace Commeatus.Lib

variable {ε α β σ : Type}

/-- A sequence succeeds exactly when both parts do. -/
theorem bind_eq_ok_iff {x : Except ε α} {f : α → Except ε β} {b : β} :
    (x >>= f) = .ok b ↔ ∃ a, x = .ok a ∧ f a = .ok b := by
  cases x with
  | error e =>
      constructor
      · intro failed
        cases failed
      · rintro ⟨a, no, -⟩
        cases no
  | ok a =>
      constructor
      · intro succeeds
        exact ⟨a, rfl, succeeds⟩
      · rintro ⟨a', same, succeeds⟩
        cases same
        exact succeeds

theorem ok_bind (a : α) (f : α → Except ε β) : ((.ok a : Except ε α) >>= f) = f a := rfl

/-- What is read off a result was read off a success. -/
theorem exists_ok_of_map {x : Except ε α} {f : α → β} {b : β} (read : x.toOption.map f = some b) :
    ∃ a, x = .ok a ∧ f a = b := by
  cases x with
  | error e => cases read
  | ok a => exact ⟨a, rfl, Option.some.inj read⟩

/-- Leave with the error when the condition holds. -/
def refuse (bad : Prop) [Decidable bad] (e : ε) : Except ε Unit := if bad then .error e else .ok ()

@[simp] theorem refuse_eq_ok_iff {bad : Prop} [Decidable bad] {e : ε} {u : Unit} :
    refuse bad e = .ok u ↔ ¬ bad := by
  unfold refuse
  split
  · rename_i holds
    simp [holds]
  · rename_i fails
    simp [fails]

theorem refuse_of {bad : Prop} [Decidable bad] (holds : bad) (e : ε) :
    refuse bad e = .error e := if_pos holds

theorem refuse_of_not {bad : Prop} [Decidable bad] (fails : ¬ bad) (e : ε) :
    refuse bad e = .ok () := if_neg fails

/-- What a refusal guards runs only when the condition fails. -/
theorem refuse_bind_eq_ok_iff {bad : Prop} [Decidable bad] {e : ε} {f : Unit → Except ε β} {b : β} :
    (refuse bad e >>= f) = .ok b ↔ ¬ bad ∧ f () = .ok b := by
  rw [bind_eq_ok_iff]
  constructor
  · rintro ⟨u, passed, rest⟩
    exact ⟨refuse_eq_ok_iff.mp passed, rest⟩
  · rintro ⟨passed, rest⟩
    exact ⟨(), refuse_eq_ok_iff.mpr passed, rest⟩

/-- `ok_or_else`. -/
def okOr (x : Option α) (e : ε) : Except ε α :=
  match x with
  | some a => .ok a
  | none => .error e

@[simp] theorem okOr_eq_ok_iff {x : Option α} {e : ε} {a : α} : okOr x e = .ok a ↔ x = some a := by
  cases x <;> simp [okOr]

theorem okOr_bind_eq_ok_iff {x : Option α} {e : ε} {f : α → Except ε β} {b : β} :
    (okOr x e >>= f) = .ok b ↔ ∃ a, x = some a ∧ f a = .ok b := by
  simp only [bind_eq_ok_iff, okOr_eq_ok_iff]

/-- A sequence fails exactly when its first part does, or the second after it. -/
theorem bind_eq_error_iff {x : Except ε α} {f : α → Except ε β} {e : ε} :
    (x >>= f) = .error e ↔ x = .error e ∨ ∃ a, x = .ok a ∧ f a = .error e := by
  cases x with
  | error e' =>
      constructor
      · intro failed
        cases failed
        exact .inl rfl
      · rintro (failed | ⟨a, no, -⟩)
        · cases failed
          rfl
        · cases no
  | ok a =>
      constructor
      · intro failed
        exact .inr ⟨a, rfl, failed⟩
      · rintro (no | ⟨a', same, failed⟩)
        · cases no
        · cases same
          exact failed

/-- A refusal that fails has its own error. -/
theorem refuse_bind_eq_error_iff {bad : Prop} [Decidable bad] {e e' : ε} {f : Unit → Except ε β} :
    (refuse bad e >>= f) = .error e' ↔ (bad ∧ e = e') ∨ (¬ bad ∧ f () = .error e') := by
  by_cases holds : bad
  · rw [refuse_of holds]
    constructor
    · intro failed
      cases failed
      exact .inl ⟨holds, rfl⟩
    · rintro (⟨-, rfl⟩ | ⟨fails, -⟩)
      · rfl
      · exact absurd holds fails
  · rw [refuse_of_not holds]
    constructor
    · intro failed
      exact .inr ⟨holds, failed⟩
    · rintro (⟨no, -⟩ | ⟨-, failed⟩)
      · exact absurd no holds
      · exact failed

/-! ### Success alone -/

/-- Whether a sequence succeeds, and with what, depends on its parts in the same way. -/
theorem toOption_bind_congr {x y : Except ε α} {f g : α → Except ε β}
    (first : x.toOption = y.toOption)
    (next : ∀ a, (f a).toOption = (g a).toOption) : (x >>= f).toOption = (y >>= g).toOption := by
  cases x with
  | error e =>
      cases y with
      | error e' => rfl
      | ok b => cases first
  | ok a =>
      cases y with
      | error e' => cases first
      | ok b =>
          cases first
          exact next a

theorem toOption_bind (x : Except ε α) (f : α → Except ε β) :
    (x >>= f).toOption = x.toOption.bind fun a => (f a).toOption := by
  cases x <;> rfl

theorem toOption_map (g : α → β) (x : Except ε α) : (x.map g).toOption = x.toOption.map g := by
  cases x <;> rfl

theorem toOption_refuse {bad : Prop} [Decidable bad] (e e' : ε) :
    (refuse bad e).toOption = (refuse bad e').toOption := by
  unfold refuse
  split <;> rfl

theorem toOption_okOr {x : Option α} (e e' : ε) : (okOr x e).toOption = (okOr x e').toOption := by
  cases x <;> rfl

theorem toOption_eq_some_iff {x : Except ε α} {a : α} : x.toOption = some a ↔ x = .ok a := by
  cases x with
  | error e =>
      constructor
      · intro no
        cases no
      · intro no
        cases no
  | ok b =>
      constructor
      · rintro ⟨⟩
        rfl
      · rintro ⟨⟩
        rfl

/-! ### Failures -/

/-- The errors are of a kind. -/
def FailsWith (P : ε → Prop) (x : Except ε α) : Prop := ∀ e, x = .error e → P e

namespace FailsWith

variable {P : ε → Prop}

theorem ok (a : α) : FailsWith P (.ok a : Except ε α) := fun _ no => nomatch no

theorem error {e : ε} (of : P e) : FailsWith P (.error e : Except ε α) := by
  rintro e' ⟨⟩
  exact of

theorem bind {x : Except ε α} {f : α → Except ε β} (first : FailsWith P x)
    (next : ∀ a, FailsWith P (f a)) :
    FailsWith P (x >>= f) := by
  cases x with
  | error e => exact .error (first e rfl)
  | ok a => exact next a

theorem refuse {bad : Prop} [Decidable bad] {e : ε} (of : P e) : FailsWith P (refuse bad e) := by
  unfold Lib.refuse
  split
  · exact .error of
  · exact .ok ()

end FailsWith

/-! ### Lists -/

/-- A fold that succeeds is a sweep of successful steps. -/
theorem sweep_of_foldlM {f : σ → α → Except ε σ} {l : List α} {s t : σ}
    (folded : l.foldlM f s = .ok t) :
    Sweep (fun a s t => f s a = .ok t) l s t := by
  induction l generalizing s with
  | nil =>
      cases folded
      exact .nil _
  | cons a l ih =>
      rw [List.foldlM_cons] at folded
      obtain ⟨u, first, rest⟩ := bind_eq_ok_iff.mp folded
      exact .cons first (ih rest)

/-- A step that leaves every entry alone leaves the list alone. -/
theorem mapM_eq_ok_self {f : α → Except ε α} {l : List α} (same : ∀ a ∈ l, f a = .ok a) :
    l.mapM f = .ok l := by
  induction l with
  | nil => rfl
  | cons a l ih =>
      rw [List.mapM_cons, same a List.mem_cons_self,
        ih fun b later => same b (List.mem_cons_of_mem _ later)]
      rfl

end Commeatus.Lib
