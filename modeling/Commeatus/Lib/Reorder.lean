import Mathlib.Data.List.Basic
import Mathlib.Data.List.Perm.Basic

/-!
Lists that are read by a step that may fail, and how far their order matters.

Two entries are independent when, in either order, they fail alike and lead to
equivalent states. A list may be reordered as long as the entries that depend
on each other keep their order: each kind of entries is such a group.
-/

namespace Commeatus.Lib

variable {α σ : Type}

/-! ### Results that fail alike or are related -/

namespace OptionRel

variable {R : σ → σ → Prop} {x y z : Option σ}

theorem refl (equivalence : Equivalence R) (x : Option σ) : Option.Rel R x x := by
  cases x with
  | none => exact .none
  | some s => exact .some (equivalence.refl s)

theorem symm (equivalence : Equivalence R) (alike : Option.Rel R x y) : Option.Rel R y x := by
  cases alike with
  | none => exact .none
  | some related => exact .some (equivalence.symm related)

theorem trans (equivalence : Equivalence R) (first : Option.Rel R x y) (second : Option.Rel R y z) :
    Option.Rel R x z := by
  cases first with
  | none => exact second
  | some related =>
      cases second with
      | some related' => exact .some (equivalence.trans related related')

theorem bind {f g : σ → Option σ} (first : Option.Rel R x y)
    (next : ∀ {s t}, R s t → Option.Rel R (f s) (g t)) :
    Option.Rel R (x.bind f) (y.bind g) := by
  cases first with
  | none => exact .none
  | some related => exact next related

/-- What does not tell related states apart follows alike from both results. -/
theorem bind_eq {β : Type} {f g : σ → Option β} (alike : Option.Rel R x y)
    (next : ∀ {s t}, R s t → f s = g t) :
    x.bind f = y.bind g := by
  cases alike with
  | none => rfl
  | some related => exact next related

end OptionRel

/-! ### Reading a list -/

/-- The entries are read one after the other, until one fails. -/
def readAll (step : α → σ → Option σ) : List α → σ → Option σ
  | [], s => some s
  | entry :: entries, s => (step entry s).bind (readAll step entries)

/-- The order of the two entries does not matter. -/
def Independent (step : α → σ → Option σ) (R : σ → σ → Prop) (a b : α) : Prop :=
  ∀ s, Option.Rel R ((step a s).bind (step b)) ((step b s).bind (step a))

section Reorder

variable {step : α → σ → Option σ} {R : σ → σ → Prop} (equivalence : Equivalence R)
  (congr : ∀ entry {s t}, R s t → Option.Rel R (step entry s) (step entry t))

include congr in
theorem readAll_congr (entries : List α) {s t : σ} (related : R s t) :
    Option.Rel R (readAll step entries s) (readAll step entries t) := by
  induction entries generalizing s t with
  | nil => exact .some related
  | cons entry entries ih => exact OptionRel.bind (congr entry related) ih

include equivalence congr

/-- An entry may be read before those that it is independent of. -/
theorem readAll_move {before : List α} {entry : α}
    (independent : ∀ b ∈ before, Independent step R b entry) (after : List α)
    (s : σ) :
    Option.Rel R (readAll step (before ++ entry :: after) s)
      (readAll step (entry :: (before ++ after)) s) := by
  induction before generalizing s with
  | nil => exact OptionRel.refl equivalence _
  | cons b before ih =>
      have later : Option.Rel R ((step b s).bind (readAll step (before ++ entry :: after)))
          ((step b s).bind (readAll step (entry :: (before ++ after)))) := by
        cases step b s with
        | none => exact .none
        | some t => exact ih (fun c member => independent c (List.mem_cons_of_mem _ member)) t
      have swapped :
        Option.Rel R (((step b s).bind (step entry)).bind (readAll step (before ++ after)))
          (((step entry s).bind (step b)).bind (readAll step (before ++ after))) :=
        OptionRel.bind (independent b List.mem_cons_self s) fun related =>
          readAll_congr congr _ related
      rw [Option.bind_assoc, Option.bind_assoc] at swapped
      exact OptionRel.trans equivalence later swapped

/-- A list may be reordered as long as the entries of each kind keep their order, when entries that
are of no common kind are independent. -/
theorem readAll_reorder {kinds : List (α → Bool)}
    (independent : ∀ a b, (∀ kind ∈ kinds, kind a = true → kind b = false) → Independent step R b a)
    {entries entries' : List α} (perm : entries.Perm entries')
    (order : ∀ kind ∈ kinds, entries.filter kind = entries'.filter kind) (s : σ) :
    Option.Rel R (readAll step entries s) (readAll step entries' s) := by
  induction entries generalizing entries' s with
  | nil =>
      rw [List.nil_perm.mp perm]
      exact OptionRel.refl equivalence _
  | cons a entries ih =>
      -- Everything before the first `a` of the other list is of no common kind with it.
      obtain ⟨before, after, rfl, fresh⟩ :=
        List.eq_append_cons_of_mem (perm.mem_iff.mp List.mem_cons_self)
      have apart : ∀ kind ∈ kinds, kind a = true → ∀ b ∈ before, kind b = false := by
        intro kind listed is b member
        by_contra other
        have same := order kind listed
        rw [List.filter_cons_of_pos is, List.filter_append] at same
        obtain ⟨first, rest, chosen⟩ := List.exists_cons_of_ne_nil
          (List.ne_nil_of_mem (List.mem_filter.mpr ⟨member, by simpa using other⟩))
        rw [chosen, List.cons_append] at same
        have earlier : first ∈ before :=
          List.mem_of_mem_filter (by rw [chosen]; exact List.mem_cons_self)
        rw [← (List.cons.inj same).1] at earlier
        exact fresh earlier
      have moved := readAll_move equivalence congr
        (fun b member => independent a b fun kind listed is =>
          apart kind listed is b member) after s
      refine OptionRel.trans equivalence ?_ (OptionRel.symm equivalence moved)
      have rest : entries.Perm (before ++ after) := (perm.trans List.perm_middle).cons_inv
      have order' : ∀ kind ∈ kinds, entries.filter kind = (before ++ after).filter kind := by
        intro kind listed
        have same := order kind listed
        cases is : kind a with
        | true =>
            have none : before.filter kind = [] := List.filter_eq_nil_iff.mpr fun b member => by
              simp [apart kind listed is b member]
            rw [List.filter_cons_of_pos is, List.filter_append, none, List.nil_append,
              List.filter_cons_of_pos is] at same
            rw [List.filter_append, none, List.nil_append]
            exact (List.cons.inj same).2
        | false =>
            have isnt : ¬ kind a = true := by simp [is]
            rw [List.filter_cons_of_neg isnt, List.filter_append,
              List.filter_cons_of_neg isnt] at same
            rw [same, List.filter_append]
      change Option.Rel R ((step a s).bind _) ((step a s).bind _)
      cases step a s with
      | none => exact .none
      | some t => exact ih rest order' t

end Reorder

end Commeatus.Lib
