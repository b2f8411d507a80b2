import Mathlib.Data.List.Forall2

/-!
Sweeps: a state is carried over the entries of a list, one step each.

The rules below say what holds after a sweep when it is known of each step: a
property that every step keeps, a property that only some entry can bring
about, and a list that grows by one item for each entry of a kind.
-/

namespace Commeatus.Lib

/-- The second state is reached from the first by one step for each entry, in order. -/
inductive Sweep {α σ : Type} (step : α → σ → σ → Prop) : List α → σ → σ → Prop where
  | nil (s : σ) : Sweep step [] s s
  | cons {entry : α} {entries : List α} {s t u : σ} (first : step entry s t)
      (rest : Sweep step entries t u) :
      Sweep step (entry :: entries) s u

namespace Sweep

variable {α β σ : Type} {step : α → σ → σ → Prop} {entries : List α} {s t : σ}

/-- What every step keeps is kept. -/
theorem preserves {P : σ → Prop} (keeps : ∀ {entry : α} {s t : σ}, step entry s t → P s → P t)
    (sweep : Sweep step entries s t) (start : P s) : P t := by
  induction sweep with
  | nil s => exact start
  | cons first rest ih => exact ih (keeps first start)

/-- What holds at the end held at the start or was brought about by an entry. -/
theorem occurs {P : σ → Prop} {Q : α → Prop}
    (brings : ∀ {entry : α} {s t : σ}, step entry s t → P t → P s ∨ Q entry)
    (sweep : Sweep step entries s t) (finish : P t) : P s ∨ ∃ entry ∈ entries, Q entry := by
  induction sweep with
  | nil s => exact .inl finish
  | cons first rest ih =>
      rcases ih finish with held | ⟨entry, member, caused⟩
      · rcases brings first held with held | caused
        · exact .inl held
        · exact .inr ⟨_, List.mem_cons_self, caused⟩
      · exact .inr ⟨entry, List.mem_cons_of_mem _ member, caused⟩

/-- A list to which every step appends the entry's item. -/
theorem appended (items : σ → List β) (item : α → β)
    (appends : ∀ {entry : α} {s t : σ}, step entry s t → items t = items s ++ [item entry])
    (sweep : Sweep step entries s t) : items t = items s ++ entries.map item := by
  induction sweep with
  | nil s => exact (List.append_nil _).symm
  | cons first rest ih =>
      rw [ih, appends first, List.append_assoc, List.singleton_append, List.map_cons]

/-- The list grows by an item for each entry of the kind, and by nothing for another. -/
structure Collects (items : σ → List β) (kind : α → Bool) (R : α → β → Prop) (entry : α)
    (s t : σ) : Prop where
  grows : kind entry = true → ∃ item, R entry item ∧ items t = items s ++ [item]
  stays : kind entry = false → items t = items s

/-- The items that were collected belong to the entries of the kind, in order. -/
theorem collected {items : σ → List β} {kind : α → Bool} {R : α → β → Prop}
    (collects : ∀ {entry : α} {s t : σ}, step entry s t → Collects items kind R entry s t)
    (sweep : Sweep step entries s t) :
    ∃ added, items t = items s ++ added ∧ List.Forall₂ R (entries.filter kind) added := by
  induction sweep with
  | nil s => exact ⟨[], (List.append_nil _).symm, .nil⟩
  | @cons entry entries s t u first rest ih =>
      obtain ⟨added, grown, belong⟩ := ih
      cases is : kind entry with
      | true =>
          obtain ⟨item, belongs, one⟩ := (collects first).grows is
          rw [List.filter_cons_of_pos is]
          exact ⟨item :: added, by rw [grown, one, List.append_assoc, List.singleton_append],
            .cons belongs belong⟩
      | false =>
          rw [List.filter_cons_of_neg (by rw [is]; exact Bool.false_ne_true)]
          exact ⟨added, by rw [grown, (collects first).stays is], belong⟩

end Sweep

/-- An item belongs to an entry. -/
theorem entry_of_item {α β : Type} {R : α → β → Prop} {entries : List α} {items : List β}
    (belong : List.Forall₂ R entries items) {item : β} (member : item ∈ items) :
    ∃ entry ∈ entries, R entry item := by
  induction belong with
  | nil => cases member
  | cons belongs rest ih =>
      rcases List.mem_cons.mp member with rfl | later
      · exact ⟨_, List.mem_cons_self, belongs⟩
      · obtain ⟨entry, among, belongs⟩ := ih later
        exact ⟨entry, List.mem_cons_of_mem _ among, belongs⟩

/-- An entry has an item. -/
theorem item_of_entry {α β : Type} {R : α → β → Prop} {entries : List α} {items : List β}
    (belong : List.Forall₂ R entries items) {entry : α} (member : entry ∈ entries) :
    ∃ item ∈ items, R entry item :=
  entry_of_item (List.Forall₂.flip (R := flip R) belong) member

end Commeatus.Lib
