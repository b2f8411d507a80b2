import Mathlib.Data.List.AList

/-!
Hash maps.

A map is an association list without duplicate keys. The order of its entries
stands for the unspecified iteration order of a hash map.
-/

namespace Commeatus.Lib

abbrev Map (α β : Type) : Type := AList fun _ : α => β

namespace Map

variable {α β : Type} [DecidableEq α]

def size (m : Map α β) : Nat := m.entries.length

/-- The first entry whose value satisfies a test, in iteration order. -/
def findValue (test : β → Bool) (m : Map α β) : Option (α × β) :=
  (m.entries.find? fun entry => test entry.2).map fun entry => (entry.1, entry.2)

/-- `retain`: the entries whose value satisfies a test. -/
def keep (test : β → Bool) (m : Map α β) : Map α β :=
  ⟨m.entries.filter fun entry => test entry.2, m.nodupKeys.sublist List.filter_sublist⟩

theorem lookup_keep {test : β → Bool} {m : Map α β} {a : α} {b : β} :
    (m.keep test).lookup a = some b ↔ m.lookup a = some b ∧ test b = true := by
  have member : ∀ {m : Map α β}, m.lookup a = some b ↔ ⟨a, b⟩ ∈ m.entries := AList.mem_lookup_iff
  rw [member, member, keep, List.mem_filter]

/-- The same keys with other values. -/
def mapValues {γ : Type} (f : β → γ) (m : Map α β) : Map α γ where
  entries := m.entries.map fun entry => ⟨entry.1, f entry.2⟩
  nodupKeys := by
    have keys : (m.entries.map fun entry => (⟨entry.1, f entry.2⟩ : (_ : α) × γ)).keys =
        m.entries.keys := by
      simp [List.keys]
    rw [List.NodupKeys, keys]
    exact m.nodupKeys

theorem lookup_mapValues {γ : Type} (f : β → γ) (m : Map α β) (a : α) :
    (m.mapValues f).lookup a = (m.lookup a).map f := by
  have member : ∀ {δ : Type} {m : Map α δ} {d : δ}, m.lookup a = some d ↔
      ⟨a, d⟩ ∈ m.entries := AList.mem_lookup_iff
  ext c
  rw [member, Option.map_eq_some_iff]
  simp only [mapValues, List.mem_map]
  constructor
  · rintro ⟨⟨key, b⟩, entry, same⟩
    cases same
    exact ⟨b, member.mpr entry, rfl⟩
  · rintro ⟨b, found, rfl⟩
    exact ⟨⟨a, b⟩, member.mp found, rfl⟩

theorem lookup_insert (a a' : α) (b : β) (m : Map α β) :
    (m.insert a' b).lookup a = if a = a' then some b else m.lookup a := by
  by_cases same : a = a'
  · subst same
    rw [if_pos rfl]
    exact AList.lookup_insert m
  · rw [if_neg same]
    exact AList.lookup_insert_ne same

theorem lookup_erase (a a' : α) (m : Map α β) :
    (m.erase a').lookup a = if a = a' then none else m.lookup a := by
  by_cases same : a = a'
  · subst same
    rw [if_pos rfl]
    exact AList.lookup_erase a m
  · rw [if_neg same]
    exact AList.lookup_erase_ne same

theorem lookup_foldl_erase (a : α) (keys : List α) (m : Map α β) :
    (keys.foldl (fun m key => m.erase key) m).lookup a = if a ∈ keys then none else m.lookup a := by
  induction keys generalizing m with
  | nil => simp
  | cons key keys ih =>
      rw [List.foldl_cons, ih, lookup_erase]
      by_cases here : a = key
      · simp [here]
      · simp [here]

theorem lookup_foldl_insert (a : α) (b : β) (keys : List α) (m : Map α β) :
    (keys.foldl (fun m key => m.insert key b) m).lookup a = if a ∈ keys then some b
      else m.lookup a := by
  induction keys generalizing m with
  | nil => simp
  | cons key keys ih =>
      rw [List.foldl_cons, ih, lookup_insert]
      by_cases here : a = key
      · simp [here]
      · simp [here]

theorem size_insert_of_present {m : Map α β} {a : α} (present : (m.lookup a).isSome) (b : β) :
    size (m.insert a b) = m.size := by
  have member : a ∈ m.keys := AList.lookup_isSome.mp present
  have keys : (m.insert a b).keys.length = m.keys.length := by
    rw [AList.keys_insert, List.length_cons, List.length_erase_of_mem member]
    exact Nat.succ_pred_eq_of_pos (List.length_pos_of_mem member)
  simpa [size, AList.keys, List.keys] using keys

theorem size_insert_le (m : Map α β) (a : α) (b : β) : size (m.insert a b) ≤ m.size + 1 := by
  have keys : (m.insert a b).keys.length ≤ m.keys.length + 1 := by
    rw [AList.keys_insert, List.length_cons]
    exact Nat.succ_le_succ List.length_erase_le
  simpa [size, AList.keys, List.keys] using keys

theorem size_erase_le (m : Map α β) (a : α) : size (m.erase a) ≤ m.size := by
  have keys : (m.erase a).keys.length ≤ m.keys.length := by
    rw [AList.keys_erase]
    exact List.length_erase_le
  simpa [size, AList.keys, List.keys] using keys

theorem size_erase_of_present {m : Map α β} {a : α} (present : (m.lookup a).isSome) :
    size (m.erase a) + 1 = m.size := by
  have member : a ∈ m.keys := AList.lookup_isSome.mp present
  have keys : (m.erase a).keys.length + 1 = m.keys.length := by
    rw [AList.keys_erase, List.length_erase_of_mem member]
    exact Nat.succ_pred_eq_of_pos (List.length_pos_of_mem member)
  simpa [size, AList.keys, List.keys] using keys

omit [DecidableEq α] in
theorem size_keep_le (test : β → Bool) (m : Map α β) : size (m.keep test) ≤ m.size :=
  List.length_filter_le _ _

omit [DecidableEq α] in
/-- What keeps its size has lost nothing. -/
theorem keep_eq_self_of_size {test : β → Bool} {m : Map α β}
    (size_le : m.size ≤ size (m.keep test)) : m.keep test = m := by
  have all :=
    List.length_filter_eq_length_iff.mp (Nat.le_antisymm (List.length_filter_le _ _) size_le)
  exact AList.ext (List.filter_eq_self.mpr all)

theorem mem_entries_iff {m : Map α β} {a : α} {b : β} : ⟨a, b⟩ ∈ m.entries ↔ m.lookup a = some b :=
  AList.mem_lookup_iff.symm

theorem lookup_of_findValue {test : β → Bool} {m : Map α β} {a : α} {b : β}
    (found : m.findValue test = some (a, b)) : m.lookup a = some b ∧ test b = true := by
  unfold findValue at found
  obtain ⟨entry, first, same⟩ := Option.map_eq_some_iff.mp found
  cases same
  have member := List.mem_of_find?_eq_some first
  have passes := List.find?_some (p := fun entry : (_ : α) × β => test entry.2) first
  exact ⟨AList.mem_lookup_iff.mpr member, passes⟩

/-- A value that was put into the map last is the first of those that pass. -/
theorem findValue_insert {test : β → Bool} (m : Map α β) (a : α) {b : β} (passes : test b = true) :
    findValue test (m.insert a b) = some (a, b) := by
  unfold findValue
  rw [AList.entries_insert, List.find?_cons]
  simp only [passes, Option.map_some]

end Map

end Commeatus.Lib
