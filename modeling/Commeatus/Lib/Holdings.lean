import Mathlib.Data.List.Nodup
import Mathlib.Logic.Function.Basic

/-!
Tokens from one counter, held by the routes of several clients.

Each client has routes and each route holds the tokens that were granted when
it was opened; an index leads from a token back to its client. The operations
are stated by what they do to the four parts, so that any representation of
the tables can use them.
-/

namespace Commeatus.Lib

/-- The routes of the clients with their tokens, the index, and the tokens granted so far. -/
structure Holdings (κ ι : Type) where
  table : κ → Option (ι → Option (List Nat))
  index : Nat → Option κ
  granted : List Nat
  next : Nat

namespace Holdings

variable {κ ι : Type} {h h' : Holdings κ ι} {first : Nat} {c : κ}

/-- The token belongs to the client's route. -/
def Owns (h : Holdings κ ι) (c : κ) (i : ι) (t : Nat) : Prop :=
  ∃ routes tokens, h.table c = some routes ∧ routes i = some tokens ∧ t ∈ tokens

/-- Tokens are granted once, belong to one route of one client, and the index is never stale. -/
structure Sound (first : Nat) (h : Holdings κ ι) : Prop where
  started : first ≤ h.next
  distinct : h.granted.Nodup
  issued : ∀ t ∈ h.granted, first ≤ t ∧ t < h.next
  owned : ∀ c i t, h.Owns c i t → t ∈ h.granted
  unique : ∀ c i c' i' t, h.Owns c i t → h.Owns c' i' t → c = c' ∧ i = i'
  indexed : ∀ t c, h.index t = some c → ∃ i, h.Owns c i t

/-- Every token of a route leads to its client. -/
def Wired (h : Holdings κ ι) : Prop := ∀ c i t, h.Owns c i t → h.index t = some c

/-- Every client has a route. -/
def Settled (h : Holdings κ ι) : Prop := ∀ c routes, h.table c = some routes → ∃ i tokens,
    routes i = some tokens

/-- Tokens are granted from the counter on. -/
structure Grants (tokens : List Nat) (h h' : Holdings κ ι) : Prop where
  run : tokens = List.range' h.next tokens.length
  granted : h'.granted = h.granted ++ tokens
  next : h'.next = h.next + tokens.length

theorem Grants.fresh {tokens : List Nat} (grants : Grants tokens h h') (sound : h.Sound first) :
    ∀ t ∈ tokens, t ∉ h.granted := by
  intro t granted old
  rw [grants.run, List.mem_range'_1] at granted
  exact absurd (sound.issued t old).2 (Nat.not_lt.mpr granted.1)

theorem Grants.distinct {tokens : List Nat} (grants : Grants tokens h h') (sound : h.Sound first) :
    h'.granted.Nodup := by
  rw [grants.granted]
  refine List.nodup_append.mpr ⟨sound.distinct, ?_, ?_⟩
  · rw [grants.run]
    exact List.nodup_range'
  · intro t old t' new same
    subst same
    exact grants.fresh sound t new old

theorem Grants.issued {tokens : List Nat} (grants : Grants tokens h h') (sound : h.Sound first) :
    ∀ t ∈ h'.granted, first ≤ t ∧ t < h'.next := by
  intro t member
  rw [grants.granted, List.mem_append] at member
  rw [grants.next]
  rcases member with old | new
  · exact ⟨(sound.issued t old).1, Nat.lt_add_right _ (sound.issued t old).2⟩
  · rw [grants.run, List.mem_range'_1] at new
    exact ⟨Nat.le_trans sound.started new.1, new.2⟩

/-- A grant without a route: the tokens are spent. -/
theorem Sound.grant {tokens : List Nat} (sound : h.Sound first) (grants : Grants tokens h h')
    (table : h'.table = h.table) (index : h'.index = h.index) : h'.Sound first := by
  have owns : ∀ c i t, h'.Owns c i t → h.Owns c i t := by
    rintro c i t ⟨routes, held, found, route, member⟩
    rw [table] at found
    exact ⟨routes, held, found, route, member⟩
  constructor
  · rw [grants.next]
    exact Nat.le_add_right_of_le sound.started
  · exact grants.distinct sound
  · exact grants.issued sound
  · intro c i t owned
    rw [grants.granted]
    exact List.mem_append_left _ (sound.owned c i t (owns c i t owned))
  · intro c i c' i' t owned owned'
    exact sound.unique c i c' i' t (owns c i t owned) (owns c' i' t owned')
  · intro t c indexed
    rw [index] at indexed
    obtain ⟨i, routes, held, found, route, member⟩ := sound.indexed t c indexed
    refine ⟨i, routes, held, ?_, route, member⟩
    rw [table]
    exact found

/-- What keeps who owns what, and the other parts, keeps soundness. -/
theorem Sound.of_owns (sound : h.Sound first) (owns : ∀ c i t, h'.Owns c i t ↔ h.Owns c i t)
    (rest : h'.index = h.index ∧ h'.granted = h.granted ∧ h'.next = h.next) : h'.Sound first := by
  obtain ⟨index, granted, next⟩ := rest
  constructor
  · rw [next]
    exact sound.started
  · rw [granted]
    exact sound.distinct
  · rw [granted, next]
    exact sound.issued
  · intro c i t owned
    rw [granted]
    exact sound.owned c i t ((owns c i t).mp owned)
  · intro c i c' i' t owned owned'
    exact sound.unique c i c' i' t ((owns c i t).mp owned) ((owns c' i' t).mp owned')
  · intro t c indexed
    rw [index] at indexed
    obtain ⟨i, owned⟩ := sound.indexed t c indexed
    exact ⟨i, (owns c i t).mpr owned⟩

/-- The index learns the tokens of a client's routes. -/
structure Learns (c : κ) (h h' : Holdings κ ι) : Prop where
  index : ∀ t c', h'.index t = some c' ↔
    (c' = c ∧ ∃ i, h.Owns c i t) ∨ (h.index t = some c' ∧ ¬∃ i, h.Owns c i t)
  rest : h'.table = h.table ∧ h'.granted = h.granted ∧ h'.next = h.next

theorem Learns.owns_iff (learns : Learns c h h') {c' : κ} {i : ι} {t : Nat} :
    h'.Owns c' i t ↔ h.Owns c' i t := by
  unfold Owns
  rw [learns.rest.1]

theorem Sound.learn (sound : h.Sound first) (learns : Learns c h h') : h'.Sound first := by
  obtain ⟨-, granted, next⟩ := learns.rest
  constructor
  · rw [next]
    exact sound.started
  · rw [granted]
    exact sound.distinct
  · rw [granted, next]
    exact sound.issued
  · intro c' i t owns
    rw [granted]
    exact sound.owned c' i t (learns.owns_iff.mp owns)
  · intro c₁ i₁ c₂ i₂ t owns₁ owns₂
    exact sound.unique c₁ i₁ c₂ i₂ t (learns.owns_iff.mp owns₁) (learns.owns_iff.mp owns₂)
  · intro t c' indexed
    rcases (learns.index t c').mp indexed with ⟨rfl, i, owns⟩ | ⟨old, -⟩
    · exact ⟨i, learns.owns_iff.mpr owns⟩
    · obtain ⟨i, owns⟩ := sound.indexed t c' old
      exact ⟨i, learns.owns_iff.mpr owns⟩

theorem Sound.unindexed_of_absent (sound : h.Sound first) (absent : h.table c = none) (t : Nat) :
    h.index t ≠ some c := by
  intro indexed
  obtain ⟨i, routes, tokens, found, -⟩ := sound.indexed t c indexed
  rw [absent] at found
  cases found

/-- Every token of the other clients' routes leads to its client. -/
def WiredBut (c : κ) (h : Holdings κ ι) : Prop :=
  ∀ c' i t, c' ≠ c → h.Owns c' i t → h.index t = some c'

theorem Wired.but (wired : h.Wired) (c : κ) : h.WiredBut c := fun c' i t _ owns => wired c' i t owns

/-- What the index learns completes it. -/
theorem WiredBut.learn (wired : h.WiredBut c) (sound : h.Sound first)
    (learns : Learns c h h') : h'.Wired := by
  intro c' i t owns
  have owns := learns.owns_iff.mp owns
  rw [learns.index]
  by_cases same : c' = c
  · subst same
    exact .inl ⟨rfl, i, owns⟩
  · refine .inr ⟨wired c' i t same owns, ?_⟩
    rintro ⟨i', owns'⟩
    exact same (sound.unique c' i c i' t owns owns').1

variable [DecidableEq κ]

/-- A client without routes comes in. -/
structure Enters (c : κ) (h h' : Holdings κ ι) : Prop where
  absent : h.table c = none
  table : h'.table = Function.update h.table c (some fun _ => none)
  rest : h'.index = h.index ∧ h'.granted = h.granted ∧ h'.next = h.next

theorem Enters.owns_iff (enters : Enters c h h') {c' : κ} {i : ι} {t : Nat} :
    h'.Owns c' i t ↔ h.Owns c' i t := by
  unfold Owns
  rw [enters.table]
  by_cases client : c' = c
  · subst client
    simp [enters.absent]
  · simp [client]

theorem Wired.enter (wired : h.Wired) (enters : Enters c h h') : h'.Wired := by
  intro c' i t owns
  rw [enters.rest.1]
  exact wired c' i t (enters.owns_iff.mp owns)

/-- A client goes, and the index loses the tokens of its routes. -/
structure Leaves (c : κ) (h h' : Holdings κ ι) : Prop where
  table : h'.table = Function.update h.table c none
  index : ∀ t c', h'.index t = some c' ↔ h.index t = some c' ∧ ¬∃ i, h.Owns c i t
  rest : h'.granted = h.granted ∧ h'.next = h.next

theorem Leaves.owns_iff (leaves : Leaves c h h') {c' : κ} {i : ι} {t : Nat} :
    h'.Owns c' i t ↔ c' ≠ c ∧ h.Owns c' i t := by
  unfold Owns
  rw [leaves.table]
  by_cases client : c' = c
  · simp [client]
  · simp [client]

theorem Sound.leave (sound : h.Sound first) (leaves : Leaves c h h') : h'.Sound first := by
  obtain ⟨granted, next⟩ := leaves.rest
  constructor
  · rw [next]
    exact sound.started
  · rw [granted]
    exact sound.distinct
  · rw [granted, next]
    exact sound.issued
  · intro c' i t owns
    rw [granted]
    exact sound.owned c' i t (leaves.owns_iff.mp owns).2
  · intro c₁ i₁ c₂ i₂ t owns₁ owns₂
    exact sound.unique c₁ i₁ c₂ i₂ t (leaves.owns_iff.mp owns₁).2 (leaves.owns_iff.mp owns₂).2
  · intro t c' indexed
    obtain ⟨old, kept⟩ := (leaves.index t c').mp indexed
    obtain ⟨i, owns⟩ := sound.indexed t c' old
    refine ⟨i, leaves.owns_iff.mpr ⟨?_, owns⟩⟩
    rintro rfl
    exact kept ⟨i, owns⟩

/-- A client whose tokens are not in the index leaves the index alone. -/
theorem Sound.leaves_unindexed (sound : h.Sound first) (unindexed : ∀ t, h.index t ≠ some c)
    (table : h'.table = Function.update h.table c none) (index : h'.index = h.index)
    (rest : h'.granted = h.granted ∧ h'.next = h.next) : Leaves c h h' := by
  refine ⟨table, ?_, rest⟩
  intro t c'
  rw [index]
  constructor
  · intro indexed
    refine ⟨indexed, ?_⟩
    rintro ⟨i, owns⟩
    obtain ⟨i', owns'⟩ := sound.indexed t c' indexed
    obtain ⟨rfl, -⟩ := sound.unique c' i' c i t owns' owns
    exact unindexed t indexed
  · exact And.left

theorem WiredBut.leave (wired : h.WiredBut c) (sound : h.Sound first) (leaves : Leaves c h h') :
    h'.Wired := by
  intro c' i t owns
  obtain ⟨other, owns⟩ := leaves.owns_iff.mp owns
  refine (leaves.index t c').mpr ⟨wired c' i t other owns, ?_⟩
  rintro ⟨i', owns'⟩
  exact other (sound.unique c' i c i' t owns owns').1

theorem Settled.leave (settled : h.Settled) (leaves : Leaves c h h') : h'.Settled := by
  intro c' routes found
  rw [leaves.table] at found
  by_cases client : c' = c
  · subst client
    simp at found
  · rw [Function.update_of_ne client] at found
    exact settled c' routes found

variable [DecidableEq ι]

/-- A client's route is opened with the tokens it was granted. -/
structure Opens (c : κ) (i : ι) (tokens : List Nat) (h h' : Holdings κ ι) : Prop where
  grants : Grants tokens h h'
  table : ∃ routes, h.table c = some routes ∧ routes i = none ∧
    h'.table = Function.update h.table c (some (Function.update routes i (some tokens)))
  index : h'.index = h.index

theorem Opens.owns_iff {i : ι} {tokens : List Nat} (opens : Opens c i tokens h h')
    {c' : κ} {i' : ι} {t : Nat} :
    h'.Owns c' i' t ↔ h.Owns c' i' t ∨ (c' = c ∧ i' = i ∧ t ∈ tokens) := by
  obtain ⟨routes, found, vacant, table⟩ := opens.table
  unfold Owns
  rw [table]
  by_cases client : c' = c
  · subst client
    by_cases route : i' = i
    · subst route
      simp [found, vacant]
    · simp [found, route]
  · simp [client]

theorem Sound.open {i : ι} {tokens : List Nat} (sound : h.Sound first)
    (opens : Opens c i tokens h h') :
    h'.Sound first := by
  have fresh := opens.grants.fresh sound
  constructor
  · rw [opens.grants.next]
    exact Nat.le_add_right_of_le sound.started
  · exact opens.grants.distinct sound
  · exact opens.grants.issued sound
  · intro c' i' t owns
    rw [opens.grants.granted, List.mem_append]
    rcases opens.owns_iff.mp owns with old | ⟨-, -, new⟩
    · exact .inl (sound.owned c' i' t old)
    · exact .inr new
  · intro c₁ i₁ c₂ i₂ t owns₁ owns₂
    rcases opens.owns_iff.mp owns₁ with old₁ | ⟨rfl, rfl, new₁⟩
    · rcases opens.owns_iff.mp owns₂ with old₂ | ⟨rfl, rfl, new₂⟩
      · exact sound.unique c₁ i₁ c₂ i₂ t old₁ old₂
      · exact absurd (sound.owned c₁ i₁ t old₁) (fresh t new₂)
    · rcases opens.owns_iff.mp owns₂ with old₂ | ⟨rfl, rfl, new₂⟩
      · exact absurd (sound.owned c₂ i₂ t old₂) (fresh t new₁)
      · exact ⟨rfl, rfl⟩
  · intro t c' indexed
    rw [opens.index] at indexed
    obtain ⟨i', owns⟩ := sound.indexed t c' indexed
    exact ⟨i', opens.owns_iff.mpr (.inl owns)⟩

/-- A route that is opened with tokens the index does not know is not wired. -/
theorem Opens.not_wired {i : ι} {tokens : List Nat} (opens : Opens c i tokens h h')
    (sound : h.Sound first)
    (nonempty : tokens ≠ []) : ¬h'.Wired := by
  intro wired
  obtain ⟨t, rest, rfl⟩ := List.exists_cons_of_ne_nil nonempty
  have indexed := wired c i t (opens.owns_iff.mpr (.inr ⟨rfl, rfl, List.mem_cons_self⟩))
  rw [opens.index] at indexed
  obtain ⟨i', owns⟩ := sound.indexed t c indexed
  exact opens.grants.fresh sound t List.mem_cons_self (sound.owned c i' t owns)

end Holdings

end Commeatus.Lib
