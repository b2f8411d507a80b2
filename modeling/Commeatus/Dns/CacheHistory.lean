import Commeatus.Dns.Lifetime

/-!
The cache over any history.

However lookups and insertions follow each other, and whatever times they come
with, the cache stays within its capacity. An insertion makes room only when
its name is new and every entry is still alive; then the entry that goes is one
that was inserted first.
-/

namespace Commeatus.Dns

open Commeatus.Lib Commeatus.Core

namespace DnsCache

variable {iterate : Map Str CacheEntry → List (Str × CacheEntry)} {cache : DnsCache} {name : Str}
    {addresses : List IpAddr}
  {resolverTtl : Option Nat} {now capacity maxTtl : Nat}

/-- The caches that lookups and insertions make of an empty one, at any times and in any order. -/
inductive History (capacity maxTtl : Nat) : DnsCache → Prop where
  | empty : History capacity maxTtl { capacity, maxTtl }
  | get {cache : DnsCache} (before : History capacity maxTtl cache) (name : Str) (now : Nat) :
      History capacity maxTtl (cache.get name now).2
  | insert {cache : DnsCache} (before : History capacity maxTtl cache)
      {iterate : Map Str CacheEntry → List (Str × CacheEntry)}
      (iteration : Iteration iterate) (name : Str) (addresses : List IpAddr)
        (resolverTtl : Option Nat) (now : Nat) :
      History capacity maxTtl (cache.insert iterate name addresses resolverTtl now)

/-! ### The oldest entry -/

theorem foldl_least (entries : List (Str × CacheEntry)) (first : Str × CacheEntry) :
    (entries.foldl (fun least entry => if entry.2.inserted < least.2.inserted then entry else least)
      first ∈ first :: entries) ∧
      ∀ entry ∈ first :: entries,
        (entries.foldl (fun least entry => if entry.2.inserted < least.2.inserted then entry
          else least) first).2.inserted ≤
          entry.2.inserted := by
  induction entries generalizing first with
  | nil =>
      refine ⟨List.mem_cons_self, fun entry member => ?_⟩
      rw [List.mem_singleton.mp member]
      exact Nat.le_refl _
  | cons entry entries ih =>
      rw [List.foldl_cons]
      split
      · rename_i older
        obtain ⟨member, least⟩ := ih entry
        refine ⟨List.mem_cons_of_mem _ member, fun other listed => ?_⟩
        rcases List.mem_cons.mp listed with rfl | later
        · exact Nat.le_trans (least entry List.mem_cons_self) (Nat.le_of_lt older)
        · exact least other later
      · rename_i younger
        obtain ⟨member, least⟩ := ih first
        refine ⟨?_, fun other listed => ?_⟩
        · rcases List.mem_cons.mp member with same | later
          · rw [same]
            exact List.mem_cons_self
          · exact List.mem_cons_of_mem _ (List.mem_cons_of_mem _ later)
        · rcases List.mem_cons.mp listed with rfl | later
          · exact least _ List.mem_cons_self
          · rcases List.mem_cons.mp later with rfl | later
            · exact Nat.le_trans (least first List.mem_cons_self) (Nat.le_of_not_lt younger)
            · exact least other (List.mem_cons_of_mem _ later)

/-- The oldest of the entries of a map, in whatever order they come. -/
theorem oldest_iterate (iteration : Iteration iterate) {m : Map Str CacheEntry}
    (nonempty : 0 < m.size) :
    ∃ key entry, oldest (iterate m) = some (key, entry) ∧ m.lookup key = some entry ∧
      ∀ other entry', m.lookup other = some entry' → entry.inserted ≤ entry'.inserted := by
  have perm := iteration m
  have listed : ∀ key entry, (key, entry) ∈ iterate m ↔ m.lookup key = some entry := by
    intro key entry
    rw [perm.mem_iff, List.mem_map, ← Map.mem_entries_iff]
    constructor
    · rintro ⟨⟨key', entry'⟩, member, same⟩
      cases same
      exact member
    · intro member
      exact ⟨_, member, rfl⟩
  match order : iterate m with
  | [] =>
      have none := perm.length_eq
      rw [order, List.length_map, List.length_nil] at none
      exact absurd nonempty (by rw [Map.size, ← none]; decide)
  | first :: rest =>
      rw [order] at listed
      obtain ⟨member, least⟩ := foldl_least rest first
      exact ⟨_, _, rfl, (listed _ _).mp member, fun other entry' found =>
        least _ ((listed other entry').mpr found)⟩

/-! ### One insertion -/

/-- The entries that are alive at the time. -/
def alive (cache : DnsCache) (now : Nat) : Map Str CacheEntry :=
  cache.entries.keep fun entry => decide (now < entry.expires)

theorem lookup_alive {other : Str} {entry : CacheEntry} :
    (cache.alive now).lookup other = some entry ↔ cache.entries.lookup other = some entry ∧
    now < entry.expires := by
  rw [alive, Map.lookup_keep, decide_eq_true_iff]

/-- The entries that an insertion leaves beside its own: those that are alive, less the oldest if
they fill the cache and the name is not among them. -/
inductive Room (cache : DnsCache) (name : Str) (now : Nat) : Map Str CacheEntry → Prop where
  | fits (present : ((cache.alive now).lookup name).isSome ∨
      (cache.alive now).size < cache.capacity) :
      Room cache name now (cache.alive now)
  | evicts {key : Str} {entry : CacheEntry} (new : (cache.alive now).lookup name = none)
      (full : cache.capacity ≤ (cache.alive now).size)
        (there : (cache.alive now).lookup key = some entry)
      (oldest : ∀ other entry', (cache.alive now).lookup other = some entry' →
        entry.inserted ≤ entry'.inserted) :
      Room cache name now ((cache.alive now).erase key)

theorem insert_eq (iterate : Map Str CacheEntry → List (Str × CacheEntry))
    (cache : DnsCache) (name : Str)
    (addresses : List IpAddr) (resolverTtl : Option Nat) (now : Nat) :
    cache.insert iterate name addresses resolverTtl now =
      if lifetime cache.maxTtl resolverTtl = 0 then cache
      else
        { cache with
          entries :=
          (if ((cache.alive now).lookup name).isNone &&
            decide (cache.capacity ≤ (cache.alive now).size) then
              match oldest (iterate (cache.alive now)) with
              | some (key, _) => (cache.alive now).erase key
              | none => cache.alive now
            else cache.alive now).insert name
              ⟨addresses, now, now + lifetime cache.maxTtl resolverTtl⟩ } := rfl

theorem insert_of_zero (zero : lifetime cache.maxTtl resolverTtl = 0) :
    cache.insert iterate name addresses resolverTtl now = cache := by
  rw [insert_eq, if_pos zero]

theorem insert_room (iteration : Iteration iterate) (some_room : 0 < cache.capacity)
    (positive : lifetime cache.maxTtl resolverTtl ≠ 0)
    (name : Str) (addresses : List IpAddr) (now : Nat) : ∃ room, Room cache name now room ∧
      cache.insert iterate name addresses resolverTtl now =
        { cache with
          entries :=
            room.insert name ⟨addresses, now, now + lifetime cache.maxTtl resolverTtl⟩ } := by
  rw [insert_eq, if_neg positive]
  refine ⟨_, ?_, rfl⟩
  split
  · rename_i crowded
    simp only [Bool.and_eq_true, Option.isNone_iff_eq_none, decide_eq_true_eq] at crowded
    obtain ⟨new, full⟩ := crowded
    obtain ⟨key, entry, order, there, least⟩ :=
      oldest_iterate iteration (Nat.lt_of_lt_of_le some_room full)
    rw [order]
    exact .evicts new full there least
  · rename_i roomy
    refine .fits ?_
    simp only [Bool.and_eq_true, Option.isNone_iff_eq_none, decide_eq_true_eq,
      not_and, not_le] at roomy
    cases present : (cache.alive now).lookup name with
    | none => exact .inr (roomy present)
    | some entry => exact .inl rfl

theorem Room.lookup {room : Map Str CacheEntry} (made : Room cache name now room)
    {other : Str} {entry : CacheEntry}
    (there : room.lookup other = some entry) : cache.entries.lookup other = some entry := by
  cases made with
  | fits => exact (lookup_alive.mp there).1
  | evicts =>
      rw [Map.lookup_erase] at there
      split at there
      · cases there
      · exact (lookup_alive.mp there).1

/-- With the new entry, what an insertion leaves is within the capacity. -/
theorem Room.size_insert {room : Map Str CacheEntry} (made : Room cache name now room)
    (bounded : cache.entries.size ≤ cache.capacity)
    (entry : CacheEntry) : Map.size (room.insert name entry) ≤ cache.capacity := by
  have live : (cache.alive now).size ≤ cache.capacity := Nat.le_trans (Map.size_keep_le _ _) bounded
  cases made with
  | fits present =>
      rcases present with present | few
      · rw [Map.size_insert_of_present present]
        exact live
      · exact Nat.le_trans (Map.size_insert_le _ _ _) few
  | evicts new full there oldest =>
      have erased := Map.size_erase_of_present (Option.isSome_of_eq_some there)
      exact Nat.le_trans (Map.size_insert_le _ _ _) (by omega)

/-- When room was made, every entry was alive and they filled the cache. -/
theorem alive_of_full (bounded : cache.entries.size ≤ cache.capacity)
    (full : cache.capacity ≤ (cache.alive now).size) :
    cache.alive now = cache.entries :=
  Map.keep_eq_self_of_size (Nat.le_trans bounded full)

/-- What an insertion does to the cache, within its capacity. -/
structure Inserted (cache : DnsCache) (name : Str) (addresses : List IpAddr) (ttl now : Nat)
    (after : DnsCache) : Prop where
  own : after.entries.lookup name = some ⟨addresses, now, now + ttl⟩
  others : ∀ other entry, other ≠ name → after.entries.lookup other = some entry →
    cache.entries.lookup other = some entry
  evicts : ∀ other entry, other ≠ name → cache.entries.lookup other = some entry →
    now < entry.expires →
    after.entries.lookup other = none →
      cache.entries.lookup name = none ∧ cache.entries.size = cache.capacity ∧
      (∀ key entry', cache.entries.lookup key = some entry' → now < entry'.expires) ∧
      (∀ key, key ≠ name → key ≠ other → after.entries.lookup key = cache.entries.lookup key) ∧
      ∀ key entry', key ≠ name → after.entries.lookup key = some entry' →
        entry.inserted ≤ entry'.inserted

theorem Room.inserted {room : Map Str CacheEntry} (made : Room cache name now room)
    (bounded : cache.entries.size ≤ cache.capacity)
    (ttl : Nat) :
    Inserted cache name addresses ttl now
      { cache with entries := room.insert name ⟨addresses, now, now + ttl⟩ } where
  own := AList.lookup_insert room
  others := fun other entry differs there => by
    dsimp only at there
    rw [Map.lookup_insert, if_neg differs] at there
    exact made.lookup there
  evicts := fun other entry differs there lives gone => by
    dsimp only at gone ⊢
    rw [Map.lookup_insert, if_neg differs] at gone
    have alive := lookup_alive.mpr ⟨there, lives⟩
    cases made with
    | fits =>
        rw [gone] at alive
        cases alive
    | @evicts victim entry' new full victim_there oldest =>
        have same := alive_of_full bounded full
        rw [same] at new victim_there oldest gone full
        have is : other = victim := by
          rw [Map.lookup_erase] at gone
          split at gone
          · assumption
          · rw [gone] at there
            cases there
        subst is
        cases there.symm.trans victim_there
        refine ⟨new, Nat.le_antisymm bounded full, ?_, ?_, ?_⟩
        · intro key entry' found
          rw [← same] at found
          exact (lookup_alive.mp found).2
        · intro key notName notOther
          rw [Map.lookup_insert, if_neg notName, same, Map.lookup_erase, if_neg notOther]
        · intro key entry' notName found
          rw [Map.lookup_insert, if_neg notName, same, Map.lookup_erase] at found
          split at found
          · cases found
          · exact oldest key entry' found

/-! ### Any history -/

theorem get_size_le (cache : DnsCache) (name : Str) (now : Nat) :
    (cache.get name now).2.entries.size ≤ cache.entries.size := by
  unfold get
  split
  · exact Nat.le_refl _
  · split
    · exact Map.size_erase_le _ _
    · exact Nat.le_refl _

theorem get_capacity (cache : DnsCache) (name : Str) (now : Nat) :
    (cache.get name now).2.capacity = cache.capacity := by
  unfold get
  split
  · rfl
  · split <;> rfl

theorem History.bounded (history : History capacity maxTtl cache) (some_room : 0 < capacity) :
    cache.capacity = capacity ∧ cache.entries.size ≤ capacity := by
  induction history with
  | empty => exact ⟨rfl, Nat.zero_le _⟩
  | get before name now ih =>
      obtain ⟨same, bounded⟩ := ih
      exact ⟨(get_capacity _ _ _).trans same, Nat.le_trans (get_size_le _ _ _) bounded⟩
  | @insert cache before iterate iteration name addresses resolverTtl now ih =>
      obtain ⟨same, bounded⟩ := ih
      by_cases zero : lifetime cache.maxTtl resolverTtl = 0
      · rw [insert_of_zero zero]
        exact ⟨same, bounded⟩
      · rw [← same] at some_room bounded
        obtain ⟨room, made, after⟩ := insert_room iteration some_room zero name addresses now
        rw [after]
        exact ⟨same, Nat.le_trans (made.size_insert bounded _) (Nat.le_of_eq same)⟩

/-- A cache that was configured is empty and has room. -/
theorem history_new (made : DnsCache.new capacity maxTtl = .ok cache) :
    History capacity maxTtl cache ∧ 0 < capacity := by
  obtain ⟨valid, made⟩ := refuse_bind_eq_ok_iff.mp made
  cases made
  exact ⟨.empty, Nat.pos_of_ne_zero fun zero => valid (.inl zero)⟩

/-- The actions of resolutions, in any order, make a history of the cache that they share. -/
theorem History.does {ρ : Type} {shared shared' : DnsEngine.Shared} {action : Action ρ}
    {answer : Answer action}
    (history : History capacity maxTtl shared.cache)
    (does : DnsEngine.Does shared action answer shared') :
    History capacity maxTtl shared'.cache := by
  cases action with
  | clock =>
      cases does
      exact history
  | get name now =>
      obtain ⟨-, rfl⟩ := does
      exact history.get name now
  | ask resolver query =>
      cases does
      exact history
  | insert name addresses resolverTtl now =>
      obtain ⟨iterate, iteration, rfl⟩ := does
      exact history.insert iteration name addresses resolverTtl now
  | count counter =>
      cases does
      exact history

/-- However resolutions interleave on a configured engine, their actions make a history of its
cache, which stays within the configured capacity. -/
theorem shared_cache_bounded {ρ ι : Type} [DecidableEq ι] {hosts : HostsTable} {resolvers : List ρ}
    {engine : DnsEngine ρ}
    (made : DnsEngine.withResolvers hosts resolvers capacity maxTtl = .ok engine) {names : ι → Str}
    {s : Prog.System (Action ρ) Answer Resolved ι DnsEngine.Shared}
    (reaches : engine.Reaches names s) :
    History capacity maxTtl s.shared.cache ∧ s.shared.cache.entries.size ≤ capacity := by
  obtain ⟨_, -, rest⟩ := bind_eq_ok_iff.mp made
  obtain ⟨configured, new, rest⟩ := bind_eq_ok_iff.mp rest
  cases rest
  obtain ⟨start, some_room⟩ := history_new new
  have history : History capacity maxTtl s.shared.cache := by
    induction reaches with
    | refl => exact start
    | tail _ step ih =>
        cases step with
        | turn _ _ _ effect => exact ih.does effect
  exact ⟨history, (history.bounded some_room).2⟩

/-- The cache stays within its capacity over any history. An insertion without a lifetime changes
nothing. Any other leaves its entry with the given addresses and expiry; it takes an entry of
another name that is alive only if its name is new and all entries are alive and fill the cache, and
then exactly one, which was inserted no later than those that stay. -/
theorem capacity_and_eviction (history : History capacity maxTtl cache) (some_room : 0 < capacity) :
    cache.entries.size ≤ capacity ∧
      ∀ iterate, Iteration iterate → ∀ name addresses resolverTtl now,
        (lifetime cache.maxTtl resolverTtl = 0 →
          cache.insert iterate name addresses resolverTtl now = cache) ∧
        (lifetime cache.maxTtl resolverTtl ≠ 0 →
          Inserted cache name addresses (lifetime cache.maxTtl resolverTtl) now
          (cache.insert iterate name addresses resolverTtl now)) := by
  obtain ⟨same, bounded⟩ := history.bounded some_room
  refine ⟨bounded, fun iterate iteration name addresses resolverTtl now =>
    ⟨insert_of_zero, fun positive => ?_⟩⟩
  rw [← same] at some_room bounded
  obtain ⟨room, made, after⟩ := insert_room iteration some_room positive name addresses now
  rw [after]
  exact made.inserted bounded _

/-- In a cache for one entry, the address of a second name takes the place of the first, although it
was captured earlier. -/
theorem capacity_and_eviction_example : ∃ cache, History 1 60 cache ∧ cache.entries.size ≤ 1 ∧
    cache.entries.lookup "b".toList = some ⟨[.v4 ⟨192, 0, 2, 2⟩], 3, 63⟩ ∧
    cache.entries.lookup "a".toList = none := by
  have iteration : Iteration fun m => m.entries.map fun entry => (entry.1, entry.2) :=
    fun m => .refl _
  have first := (@History.empty 1 60).insert iteration "a".toList [.v4 ⟨192, 0, 2, 1⟩] none 5
  have second := first.insert iteration "b".toList [.v4 ⟨192, 0, 2, 2⟩] none 3
  exact ⟨_, second, (capacity_and_eviction second (by decide)).1,
    (((capacity_and_eviction first (by decide)).2 _ iteration "b".toList [.v4 ⟨192, 0, 2, 2⟩]
      none 3).2 (by decide)).own, by decide⟩

end DnsCache

end Commeatus.Dns
