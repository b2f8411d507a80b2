import Commeatus.Dns.Aliases
import Commeatus.Dns.DotSession
import Commeatus.Dns.Resolution

/-!
Cached answers do not outlive their records.

Resolutions run at once in any order; each captures the time before it looks
into the cache and stores its answer, if it asked for one, with that time. An
entry of the cache is always backed by such a resolution in the log, so what a
lookup serves was returned for the same name, and its lifetime is not over.
-/

namespace Commeatus.Dns

open Commeatus.Lib Commeatus.Core

variable {ρ ι : Type}

/-- The lifetime of an answer in the cache: what the resolver said, if anything, up to the
configured maximum. -/
def lifetime (maxTtl : Nat) (resolverTtl : Option Nat) : Nat := min (resolverTtl.getD maxTtl) maxTtl

namespace DnsCache

theorem get_cases (cache : DnsCache) (name : Str) (now : Nat) :
    ((cache.get name now).1 = none ∧ ∀ other entry,
      (cache.get name now).2.entries.lookup other = some entry →
      cache.entries.lookup other = some entry) ∨
    ∃ entry, cache.entries.lookup name = some entry ∧ now < entry.expires ∧
      cache.get name now = (some entry.addresses, cache) := by
  unfold get
  match found : cache.entries.lookup name with
  | none => exact .inl ⟨rfl, fun _ _ => id⟩
  | some entry =>
      dsimp only
      split
      · refine .inl ⟨rfl, fun other entry' present => ?_⟩
        rw [Map.lookup_erase] at present
        split at present
        · cases present
        · exact present
      · rename_i fresh
        exact .inr ⟨entry, rfl, Nat.lt_of_not_le fresh, rfl⟩

@[simp] theorem get_maxTtl (cache : DnsCache) (name : Str) (now : Nat) :
    (cache.get name now).2.maxTtl = cache.maxTtl := by
  unfold get
  split
  · rfl
  · split <;> rfl

@[simp] theorem insert_maxTtl (iterate : Map Str CacheEntry → List (Str × CacheEntry))
    (cache : DnsCache) (name : Str)
    (addresses : List IpAddr) (resolverTtl : Option Nat) (now : Nat) :
    (cache.insert iterate name addresses resolverTtl now).maxTtl = cache.maxTtl := by
  unfold insert
  dsimp only
  split <;> rfl

/-- An entry after an insertion was there before, or is the new one. -/
theorem insert_cases {iterate : Map Str CacheEntry → List (Str × CacheEntry)}
    {cache : DnsCache} {name other : Str}
    {addresses : List IpAddr} {resolverTtl : Option Nat} {now : Nat} {entry : CacheEntry}
    (present : (cache.insert iterate name addresses resolverTtl now).entries.lookup
      other = some entry) :
    cache.entries.lookup other = some entry ∨
      (other = name ∧ lifetime cache.maxTtl resolverTtl ≠ 0 ∧
        entry = ⟨addresses, now, now + lifetime cache.maxTtl resolverTtl⟩) := by
  unfold insert at present
  dsimp only at present
  split at present
  · exact .inl present
  rename_i positive
  rw [Map.lookup_insert] at present
  split at present
  · rename_i same
    cases present
    exact .inr ⟨same, positive, rfl⟩
  · -- Entries leave, by age or by eviction, and none joins.
    left
    have kept :
      (cache.entries.keep fun entry => decide (now < entry.expires)).lookup other = some entry →
        cache.entries.lookup other = some entry := fun found => (Map.lookup_keep.mp found).1
    split at present
    · split at present
      · rw [Map.lookup_erase] at present
        split at present
        · cases present
        · exact kept present
      · exact kept present
    · exact kept present

end DnsCache

namespace DnsEngine

open Prog

/-- An entry comes from a resolution in the log: its resolver returned the addresses for the name,
with a lifetime that is not zero, and the entry expires that long after the captured time. -/
def Backed (log : List (ι × ResolutionEvent ρ)) (maxTtl : Nat) (name : Str)
    (addresses : List IpAddr) (expires : Nat) : Prop :=
  ∃ i now resolver query answer, (i, ⟨.clock, now⟩) ∈ log ∧
    (i, ⟨.ask resolver query, .ok answer⟩) ∈ log ∧
    query.name = name ∧ answer.addresses = addresses ∧ answer.ttl ≠ some 0 ∧
      expires = now + lifetime maxTtl answer.ttl

theorem Backed.mono {log : List (ι × ResolutionEvent ρ)} {maxTtl : Nat} {name : Str}
    {addresses : List IpAddr} {expires : Nat}
    (backed : Backed log maxTtl name addresses expires) (entry : ι × ResolutionEvent ρ) :
    Backed (log ++ [entry]) maxTtl name addresses expires := by
  obtain ⟨i, now, resolver, query, answer, clocked, asked, rest⟩ := backed
  exact ⟨i, now, resolver, query, answer, List.mem_append_left _ clocked,
    List.mem_append_left _ asked, rest⟩

/-- What a resolution stores it has been told, at the time it captured. -/
theorem stored_was_answered {engine : DnsEngine ρ} {name : Str} {events : List (ResolutionEvent ρ)}
    {left : DnsM ρ Resolved}
    (path : Path (engine.resolve name) events left) {key : Str} {addresses : List IpAddr}
    {resolverTtl : Option Nat}
    {now : Nat} (next : left.pending = some (.insert key addresses resolverTtl now)) :
    ⟨.clock, now⟩ ∈ events ∧ ∃ resolver query answer, ⟨.ask resolver query, .ok answer⟩ ∈ events ∧
      query.name = key ∧ answer.addresses = addresses ∧ answer.ttl = resolverTtl := by
  cases stage_of_path path with
  | @asking query valid miss time events left stage =>
      cases stage with
      | asking failed order =>
          rw [pending_askResolvers] at next
          obtain ⟨resolver, -, no⟩ := Option.map_eq_some_iff.mp next
          cases no
      | @storing failed resolver rest answer order =>
          cases next
          exact ⟨by simp, resolver, query, answer, by simp, rfl, rfl, rfl⟩
      | _ => cases next
  | _ => cases next

/-- What a resolution looks up is its normalised name, at the time it captured. -/
theorem looked_up_name {engine : DnsEngine ρ} {name : Str} {events : List (ResolutionEvent ρ)}
    {left : DnsM ρ Resolved}
    (path : Path (engine.resolve name) events left) {key : Str} {now : Nat}
    (next : left.pending = some (.get key now)) :
    ⟨.clock, now⟩ ∈ events ∧ normalizeName name = .ok key := by
  cases stage_of_path path with
  | timed valid miss time =>
      cases next
      exact ⟨by simp, DnsQuery.new_eq_ok valid⟩
  | @asking query valid miss time events left stage =>
      cases stage with
      | asking failed order =>
          rw [pending_askResolvers] at next
          obtain ⟨resolver, -, no⟩ := Option.map_eq_some_iff.mp next
          cases no
      | _ => cases next
  | _ => cases next

/-! ### Interleavings -/

section Interleavings

variable [DecidableEq ι] {engine : DnsEngine ρ} {names : ι → Str} {shared : Shared}
  {s : System (Action ρ) Answer Resolved ι Shared}

/-- The resolutions of the names, about to start. -/
def resolutions (engine : DnsEngine ρ) (names : ι → Str) :
    System (Action ρ) Answer Resolved ι Shared :=
  .start (fun i => engine.resolve (names i)) ⟨engine.cache, engine.stats⟩

/-- A state that the resolutions can come to, in whatever order they take turns. -/
def Reaches (engine : DnsEngine ρ) (names : ι → Str)
    (s : System (Action ρ) Answer Resolved ι Shared) : Prop :=
  Relation.ReflTransGen (System.Step Does) (engine.resolutions names) s

/-- Every entry of the cache is backed by the log. -/
def Sound (maxTtl : Nat) (s : System (Action ρ) Answer Resolved ι Shared) : Prop :=
  s.shared.cache.maxTtl = maxTtl ∧ ∀ name entry, s.shared.cache.entries.lookup name = some entry →
    Backed s.log maxTtl name entry.addresses entry.expires

theorem sound_of_reaches (empty : engine.cache.entries = ∅) (reaches : engine.Reaches names s) :
    Sound engine.cache.maxTtl s := by
  induction reaches with
  | refl =>
      refine ⟨rfl, fun name entry present => ?_⟩
      change engine.cache.entries.lookup name = some entry at present
      rw [empty] at present
      cases present
  | @tail s _ earlier step ih =>
      obtain ⟨same, backed⟩ := ih
      cases step with
      | @turn i action next answer shared' ready effect =>
          have path := System.path_of_reachable earlier i
          cases action with
          | clock =>
              cases effect
              exact ⟨same, fun name entry present => (backed name entry present).mono _⟩
          | ask resolver query =>
              cases effect
              exact ⟨same, fun name entry present => (backed name entry present).mono _⟩
          | count counter =>
              cases effect
              exact ⟨same, fun name entry present => (backed name entry present).mono _⟩
          | get key now =>
              obtain ⟨-, rfl⟩ := effect
              refine ⟨by simpa using same, fun name entry present => ?_⟩
              change (s.shared.cache.get key now).2.entries.lookup name = some entry at present
              rcases s.shared.cache.get_cases key now with ⟨-, kept⟩ | ⟨_, _, _, unchanged⟩
              · exact (backed name entry (kept name entry present)).mono _
              · rw [unchanged] at present
                exact (backed name entry present).mono _
          | insert key addresses resolverTtl now =>
              obtain ⟨iterate, -, rfl⟩ := effect
              refine ⟨by simpa using same, fun name entry present => ?_⟩
              rcases DnsCache.insert_cases present with old | ⟨rfl, positive, rfl⟩
              · exact (backed name entry old).mono _
              · rw [ready] at path
                obtain ⟨clocked, resolver, query, answer', asked, named, told, said⟩ :=
                  stored_was_answered path rfl
                rw [System.mem_history] at clocked asked
                refine Backed.mono ⟨i, now, resolver, query, answer', clocked, asked, named,
                  told, ?_, ?_⟩ _
                · rintro zero
                  rw [← said, zero] at positive
                  exact positive (Nat.zero_min _)
                · rw [said, ← same]

/-- What a lookup serves was returned by a resolver for the same name, in a resolution whose
captured time is less than the lifetime ago. -/
theorem served_is_alive (empty : engine.cache.entries = ∅) (reaches : engine.Reaches names s)
    {before after : List (ι × ResolutionEvent ρ)} {i : ι} {name : Str} {now : Nat}
    {addresses : List IpAddr}
    (served : s.log = before ++ (i, ⟨.get name now, some addresses⟩) :: after) :
    (i, ⟨.clock, now⟩) ∈ before ∧ normalizeName (names i) = .ok name ∧
      ∃ expires, Backed before engine.cache.maxTtl name addresses expires ∧ now < expires := by
  have justified : ∀ (event : ResolutionEvent ρ), s.log = before ++ (i, event) :: after →
      event = ⟨.get name now, some addresses⟩ → (i, ⟨.clock, now⟩) ∈ before ∧
        normalizeName (names i) = .ok name ∧
        ∃ expires, Backed before engine.cache.maxTtl name addresses expires ∧ now < expires := by
    intro event logged
    refine System.justified_of_reachable
      (P := fun log i event => event = ⟨.get name now, some addresses⟩ →
      (i, ⟨.clock, now⟩) ∈ log ∧ normalizeName (names i) = .ok name ∧
        ∃ expires, Backed log engine.cache.maxTtl name addresses expires ∧
          now < expires) ?_ reaches logged
    intro s i action next answer shared' earlier ready effect same
    cases same
    have path := System.path_of_reachable earlier i
    rw [ready] at path
    obtain ⟨clocked, named⟩ := looked_up_name path rfl
    rw [System.mem_history] at clocked
    refine ⟨clocked, named, ?_⟩
    obtain ⟨found, -⟩ := effect
    rcases s.shared.cache.get_cases name now with ⟨miss, -⟩ | ⟨entry, present, fresh, hit⟩
    · rw [miss] at found
      cases found
    · rw [hit] at found
      cases found
      exact ⟨entry.expires, (sound_of_reaches empty earlier).2 name entry present, fresh⟩
  exact justified _ served rfl

end Interleavings

end DnsEngine

/-! ### Answers of a DNS-over-TLS resolver -/

namespace DotResolver

/-- From the one state to the other, the session has returned this response to the query for the
addresses of a family. -/
def Returned (query : DnsQuery) (before after : DotResolver) (id : UInt16)
    (recordType : AddressRecordType) (response : Bytes) : Prop :=
  ∃ events session request, after.state.log = before.state.log ++ events ∧
    .exchange session request (.ok response) ∈ events ∧
    encodeAddressQuery id query recordType = .ok request

theorem Collected.join_shortens (c : Collected) (outcome : Except DnsError DnsAnswer) :
    Shortens c.ttl (c.join outcome).ttl := by
  cases outcome with
  | error e => exact .refl _
  | ok answer =>
      cases said : answer.ttl with
      | none =>
          simp only [join, said]
          exact .refl _
      | some ttl =>
          simp only [join, said]
          exact shortens_minTtl _ _

theorem Collected.join_within (c : Collected) {answer : DnsAnswer} {bound : Nat}
    (within : Within answer.ttl bound) :
    Within (c.join (.ok answer)).ttl bound := by
  obtain ⟨ttl, said, small⟩ := within
  obtain ⟨value, joined, least⟩ := within_minTtl c.ttl ttl
  refine ⟨value, ?_, Nat.le_trans least small⟩
  simp only [join, said]
  exact joined

theorem Collected.mem_join {c : Collected} {outcome : Except DnsError DnsAnswer} {x : IpAddr} :
    x ∈ (c.join outcome).addresses ↔ x ∈ c.addresses ∨ ∃ answer, outcome = .ok answer ∧
      x ∈ answer.addresses := by
  cases outcome with
  | error e => simp [join]
  | ok answer => simp [join, mem_foldl_pushNew]

/-- The addresses of an answer come from its families, and its lifetime is at most that of each. -/
theorem resolve_within {query : DnsQuery} {r r' : DotResolver} {answer : DnsAnswer}
    (resolved : r.resolve query = (.ok answer, r')) : ∃ a aaaa r₁,
    r.resolveFamily query .a = (a, r₁) ∧ r₁.resolveFamily query .aaaa = (aaaa, r') ∧
    (∀ x ∈ answer.addresses, ∃ family, (a = .ok family ∨ aaaa = .ok family) ∧
      x ∈ family.addresses) ∧
    ∀ family bound, a = .ok family ∨ aaaa = .ok family → Within family.ttl bound →
      Within answer.ttl bound := by
  unfold resolve at resolved
  dsimp only at resolved
  split at resolved
  · cases resolved
  obtain ⟨made, rfl⟩ := Prod.mk.inj resolved
  obtain ⟨same, lifetime⟩ := DnsAnswer.new_eq_ok made
  refine ⟨(r.resolveFamily query .a).1, ((r.resolveFamily query .a).2.resolveFamily query .aaaa).1,
    (r.resolveFamily query .a).2, rfl, rfl, fun x member => ?_,
    fun family bound listed within => ?_⟩
  · rw [same] at member
    rcases Collected.mem_join.mp (mem_of_mem_deduplicateBounded member) with
      first | ⟨family, ok, held⟩
    · rcases Collected.mem_join.mp first with no | ⟨family, ok, held⟩
      · cases no
      · exact ⟨family, .inl ok, held⟩
    · exact ⟨family, .inr ok, held⟩
  · rw [lifetime]
    rcases listed with ok | ok
    · rw [ok]
      exact Collected.join_shortens _ _ bound (Collected.join_within _ within)
    · rw [ok]
      exact Collected.join_within _ within

end DotResolver

/-! ### Both together -/

/-- An engine as its constructors make it. -/
inductive DnsEngine.Built : DnsEngine ρ → Prop where
  | system (systemResolver : ρ) (hosts : HostsTable) : Built (.system systemResolver hosts)
  | withResolvers {hosts : HostsTable} {resolvers : List ρ} {cacheCapacity cacheTtl : Nat}
      {engine : DnsEngine ρ}
      (made : DnsEngine.withResolvers hosts resolvers cacheCapacity cacheTtl = .ok engine) :
        Built engine

theorem DnsEngine.Built.empty {engine : DnsEngine ρ} (built : engine.Built) :
    engine.cache.entries = ∅ := by
  cases built with
  | system systemResolver hosts => rfl
  | withResolvers made =>
      obtain ⟨u, -, rest⟩ := bind_eq_ok_iff.mp made
      obtain ⟨cache, new, rest⟩ := bind_eq_ok_iff.mp rest
      obtain ⟨u, -, new⟩ := bind_eq_ok_iff.mp new
      cases new
      cases rest
      rfl

def sampleAnswer : DnsAnswer :=
  ⟨[.v4 ⟨192, 0, 2, 1⟩], some (fromSecs 30), by decide, by decide, by decide⟩

def sampleEngine : DnsEngine Unit := .system () {}

end Commeatus.Dns
