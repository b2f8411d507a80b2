import Commeatus.Dns.Name
import Commeatus.Lib.Fallible
import Commeatus.Lib.Map
import Commeatus.Lib.Net
import Commeatus.Lib.Threads

/-!
The resolution engine (`dns/src/lib.rs`): hosts overrides, then the cache, then
the resolvers in their order.

A resolution is a program of atomic actions, since the cache is locked twice
and other resolutions run in between: it reads the clock, looks into the cache
under the lock, asks resolvers without it, and locks again to store an answer.
No code panics while it holds the lock, so the lock is never poisoned. Times
and durations are numbers of nanoseconds.
-/

namespace Commeatus.Dns

open Commeatus.Lib Commeatus.Core

def maxHostsBytes : Nat := 4 * 1024 * 1024
def maxHostsEntries : Nat := 100000
def maxResolvedAddresses : Nat := 16

/-- `Duration::from_secs`. -/
def fromSecs (seconds : Nat) : Nat := seconds * 1000000000

def defaultCacheCapacity : Nat := 4096
def defaultCacheTtl : Nat := fromSecs 60
def maxCacheTtl : Nat := fromSecs 300

/-! ### Hosts overrides -/

structure HostsTable where
  records : Map Str (List IpAddr) := ∅

def hostsError (line : Nat) (message : String) : DnsError :=
  ⟨.hostsParse, "hosts line " ++ String.ofList (decimal line) ++ ": " ++ message⟩

namespace HostsTable

/-- The address joins those of the name, unless it is among them. -/
def add (table : HostsTable) (name : Str) (address : IpAddr) : HostsTable :=
  let addresses := (table.records.lookup name).getD []
  ⟨table.records.insert name (if addresses.contains address then addresses
    else addresses ++ [address])⟩

/-- The loop over the names of a line; the number counts the entries of the whole source. -/
def parseNames (line : Nat) (address : IpAddr) : List Str → HostsTable × Nat →
    Except DnsError (HostsTable × Nat)
  | [], state => .ok state
  | name :: names, (table, entries) => do
      refuse (maxHostsEntries ≤ entries) (hostsError line "hosts entry count exceeds 100000")
      let name ← match normalizeName name with
        | .ok name => .ok name
        | .error _ => .error (hostsError line "invalid hostname")
      parseNames line address names (table.add name address, entries + 1)

def parseLine (raw : Str) (line : Nat) (state : HostsTable × Nat) :
    Except DnsError (HostsTable × Nat) :=
  let text := trim (raw.takeWhile (· != '#'))
  if text.isEmpty then .ok state
  else
    match splitWhitespace text with
    | [] => .error (hostsError line "missing IP address")
    | first :: names => do
        let address ← okOr (IpAddr.parse first) (hostsError line "invalid IP address")
        let state ← parseNames line address names state
        refuse (names = []) (hostsError line "hosts line has no hostname")
        return state

/-- The loop over the lines; the number of the first is given. -/
def parseLines : List Str → Nat → HostsTable × Nat → Except DnsError (HostsTable × Nat)
  | [], _, state => .ok state
  | raw :: raws, line, state => do
      let state ← parseLine raw line state
      parseLines raws (line + 1) state

def parse (text : Str) : Except DnsError HostsTable := do
  refuse (maxHostsBytes < byteLen text) ⟨.hostsParse, "hosts source exceeds 4194304 byte limit"⟩
  let (table, _) ← parseLines (lines text) 1 ({}, 0)
  return table

/-- The other table's addresses join those of their names. -/
def merge (table other : HostsTable) : HostsTable :=
  other.records.entries.foldl
    (fun table entry => entry.2.foldl (fun table address => table.add entry.1 address) table)
    table

def resolve (table : HostsTable) (name : Str) : Option (List IpAddr) := table.records.lookup name

def len (table : HostsTable) : Nat := table.records.size

end HostsTable

/-! ### Queries and answers -/

/-- A query's name is normalised. -/
structure DnsQuery where
  name : Str
  normal : normalizeName name = .ok name
  deriving DecidableEq

def DnsQuery.new (name : Str) : Except DnsError DnsQuery :=
  match normalised : normalizeName name with
  | .ok name => .ok ⟨name, normalizeName_idem normalised⟩
  | .error e => .error e

theorem DnsQuery.new_eq_ok {name : Str} {query : DnsQuery} (made : DnsQuery.new name = .ok query) :
    normalizeName name = .ok query.name := by
  unfold DnsQuery.new at made
  split at made
  · rename_i normalised
    cases made
    exact normalised
  · cases made

/-- An address joins a list, unless it is there already. -/
def pushNew (result : List IpAddr) (address : IpAddr) : List IpAddr :=
  if result.contains address then result else result ++ [address]

theorem mem_pushNew {result : List IpAddr} {address x : IpAddr} : x ∈ pushNew result address ↔
    x ∈ result ∨ x = address := by
  unfold pushNew
  split
  · rename_i present
    constructor
    · exact Or.inl
    · rintro (member | rfl)
      · exact member
      · simpa using present
  · simp

theorem nodup_pushNew {result : List IpAddr} (distinct : result.Nodup) (address : IpAddr) :
    (pushNew result address).Nodup := by
  unfold pushNew
  split
  · exact distinct
  · rename_i absent
    exact distinct.append (List.nodup_singleton address) (by simpa using absent)

theorem mem_foldl_pushNew {addresses result : List IpAddr} {x : IpAddr} :
    x ∈ addresses.foldl pushNew result ↔ x ∈ result ∨ x ∈ addresses := by
  induction addresses generalizing result with
  | nil => simp
  | cons address addresses ih =>
      rw [List.foldl_cons, ih, mem_pushNew, List.mem_cons]
      tauto

theorem nodup_foldl_pushNew {addresses result : List IpAddr} (distinct : result.Nodup) :
    (addresses.foldl pushNew result).Nodup := by
  induction addresses generalizing result with
  | nil => exact distinct
  | cons address addresses ih => exact ih (nodup_pushNew distinct address)

theorem length_foldl_pushNew_le (addresses result : List IpAddr) :
    (addresses.foldl pushNew result).length ≤ result.length + addresses.length := by
  induction addresses generalizing result with
  | nil => exact Nat.le_refl _
  | cons address addresses ih =>
      have grown : (pushNew result address).length ≤ result.length + 1 := by
        unfold pushNew
        split
        · exact Nat.le_succ _
        · simp
      rw [List.foldl_cons, List.length_cons]
      exact Nat.le_trans (ih _) (by omega)

/-- Addresses without repetition are all new. -/
theorem foldl_pushNew_of_nodup {addresses result : List IpAddr}
    (distinct : (result ++ addresses).Nodup) :
    addresses.foldl pushNew result = result ++ addresses := by
  induction addresses generalizing result with
  | nil => simp
  | cons address addresses ih =>
      have absent : address ∉ result := by
        intro member
        exact (List.nodup_append.mp distinct).2.2 address member address List.mem_cons_self rfl
      have pushed : pushNew result address = result ++ [address] := by
        rw [pushNew, if_neg (by simpa using absent)]
      rw [List.foldl_cons, pushed, ih (by simpa using distinct)]
      simp

/-- `deduplicate_bounded`: the first sixteen, without repetition. -/
def deduplicateBounded (addresses : List IpAddr) : List IpAddr :=
  (addresses.take maxResolvedAddresses).foldl pushNew []

theorem mem_of_mem_deduplicateBounded {addresses : List IpAddr} {x : IpAddr}
    (member : x ∈ deduplicateBounded addresses) :
    x ∈ addresses := by
  rcases mem_foldl_pushNew.mp member with no | member
  · cases no
  · exact List.mem_of_mem_take member

theorem nodup_deduplicateBounded (addresses : List IpAddr) : (deduplicateBounded addresses).Nodup :=
  nodup_foldl_pushNew List.nodup_nil

theorem length_deduplicateBounded_le (addresses : List IpAddr) :
    (deduplicateBounded addresses).length ≤ maxResolvedAddresses := by
  have folded := length_foldl_pushNew_le (addresses.take maxResolvedAddresses) []
  rw [List.length_nil, Nat.zero_add] at folded
  exact Nat.le_trans folded (List.length_take_le _ _)

theorem deduplicateBounded_of_nodup {addresses : List IpAddr} (distinct : addresses.Nodup)
    (bounded : addresses.length ≤ maxResolvedAddresses) :
    deduplicateBounded addresses = addresses := by
  rw [deduplicateBounded, List.take_of_length_le bounded,
    foldl_pushNew_of_nodup (by simpa using distinct), List.nil_append]

/-- The addresses of an answer have gone through `deduplicate_bounded`, and there are some. -/
structure DnsAnswer where
  addresses : List IpAddr
  ttl : Option Nat
  nonempty : addresses ≠ []
  distinct : addresses.Nodup
  bounded : addresses.length ≤ maxResolvedAddresses
  deriving DecidableEq

def DnsAnswer.new (addresses : List IpAddr) (ttl : Option Nat) : Except DnsError DnsAnswer :=
  if empty : deduplicateBounded addresses = [] then
    .error ⟨.noRecords, "DNS answer contains no usable addresses"⟩
  else
    .ok ⟨deduplicateBounded addresses, ttl, empty, nodup_deduplicateBounded addresses,
      length_deduplicateBounded_le addresses⟩

theorem DnsAnswer.new_eq_ok {addresses : List IpAddr} {ttl : Option Nat} {answer : DnsAnswer}
    (made : DnsAnswer.new addresses ttl = .ok answer) :
    answer.addresses = deduplicateBounded addresses ∧ answer.ttl = ttl := by
  unfold DnsAnswer.new at made
  split at made
  · cases made
  · cases made
    exact ⟨rfl, rfl⟩

/-- The engine's second look at an answer changes nothing. -/
@[simp] theorem DnsAnswer.deduplicateBounded_addresses (answer : DnsAnswer) :
    deduplicateBounded answer.addresses = answer.addresses :=
  deduplicateBounded_of_nodup answer.distinct answer.bounded

/-! ### The cache -/

structure CacheEntry where
  addresses : List IpAddr
  inserted : Nat
  expires : Nat
  deriving DecidableEq

structure DnsCache where
  entries : Map Str CacheEntry := ∅
  capacity : Nat
  maxTtl : Nat

namespace DnsCache

def defaults : DnsCache where
  capacity := defaultCacheCapacity
  maxTtl := defaultCacheTtl

def new (capacity ttl : Nat) : Except DnsError DnsCache := do
  refuse (capacity = 0 ∨ ttl = 0 ∨ maxCacheTtl < ttl)
    ⟨.invalidConfiguration, "DNS cache requires capacity > 0 and TTL in 1ns..=300s"⟩
  return { capacity, maxTtl := ttl }

/-- An entry that has expired is removed and not served. -/
def get (cache : DnsCache) (name : Str) (now : Nat) : Option (List IpAddr) × DnsCache :=
  match cache.entries.lookup name with
  | none => (none, cache)
  | some entry =>
      if entry.expires ≤ now then (none, { cache with entries := cache.entries.erase name })
      else (some entry.addresses, cache)

/-- `min_by_key`: the first of the least. -/
def oldest : List (Str × CacheEntry) → Option (Str × CacheEntry)
  | [] => none
  | first :: rest =>
      some (rest.foldl (fun least entry => if entry.2.inserted < least.2.inserted then entry
        else least) first)

/-- A hash map's iteration order: any order of its entries. -/
def Iteration (iterate : Map Str CacheEntry → List (Str × CacheEntry)) : Prop :=
  ∀ m : Map Str CacheEntry, (iterate m).Perm (m.entries.map fun entry => (entry.1, entry.2))

/-- Store an answer at the captured time. `iterate` is the order in which the hash map goes through
its entries. -/
def insert (iterate : Map Str CacheEntry → List (Str × CacheEntry)) (cache : DnsCache) (name : Str)
    (addresses : List IpAddr) (resolverTtl : Option Nat) (now : Nat) : DnsCache :=
  let ttl := min (resolverTtl.getD cache.maxTtl) cache.maxTtl
  if ttl = 0 then cache
  else
    let live := cache.entries.keep fun entry => decide (now < entry.expires)
    let room :=
      if (live.lookup name).isNone && decide (cache.capacity ≤ live.size) then
        match oldest (iterate live) with
        | some (key, _) => live.erase key
        | none => live
      else live
    { cache with entries := room.insert name ⟨addresses, now, now + ttl⟩ }

end DnsCache

structure DnsStats where
  hostsHits : UInt64 := 0
  cacheHits : UInt64 := 0
  cacheMisses : UInt64 := 0
  resolverFailures : UInt64 := 0

inductive Counter where
  | hostsHits | cacheHits | cacheMisses | resolverFailures
  deriving DecidableEq

def DnsStats.count (stats : DnsStats) : Counter → DnsStats
  | .hostsHits => { stats with hostsHits := stats.hostsHits + 1 }
  | .cacheHits => { stats with cacheHits := stats.cacheHits + 1 }
  | .cacheMisses => { stats with cacheMisses := stats.cacheMisses + 1 }
  | .resolverFailures => { stats with resolverFailures := stats.resolverFailures + 1 }

/-! ### The engine -/

/-- `ρ` is the type of the resolvers behind the trait object. -/
structure DnsEngine (ρ : Type) where
  hosts : HostsTable
  cache : DnsCache
  resolvers : List ρ
  stats : DnsStats := {}

namespace DnsEngine

variable {ρ : Type}

/-- The engine whose only resolver is the system's, which is given. -/
def system (systemResolver : ρ) (hosts : HostsTable) : DnsEngine ρ where
  hosts := hosts
  cache := .defaults
  resolvers := [systemResolver]

def withResolvers (hosts : HostsTable) (resolvers : List ρ) (cacheCapacity cacheTtl : Nat) :
    Except DnsError (DnsEngine ρ) := do
  refuse (resolvers.isEmpty = true) ⟨.noResolvers, "DNS engine requires at least one resolver"⟩
  let cache ← DnsCache.new cacheCapacity cacheTtl
  return { hosts, cache, resolvers }

end DnsEngine

/-- The atomic actions of a resolution. -/
inductive Action (ρ : Type) where
  | clock
  | get (name : Str) (now : Nat)
  | ask (resolver : ρ) (query : DnsQuery)
  | insert (name : Str) (addresses : List IpAddr) (resolverTtl : Option Nat) (now : Nat)
  | count (counter : Counter)

/-- What an action gives back. -/
abbrev Answer {ρ : Type} : Action ρ → Type
  | .clock => Nat
  | .get _ _ => Option (List IpAddr)
  | .ask _ _ => Except DnsError DnsAnswer
  | .insert _ _ _ _ => Unit
  | .count _ => Unit

/-- Programs of a resolution. -/
abbrev DnsM (ρ : Type) : Type → Type := Prog (Action ρ) Answer

/-- How a resolution ends. -/
abbrev Resolved : Type := Except DnsError (List IpAddr)

abbrev ResolutionEvent (ρ : Type) : Type := Prog.Event (Action ρ) Answer

namespace DnsEngine

variable {ρ : Type}

abbrev instantNow : DnsM ρ Nat := Prog.perform Action.clock

abbrev cacheGet (name : Str) (now : Nat) : DnsM ρ (Option (List IpAddr)) :=
  Prog.perform (Action.get name now)

abbrev ask (resolver : ρ) (query : DnsQuery) : DnsM ρ (Except DnsError DnsAnswer) :=
  Prog.perform (Action.ask resolver query)

abbrev cacheInsert (name : Str) (addresses : List IpAddr) (resolverTtl : Option Nat)
    (now : Nat) : DnsM ρ Unit :=
  Prog.perform (Action.insert name addresses resolverTtl now)

abbrev fetchAdd (counter : Counter) : DnsM ρ Unit := Prog.perform (Action.count counter)

/-- The loop over the resolvers. -/
def askResolvers (query : DnsQuery) (now : Nat) : List ρ → Option DnsError → DnsM ρ Resolved
  | [], lastError =>
      .done (.error (lastError.getD
        ⟨.noRecords, "no resolver returned addresses for " ++ String.ofList query.name⟩))
  | resolver :: resolvers, _ => do
      match ← ask resolver query with
      | .ok answer =>
          let addresses := deduplicateBounded answer.addresses
          if addresses.isEmpty then
            askResolvers query now resolvers
              (some ⟨.noRecords, "resolver returned no addresses for " ++ String.ofList query.name⟩)
          else do
            cacheInsert query.name addresses answer.ttl now
            return .ok addresses
      | .error error => do
          fetchAdd .resolverFailures
          askResolvers query now resolvers (some error)

/-- What follows the look into the cache. -/
def afterGet (engine : DnsEngine ρ) (query : DnsQuery) (now : Nat) :
    Option (List IpAddr) → DnsM ρ Resolved
  | some addresses => do
      fetchAdd .cacheHits
      return .ok addresses
  | none => do
      fetchAdd .cacheMisses
      askResolvers query now engine.resolvers none

/-- `DnsEngine::resolve`. -/
def resolve (engine : DnsEngine ρ) (name : Str) : DnsM ρ Resolved :=
  match DnsQuery.new name with
  | .error e => .done (.error e)
  | .ok query =>
      match engine.hosts.resolve query.name with
      | some addresses => do
          fetchAdd .hostsHits
          return .ok addresses
      | none => do
          let now ← instantNow
          let found ← cacheGet query.name now
          engine.afterGet query now found

/-- What the resolutions of an engine share. -/
structure Shared where
  cache : DnsCache
  stats : DnsStats

/-- What an action does to the shared state, with the answers it can give: the clock and the
resolvers answer anything. -/
def Does (shared : Shared) : (action : Action ρ) → Answer action → Shared → Prop
  | .clock, _, shared' => shared' = shared
  | .get name now, found, shared' =>
      found = (shared.cache.get name now).1 ∧
        shared' = { shared with cache := (shared.cache.get name now).2 }
  | .ask _ _, _, shared' => shared' = shared
  | .insert name addresses resolverTtl now, _, shared' =>
      ∃ iterate, DnsCache.Iteration iterate ∧
        shared' =
          { shared with cache := shared.cache.insert iterate name addresses resolverTtl now }
  | .count counter, _, shared' => shared' = { shared with stats := shared.stats.count counter }

end DnsEngine

end Commeatus.Dns
