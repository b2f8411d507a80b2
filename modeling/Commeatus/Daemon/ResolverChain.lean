import Commeatus.Daemon.Directives
import Commeatus.Dns.Lifetime

/-!
The resolvers of a configuration, and the order in which they are asked.

A resolver is in the engine because a line of the text says so, or because no
line names a resolver; it is asked only when all that come before it have
failed. Together: name resolution falls back to nothing that the configuration
does not list.
-/

namespace Commeatus.Dns

open Commeatus.Lib Commeatus.Core
open Prog

namespace DnsCache

/-- The cache gives nothing: there is no entry, or it has expired. -/
theorem get_eq_none {cache : DnsCache} {name : Str} {now : Nat}
    (missed : (cache.get name now).1 = none) :
    ∀ entry, cache.entries.lookup name = some entry → entry.expires ≤ now := by
  intro entry found
  by_contra alive
  rw [get, found] at missed
  dsimp only at missed
  rw [if_neg alive] at missed
  cases missed

end DnsCache

namespace DnsEngine

variable {ρ ι : Type} [DecidableEq ι]

/-- On the way to a state, the resolution looked for the name in the cache when there was no entry
for it, or an expired one. -/
def MissedCache (engine : DnsEngine ρ) (names : ι → Str)
    (s : System (Action ρ) Answer Resolved ι Shared) (i : ι)
    (name : Str) : Prop :=
  ∃ (earlier : System (Action ρ) Answer Resolved ι Shared) (now : Nat),
    engine.Reaches names earlier ∧
    earlier.log ++ [(i, ⟨.get name now, none⟩)] <+: s.log ∧
    ∀ entry, earlier.shared.cache.entries.lookup name = some entry → entry.expires ≤ now

variable {engine : DnsEngine ρ} {names : ι → Str}
    {s : System (Action ρ) Answer Resolved ι Shared} {i : ι}

theorem missedCache_of_event (reaches : engine.Reaches names s) {name : Str} {now : Nat}
    (event : ⟨.get name now, none⟩ ∈ s.history i) : engine.MissedCache names s i name := by
  obtain ⟨before, after, logged⟩ := List.append_of_mem (System.mem_history.mp event)
  obtain ⟨earlier, reachable, same, shared, found, -⟩ := System.made_of_reachable reaches logged
  refine ⟨earlier, now, reachable, ⟨after, ?_⟩, DnsCache.get_eq_none found.symm⟩
  rw [same, logged, List.append_assoc]
  rfl

/-- A resolution is about to ask a resolver only when the hosts table and the cache have missed and
all resolvers before it have been asked and have failed. -/
theorem asks_after_failures (reaches : engine.Reaches names s) {resolver : ρ} {query : DnsQuery}
    (next : (s.threads i).pending = some (.ask resolver query)) :
    normalizeName (names i) = .ok query.name ∧ engine.hosts.resolve query.name = none ∧
      engine.MissedCache names s i query.name ∧
      ∃ failed : List (ρ × DnsError), calls (s.history i) = failedCalls failed ∧
        failed.map Prod.fst ++ [resolver] <+: engine.resolvers := by
  have path : Path (engine.resolve (names i)) (s.history i) (s.threads i) :=
    System.path_of_reachable reaches i
  obtain ⟨valid, miss, ⟨now, -, missed⟩, ordered⟩ := asked_after_failures path next
  exact ⟨DnsQuery.new_eq_ok valid, miss, missedCache_of_event reaches missed, ordered⟩

end DnsEngine

end Commeatus.Dns

namespace Commeatus.Daemon

open Commeatus.Lib Commeatus.Core Commeatus.Dns
open Prog

variable {η : Type} {platform : Platform η} {root text : Str} {compiled : CompiledConfig η}

/-- Resolver lines, and no others, add to the resolvers. -/
theorem Reads.collects_resolvers {fields : List Str} {s t : ParseState η}
    (reads : Reads platform root fields s t) :
    Sweep.Collects ParseState.dnsResolvers (isLine [.resolver])
      (ResolverLine platform) fields s t := by
  refine reads.collects ?_ ?_
  · intro word member known effect
    cases List.mem_singleton.mp member
    cases effect with
    | resolver key summary declares => exact ⟨_, declares, rfl⟩
  · intro word other effect
    cases effect with
    | resolver => exact absurd (List.mem_singleton.mpr rfl) other
    | _ => rfl

theorem compiled_resolvers (accepted : parseConfigAt platform text root = .ok compiled) :
    if linesOf [.resolver] text = [] then compiled.dns.resolvers = [.system]
    else List.Forall₂ (ResolverLine platform) (linesOf [.resolver] text)
      compiled.dns.resolvers := by
  obtain ⟨s, sweep, finishes⟩ := parseConfigAt_sweep accepted
  obtain ⟨added, same, declared⟩ := sweep.collected Reads.collects_resolvers
  have resolvers : s.dnsResolvers = added := same
  change List.Forall₂ (ResolverLine platform) (linesOf [.resolver] text) added at declared
  rw [finishes.resolvers, resolvers]
  by_cases none : linesOf [.resolver] text = []
  · rw [none, List.forall₂_nil_left_iff] at declared
    rw [if_pos none, if_pos declared]
  · have some : added ≠ [] := by
      rintro rfl
      exact none (List.forall₂_nil_right_iff.mp declared)
    rw [if_neg none, if_neg some]
    exact declared

/-- An engine that lists no system resolver never asks it. -/
theorem never_asks_system {ι : Type} [DecidableEq ι] {engine : DnsEngine (ConfiguredResolver η)}
    (absent : .system ∉ engine.resolvers) {names : ι → Str}
    {s : System (Action (ConfiguredResolver η)) Answer Resolved ι DnsEngine.Shared}
    (reaches : engine.Reaches names s)
    (i : ι) (query : DnsQuery) : (s.threads i).pending ≠ some (.ask .system query) := by
  intro next
  obtain ⟨-, -, -, failed, -, ordered⟩ := DnsEngine.asks_after_failures reaches next
  exact absent (ordered.subset (by simp))

/-- The system resolver is in an engine that was compiled from resolver lines only if one of them
says so. -/
theorem system_of_line {lines : List (List Str)} {resolvers : List (ConfiguredResolver η)}
    (declared : List.Forall₂ (ResolverLine platform) lines resolvers)
    (member : .system ∈ resolvers) :
    ["resolver".toList, "system".toList] ∈ lines := by
  obtain ⟨fields, among, declares⟩ := entry_of_item declared member
  cases declares
  exact among

/-- The compiled engine has the resolvers of the resolver lines in their order, or the system's
alone when there are none. Whatever an engine's cache holds and however its resolutions interleave,
each asks a resolver only after the hosts table and the cache have missed and all resolvers before
it have failed; it ends with the answer of the first that succeeds, or else with the error of the
last. So the system resolver is never called when there are resolver lines and none of them names
it. -/
theorem explicit_resolver_chain (accepted : parseConfigAt platform text root = .ok compiled) :
    (if linesOf [.resolver] text = [] then compiled.dns.resolvers = [.system]
      else List.Forall₂ (ResolverLine platform) (linesOf [.resolver] text) compiled.dns.resolvers) ∧
    (∀ (ρ ι : Type) [DecidableEq ι] (engine : DnsEngine ρ) (names : ι → Str)
      (s : System (Action ρ) Answer Resolved ι DnsEngine.Shared), engine.Reaches names s → ∀ i,
        (∀ resolver query, (s.threads i).pending = some (.ask resolver query) →
          normalizeName (names i) = .ok query.name ∧ engine.hosts.resolve query.name = none ∧
            engine.MissedCache names s i query.name ∧
            ∃ failed : List (ρ × DnsError), calls (s.history i) = failedCalls failed ∧
              failed.map Prod.fst ++ [resolver] <+: engine.resolvers) ∧
        ∀ result, s.threads i = .done result →
          (∃ failed resolver answer, calls (s.history i) = failedCalls failed ++
            [(resolver, .ok answer)] ∧
            failed.map Prod.fst ++ [resolver] <+: engine.resolvers ∧
            result = .ok answer.addresses) ∨
          (∃ query failed, DnsQuery.new (names i) = .ok query ∧
            calls (s.history i) = failedCalls failed ∧
            failed.map Prod.fst = engine.resolvers ∧ result = .error ((lastFailure failed none).getD
              ⟨.noRecords, "no resolver returned addresses for " ++ String.ofList query.name⟩)) ∨
          (calls (s.history i) = [] ∧
            ((∃ error, DnsQuery.new (names i) = .error error ∧ result = .error error) ∨
              ∃ query addresses, DnsQuery.new (names i) = .ok query ∧ result = .ok addresses ∧
                (engine.hosts.resolve query.name = some addresses ∨
                  ∃ now, ⟨.get query.name now, some addresses⟩ ∈ s.history i)))) ∧
    (linesOf [.resolver] text ≠ [] → ["resolver".toList, "system".toList] ∉
      linesOf [.resolver] text →
      ∀ (ι : Type) [DecidableEq ι] (names : ι → Str)
        (s : System (Action (ConfiguredResolver η)) Answer Resolved ι DnsEngine.Shared),
          compiled.dns.Reaches names s →
        ∀ i query, (s.threads i).pending ≠ some (.ask .system query)) := by
  have resolvers := compiled_resolvers accepted
  refine ⟨resolvers, ?_, ?_⟩
  · intro ρ ι _ engine names s reaches i
    constructor
    · intro resolver query next
      exact DnsEngine.asks_after_failures reaches next
    · intro result ended
      have path : Path (engine.resolve (names i)) (s.history i) (s.threads i) :=
        System.path_of_reachable reaches i
      rw [ended] at path
      exact DnsEngine.resolved_by_first path
  · intro some unnamed ι _ names s reaches i query
    rw [if_neg some] at resolvers
    exact never_asks_system (fun listed => unnamed (system_of_line resolvers listed))
      reaches i query

/-- A platform without files, on which every server name is valid. -/
def barePlatform : Platform Str where
  serverName name := .ok name
  sha224 _ := Vector.replicate 28 0
  metadataLen _ := .error ⟨.notFound, "No such file or directory"⟩
  readToString _ := .error ⟨.notFound, "No such file or directory"⟩

def secureText : Str :=
  "version 1\nlisten socks5 127.0.0.1:1080\ndefault direct # all\nresolver dot 9.9.9.9:853 DNS.example\n".toList

theorem explicit_resolver_chain_example :
    ∃ compiled, parseConfigAt barePlatform secureText [] = .ok compiled ∧
    compiled.dns.resolvers = [.dot ⟨⟨.v4 ⟨9, 9, 9, 9⟩, 853, 0⟩, "dns.example".toList⟩] ∧
    ∀ (names : Bool → Str) s, compiled.dns.Reaches names s → ∀ i query, (s.threads i).pending ≠
      some (.ask .system query) := by
  have accepted : parseConfigAt barePlatform secureText [] = .ok _ := rfl
  refine ⟨_, accepted, rfl, ?_⟩
  exact (explicit_resolver_chain accepted).2.2 (by decide +kernel) (by decide +kernel) Bool

end Commeatus.Daemon
