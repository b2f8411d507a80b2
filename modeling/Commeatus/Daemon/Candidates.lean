import Commeatus.Daemon.Proxy
import Commeatus.Dns.Hosts
import Commeatus.Dns.Lifetime
import Commeatus.Lib.SocketAddr

/-!
The socket addresses that DIRECT execution tries for a target
(`daemon/src/proxy.rs`), and how many there can be.

What a resolver or the cache answers is bounded. What a hosts table answers is
not: the engine returns the table's addresses as they are.
-/

namespace Commeatus.Daemon

open Commeatus.Lib Commeatus.Core Commeatus.Dns
open Prog

variable {ρ : Type}

/-- The candidates that come of a resolution. -/
def candidates (port : UInt16) (resolved : Resolved) : Except IoError (List ScopedAddr) := do
  let addresses ← match resolved with
    | .ok addresses => .ok addresses
    | .error e => .error ⟨.addrNotAvailable, e.message⟩
  refuse (addresses = []) ⟨.addrNotAvailable, "destination resolved to no usable addresses"⟩
  return addresses.map fun address => ⟨address, port, 0⟩

theorem candidates_ok (port : UInt16) {addresses : List IpAddr} (nonempty : addresses ≠ []) :
    candidates port (.ok addresses) = .ok (addresses.map fun address => ⟨address, port, 0⟩) :=
  refuse_bind_eq_ok_iff.mpr ⟨nonempty, rfl⟩

/-- `resolve_target`: an address is its own candidate. `resolve` is the engine's resolution. -/
def resolveTarget {m : Type → Type} [Monad m] (resolve : Str → m Resolved) (target : Target) :
    m (Except IoError (List ScopedAddr)) :=
  match target.host with
  | .domain domain => do
      let resolved ← resolve domain
      return candidates target.port resolved
  | .ip address => return candidates target.port (.ok [address])

/-- What is promised of the addresses of a resolution. -/
structure Bounded (addresses : List IpAddr) : Prop where
  nonempty : addresses ≠ []
  distinct : addresses.Nodup
  few : addresses.length ≤ maxResolvedAddresses
  tried : ∀ port list, candidates port (.ok addresses) = .ok list →
    list.length ≤ maxResolvedAddresses

/-- The hosts table has no more addresses for the name than a resolution may return. -/
def HostsFit (hosts : HostsTable) (name : Str) : Prop :=
  ∀ normal addresses, normalizeName name = .ok normal → hosts.resolve normal = some addresses →
    addresses.length ≤ maxResolvedAddresses

theorem Bounded.of_few {addresses : List IpAddr} (nonempty : addresses ≠ [])
    (distinct : addresses.Nodup)
    (few : addresses.length ≤ maxResolvedAddresses) : Bounded addresses := by
  refine ⟨nonempty, distinct, few, fun port list made => ?_⟩
  rw [candidates_ok port nonempty] at made
  cases made
  rwa [List.length_map]

theorem Bounded.of_answer (answer : DnsAnswer) : Bounded answer.addresses :=
  .of_few answer.nonempty answer.distinct answer.bounded

theorem HostsFit.of_miss {hosts : HostsTable} {name : Str} {query : DnsQuery}
    (valid : DnsQuery.new name = .ok query)
    (miss : hosts.resolve query.name = none) : HostsFit hosts name := by
  intro normal addresses normalised hit
  have same : query.name = normal :=
    Except.ok.inj ((DnsQuery.new_eq_ok valid).symm.trans normalised)
  subst same
  rw [miss] at hit
  cases hit

/-- Whichever path a resolution took, its addresses are bounded exactly when the hosts table has no
more than sixteen for the name. -/
theorem resolution_bounded_iff {engine : DnsEngine ρ} (built : engine.Built)
    (obtained : engine.hosts.Obtained)
    {ι : Type} [DecidableEq ι] {names : ι → Str}
    {s : System (Action ρ) Answer Resolved ι DnsEngine.Shared}
    (reaches : engine.Reaches names s) {i : ι} {addresses : List IpAddr}
    (resolved : s.threads i = .done (.ok addresses)) :
    Bounded addresses ↔ HostsFit engine.hosts (names i) := by
  have path : Path (engine.resolve (names i)) (s.history i) (s.threads i) :=
    System.path_of_reachable reaches i
  generalize history : s.history i = events at path
  generalize left : s.threads i = program at path resolved
  cases DnsEngine.stage_of_path path with
  | @overridden query addresses' valid hit =>
      cases resolved
      obtain ⟨-, nonempty, distinct⟩ := obtained.sound query.name addresses hit
      constructor
      · intro bounded normal addresses' normalised hit'
        have same : query.name = normal :=
          Except.ok.inj ((DnsQuery.new_eq_ok valid).symm.trans normalised)
        subst same
        cases hit.symm.trans hit'
        exact bounded.few
      · intro fit
        exact .of_few nonempty distinct (fit query.name addresses (DnsQuery.new_eq_ok valid) hit)
  | @served query valid miss now addresses' =>
      cases resolved
      have served : ⟨.get query.name now, some addresses⟩ ∈ s.history i := by
        rw [history]
        exact List.mem_cons_of_mem _ List.mem_cons_self
      obtain ⟨before, after, logged⟩ := List.append_of_mem (System.mem_history.mp served)
      obtain ⟨-, -, expires, backed, -⟩ := engine.served_is_alive built.empty reaches logged
      obtain ⟨-, -, -, -, answer, -, -, -, rfl, -⟩ := backed
      exact ⟨fun _ => .of_miss valid miss, fun _ => .of_answer answer⟩
  | asking valid miss now stage =>
      refine ⟨fun _ => .of_miss valid miss, fun _ => ?_⟩
      cases stage with
      | @asking failed rest order =>
          cases rest with
          | nil => cases resolved
          | cons resolver rest =>
              rw [DnsEngine.askResolvers_cons] at resolved
              cases resolved
      | @stored failed resolver rest answer order =>
          cases resolved
          exact .of_answer answer
      | _ => cases resolved
  | _ => cases resolved

/-- A single resolution of a name that the hosts table has. -/
theorem reaches_of_hit (engine : DnsEngine ρ) {name : Str} {query : DnsQuery}
    {addresses : List IpAddr}
    (valid : DnsQuery.new name = .ok query)
    (hit : engine.hosts.resolve query.name = some addresses) :
    ∃ s : System (Action ρ) Answer Resolved Unit DnsEngine.Shared,
      engine.Reaches (fun _ => name) s ∧ s.threads () = .done (.ok addresses) := by
  have counting : engine.resolve name = .act (.count .hostsHits) fun _ =>
      .done (.ok addresses) := by
    rw [DnsEngine.resolve, valid]
    dsimp only
    rw [hit]
    rfl
  have start : engine.Reaches (fun _ : Unit => name) (engine.resolutions fun _ => name) := .refl
  have counted := start.tail (.turn () () counting rfl)
  exact ⟨_, counted, rfl⟩

/-- A name with two addresses, in one hosts source. -/
theorem resolution_bounded_iff_example : ∃ addresses : List IpAddr, Bounded addresses ∧
    addresses.length = 2 := by
  have read :
    (HostsTable.parse "10.0.0.1 pair.example\n10.0.0.2 pair.example\n".toList).toOption.map
      (fun table => (table.resolve "pair.example".toList).map List.length) =
        some (some 2) := by decide +kernel
  obtain ⟨table, parsed, found⟩ := exists_ok_of_map read
  obtain ⟨addresses, hit, pair⟩ := Option.map_eq_some_iff.mp found
  have valid : DnsQuery.new "pair.example".toList = .ok ⟨"pair.example".toList, by decide⟩ := by
    decide
  obtain ⟨s, reaches, resolved⟩ := reaches_of_hit (.system () table) valid hit
  have fit : HostsFit table "pair.example".toList := by
    intro normal addresses' normalised hit'
    cases normalised
    cases hit.symm.trans hit'
    rw [pair]
    decide
  have bounded :=
    (resolution_bounded_iff (.system () table) (.parse parsed) reaches resolved).mpr fit
  exact ⟨addresses, bounded, pair⟩

/-- A hosts source with a name of seventeen addresses. -/
def crowdedHosts : Str :=
  (List.range 17).flatMap fun k => "10.0.0.".toList ++ decimal k ++ " many.example\n".toList

set_option maxRecDepth 4000 in
/-- The engine returns all seventeen addresses, and DIRECT execution tries all of them. -/
theorem hosts_exceed_bound : ∃ (table : HostsTable)
    (s : System (Dns.Action Unit) Answer Resolved Unit DnsEngine.Shared)
    (addresses : List IpAddr) (list : List ScopedAddr), HostsTable.parse crowdedHosts = .ok table ∧
      (DnsEngine.system () table).Reaches (fun _ => "many.example".toList) s ∧
      s.threads () = .done (.ok addresses) ∧ candidates 443 (.ok addresses) = .ok list ∧
      addresses.length = 17 ∧
      list.length = 17 := by
  have read : (HostsTable.parse crowdedHosts).toOption.map
      (fun table => (table.resolve "many.example".toList).map List.length) =
        some (some 17) := by decide +kernel
  obtain ⟨table, parsed, found⟩ := exists_ok_of_map read
  obtain ⟨addresses, hit, crowd⟩ := Option.map_eq_some_iff.mp found
  have nonempty : addresses ≠ [] := List.ne_nil_of_length_pos (by omega)
  have valid : DnsQuery.new "many.example".toList = .ok ⟨"many.example".toList, by decide⟩ := by
    decide
  obtain ⟨s, reaches, resolved⟩ := reaches_of_hit (.system () table) valid hit
  refine ⟨table, s, addresses, _, parsed, reaches, resolved, candidates_ok 443 nonempty, crowd, ?_⟩
  rw [List.length_map, crowd]

end Commeatus.Daemon
