import Mathlib.Algebra.Order.BigOperators.Group.Finset
import Commeatus.Dns.Lifetime

/-!
The statistics of an engine (`AtomicDnsStats` in `dns/src/lib.rs`).

Every resolution adds to four atomic counters while others run. Each counter is
at every moment the number of additions in the log, whoever made them; and what
one resolution adds follows from where it ends: one of hosts hit, cache hit and
cache miss for a valid name, and one failure for every resolver that failed. So
the counters of resolutions that are over add up, in any order of their turns.
-/

namespace Commeatus.Dns

open Commeatus.Lib Commeatus.Core

def DnsStats.get (stats : DnsStats) : Counter → UInt64
  | .hostsHits => stats.hostsHits
  | .cacheHits => stats.cacheHits
  | .cacheMisses => stats.cacheMisses
  | .resolverFailures => stats.resolverFailures

@[simp] theorem DnsStats.get_count (stats : DnsStats) (counted counter : Counter) :
    (stats.count counted).get counter = stats.get counter + if counted = counter then 1 else 0 := by
  cases counted <;> cases counter <;> simp [count, get]

variable {ρ : Type}

/-! ### What is counted in a list of events -/

/-- The event adds to the counter. -/
@[simp] def adds (counter : Counter) : ResolutionEvent ρ → Bool
  | ⟨.count counted, _⟩ => counted = counter
  | _ => false

/-- A resolver was called and failed. -/
@[simp] def fails : ResolutionEvent ρ → Bool
  | ⟨.ask _ _, .error _⟩ => true
  | _ => false

/-- The cache had the name. -/
@[simp] def finds : ResolutionEvent ρ → Bool
  | ⟨.get _ _, found⟩ => found.isSome
  | _ => false

/-- The cache did not have the name. -/
@[simp] def misses : ResolutionEvent ρ → Bool
  | ⟨.get _ _, found⟩ => found.isNone
  | _ => false

/-- How often the counter was added to. -/
def tally (counter : Counter) (events : List (ResolutionEvent ρ)) : Nat :=
  events.countP (adds counter)

@[simp] theorem tally_nil (counter : Counter) :
    tally counter ([] : List (ResolutionEvent ρ)) = 0 := rfl

@[simp] theorem tally_cons (counter : Counter) (event : ResolutionEvent ρ)
    (events : List (ResolutionEvent ρ)) :
    tally counter (event :: events) = tally counter events + if adds counter event then 1 else 0 :=
  List.countP_cons

@[simp] theorem tally_append (counter : Counter) (events events' : List (ResolutionEvent ρ)) :
    tally counter (events ++ events') = tally counter events + tally counter events' :=
  List.countP_append

/-- A failure is a failed call and an addition, and a predicate that tells no resolvers or errors
apart counts each alike. -/
theorem countP_failures {p : ResolutionEvent ρ → Bool} {query : DnsQuery} {called counted : Bool}
    (call : ∀ resolver error, p ⟨.ask resolver query, .error error⟩ = called)
    (addition : p ⟨.count .resolverFailures, ()⟩ = counted) (failed : List (ρ × DnsError)) :
    (failures query failed).countP p = failed.length * (called.toNat + counted.toNat) := by
  induction failed with
  | nil => simp [failures]
  | cons first failed ih =>
      have split : failures query (first :: failed) =
          ⟨.ask first.1 query, .error first.2⟩ :: ⟨.count .resolverFailures, ()⟩ ::
            failures query failed := rfl
      rw [split, List.countP_cons, List.countP_cons, ih, call, addition, List.length_cons,
        Nat.add_mul, Nat.one_mul]
      cases called <;> cases counted <;> rfl

@[simp] theorem tally_failures (counter : Counter) (query : DnsQuery)
    (failed : List (ρ × DnsError)) :
    tally counter (failures query failed) = if counter = .resolverFailures then
      failed.length else 0 := by
  rw [tally, countP_failures (fun _ _ => rfl) rfl]
  cases counter <;> simp

@[simp] theorem countP_fails_failures (query : DnsQuery) (failed : List (ρ × DnsError)) :
    (failures query failed).countP fails = failed.length := by
  rw [countP_failures (fun _ _ => rfl) rfl]
  simp

@[simp] theorem countP_finds_failures (query : DnsQuery) (failed : List (ρ × DnsError)) :
    (failures query failed).countP finds = 0 := by
  rw [countP_failures (fun _ _ => rfl) rfl]
  simp

@[simp] theorem countP_misses_failures (query : DnsQuery) (failed : List (ρ × DnsError)) :
    (failures query failed).countP misses = 0 := by
  rw [countP_failures (fun _ _ => rfl) rfl]
  simp

namespace DnsEngine

open Prog

variable {engine : DnsEngine ρ} {name : Str} {events : List (ResolutionEvent ρ)}
    {left : DnsM ρ Resolved}
  {result : Resolved}

/-! ### One resolution -/

/-- The name is a host name. -/
def valid (name : Str) : Bool := (DnsQuery.new name).isOk

/-- The hosts table answers for the name. -/
def overrides (engine : DnsEngine ρ) (name : Str) : Bool :=
  match DnsQuery.new name with
  | .ok query => (engine.hosts.resolve query.name).isSome
  | .error _ => false

/-- What a resolution has added so far: at most one hit or miss, and a failure for every failed call
but the one that it is about to count. -/
structure Adding (name : Str) (events : List (ResolutionEvent ρ)) : Prop where
  hits : tally .hostsHits events + tally .cacheHits events +
    tally .cacheMisses events ≤ (valid name).toNat
  counted : tally .resolverFailures events ≤ events.countP fails
  behind : events.countP fails ≤ tally .resolverFailures events + 1

/-- What a resolution has added when it is over. -/
structure Added (engine : DnsEngine ρ) (name : Str) (events : List (ResolutionEvent ρ))
    (result : Resolved) : Prop where
  hostsHits : tally .hostsHits events = (overrides engine name).toNat
  cacheHits : tally .cacheHits events = events.countP finds
  cacheMisses : tally .cacheMisses events = events.countP misses
  resolverFailures : tally .resolverFailures events = events.countP fails
  all : tally .hostsHits events + tally .cacheHits events +
    tally .cacheMisses events = (valid name).toNat
  exhausted : valid name = true → result.isOk = false → tally .resolverFailures events =
    engine.resolvers.length

theorem valid_of_ok {query : DnsQuery} (made : DnsQuery.new name = .ok query) :
    valid name = true := by
  rw [valid, made]
  rfl

theorem overrides_of_ok {query : DnsQuery} (made : DnsQuery.new name = .ok query) :
    overrides engine name = (engine.hosts.resolve query.name).isSome := by
  rw [overrides, made]

/-- What each stage has added. -/
theorem Stage.adding (stage : Stage engine name events left) : Adding name events := by
  cases stage with
  | refused | overriding | started => exact ⟨by simp, by simp, by simp⟩
  | overridden made | served made => exact ⟨by simp [valid_of_ok made], by simp, by simp⟩
  | timed | serving | missed => exact ⟨by simp, by simp, by simp⟩
  | asking made miss now stage =>
      cases stage with
      | asking | failing | storing | stored => exact ⟨by simp [valid_of_ok made], by simp, by simp⟩

/-- What the stages have added in which a resolution is over. -/
theorem Stage.added (stage : Stage engine name events (.done result)) :
    Added engine name events result := by
  generalize ended : Prog.done result = left at stage
  cases stage with
  | refused invalid =>
      exact ⟨by simp [overrides, invalid], by
        simp, by simp, by simp, by simp [valid, invalid, Except.isOk, Except.toBool],
        by simp [valid, invalid, Except.isOk, Except.toBool]⟩
  | overridden made hit =>
      cases ended
      exact ⟨by simp [overrides_of_ok made, hit], by
        simp, by simp, by simp, by simp [valid_of_ok made],
        by simp [Except.isOk, Except.toBool]⟩
  | served made miss now addresses =>
      cases ended
      exact ⟨by simp [overrides_of_ok made, miss], by simp [List.countP_cons], by simp, by simp,
        by simp [valid_of_ok made], by simp [Except.isOk, Except.toBool]⟩
  | asking made miss now stage =>
      cases stage with
      | @asking failed rest order =>
          cases rest with
          | cons resolver rest =>
              rw [askResolvers_cons] at ended
              cases ended
          | nil =>
              refine ⟨by simp [overrides_of_ok made, miss], by
                simp, by simp [List.countP_cons], by simp,
                by simp [valid_of_ok made], ?_⟩
              simp [order]
      | stored failed =>
          cases ended
          exact ⟨by simp [overrides_of_ok made, miss], by simp, by simp [List.countP_cons], by simp,
            by simp [valid_of_ok made], by simp [Except.isOk, Except.toBool]⟩
      | failing | storing => cases ended
  | overriding | started | timed | serving | missed => cases ended

/-! ### All resolutions -/

variable {ι : Type} {names : ι → Str} {s : System (Action ρ) Answer Resolved ι Shared}

/-- What all resolutions have done. -/
def logged (s : System (Action ρ) Answer Resolved ι Shared) :
    List (ResolutionEvent ρ) := s.log.map Prod.snd

/-- An action adds to the counters what it counts. -/
theorem Does.stats {shared shared' : Shared} {action : Action ρ} {answer : Answer action}
    (does : Does shared action answer shared') (counter : Counter) :
    shared'.stats.get counter = shared.stats.get counter + if adds counter ⟨action, answer⟩ then
      1 else 0 := by
  cases action with
  | clock | ask =>
      cases does
      simp
  | get name now =>
      obtain ⟨-, rfl⟩ := does
      simp
  | insert name addresses resolverTtl now =>
      obtain ⟨iterate, -, rfl⟩ := does
      simp
  | count counted =>
      cases does
      simp

variable [DecidableEq ι]

/-- Each counter is the number of additions in the log. -/
theorem stats_of_reaches (reaches : engine.Reaches names s) (counter : Counter) :
    s.shared.stats.get counter = engine.stats.get counter +
      UInt64.ofNat (tally counter (logged s)) := by
  induction reaches with
  | refl => simp [logged, resolutions, System.start]
  | tail earlier step ih =>
      cases step with
      | turn i answer ready effect =>
          rw [Does.stats effect counter, ih]
          simp only [logged, List.map_append, List.map_cons, List.map_nil, tally_append, tally_cons,
            tally_nil, Nat.zero_add,
            UInt64.ofNat_add, UInt64.add_assoc]
          split <;> rfl

theorem stage_of_reaches (reaches : engine.Reaches names s) (i : ι) :
    Stage engine (names i) (s.history i) (s.threads i) :=
  stage_of_path (System.path_of_reachable reaches i)

/-- A resolution that is over has counted all its failed calls. -/
theorem lag_of_reaches (reaches : engine.Reaches names s) (i : ι) :
    (s.history i).countP fails ≤ tally .resolverFailures (s.history i) +
      (s.threads i).pending.isSome.toNat := by
  have stage := stage_of_reaches reaches i
  cases place : s.threads i with
  | done result =>
      rw [place] at stage
      exact Nat.le_of_eq stage.added.resolverFailures.symm
  | act action next => exact stage.adding.behind

variable [Fintype ι]

/-- What is counted of all is what is counted of each. -/
theorem countP_logged (s : System (Action ρ) Answer Resolved ι Shared)
    (p : ResolutionEvent ρ → Bool) :
    (logged s).countP p = ∑ i, (s.history i).countP p :=
  s.countP_log p

omit [DecidableEq ι] in
theorem card_filter_toNat (p : ι → Bool) : (Finset.univ.filter fun i => p i = true).card =
    ∑ i, (p i).toNat := by
  rw [Finset.card_filter]
  refine Finset.sum_congr rfl fun i _ => ?_
  cases p i <;> rfl

/-- The counters of an engine account for its resolutions, in every order of their turns: each is
the number of additions that were made to it; a resolution adds at most once to the hits and misses,
and lags with the count of at most one failed call. Once all are over, the first three counters tell
apart the names that the hosts table overrides, those that the cache had and those that it had not,
which are all valid names together; the fourth counts the failed calls, and a resolution of a valid
name that failed has counted one for every resolver. -/
theorem stats_account (engine : DnsEngine ρ) (names : ι → Str)
    (s : System (Action ρ) Answer Resolved ι Shared)
    (reaches : engine.Reaches names s) :
    (∀ counter, s.shared.stats.get counter = engine.stats.get counter +
      UInt64.ofNat (tally counter (logged s))) ∧
    (∀ i, tally .hostsHits (s.history i) + tally .cacheHits (s.history i) +
      tally .cacheMisses (s.history i) ≤
        (valid (names i)).toNat ∧
      tally .resolverFailures (s.history i) ≤ (s.history i).countP fails ∧
      (s.history i).countP fails ≤
        tally .resolverFailures (s.history i) + (s.threads i).pending.isSome.toNat) ∧
    tally .hostsHits (logged s) + tally .cacheHits (logged s) + tally .cacheMisses (logged s) ≤
      (Finset.univ.filter fun i => valid (names i) = true).card ∧
    tally .resolverFailures (logged s) ≤ (logged s).countP fails ∧
    (logged s).countP fails ≤
      tally .resolverFailures (logged s) +
        (Finset.univ.filter fun i => (s.threads i).pending.isSome = true).card ∧
    ((∀ i, ∃ result, s.threads i = .done result) →
      tally .hostsHits (logged s) =
        (Finset.univ.filter fun i => overrides engine (names i) = true).card ∧
      tally .cacheHits (logged s) = (logged s).countP finds ∧
      tally .cacheMisses (logged s) = (logged s).countP misses ∧
      tally .hostsHits (logged s) + tally .cacheHits (logged s) + tally .cacheMisses (logged s) =
        (Finset.univ.filter fun i => valid (names i) = true).card ∧
      tally .resolverFailures (logged s) = (logged s).countP fails ∧
      ∀ i error, s.threads i = .done (.error error) → valid (names i) = true →
        tally .resolverFailures (s.history i) = engine.resolvers.length) := by
  have adding := fun i => (stage_of_reaches reaches i).adding
  have lag := fun i => lag_of_reaches reaches i
  have total := fun counter => countP_logged s (adds counter)
  simp only [tally, total, countP_logged s, card_filter_toNat, ← Finset.sum_add_distrib]
  refine ⟨fun counter => ?_, fun i => ⟨(adding i).hits, (adding i).counted, lag i⟩,
    Finset.sum_le_sum fun i _ => (adding i).hits, Finset.sum_le_sum fun i _ => (adding i).counted,
    Finset.sum_le_sum fun i _ => lag i, fun ended => ?_⟩
  · rw [← total]
    exact stats_of_reaches reaches counter
  have added : ∀ i result, s.threads i = .done result →
      Added engine (names i) (s.history i) result := by
    intro i result place
    have stage := stage_of_reaches reaches i
    rw [place] at stage
    exact stage.added
  choose result place using ended
  have each := fun i => added i (result i) (place i)
  refine ⟨Finset.sum_congr rfl fun i _ => (each i).hostsHits,
    Finset.sum_congr rfl fun i _ => (each i).cacheHits,
    Finset.sum_congr rfl fun i _ => (each i).cacheMisses,
      Finset.sum_congr rfl fun i _ => (each i).all,
    Finset.sum_congr rfl fun i _ => (each i).resolverFailures, fun i error failed isValid => ?_⟩
  exact (added i _ failed).exhausted isValid rfl

/-- Two resolutions at once, of which the first one's only resolver fails: two misses and a failure
are counted, and the failed resolution has counted one for each resolver. -/
theorem stats_account_example : ∃ s, sampleEngine.Reaches (fun _ : Bool => "a".toList) s ∧
    tally .hostsHits (logged s) + tally .cacheHits (logged s) + tally .cacheMisses (logged s) = 2 ∧
    tally .resolverFailures (s.history false) = sampleEngine.resolvers.length := by
  have iteration : DnsCache.Iteration fun m => m.entries.map fun entry => (entry.1, entry.2) :=
    fun m => .refl _
  have start :
    sampleEngine.Reaches (fun _ : Bool => "a".toList)
      (sampleEngine.resolutions fun _ => "a".toList) := .refl
  have clocked := start.tail (.turn false 5 rfl rfl)
  have missed := clocked.tail (.turn false none rfl ⟨rfl, rfl⟩)
  have clocked' := missed.tail (.turn true 6 rfl rfl)
  have counted := clocked'.tail (.turn false () rfl rfl)
  have missed' := counted.tail (.turn true none rfl ⟨rfl, rfl⟩)
  have failed := missed'.tail (.turn false (.error ⟨.resolverFailure, "refused"⟩) rfl rfl)
  have counted' := failed.tail (.turn true () rfl rfl)
  have asked := counted'.tail (.turn true (.ok sampleAnswer) rfl rfl)
  have failures := asked.tail (.turn false () rfl rfl)
  have stored := failures.tail (.turn true () rfl ⟨_, iteration, rfl⟩)
  obtain ⟨-, -, -, -, -, ended⟩ := stats_account _ _ _ stored
  obtain ⟨-, -, -, all, -, exhausted⟩ := ended fun i => by
    cases i
    · exact ⟨_, rfl⟩
    · exact ⟨_, rfl⟩
  exact ⟨_, stored, all, exhausted false _ rfl rfl⟩

end DnsEngine

end Commeatus.Dns
