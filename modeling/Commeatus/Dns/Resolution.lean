import Commeatus.Dns.Engine

/-!
The order of a resolution: which resolvers it asks, and what it returns.

The paths of `resolve` are described once, stage by stage. A resolver is asked
only after the hosts table and the cache have missed and all resolvers before
it have failed, and the first that succeeds ends the resolution.
-/

namespace Commeatus.Dns

open Commeatus.Lib Commeatus.Core

variable {ρ : Type}

/-- A call of a resolver with what it returned. -/
abbrev Call (ρ : Type) : Type := ρ × Except DnsError DnsAnswer

/-- The resolver calls among the events of a resolution. -/
def calls (events : List (ResolutionEvent ρ)) : List (Call ρ) :=
  events.filterMap fun
    | ⟨.ask resolver _, answer⟩ => some (resolver, answer)
    | _ => none

/-- Calls that all failed. -/
def failedCalls (failed : List (ρ × DnsError)) : List (Call ρ) :=
  failed.map fun call => (call.1, .error call.2)

/-- The events of resolvers that fail one after the other. -/
def failures (query : DnsQuery) (failed : List (ρ × DnsError)) : List (ResolutionEvent ρ) :=
  failed.flatMap fun call => [⟨.ask call.1 query, .error call.2⟩, ⟨.count .resolverFailures, ()⟩]

@[simp] theorem calls_append (events events' : List (ResolutionEvent ρ)) :
    calls (events ++ events') = calls events ++ calls events' := List.filterMap_append

@[simp] theorem calls_failures (query : DnsQuery) (failed : List (ρ × DnsError)) :
    calls (failures query failed) = failedCalls failed := by
  induction failed with
  | nil => rfl
  | cons call failed ih =>
      rw [failures, List.flatMap_cons, calls_append]
      exact congrArg (_ :: ·) ih

/-- The error of the last failed resolver. -/
def lastFailure (failed : List (ρ × DnsError)) (lastError : Option DnsError) : Option DnsError :=
  (failed.getLast?.map Prod.snd).or lastError

theorem lastFailure_cons (call : ρ × DnsError) (failed : List (ρ × DnsError))
    (lastError : Option DnsError) :
    lastFailure (call :: failed) lastError = lastFailure failed (some call.2) := by
  cases failed using List.reverseRecOn with
  | nil => rfl
  | append_singleton failed last =>
      rw [lastFailure, lastFailure, ← List.cons_append, List.getLast?_concat, List.getLast?_concat]
      rfl

namespace DnsEngine

open Prog

/-- How far the loop over the resolvers has come. -/
inductive Asking (query : DnsQuery) (now : Nat) (resolvers : List ρ) (lastError : Option DnsError) :
    List (ResolutionEvent ρ) → DnsM ρ Resolved → Prop where
  | asking (failed : List (ρ × DnsError)) {rest : List ρ}
      (order : resolvers = failed.map Prod.fst ++ rest) :
      Asking query now resolvers lastError (failures query failed)
        (askResolvers query now rest (lastFailure failed lastError))
  | failing (failed : List (ρ × DnsError)) {resolver : ρ} {rest : List ρ} {error : DnsError}
      (order : resolvers = failed.map Prod.fst ++ resolver :: rest) :
      Asking query now resolvers lastError
        (failures query failed ++ [⟨.ask resolver query, .error error⟩])
        (.act (.count .resolverFailures) fun _ => askResolvers query now rest (some error))
  | storing (failed : List (ρ × DnsError)) {resolver : ρ} {rest : List ρ} {answer : DnsAnswer}
      (order : resolvers = failed.map Prod.fst ++ resolver :: rest) :
      Asking query now resolvers lastError
        (failures query failed ++ [⟨.ask resolver query, .ok answer⟩])
        (.act (.insert query.name answer.addresses answer.ttl now) fun _ =>
          .done (.ok answer.addresses))
  | stored (failed : List (ρ × DnsError)) {resolver : ρ} {rest : List ρ} {answer : DnsAnswer}
      (order : resolvers = failed.map Prod.fst ++ resolver :: rest) :
      Asking query now resolvers lastError
        (failures query failed ++
          [⟨.ask resolver query, .ok answer⟩,
            ⟨.insert query.name answer.addresses answer.ttl now, ()⟩])
        (.done (.ok answer.addresses))

/-- A resolver that failed before all others of a stage. -/
theorem Asking.cons {query : DnsQuery} {now : Nat} {resolver : ρ}
    {error : DnsError} {resolvers : List ρ}
    {events : List (ResolutionEvent ρ)} {left : DnsM ρ Resolved}
    (stage : Asking query now resolvers (some error) events left) (lastError : Option DnsError) :
    Asking query now (resolver :: resolvers) lastError
      (⟨.ask resolver query, .error error⟩ :: ⟨.count .resolverFailures, ()⟩ :: events) left := by
  cases stage with
  | asking failed order =>
      rw [← lastFailure_cons (resolver, error) failed lastError]
      exact .asking ((resolver, error) :: failed) (by rw [order]; rfl)
  | failing failed order => exact .failing ((resolver, error) :: failed) (by rw [order]; rfl)
  | storing failed order => exact .storing ((resolver, error) :: failed) (by rw [order]; rfl)
  | stored failed order => exact .stored ((resolver, error) :: failed) (by rw [order]; rfl)

/-- What follows the answer of a resolver. -/
theorem askResolvers_cons (query : DnsQuery) (now : Nat) (resolver : ρ) (resolvers : List ρ)
    (lastError : Option DnsError) :
    askResolvers query now (resolver :: resolvers) lastError =
      (.act (.ask resolver query) fun
        | .ok answer =>
            .act (.insert query.name answer.addresses answer.ttl now) fun _ =>
              .done (.ok answer.addresses)
        | .error error =>
            .act (.count .resolverFailures) fun _ =>
                askResolvers query now resolvers (some error)) := by
  change Prog.act _ _ = _
  congr 1
  funext answer
  cases answer with
  | error e => rfl
  | ok answer =>
      have some : answer.addresses.isEmpty = false := by simpa using answer.nonempty
      change (if (deduplicateBounded answer.addresses).isEmpty = true then _ else _) = _
      rw [answer.deduplicateBounded_addresses, some, if_neg Bool.false_ne_true]
      rfl

/-- The loop goes through its stages and no others. -/
theorem asking_of_path {query : DnsQuery} {now : Nat} {resolvers : List ρ}
    {lastError : Option DnsError}
    {events : List (ResolutionEvent ρ)} {left : DnsM ρ Resolved}
    (path : Path (askResolvers query now resolvers lastError) events left) :
    Asking query now resolvers lastError events left := by
  induction resolvers generalizing lastError events with
  | nil =>
      obtain ⟨rfl, rfl⟩ := path.done_cases
      exact .asking [] rfl
  | cons resolver resolvers ih =>
      rw [askResolvers_cons] at path
      cases path with
      | here =>
          rw [← askResolvers_cons]
          exact .asking [] rfl
      | step answer rest =>
          cases answer with
          | ok answer =>
              cases rest with
              | here => exact .storing [] rfl
              | step stored rest =>
                  obtain ⟨rfl, rfl⟩ := rest.done_cases
                  exact .stored [] rfl
          | error error =>
              cases rest with
              | here => exact .failing [] rfl
              | step counted rest => exact (ih rest).cons lastError

/-- How far a resolution has come. -/
inductive Stage (engine : DnsEngine ρ) (name : Str) : List (ResolutionEvent ρ) →
    DnsM ρ Resolved → Prop where
  | refused {error : DnsError} (invalid : DnsQuery.new name = .error error) :
      Stage engine name [] (.done (.error error))
  | overriding {query : DnsQuery} {addresses : List IpAddr} (valid : DnsQuery.new name = .ok query)
      (hit : engine.hosts.resolve query.name = some addresses) :
      Stage engine name [] (.act (.count .hostsHits) fun _ => .done (.ok addresses))
  | overridden {query : DnsQuery} {addresses : List IpAddr} (valid : DnsQuery.new name = .ok query)
      (hit : engine.hosts.resolve query.name = some addresses) :
      Stage engine name [⟨.count .hostsHits, ()⟩] (.done (.ok addresses))
  | started {query : DnsQuery} (valid : DnsQuery.new name = .ok query)
      (miss : engine.hosts.resolve query.name = none) :
      Stage engine name [] (.act .clock fun now =>
        .act (.get query.name now) (engine.afterGet query now))
  | timed {query : DnsQuery} (valid : DnsQuery.new name = .ok query)
      (miss : engine.hosts.resolve query.name = none)
      (now : Nat) :
        Stage engine name [⟨.clock, now⟩] (.act (.get query.name now) (engine.afterGet query now))
  | serving {query : DnsQuery} (valid : DnsQuery.new name = .ok query)
      (miss : engine.hosts.resolve query.name = none)
      (now : Nat) (addresses : List IpAddr) :
      Stage engine name [⟨.clock, now⟩, ⟨.get query.name now, some addresses⟩]
        (.act (.count .cacheHits) fun _ => .done (.ok addresses))
  | served {query : DnsQuery} (valid : DnsQuery.new name = .ok query)
      (miss : engine.hosts.resolve query.name = none)
      (now : Nat) (addresses : List IpAddr) :
      Stage engine name [⟨.clock, now⟩, ⟨.get query.name now, some addresses⟩,
        ⟨.count .cacheHits, ()⟩]
        (.done (.ok addresses))
  | missed {query : DnsQuery} (valid : DnsQuery.new name = .ok query)
      (miss : engine.hosts.resolve query.name = none)
      (now : Nat) :
      Stage engine name [⟨.clock, now⟩, ⟨.get query.name now, none⟩]
        (.act (.count .cacheMisses) fun _ => askResolvers query now engine.resolvers none)
  | asking {query : DnsQuery} (valid : DnsQuery.new name = .ok query)
      (miss : engine.hosts.resolve query.name = none)
      (now : Nat) {events : List (ResolutionEvent ρ)} {left : DnsM ρ Resolved}
      (stage : Asking query now engine.resolvers none events left) :
      Stage engine name (⟨.clock, now⟩ :: ⟨.get query.name now, none⟩ ::
        ⟨.count .cacheMisses, ()⟩ :: events) left

/-- A resolution goes through its stages and no others. -/
theorem stage_of_path {engine : DnsEngine ρ} {name : Str} {events : List (ResolutionEvent ρ)}
    {left : DnsM ρ Resolved}
    (path : Path (engine.resolve name) events left) : Stage engine name events left := by
  unfold resolve at path
  match valid : DnsQuery.new name with
  | .error error =>
      rw [valid] at path
      obtain ⟨rfl, rfl⟩ := path.done_cases
      exact .refused valid
  | .ok query =>
      rw [valid] at path
      dsimp only at path
      match hosts : engine.hosts.resolve query.name with
      | some addresses =>
          rw [hosts] at path
          rcases path.perform_cases with ⟨rfl, rfl⟩ | ⟨counted, rest, rfl, after⟩
          · exact .overriding valid hosts
          · obtain ⟨rfl, rfl⟩ := after.done_cases
            exact .overridden valid hosts
      | none =>
          rw [hosts] at path
          rcases path.perform_cases with ⟨rfl, rfl⟩ | ⟨now, rest, rfl, clocked⟩
          · exact .started valid hosts
          rcases clocked.perform_cases with ⟨rfl, rfl⟩ | ⟨found, rest, rfl, looked⟩
          · exact .timed valid hosts now
          cases found with
          | some addresses =>
              rcases looked.perform_cases with ⟨rfl, rfl⟩ | ⟨counted, rest, rfl, after⟩
              · exact .serving valid hosts now addresses
              · obtain ⟨rfl, rfl⟩ := after.done_cases
                exact .served valid hosts now addresses
          | none =>
              rcases looked.perform_cases with ⟨rfl, rfl⟩ | ⟨counted, rest, rfl, after⟩
              · exact .missed valid hosts now
              · exact .asking valid hosts now (asking_of_path after)

/-- The first resolver that is left is asked next. -/
theorem pending_askResolvers (query : DnsQuery) (now : Nat) (resolvers : List ρ)
    (lastError : Option DnsError) :
    (askResolvers query now resolvers lastError).pending = resolvers.head?.map fun resolver =>
      .ask resolver query := by
  cases resolvers with
  | nil => rfl
  | cons resolver resolvers => rw [askResolvers_cons]; rfl

/-- A resolver is asked only after the hosts table and the cache have missed and all resolvers
before it have failed. -/
theorem asked_after_failures {engine : DnsEngine ρ} {name : Str} {before : List (ResolutionEvent ρ)}
    {left : DnsM ρ Resolved} {resolver : ρ} {query : DnsQuery}
    (path : Path (engine.resolve name) before left)
    (next : left.pending = some (.ask resolver query)) :
    DnsQuery.new name = .ok query ∧ engine.hosts.resolve query.name = none ∧
      (∃ now, ⟨.clock, now⟩ ∈ before ∧ ⟨.get query.name now, none⟩ ∈ before) ∧
      ∃ failed : List (ρ × DnsError), calls before = failedCalls failed ∧
        failed.map Prod.fst ++ [resolver] <+: engine.resolvers := by
  cases stage_of_path path with
  | asking valid miss now stage =>
      cases stage with
      | @asking failed rest order =>
          rw [pending_askResolvers] at next
          cases rest with
          | nil => cases next
          | cons first rest =>
              cases next
              refine ⟨valid, miss, ⟨now, by simp, by simp⟩, failed, ?_, ⟨rest, ?_⟩⟩
              · rw [← calls_failures query failed]
                rfl
              · rw [order, List.append_assoc]
                rfl
      | _ => cases next
  | _ => cases next

/-- How a resolution ends: with the answer of the first resolver that succeeds, with the error of
the last when all have failed, or without a call. -/
theorem resolved_by_first {engine : DnsEngine ρ} {name : Str}
    {events : List (ResolutionEvent ρ)} {result : Resolved}
    (path : Path (engine.resolve name) events (.done result)) :
    (∃ failed resolver answer, calls events = failedCalls failed ++ [(resolver, .ok answer)] ∧
      failed.map Prod.fst ++ [resolver] <+: engine.resolvers ∧ result = .ok answer.addresses) ∨
    (∃ query failed, DnsQuery.new name = .ok query ∧ calls events = failedCalls failed ∧
      failed.map Prod.fst = engine.resolvers ∧ result = .error ((lastFailure failed none).getD
        ⟨.noRecords, "no resolver returned addresses for " ++ String.ofList query.name⟩)) ∨
    (calls events = [] ∧
      ((∃ error, DnsQuery.new name = .error error ∧ result = .error error) ∨
        ∃ query addresses, DnsQuery.new name = .ok query ∧ result = .ok addresses ∧
          (engine.hosts.resolve query.name = some addresses ∨
            ∃ now, ⟨.get query.name now, some addresses⟩ ∈ events))) := by
  generalize ended : Prog.done result = left at path
  cases stage_of_path path with
  | refused invalid =>
      cases ended
      exact .inr (.inr ⟨rfl, .inl ⟨_, invalid, rfl⟩⟩)
  | overridden valid hit =>
      cases ended
      exact .inr (.inr ⟨rfl, .inr ⟨_, _, valid, rfl, .inl hit⟩⟩)
  | served valid miss now addresses =>
      cases ended
      exact .inr (.inr ⟨rfl, .inr ⟨_, _, valid, rfl, .inr ⟨now, by simp⟩⟩⟩)
  | @asking query valid miss now events left stage =>
      cases stage with
      | @asking failed rest order =>
          cases rest with
          | nil =>
              cases ended
              exact .inr (.inl ⟨query, failed, valid,
                calls_failures query failed, by simp [order], rfl⟩)
          | cons resolver rest =>
              rw [askResolvers_cons] at ended
              cases ended
      | @stored failed resolver rest answer order =>
          cases ended
          refine .inl ⟨failed, resolver, answer, ?_, ⟨rest, by simp [order]⟩, rfl⟩
          change calls (failures query failed ++ _) = _
          rw [calls_append, calls_failures]
          rfl
      | _ => cases ended
  | _ => cases ended

end DnsEngine

end Commeatus.Dns
