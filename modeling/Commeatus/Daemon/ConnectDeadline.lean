import Commeatus.Daemon.Connector

/-!
The runs of a DIRECT connection (`connect_direct` in `daemon/src/proxy.rs`).

All candidates share one deadline, which is set after the resolution. A run tries
them in their order, each with the time that is left, until one connects, all have
failed, or the deadline has passed.
-/

namespace Commeatus.Daemon

open Commeatus.Lib Commeatus.Core Commeatus.Dns
open Handler Prog

variable {η : Type}

/-- A candidate that was tried in vain, with the instant at which it was tried. -/
structure FailedTry where
  instant : Nat
  address : ScopedAddr
  error : IoError

/-- The events of candidates that are tried one after the other. -/
def triesBefore (deadline : Nat) (failed : List FailedTry) : List (HandlerEvent η) :=
  failed.flatMap fun attempt =>
    [⟨.now, attempt.instant⟩,
      ⟨.dial attempt.address (deadline - attempt.instant), .error attempt.error⟩]

/-- The error of the last candidate that was tried. -/
def lastOf (failed : List FailedTry) (lastError : Option IoError) : IoError :=
  ((failed.getLast?.map FailedTry.error).or lastError).getD noneConnected

/-- How the loop over the candidates goes and ends. -/
inductive Tried (deadline : Nat) (addresses : List ScopedAddr) (lastError : Option IoError) :
    List (HandlerEvent η) → Except IoError Unit → Prop where
  | exhausted (failed : List FailedTry) (inTime : ∀ attempt ∈ failed, attempt.instant < deadline)
      (order : addresses = failed.map FailedTry.address) :
      Tried deadline addresses lastError (triesBefore deadline failed)
        (.error (lastOf failed lastError))
  | late (failed : List FailedTry) (inTime : ∀ attempt ∈ failed, attempt.instant < deadline)
      {address : ScopedAddr}
      {rest : List ScopedAddr} (order : addresses = failed.map FailedTry.address ++ address :: rest)
        {instant : Nat}
      (passed : deadline ≤ instant) :
      Tried deadline addresses lastError (triesBefore deadline failed ++ [⟨.now, instant⟩])
        (.error (lastOf failed lastError))
  | connected (failed : List FailedTry) (inTime : ∀ attempt ∈ failed, attempt.instant < deadline)
      {address : ScopedAddr}
      {rest : List ScopedAddr} (order : addresses = failed.map FailedTry.address ++ address :: rest)
        {instant : Nat}
      (early : instant < deadline) (nodelay : Except IoError Unit) :
      Tried deadline addresses lastError
        (triesBefore deadline failed ++
          [⟨.now, instant⟩, ⟨.dial address (deadline - instant), .ok ()⟩,
            ⟨.configure .remote .nodelay, nodelay⟩]) nodelay

theorem lastOf_cons (attempt : FailedTry) (failed : List FailedTry) (lastError : Option IoError) :
    lastOf (attempt :: failed) lastError = lastOf failed (some attempt.error) := by
  cases failed using List.reverseRecOn with
  | nil => rfl
  | append_singleton failed last =>
      rw [lastOf, lastOf, ← List.cons_append, List.getLast?_concat, List.getLast?_concat]
      rfl

/-- A candidate that failed before all others. -/
theorem Tried.cons {deadline instant : Nat} {address : ScopedAddr}
    {addresses : List ScopedAddr} {e : IoError}
    (early : instant < deadline) {events : List (HandlerEvent η)} {result : Except IoError Unit}
    (tried : Tried deadline addresses (some e) events result) (lastError : Option IoError) :
    Tried deadline (address :: addresses) lastError
      (⟨.now, instant⟩ :: ⟨.dial address (deadline - instant), .error e⟩ :: events) result := by
  have inTime' : ∀ {failed : List FailedTry}, (∀ attempt ∈ failed, attempt.instant < deadline) →
      ∀ attempt ∈ (⟨instant, address, e⟩ : FailedTry) :: failed, attempt.instant < deadline := by
    intro failed inTime attempt member
    rcases List.mem_cons.mp member with rfl | other
    · exact early
    · exact inTime attempt other
  cases tried with
  | exhausted failed inTime order =>
      rw [← lastOf_cons ⟨instant, address, e⟩ failed lastError]
      exact .exhausted _ (inTime' inTime) (by rw [order]; rfl)
  | @late failed inTime address' rest order instant' passed =>
      rw [← lastOf_cons ⟨instant, address, e⟩ failed lastError]
      exact .late _ (inTime' inTime) (by rw [order]; rfl) passed
  | @connected failed inTime address' rest order instant' early' =>
      have order' :
          address :: addresses = ((⟨instant, address, e⟩ : FailedTry) :: failed).map
              FailedTry.address ++ address' :: rest := by
        rw [order]
        rfl
      exact .connected _ (inTime' inTime) order' early' result

/-! ### The loop, action by action -/

/-- What follows a dialling. -/
def dialled (deadline : Nat) (addresses : List ScopedAddr) : Except IoError Unit → Handler η Unit
  | .ok () => configure .remote .nodelay
  | .error e => connectAny deadline addresses (some e)

/-- What follows the reading of the clock for a candidate. -/
def tryAt (deadline : Nat) (address : ScopedAddr) (addresses : List ScopedAddr)
    (lastError : Option IoError) (instant : Nat) :
    Handler η Unit :=
  if deadline - instant = 0 then Attempt.fail (lastError.getD noneConnected)
  else Prog.act (HandlerAct.dial address (deadline - instant)) (dialled deadline addresses)

theorem connectAny_cons (deadline : Nat) (address : ScopedAddr) (addresses : List ScopedAddr)
    (lastError : Option IoError) :
    (connectAny deadline (address :: addresses) lastError : Handler η Unit) =
      Prog.act HandlerAct.now (tryAt deadline address addresses lastError) := by
  change Prog.act _ _ = _
  congr 1

theorem tryAt_late {deadline instant : Nat} (passed : deadline ≤ instant) (address : ScopedAddr)
    (addresses : List ScopedAddr)
    (lastError : Option IoError) :
    (tryAt deadline address addresses lastError instant : Handler η Unit) =
      Prog.done (.error (lastError.getD noneConnected)) :=
  if_pos (Nat.sub_eq_zero_of_le passed)

theorem tryAt_early {deadline instant : Nat} (early : instant < deadline) (address : ScopedAddr)
    (addresses : List ScopedAddr)
    (lastError : Option IoError) :
    (tryAt deadline address addresses lastError instant : Handler η Unit) =
      Prog.act (HandlerAct.dial address (deadline - instant)) (dialled deadline addresses) :=
  if_neg (Nat.sub_ne_zero_of_lt early)

/-- Behind candidates that are tried in vain, the loop goes on with the others. -/
theorem path_triesBefore {deadline : Nat} {failed : List FailedTry}
    (inTime : ∀ attempt ∈ failed, attempt.instant < deadline)
    {rest : List ScopedAddr} {lastError : Option IoError} {events : List (HandlerEvent η)}
    {left : Prog (HandlerAct η) HandlerAns (Except IoError Unit)}
    (onward : Path (connectAny deadline rest ((failed.getLast?.map FailedTry.error).or lastError))
      events left) :
    Path (connectAny deadline (failed.map FailedTry.address ++ rest) lastError)
      (triesBefore deadline failed ++ events) left := by
  induction failed generalizing lastError with
  | nil => exact onward
  | cons attempt failed ih =>
      have early : attempt.instant < deadline := inTime attempt List.mem_cons_self
      rw [List.map_cons, List.cons_append, connectAny_cons]
      apply Path.step
      rw [tryAt_early early]
      apply Path.step
      apply ih fun other member => inTime other (List.mem_cons_of_mem _ member)
      cases failed using List.reverseRecOn with
      | nil => exact onward
      | append_singleton failed last =>
          rw [← List.cons_append, List.getLast?_concat] at onward
          rw [List.getLast?_concat]
          exact onward

/-- The loop runs as it is described, and has no other runs. -/
theorem connectAny_path_iff {deadline : Nat} {addresses : List ScopedAddr}
    {lastError : Option IoError}
    {events : List (HandlerEvent η)} {result : Except IoError Unit} :
    Path (connectAny deadline addresses lastError) events (.done result) ↔
    Tried deadline addresses lastError events result := by
  constructor
  · intro path
    induction addresses generalizing lastError events with
    | nil =>
        obtain ⟨rfl, ended⟩ := path.done_cases
        cases ended
        exact .exhausted [] (fun _ no => by cases no) rfl
    | cons address addresses ih =>
        rw [connectAny_cons] at path
        cases path with
        | step instant rest =>
            by_cases early : (instant : Nat) < deadline
            swap
            · rw [tryAt_late (Nat.le_of_not_lt early)] at rest
              obtain ⟨rfl, ended⟩ := rest.done_cases
              cases ended
              exact .late [] (fun _ no => by cases no) rfl (Nat.le_of_not_lt early)
            · rw [tryAt_early early] at rest
              cases rest with
              | step answer rest =>
                  cases answer with
                  | ok u =>
                      have set := Path.perform_done rest
                      subst set
                      exact .connected [] (fun _ no => by cases no) rfl early result
                  | error e => exact (ih rest).cons early lastError
  · intro tried
    cases tried with
    | exhausted failed inTime order =>
        rw [order, ← List.append_nil (failed.map _)]
        rw [← List.append_nil (triesBefore deadline failed)]
        exact path_triesBefore inTime (.here _)
    | @late failed inTime address rest order instant passed =>
        rw [order]
        apply path_triesBefore inTime
        rw [connectAny_cons]
        apply Path.step
        rw [tryAt_late passed]
        exact .here _
    | @connected failed inTime address rest order instant early =>
        rw [order]
        apply path_triesBefore inTime
        rw [connectAny_cons]
        apply Path.step
        rw [tryAt_early early]
        exact .step _ (.step _ (.here _))

/-! ### Connections -/

/-- What a run reads of the outside before its loop: the answer to the name of the target, if it has
one. -/
def lookups (target : Target) (resolved : Resolved) : List (HandlerEvent η) :=
  match target.host with
  | .ip _ => []
  | .domain name => [⟨.resolve name, resolved⟩]

/-- The candidates that the answer makes. -/
def candidatesFor (target : Target) (resolved : Resolved) : Except IoError (List ScopedAddr) :=
  match target.host with
  | .ip ip => candidates target.port (.ok [ip])
  | .domain _ => candidates target.port resolved

theorem candidatesOf_path_iff {target : Target} {events : List (HandlerEvent η)}
    {result : Except IoError (List ScopedAddr)} :
    Path (candidatesOf target) events (.done result) ↔
      ∃ resolved, events = lookups target resolved ∧ result = candidatesFor target resolved := by
  unfold candidatesOf resolveTarget lookups candidatesFor
  cases target.host with
  | ip ip =>
      constructor
      · intro path
        obtain ⟨rfl, ended⟩ := path.done_cases
        cases ended
        exact ⟨.ok [], rfl, rfl⟩
      · rintro ⟨resolved, rfl, rfl⟩
        exact .here _
  | domain name =>
      constructor
      · intro path
        cases path with
        | step answer rest =>
            obtain ⟨rfl, ended⟩ := rest.done_cases
            cases ended
            exact ⟨answer, rfl, rfl⟩
      · rintro ⟨resolved, rfl, rfl⟩
        apply Path.step
        exact .here _

/-- The runs of a DIRECT connection, and no others: it resolves a name and leaves with the error if
there is no candidate; otherwise it reads the clock and tries the candidates in their order against
one deadline, ten seconds later. Each is dialled with exactly the time that is left, the first that
connects is taken and is the last that is dialled, and when none does, the error is that of the last
that was tried, or a timeout if none was. -/
theorem connectDirect_path_iff {target : Target} {events : List (HandlerEvent η)}
    {result : Except IoError Unit} :
    Path (connectDirect target) events (.done result) ↔
      (∃ resolved e, candidatesFor target resolved = .error e ∧ events = lookups target resolved ∧
        result = .error e) ∨
      ∃ resolved addresses, ∃ start : Nat, ∃ tries, candidatesFor target resolved = .ok addresses ∧
        events = lookups target resolved ++ ⟨.now, start⟩ :: tries ∧
          Tried (start + connectTimeout) addresses none tries result := by
  unfold connectDirect
  rw [Attempt.path_bind_iff]
  constructor
  · rintro (⟨e, failed, rfl⟩ | ⟨addresses, before, after, rfl, found, loop⟩)
    · obtain ⟨resolved, rfl, none⟩ := candidatesOf_path_iff.mp failed
      exact .inl ⟨resolved, e, none.symm, rfl, rfl⟩
    · obtain ⟨resolved, rfl, some⟩ := candidatesOf_path_iff.mp found
      cases loop with
      | step start tries =>
          exact .inr ⟨resolved, addresses, start, _, some.symm, rfl, connectAny_path_iff.mp tries⟩
  · rintro (⟨resolved, e, none, rfl, rfl⟩ | ⟨resolved, addresses, start, tries, some, rfl, tried⟩)
    · exact .inl ⟨e, candidatesOf_path_iff.mpr ⟨resolved, rfl, none.symm⟩, rfl⟩
    · refine .inr ⟨addresses, _, _, rfl, candidatesOf_path_iff.mpr ⟨resolved, rfl, some.symm⟩, ?_⟩
      apply Path.step
      exact connectAny_path_iff.mpr tried

/-- A name with two addresses, the first of which refuses; and a name that has none. -/
theorem connectDirect_path_iff_example :
    Path (connectDirect ⟨.domain "a.example".toList, 80, httpPort_ne_zero⟩ : Handler Unit Unit)
        [⟨.resolve "a.example".toList, .ok [.v4 ⟨10, 0, 0, 1⟩, .v4 ⟨10, 0, 0, 2⟩]⟩,
          ⟨.now, (5 : Nat)⟩,
          ⟨.now, (6 : Nat)⟩,
          ⟨.dial ⟨.v4 ⟨10, 0, 0, 1⟩, 80, 0⟩ 9999999999, .error ⟨.connectionRefused, "refused"⟩⟩,
          ⟨.now, (7 : Nat)⟩, ⟨.dial ⟨.v4 ⟨10, 0, 0, 2⟩, 80, 0⟩ 9999999998, .ok ()⟩,
          ⟨.configure .remote .nodelay, .ok ()⟩]
        (.done (.ok ())) ∧
      Path (connectDirect ⟨.domain "a.example".toList, 80, httpPort_ne_zero⟩ : Handler Unit Unit)
        [⟨.resolve "a.example".toList, .ok []⟩]
        (.done (.error ⟨.addrNotAvailable, "destination resolved to no usable addresses"⟩)) := by
  constructor
  · refine connectDirect_path_iff.mpr (.inr ⟨.ok [.v4 ⟨10, 0, 0, 1⟩, .v4 ⟨10, 0, 0, 2⟩],
      [⟨.v4 ⟨10, 0, 0, 1⟩, 80, 0⟩, ⟨.v4 ⟨10, 0, 0, 2⟩, 80, 0⟩], 5, _, rfl, rfl, ?_⟩)
    refine .connected [⟨6, ⟨.v4 ⟨10, 0, 0, 1⟩, 80, 0⟩, ⟨.connectionRefused, "refused"⟩⟩] ?_ rfl
      (show 7 < 5 + connectTimeout by decide) (.ok ())
    intro attempt member
    cases List.mem_singleton.mp member
    decide
  · exact connectDirect_path_iff.mpr (.inl ⟨.ok [], _, rfl, rfl, rfl⟩)

end Commeatus.Daemon
