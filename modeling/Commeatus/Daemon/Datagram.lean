import Commeatus.Lib.Loop
import Commeatus.Lib.Map
import Commeatus.Daemon.Proxy

/-!
Datagram routes (`daemon/src/datagram.rs`).

An inbound association has a set of outbound routes, one for each endpoint
that policy has selected so far. A route is an execution object, opened on
first use, and the readiness tokens it was registered with. The execution
objects are trait objects in the source; `DatagramExecution` is their
interface, on a state `ε` of the object and a state `ω` of everything outside.
-/

namespace Commeatus.Daemon

open Commeatus.Lib Commeatus.Core

def maxDatagramRoutes : Nat := 32

/-- A datagram that was received: its source and what was written to the caller's buffer. -/
structure ReceivedDatagram where
  source : Target
  payload : Bytes
  deriving DecidableEq

def ReceivedDatagram.ofPair (datagram : Target × Bytes) : ReceivedDatagram :=
  ⟨datagram.1, datagram.2⟩

structure DatagramExecution (ε ω : Type) where
  readinessSourceCount : ε → Nat
  registerReadiness : List Nat → IoM (ε × ω) Unit
  send : Target → Bytes → Run (ε × ω) Unit
  receive : Nat → Run (ε × ω) (Option ReceivedDatagram)

/-! ### Readiness tokens -/

structure DatagramTokenAllocator where
  nextToken : Nat

def DatagramTokenAllocator.allocate (count : Nat) :
    IoM DatagramTokenAllocator (List Nat) := fun s =>
  if count = 0 then
    (.error ⟨.invalidInput, "datagram execution path declared zero readiness sources"⟩, s)
  else if usizeMax < s.nextToken + count then
    (.error ⟨.outOfMemory, "datagram token space exhausted"⟩, s)
  else (.ok (List.range' s.nextToken count), ⟨s.nextToken + count⟩)

theorem DatagramTokenAllocator.allocate_error {count : Nat}
    {s s' : DatagramTokenAllocator} {e : IoError}
    (h : allocate count s = (.error e, s')) : s' = s := by
  unfold allocate at h
  split at h
  · cases h
    rfl
  split at h
  · cases h
    rfl
  · cases h

/-- Tokens are granted in a row, and at least one. -/
theorem DatagramTokenAllocator.allocate_ok {count : Nat}
    {s s' : DatagramTokenAllocator} {granted : List Nat}
    (h : allocate count s = (.ok granted, s')) :
    granted ≠ [] ∧ granted = List.range' s.nextToken granted.length ∧
    s'.nextToken = s.nextToken + granted.length := by
  unfold allocate at h
  split at h
  · cases h
  rename_i positive
  split at h
  · cases h
  cases h
  rw [List.length_range']
  refine ⟨fun empty => positive ?_, rfl, rfl⟩
  simpa using congrArg List.length empty

/-! ### Route sets -/

structure DatagramRoute (ε : Type) where
  execution : ε
  tokens : List Nat

structure DatagramRouteSet (ε : Type) where
  routes : Map Endpoint (DatagramRoute ε) := ∅

/-- What a send works on: the routes of one association, the allocator and the outside. -/
structure Egress (ε ω : Type) where
  routes : DatagramRouteSet ε
  tokens : DatagramTokenAllocator
  world : ω

namespace DatagramRouteSet

variable {ε ω : Type} (execution : DatagramExecution ε ω)

def get (routes : DatagramRouteSet ε) (endpoint : Endpoint) : Option (DatagramRoute ε) :=
  routes.routes.lookup endpoint

def put (endpoint : Endpoint) (route : DatagramRoute ε) (routes : DatagramRouteSet ε) :
    DatagramRouteSet ε :=
  ⟨routes.routes.insert endpoint route⟩

def ownedTokens (routes : DatagramRouteSet ε) : List Nat :=
  routes.routes.entries.flatMap fun entry => entry.2.tokens

def ownsToken (routes : DatagramRouteSet ε) (token : Nat) : Bool :=
  routes.routes.entries.any fun entry => entry.2.tokens.contains token

/-- The first part of `send_with`: open a route, register it, and keep it. -/
def openRoute (openDatagram : Endpoint → Run ω ε) (endpoint : Endpoint) :
    Run (Egress ε ω) Unit := fun s =>
  if maxDatagramRoutes ≤ s.routes.routes.size then
    some (.error ⟨.quotaExceeded, "datagram route limit 32 reached"⟩, s)
  else
    match openDatagram endpoint s.world with
    | none => none
    | some (.error e, world) => some (.error e, { s with world })
    | some (.ok object, world) =>
        match s.tokens.allocate (execution.readinessSourceCount object) with
        | (.error e, tokens) => some (.error e, { s with tokens, world })
        | (.ok granted, tokens) =>
            match execution.registerReadiness granted (object, world) with
            | (.error e, (_, world)) => some (.error e, { s with tokens, world })
            | (.ok (), (object, world)) =>
                some (.ok (), ⟨s.routes.put endpoint ⟨object, granted⟩, tokens, world⟩)

/-- The second part: hand the datagram to the route's execution object. -/
def sendRoute (endpoint : Endpoint) (target : Target) (payload : Bytes) :
    Run (Egress ε ω) Unit := fun s =>
  match s.routes.get endpoint with
  | none => some (.error ⟨.other, "datagram route disappeared after successful insertion"⟩, s)
  | some route =>
      match execution.send target payload (route.execution, s.world) with
      | none => none
      | some (result, (object, world)) =>
          some (result,
            { s with routes := s.routes.put endpoint { route with execution := object }, world })

def sendWith (openDatagram : Endpoint → Run ω ε) (endpoint : Endpoint) (target : Target)
    (payload : Bytes) : Run (Egress ε ω) Unit := do
  fun s => Run.when (s.routes.get endpoint).isNone (openRoute execution openDatagram endpoint) s
  sendRoute execution endpoint target payload

/-- Receive from the route that owns a token; a token without owner has nothing to receive. -/
def receiveReady (token limit : Nat) :
    Run (DatagramRouteSet ε × ω) (Option ReceivedDatagram) := fun s =>
  match s.1.routes.findValue fun route => route.tokens.contains token with
  | none => some (.ok none, s)
  | some (endpoint, route) =>
      match execution.receive limit (route.execution, s.2) with
      | none => none
      | some (result, (object, world)) =>
          some (result, (s.1.put endpoint { route with execution := object }, world))

/-! ### What the route steps come to -/

variable {execution : DatagramExecution ε ω} {openDatagram : Endpoint → Run ω ε}
    {endpoint : Endpoint} {target : Target}
  {payload : Bytes}

/-- How opening a route ends: with a new route only if the object was opened and registered. -/
inductive Opening (execution : DatagramExecution ε ω) (openDatagram : Endpoint → Run ω ε)
    (endpoint : Endpoint)
    (s : Egress ε ω) : Except IoError Unit → Egress ε ω → Prop where
  | full (many : maxDatagramRoutes ≤ s.routes.routes.size) :
      Opening execution openDatagram endpoint s
        (.error ⟨.quotaExceeded, "datagram route limit 32 reached"⟩) s
  | notOpened {e : IoError} {world : ω} (refused : openDatagram endpoint s.world =
      some (.error e, world)) :
      Opening execution openDatagram endpoint s (.error e) { s with world }
  | noTokens {object : ε} {world : ω} {e : IoError} {tokens : DatagramTokenAllocator}
      (made : openDatagram endpoint s.world = some (.ok object, world))
      (refused : s.tokens.allocate (execution.readinessSourceCount object) = (.error e, tokens)) :
      Opening execution openDatagram endpoint s (.error e) { s with tokens, world }
  | notRegistered {object object' : ε} {world world' : ω} {granted : List Nat}
      {tokens : DatagramTokenAllocator} {e : IoError}
      (made : openDatagram endpoint s.world = some (.ok object, world))
      (allocated : s.tokens.allocate (execution.readinessSourceCount object) =
        (.ok granted, tokens))
      (refused : execution.registerReadiness granted (object, world) =
        (.error e, (object', world'))) :
      Opening execution openDatagram endpoint s (.error e) { s with tokens, world := world' }
  | opened {object object' : ε} {world world' : ω} {granted : List Nat}
      {tokens : DatagramTokenAllocator}
      (made : openDatagram endpoint s.world = some (.ok object, world))
      (allocated : s.tokens.allocate (execution.readinessSourceCount object) =
        (.ok granted, tokens))
      (registered : execution.registerReadiness granted (object, world) =
        (.ok (), (object', world'))) :
      Opening execution openDatagram endpoint s (.ok ())
        ⟨s.routes.put endpoint ⟨object', granted⟩, tokens, world'⟩

theorem openRoute_cases {s s' : Egress ε ω} {result : Except IoError Unit}
    (h : openRoute execution openDatagram endpoint s = some (result, s')) :
    Opening execution openDatagram endpoint s result s' := by
  unfold openRoute at h
  split at h
  · rename_i many
    cases h
    exact .full many
  split at h
  · cases h
  · rename_i refused
    cases h
    exact .notOpened refused
  · rename_i made
    split at h
    · rename_i refused
      cases h
      exact .noTokens made refused
    · rename_i allocated
      split at h
      · rename_i refused
        cases h
        exact .notRegistered made allocated refused
      · rename_i registered
        cases h
        exact .opened made allocated registered

/-- A datagram goes to the execution object of its route, if there is a route. -/
inductive Sending (execution : DatagramExecution ε ω) (endpoint : Endpoint)
    (target : Target) (payload : Bytes)
    (s : Egress ε ω) : Except IoError Unit → Egress ε ω → Prop where
  | noRoute (missing : s.routes.get endpoint = none) : Sending execution endpoint target payload s
      (.error ⟨.other, "datagram route disappeared after successful insertion"⟩) s
  | sent {route : DatagramRoute ε} {result : Except IoError Unit} {object : ε} {world : ω}
      (found : s.routes.get endpoint = some route)
      (handed : execution.send target payload (route.execution, s.world) =
        some (result, (object, world))) :
      Sending execution endpoint target payload s result
        { s with routes := s.routes.put endpoint { route with execution := object }, world }

theorem sendRoute_cases {s s' : Egress ε ω} {result : Except IoError Unit}
    (h : sendRoute execution endpoint target payload s = some (result, s')) :
    Sending execution endpoint target payload s result s' := by
  unfold sendRoute at h
  split at h
  · rename_i missing
    cases h
    exact .noRoute missing
  · rename_i found
    split at h
    · cases h
    · rename_i handed
      cases h
      exact .sent found handed

/-- A receive goes to the execution object of the route that owns the token, if one does. -/
inductive Receiving (execution : DatagramExecution ε ω) (token limit : Nat)
    (s : DatagramRouteSet ε × ω) :
    Except IoError (Option ReceivedDatagram) → DatagramRouteSet ε × ω → Prop where
  | noOwner (unowned : s.1.routes.findValue (fun route => route.tokens.contains token) = none) :
      Receiving execution token limit s (.ok none) s
  | received {endpoint : Endpoint} {route : DatagramRoute ε}
      {result : Except IoError (Option ReceivedDatagram)}
      {object : ε} {world : ω}
      (owner : s.1.routes.findValue (fun route => route.tokens.contains token) =
        some (endpoint, route))
      (taken : execution.receive limit (route.execution, s.2) = some (result, (object, world))) :
      Receiving execution token limit s result
        (s.1.put endpoint { route with execution := object }, world)

theorem receiveReady_cases {token limit : Nat} {s s' : DatagramRouteSet ε × ω}
    {result : Except IoError (Option ReceivedDatagram)}
    (h : receiveReady execution token limit s = some (result, s')) :
    Receiving execution token limit s result s' := by
  unfold receiveReady at h
  split at h
  · rename_i unowned
    cases h
    exact .noOwner unowned
  · rename_i owner
    split at h
    · cases h
    · rename_i taken
      cases h
      exact .received owner taken

end DatagramRouteSet

end Commeatus.Daemon
