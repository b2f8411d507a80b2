import Commeatus.Daemon.DatagramRecord

/-!
Which execution object a datagram is handed to.

The record of a run holds the packets that arrived and the datagrams that were
handed to an execution object, with the object. In every run of either
executor, a datagram in the record follows the packet that carried it, its plan
names an endpoint that carries UDP, and the object was opened for that
endpoint.
-/

namespace Commeatus.Daemon

open Commeatus.Lib Commeatus.Core

/-! ### The record -/

inductive Observation (ε α : Type) where
  | arrived (packet : α)
  | handed (object : ε) (target : Target) (payload : Bytes)

variable {ε ω α : Type}

/-- The same outbounds, with a record of every datagram handed to an execution object. -/
abbrev Outbounds.recording (outbounds : Outbounds ε ω) : Outbounds ε (ω × List (Observation ε α)) :=
  outbounds.recorded
    { sent := fun object target payload _ record => record ++ [.handed object target payload] }

/-! ### Where an execution object comes from -/

/-- An object that began as one of the given ones and was changed by its own calls only. -/
inductive DatagramExecution.Descends (execution : DatagramExecution ε ω) (Origin : ε → Prop) :
    ε → Prop where
  | opened {object : ε} (origin : Origin object) : Descends execution Origin object
  | registered {object : ε} (tokens : List Nat) (world : ω)
      (before : Descends execution Origin object) :
      Descends execution Origin (execution.registerReadiness tokens (object, world)).2.1
  | sent {object object' : ε} {target : Target} {payload : Bytes} {world world' : ω}
      {result : Except IoError Unit} (before : Descends execution Origin object)
      (sending : execution.send target payload (object, world) = some (result, (object', world'))) :
      Descends execution Origin object'
  | received {object object' : ε} {limit : Nat} {world world' : ω}
      {result : Except IoError (Option ReceivedDatagram)}
        (before : Descends execution Origin object)
      (receiving : execution.receive limit (object, world) = some (result, (object', world'))) :
      Descends execution Origin object'

/-- The objects that a call opens. -/
def OpenedBy (opening : Run ω ε) (object : ε) : Prop :=
  ∃ world world', opening world = some (.ok object, world')

/-- An object was made for an endpoint: a DIRECT association for DIRECT, and for a proxy endpoint an
execution that the provider registered for it has opened. -/
inductive OutboundRegistry.Made {δ π ρ : Type} (registry : OutboundRegistry π)
    (providers : DatagramProviders δ π ρ ω) : Endpoint → Opened δ ρ → Prop where
  | direct {association : δ}
      (descends : providers.direct.Descends (OpenedBy providers.openDirect) association) :
      Made registry providers .direct (.direct association)
  | proxy {id : EndpointId} {config : ProxyEndpointConfig π} {provider : π} {execution : ρ}
      (registered : registry.endpoints.lookup id = some config)
      (capable : config.datagram = some provider)
      (descends : providers.provided.Descends
        (OpenedBy (providers.openProvided provider)) execution) :
      Made registry providers (.proxy id) (.provided id execution)

/-- An object is made for an endpoint when it is opened and stays with it. -/
structure Outbounds.Identified (outbounds : Outbounds ε ω) (Made : Endpoint → ε → Prop) : Prop where
  opens : ∀ {endpoint world object world'},
    outbounds.openDatagram endpoint world = some (.ok object, world') → Made endpoint object
  registers : ∀ {endpoint} tokens s, Made endpoint s.1 →
    Made endpoint (outbounds.execution.registerReadiness tokens s).2.1
  sends : ∀ {endpoint target payload s result s'},
    outbounds.execution.send target payload s = some (result, s') → Made endpoint s.1 →
      Made endpoint s'.1
  receives : ∀ {endpoint limit s result s'},
    outbounds.execution.receive limit s = some (result, s') → Made endpoint s.1 → Made endpoint s'.1

/-- Every object the registry opens is made for the endpoint it was asked for. -/
theorem OutboundRegistry.identified {δ π ρ : Type} (registry : OutboundRegistry π)
    (providers : DatagramProviders δ π ρ ω) :
    (registry.outbounds providers).Identified (registry.Made providers) := by
  constructor
  · intro endpoint world object world' opened
    cases endpoint with
    | direct =>
        rcases Run.bind_eq_some opened with ⟨association, world₁, made, last⟩ | ⟨e, -, same⟩
        · cases last
          exact .direct (.opened ⟨world, _, made⟩)
        · cases same
    | proxy id =>
        simp only [OutboundRegistry.outbounds, DatagramProviders.openDatagram] at opened
        cases found : registry.endpoints.lookup id with
        | none =>
            rw [found] at opened
            cases opened
        | some config =>
            rw [found] at opened
            cases provider : config.datagram with
            | none =>
                simp only [provider] at opened
                cases opened
            | some provider' =>
                simp only [provider] at opened
                rcases Run.bind_eq_some opened with ⟨execution, world₁, made, last⟩ | ⟨e, -, same⟩
                · cases last
                  exact .proxy found provider (.opened ⟨world, _, made⟩)
                · cases same
  · rintro endpoint tokens ⟨object, world⟩ made
    cases made with
    | direct descends => exact .direct (.registered tokens world descends)
    | proxy registered capable descends =>
        exact .proxy registered capable (.registered tokens world descends)
  · rintro endpoint target payload ⟨object, world⟩ result s' sent made
    cases made with
    | direct descends =>
        obtain ⟨out, inner, same⟩ := Option.map_eq_some_iff.mp sent
        cases same
        exact .direct (descends.sent inner)
    | proxy registered capable descends =>
        obtain ⟨out, inner, same⟩ := Option.map_eq_some_iff.mp sent
        cases same
        exact .proxy registered capable (descends.sent inner)
  · rintro endpoint limit ⟨object, world⟩ result s' received made
    cases made with
    | direct descends =>
        obtain ⟨out, inner, same⟩ := Option.map_eq_some_iff.mp received
        cases same
        exact .direct (descends.received inner)
    | proxy registered capable descends =>
        obtain ⟨out, inner, same⟩ := Option.map_eq_some_iff.mp received
        cases same
        exact .proxy registered capable (descends.received inner)

/-! ### Route sets -/

/-- Each route holds an object of its own endpoint. -/
def DatagramRouteSet.Keyed (Made : Endpoint → ε → Prop) (routes : DatagramRouteSet ε) : Prop :=
  ∀ endpoint route, routes.get endpoint = some route → Made endpoint route.execution

variable {Made : Endpoint → ε → Prop} {outbounds : Outbounds ε ω}

theorem DatagramRouteSet.keyed_empty : DatagramRouteSet.Keyed Made ({} : DatagramRouteSet ε) := by
  intro endpoint route none
  cases none

theorem DatagramRouteSet.Keyed.put {routes : DatagramRouteSet ε} (keyed : routes.Keyed Made)
    {endpoint : Endpoint} {route : DatagramRoute ε} (own : Made endpoint route.execution) :
    (routes.put endpoint route).Keyed Made := by
  intro endpoint' route' found
  rw [DatagramRouteSet.get, DatagramRouteSet.put, Map.lookup_insert] at found
  split at found
  · rename_i same
    cases found
    exact same ▸ own
  · exact keyed endpoint' route' found

namespace Egress

/-- The record, seen from a send. -/
def record (s : Egress ε (ω × List (Observation ε α))) : List (Observation ε α) := s.world.2

end Egress

open DatagramRouteSet

/-- Opening a route hands nothing over, and keeps the routes with their endpoints. -/
theorem openRoute_record (identified : outbounds.Identified Made) {endpoint : Endpoint}
    {s s' : Egress ε (ω × List (Observation ε α))} {result : Except IoError Unit}
    (opened : openRoute outbounds.recording.execution outbounds.recording.openDatagram endpoint s =
      some (result, s')) :
    s'.record = s.record ∧ (s.routes.Keyed Made → s'.routes.Keyed Made) := by
  refine ⟨openRoute_recorded (fun _ _ => rfl) opened, fun keyed => ?_⟩
  cases openRoute_cases opened with
  | full many => exact keyed
  | notOpened refused => exact keyed
  | noTokens made refused => exact keyed
  | notRegistered made allocated refused => exact keyed
  | @opened object _ world _ granted _ made allocated registered =>
      have own := identified.opens (openDatagram_recorded made).1
      have kept := identified.registers granted (object, world.1) own
      rw [(registerReadiness_recorded registered).1] at kept
      exact keyed.put kept

/-- A send hands the datagram to the object of its endpoint. -/
theorem sendRoute_record (identified : outbounds.Identified Made) {endpoint : Endpoint}
    {target : Target} {payload : Bytes} {s s' : Egress ε (ω × List (Observation ε α))}
    {result : Except IoError Unit} (keyed : s.routes.Keyed Made)
    (sent : sendRoute outbounds.recording.execution endpoint target payload s = some (result, s')) :
    s'.routes.Keyed Made ∧ (s'.record = s.record ∨
      ∃ object, Made endpoint object ∧
        s'.record = s.record ++ [.handed object target payload]) := by
  cases sendRoute_cases sent with
  | noRoute missing => exact ⟨keyed, .inl rfl⟩
  | @sent route _ _ _ found handed =>
      have own := keyed endpoint route found
      obtain ⟨inner, record⟩ := send_recorded handed
      exact ⟨keyed.put (identified.sends inner own), .inr ⟨route.execution, own, record⟩⟩

theorem sendWith_record (identified : outbounds.Identified Made) {endpoint : Endpoint}
    {target : Target} {payload : Bytes} {s s' : Egress ε (ω × List (Observation ε α))}
    {result : Except IoError Unit} (keyed : s.routes.Keyed Made)
    (sent : sendWith outbounds.recording.execution outbounds.recording.openDatagram
      endpoint target payload s =
      some (result, s')) :
    s'.routes.Keyed Made ∧ (s'.record = s.record ∨
      ∃ object, Made endpoint object ∧
        s'.record = s.record ++ [.handed object target payload]) := by
  have opening : ∀ {s₁ : Egress ε (ω × List (Observation ε α))} {result : Except IoError Unit},
      Run.when (s.routes.get endpoint).isNone
        (openRoute outbounds.recording.execution outbounds.recording.openDatagram endpoint) s =
          some (result, s₁) →
        s₁.record = s.record ∧ s₁.routes.Keyed Made := by
    intro s₁ result opened
    unfold Run.when at opened
    split at opened
    · obtain ⟨same, kept⟩ := openRoute_record identified opened
      exact ⟨same, kept keyed⟩
    · cases opened
      exact ⟨rfl, keyed⟩
  rcases Run.bind_eq_some sent with ⟨_, s₁, opened, last⟩ | ⟨e, opened, -⟩
  · obtain ⟨same, keyed₁⟩ := opening opened
    rw [← same]
    exact sendRoute_record identified keyed₁ last
  · obtain ⟨same, keyed₁⟩ := opening opened
    exact ⟨keyed₁, .inl same⟩

/-- A datagram whose route cannot be opened is handed to nothing. -/
theorem sendWith_refused (identified : outbounds.Identified Made) {endpoint : Endpoint}
    (target : Target) (payload : Bytes) {s s' : Egress ε (ω × List (Observation ε α))} {e : IoError}
    (none : s.routes.get endpoint = none)
    (refused : openRoute outbounds.recording.execution outbounds.recording.openDatagram endpoint s =
      some (.error e, s')) :
    sendWith outbounds.recording.execution outbounds.recording.openDatagram
      endpoint target payload s =
        some (.error e, s') ∧ s'.record = s.record := by
  refine ⟨Run.bind_of_error ?_, (openRoute_record identified refused).1⟩
  rw [none]
  exact refused

/-- Receiving hands nothing over. -/
theorem receiveReady_record (identified : outbounds.Identified Made) {token limit : Nat}
    {s s' : DatagramRouteSet ε × (ω × List (Observation ε α))}
    {result : Except IoError (Option ReceivedDatagram)}
    (received : receiveReady outbounds.recording.execution token limit s = some (result, s')) :
    s'.2.2 = s.2.2 ∧ (s.1.Keyed Made → s'.1.Keyed Made) := by
  cases receiveReady_cases received with
  | noOwner unowned => exact ⟨rfl, id⟩
  | @received endpoint route _ _ _ owner taken =>
      obtain ⟨found, -⟩ := Map.lookup_of_findValue owner
      obtain ⟨inner, record⟩ := receive_recorded taken
      exact ⟨record, fun keyed =>
        keyed.put (identified.receives inner (keyed endpoint route found))⟩

/-! ### Justified records -/

/-- The plan for the target names the endpoint, and the endpoint carries UDP. -/
def Approved (runtime : Runtime) (outbounds : Outbounds ε ω) (endpoint : Endpoint)
    (target : Target) : Prop :=
  (∀ id, planAction runtime target .udp id = .route endpoint) ∧
    (outbounds.capabilities endpoint).any EndpointCapabilities.supportsUdp = true

/-- The plan rejects the target, or its endpoint carries no UDP, or has no route and cannot be
given one. -/
inductive Refused (runtime : Runtime) (outbounds : Outbounds ε ω) (target : Target) (id : FlowId)
    (s : Egress ε ω) : Prop
  | rejected {reason : RejectReason} : planAction runtime target .udp id = .reject reason →
      Refused runtime outbounds target id s
  | unsupported {endpoint : Endpoint} : planAction runtime target .udp id = .route endpoint →
      (outbounds.capabilities endpoint).any EndpointCapabilities.supportsUdp = false →
        Refused runtime outbounds target id s
  | full {endpoint : Endpoint} : planAction runtime target .udp id = .route endpoint →
      s.routes.get endpoint = none → maxDatagramRoutes ≤ s.routes.routes.size →
        Refused runtime outbounds target id s
  | unopened {endpoint : Endpoint} {e : IoError} {s' : Egress ε ω} :
      planAction runtime target .udp id = .route endpoint → s.routes.get endpoint = none →
        openRoute outbounds.execution outbounds.openDatagram endpoint s = some (.error e, s') →
          Refused runtime outbounds target id s

theorem planned_of_select {runtime : Runtime} {target : Target} {id : FlowId} {endpoint : Endpoint}
    (selected : outbounds.select runtime target id = some endpoint) :
    planAction runtime target .udp id = .route endpoint ∧
      (outbounds.capabilities endpoint).any EndpointCapabilities.supportsUdp = true := by
  unfold Outbounds.select at selected
  split at selected
  · cases selected
  · rename_i planned
    split at selected
    · rename_i carries
      cases selected
      exact ⟨planned, carries⟩
    · cases selected

theorem approved_of_select {runtime : Runtime} {target : Target} {id : FlowId} {endpoint : Endpoint}
    (selected : outbounds.select runtime target id = some endpoint) :
    Approved runtime outbounds endpoint target := by
  obtain ⟨planned, carries⟩ := planned_of_select selected
  exact ⟨fun id' => (planAction_congr rfl rfl .udp id' id).trans planned, carries⟩

/-- A datagram that is refused though an endpoint is selected for it finds no route. -/
theorem Refused.of_select {runtime : Runtime} {target : Target} {id : FlowId} {s : Egress ε ω}
    (refused : Refused runtime outbounds target id s) {endpoint : Endpoint}
    (selected : outbounds.select runtime target id = some endpoint) :
    s.routes.get endpoint = none ∧
      ∃ e s', openRoute outbounds.execution outbounds.openDatagram endpoint s =
        some (.error e, s') := by
  obtain ⟨planned, carries⟩ := planned_of_select selected
  cases refused with
  | rejected other =>
      rw [planned] at other
      cases other
  | unsupported same lacks =>
      rw [planned] at same
      cases same
      rw [carries] at lacks
      cases lacks
  | full same none bound =>
      rw [planned] at same
      cases same
      exact ⟨none, _, s, if_pos bound⟩
  | unopened same none fails =>
      rw [planned] at same
      cases same
      exact ⟨none, _, _, fails⟩

/-- Each datagram that was handed over comes right behind the packet that permits it. -/
def Justified (Q : α → ε → Target → Bytes → Prop) (record : List (Observation ε α)) : Prop :=
  ∀ before object target payload after, record = before ++ .handed object target payload :: after →
    ∃ earlier packet, before = earlier ++ [.arrived packet] ∧ Q packet object target payload

variable {Q : α → ε → Target → Bytes → Prop} {record : List (Observation ε α)}

theorem justified_nil : Justified Q ([] : List (Observation ε α)) := by
  intro before object target payload after none
  cases before <;> cases none

/-- The last entry of a list, or an entry before it. -/
theorem concat_eq_append_cons {β : Type} {xs before after : List β} {x y : β}
    (split : xs ++ [x] = before ++ y :: after) :
    (x = y ∧ xs = before) ∨ ∃ after', xs = before ++ y :: after' := by
  rcases List.eq_nil_or_concat after with rfl | ⟨after', last, rfl⟩
  · obtain ⟨same, one⟩ := List.append_inj' split rfl
    cases one
    exact .inl ⟨rfl, same⟩
  · have assoc : xs ++ [x] = (before ++ y :: after') ++ [last] := by
      simpa using split
    exact .inr ⟨after', (List.append_inj' assoc rfl).1⟩

theorem Justified.arrived (h : Justified Q record) (packet : α) :
    Justified Q (record ++ [.arrived packet]) := by
  intro before object target payload after entry
  rcases concat_eq_append_cons entry with ⟨other, -⟩ | ⟨after', earlier⟩
  · cases other
  · exact h before object target payload after' earlier

theorem Justified.handed {packet : α} (h : Justified Q (record ++ [.arrived packet])) {object : ε}
    {target : Target} {payload : Bytes} (permitted : Q packet object target payload) :
    Justified Q (record ++ [.arrived packet] ++ [.handed object target payload]) := by
  intro before object' target' payload' after entry
  rcases concat_eq_append_cons entry with ⟨same, rfl⟩ | ⟨after', earlier⟩
  · cases same
    exact ⟨record, packet, rfl, permitted⟩
  · exact h before object' target' payload' after' earlier

/-! ### The SOCKS5 association -/

namespace Socks5Udp

/-- The packet that a read has given. -/
def packets : Except IoError (Bytes × SocketAddr) → List (Observation ε (Bytes × SocketAddr))
  | .ok packet => [.arrived packet]
  | .error _ => []

/-- The same outside, with a record of every packet of the relay socket. -/
abbrev Env.recording (env : Env ω) : Env (ω × List (Observation ε (Bytes × SocketAddr))) :=
  env.recorded { arrived := fun answer record => record ++ packets answer }

/-- The packet carries the datagram, and its plan names the endpoint that the object was made
for. -/
def Permits (runtime : Runtime) (outbounds : Outbounds ε ω) (Made : Endpoint → ε → Prop)
    (packet : Bytes × SocketAddr) (object : ε) (target : Target) (payload : Bytes) : Prop :=
  Socks5.parseUdpRequest packet.1 = .ok (target, payload) ∧
    ∃ endpoint, Made endpoint object ∧ Approved runtime outbounds endpoint target

abbrev Recorded (ε ω : Type) : Type := Association ε (ω × List (Observation ε (Bytes × SocketAddr)))

/-- What the record and the routes are determined by. -/
def trail (s : Recorded ε ω) : List (Observation ε (Bytes × SocketAddr)) × DatagramRouteSet ε :=
  (s.world.2, s.routes)

variable (env : Env ω) (runtime : Runtime)

theorem touch_trail : Run.Keeps trail (touch (ε := ε) env.recording) := by
  intro s result s' h
  cases h
  rfl

theorem pollEvents_trail : Run.Keeps trail (pollEvents (ε := ε) env.recording) := by
  intro s result s' polled
  have record : s'.world.2 = s.world.2 :=
    pollEvents_world (W := fun world => world.2 = s.world.2) (fun same => same)
      (fun _ _ same => same) (fun _ _ same => same)
      polled rfl
  have routes : s'.routes = s.routes := by rw [pollEvents_fields polled]
  exact Prod.ext record routes

theorem sendOrQueueClientReply_trail (packet : Bytes) (client : SocketAddr) :
    Run.Keeps trail (sendOrQueueClientReply (ε := ε) env.recording packet client) := by
  intro s result s' h
  unfold sendOrQueueClientReply at h
  split at h
  · rename_i answer
    cases h
    exact Prod.ext (congrArg (·.2.2) answer.symm) rfl
  · rename_i answer
    have kept := congrArg (·.2.2) answer.symm
    split at h
    · split at h
      · cases h
        exact Prod.ext kept rfl
      · cases h
        exact Prod.ext kept rfl
    · cases h
      exact Prod.ext kept rfl

theorem flushPendingClientReplies_trail (rounds : Nat) :
    Run.Keeps trail (flushPendingClientReplies (ε := ε) env.recording rounds) := by
  have round : Run.Keeps (fun s : Recorded ε ω × Bool => trail s.1)
      (Run.loop rounds (flushRound env.recording)) := by
    refine .loop fun s => ?_
    unfold flushRound
    split
    · rfl
    split
    · rename_i answer
      exact Prod.ext (congrArg (·.2.2) answer.symm) rfl
    · rename_i answer
      have kept := congrArg (·.2.2) answer.symm
      split
      · exact Prod.ext kept rfl
      split
      · exact Prod.ext kept rfl
      · exact Prod.ext kept rfl
  exact .zoom round fun s t kept => kept

theorem reply_trail (received : ReceivedDatagram) :
    Run.Keeps trail (reply (ε := ε) env.recording received) := by
  intro s result s' h
  unfold reply at h
  split at h
  · cases h
    rfl
  split at h
  · cases h
    rfl
  · refine Run.Keeps.bind ?_ (fun sent => ?_) s result s' h
    · exact sendOrQueueClientReply_trail env _ _
    · exact (touch_trail env).when

theorem updateRelayInterest_trail :
    Run.Keeps trail (updateRelayInterest (ε := ε) env.recording) := by
  intro s result s' h
  unfold updateRelayInterest at h
  dsimp only at h
  split at h
  · split at h
    · rename_i answer
      cases h
      exact Prod.ext (congrArg (·.2.2) answer.symm) rfl
    · rename_i answer
      cases h
      exact Prod.ext (congrArg (·.2.2) answer.symm) rfl
  · cases h
    rfl

theorem accept_trail (source : SocketAddr) :
    Run.Keeps trail (accept (ε := ε) env.recording source) := by
  refine Run.Keeps.bind ?_ fun _ => touch_trail env
  exact Run.Keeps.modify fun _ => rfl

/-- The record is justified, and the routes hold objects of their own endpoints. -/
structure Accounted (runtime : Runtime) (outbounds : Outbounds ε ω) (Made : Endpoint → ε → Prop)
    (s : Recorded ε ω) : Prop where
  justified : Justified (Permits runtime outbounds Made) s.world.2
  keyed : s.routes.Keyed Made

theorem Accounted.of_trail {s s' : Recorded ε ω} (same : trail s' = trail s)
    (h : Accounted runtime outbounds Made s) : Accounted runtime outbounds Made s' := by
  obtain ⟨record, routes⟩ := Prod.mk.inj same
  constructor
  · rw [record]
    exact h.justified
  · rw [routes]
    exact h.keyed

theorem Accounted.preserved {β : Type} {x : Run (Recorded ε ω) β} (kept : Run.Keeps trail x) :
    Run.Preserves (Accounted runtime outbounds Made) x :=
  kept.preserves fun _ _ same h => h.of_trail runtime same

theorem recvFrom_arrived {limit : Nat} {packet : Bytes} {source : SocketAddr}
    {s s' : ω × List (Observation ε (Bytes × SocketAddr))}
    (answer : env.recording.recvFrom limit s = (.ok (packet, source), s')) :
    s'.2 = s.2 ++ [.arrived (packet, source)] :=
  (IoM.of_noted answer).2

theorem recvFrom_failed {limit : Nat} {e : IoError}
    {s s' : ω × List (Observation ε (Bytes × SocketAddr))}
    (answer : env.recording.recvFrom limit s = (.error e, s')) : s'.2 = s.2 :=
  (IoM.of_noted answer).2.trans (List.append_nil _)

variable (identified : outbounds.Identified Made)

include identified

/-- A packet is handed over as its plan says, or not at all. -/
theorem handleUdpClientPacket_accounted {packet : Bytes} {source : SocketAddr}
    {earlier : List (Observation ε (Bytes × SocketAddr))} {s s' : Recorded ε ω}
    {result : Except IoError Bool}
    (h : Accounted runtime outbounds Made s)
    (last : s.world.2 = earlier ++ [.arrived (packet, source)])
    (handled : handleUdpClientPacket env.recording runtime outbounds.recording packet s =
      some (result, s')) :
    Accounted runtime outbounds Made s' := by
  cases handleUdpClientPacket_cases env.recording runtime outbounds.recording handled with
  | malformed parsed => exact h
  | unplanned parsed selected => exact ⟨h.justified, h.keyed⟩
  | @routed target payload endpoint result' out parsed selected sending =>
      have approved : Approved runtime outbounds endpoint target :=
        approved_of_select (show outbounds.select runtime target _ = some endpoint from selected)
      obtain ⟨keyed, same | ⟨object, own, entry⟩⟩ := sendWith_record identified h.keyed sending
      · refine ⟨?_, keyed⟩
        show Justified _ out.record
        rw [same]
        exact h.justified
      · refine ⟨?_, keyed⟩
        show Justified _ out.record
        have record : out.record = s.world.2 ++ [.handed object target payload] := entry
        rw [record, last]
        refine Justified.handed ?_ ⟨parsed, endpoint, own, approved⟩
        rw [← last]
        exact h.justified

/-- A packet that is refused is handed to nothing, and the association goes on. -/
theorem handleUdpClientPacket_refused {packet payload : Bytes} {target : Target} {s : Recorded ε ω}
    (parsed : Socks5.parseUdpRequest packet = .ok (target, payload))
    (refused : Refused runtime outbounds.recording target (env.nextFlowId s.world.1).1
      { s.egress with world := (env.recording.nextFlowId s.world).2 }) :
    ∃ s', handleUdpClientPacket env.recording runtime outbounds.recording packet s =
      some (.ok false, s') ∧
      s'.world.2 = s.world.2 := by
  unfold handleUdpClientPacket
  rw [parsed]
  dsimp only
  split
  · exact ⟨_, rfl, rfl⟩
  · rename_i endpoint selected
    obtain ⟨none, e, out, fails⟩ := refused.of_select selected
    obtain ⟨sent, record⟩ := sendWith_refused identified target payload none fails
    exact ⟨_, Run.succeeds_zoom_of_error sent, record⟩

theorem receiveClient_accounted (controlIp : IpAddr) (burst : Nat)
    (outbound : List Nat) (writable : Bool) :
    Run.Preserves (Accounted runtime outbounds Made)
      (receiveClient env.recording runtime outbounds.recording controlIp burst
        outbound writable) := by
  intro s result s' received h
  have next :
    ∀ {packet : Bytes} {source : SocketAddr}
      {world : ω × List (Observation ε (Bytes × SocketAddr))},
      env.recording.recvFrom maxUdpPacket s.world = (.ok (packet, source), world) →
        Accounted runtime outbounds Made { s with world } := by
    intro packet source world answer
    refine ⟨?_, h.keyed⟩
    rw [recvFrom_arrived env answer]
    exact h.justified.arrived _
  have still : ∀ {e : IoError} {world : ω × List (Observation ε (Bytes × SocketAddr))},
      env.recording.recvFrom maxUdpPacket s.world = (.error e, world) →
        Accounted runtime outbounds Made { s with world } := by
    intro e world answer
    refine ⟨?_, h.keyed⟩
    rw [recvFrom_failed env answer]
    exact h.justified
  cases receiveClient_cases env.recording runtime outbounds.recording received with
  | foreign arrived other => exact next arrived
  | refused arrived own handled =>
      exact handleUdpClientPacket_accounted env runtime identified (next arrived)
        (recvFrom_arrived env arrived) handled
  | @accepted packet source _ _ _ arrived own handled accepts =>
      have kept :=
        handleUdpClientPacket_accounted env runtime identified (next arrived)
          (recvFrom_arrived env arrived) handled
      exact kept.of_trail runtime (accept_trail env source _ _ _ accepts)
  | drained answer blocks => exact still answer
  | interrupted answer again => exact still answer
  | failed answer hard => exact still answer

theorem receiveOutbound_accounted (token : Nat) :
    Run.Preserves (Accounted runtime outbounds Made)
      (receiveOutbound (outbounds.recording (α := Bytes × SocketAddr)) token) := by
  intro s result s' received h
  obtain ⟨out, got, rfl⟩ := Run.of_zoom received
  obtain ⟨record, keyed⟩ := receiveReady_record identified got
  refine ⟨?_, keyed h.keyed⟩
  show Justified _ out.2.2
  rw [record]
  exact h.justified

theorem step_accounted {controlIp : IpAddr} {rounds : Nat} {point point' : Point}
    {s s' : Recorded ε ω}
    (h : Accounted runtime outbounds Made s)
    (stepped : step env.recording runtime outbounds.recording controlIp rounds point s =
      some (point', s')) :
    Accounted runtime outbounds Made s' := by
  have kept : Run.Preserves (Accounted runtime outbounds Made)
      (proceed env.recording runtime outbounds.recording controlIp rounds point) := by
    match point with
    | .top => exact Accounted.preserved runtime (pollEvents_trail env)
    | .client 0 _ _ => exact .pure _
    | .client (burst + 1) outbound writable =>
        exact receiveClient_accounted env runtime identified controlIp burst outbound writable
    | .outbound [] _ _ => exact .pure _
    | .outbound (_ :: _) 0 _ => exact .pure _
    | .outbound (token :: tokens) (burst + 1) writable =>
        refine (receiveOutbound_accounted runtime identified token).bind fun received => ?_
        cases received with
        | none => exact .pure _
        | some received =>
            exact (Accounted.preserved runtime (reply_trail env received)).bind fun _ => .pure _
    | .replies writable =>
        have rest : Run.Keeps trail (do
            updateRelayInterest (ε := ε) env.recording
            pure Point.top) := (updateRelayInterest_trail env).bind fun _ => .pure _
        cases writable with
        | false => exact Accounted.preserved runtime rest
        | true =>
            exact Accounted.preserved runtime <|
              (flushPendingClientReplies_trail env rounds).bind fun _ =>
                (touch_trail env).when.bind fun _ => rest
    | .returned _ => exact .pure _
  rcases step_cases env.recording runtime outbounds.recording
    stepped with proceeded | ⟨e, -, proceeded⟩
  · exact kept s _ _ proceeded h
  · exact kept s _ _ proceeded h

theorem Reaches.accounted {controlIp : IpAddr} {hint : Socks5.UdpClientHint}
    {world : ω} {point : Point}
    {s : Recorded ε ω}
    (reached : Reaches env.recording runtime outbounds.recording (fun _ _ => True) controlIp
      (established env.recording controlIp hint (world, [])) point s) :
    Accounted runtime outbounds Made s := by
  refine reached.invariant _ _ _ (I := fun _ s => Accounted runtime outbounds Made s) ?_ ?_
  · exact ⟨justified_nil, keyed_empty⟩
  · intro rounds point s point' s' accounted _ stepped
    exact step_accounted env runtime identified accounted stepped

end Socks5Udp

/-! ### The transparent listener -/

namespace TransparentUdp

/-- The datagram that a read has given, if its message carries one. -/
def datagrams : Except RecvError Message → List (Observation ε ReceivedTransparentDatagram)
  | .ok message => message.datagram.toOption.toList.map .arrived
  | .error _ => []

/-- The same outside, with a record of every datagram of the listening socket. -/
abbrev Env.recording (env : Env ω) : Env (ω × List (Observation ε ReceivedTransparentDatagram)) :=
  env.recorded { arrived := fun answer record => record ++ datagrams answer }

/-- The datagram is the one that was received, and its plan names the endpoint that the object was
made for. -/
def Permits (runtime : Runtime) (outbounds : Outbounds ε ω) (Made : Endpoint → ε → Prop)
    (received : ReceivedTransparentDatagram) (object : ε) (target : Target)
    (payload : Bytes) : Prop :=
  received.target = target ∧ received.payload = payload ∧
    ∃ endpoint, Made endpoint object ∧ Approved runtime outbounds endpoint target

abbrev Recorded (ε ω : Type) : Type :=
  Listener ε (ω × List (Observation ε ReceivedTransparentDatagram))

/-- Every client's routes hold objects of their own endpoints. -/
def Housed (Made : Endpoint → ε → Prop) (clients : Map SocketAddr (ClientState ε)) : Prop :=
  ∀ client state, clients.lookup client = some state → state.routes.Keyed Made

theorem housed_empty : Housed Made (∅ : Map SocketAddr (ClientState ε)) := by
  intro client state none
  cases none

theorem Housed.insert {clients : Map SocketAddr (ClientState ε)} (h : Housed Made clients)
    (client : SocketAddr) {state : ClientState ε} (keyed : state.routes.Keyed Made) :
    Housed Made (clients.insert client state) := by
  intro client' state' found
  rw [Map.lookup_insert] at found
  split at found
  · cases found
    exact keyed
  · exact h client' state' found

theorem Housed.erase {clients : Map SocketAddr (ClientState ε)} (h : Housed Made clients)
    (client : SocketAddr) : Housed Made (clients.erase client) := by
  intro client' state' found
  by_cases same : client' = client
  · subst same
    rw [AList.lookup_erase] at found
    cases found
  · rw [AList.lookup_erase_ne same] at found
    exact h client' state' found

/-- The record is as given, and the clients are in order. -/
structure Stands (Made : Endpoint → ε → Prop)
    (log : List (Observation ε ReceivedTransparentDatagram))
    (s : Recorded ε ω) : Prop where
  record : s.world.2 = log
  housed : Housed Made s.clients

variable {log : List (Observation ε ReceivedTransparentDatagram)}

theorem Stands.dropClient {s : Recorded ε ω} (h : Stands Made log s) (client : SocketAddr) :
    Stands Made log (dropClient s client) := by
  unfold TransparentUdp.dropClient
  split
  · exact h
  · exact ⟨h.record, h.housed.erase client⟩

theorem Stands.dropClients {s : Recorded ε ω} (h : Stands Made log s) (clients : List SocketAddr) :
    Stands Made log (clients.foldl TransparentUdp.dropClient s) := by
  induction clients generalizing s with
  | nil => exact h
  | cons client clients ih => exact ih (h.dropClient client)

theorem Stands.cleanupIdleClients {s : Recorded ε ω} (h : Stands Made log s) (now : Nat) :
    Stands Made log (cleanupIdleClients now s) :=
  h.dropClients _

variable (env : Env ω) (runtime : Runtime)

theorem instant_stands : Run.Preserves (Stands Made log) (instant (ε := ε) env.recording) := by
  intro s result s' h stands
  cases h
  exact ⟨stands.record, stands.housed⟩

theorem insertClient_stands (client : SocketAddr) :
    Run.Preserves (Stands Made log) (insertClient (ε := ε) env.recording client) := by
  refine (instant_stands env).bind fun now => ?_
  refine Run.Preserves.bind (.modify fun s h => h.cleanupIdleClients now) fun _ => ?_
  intro s result s' h stands
  dsimp only at h
  split at h
  · cases h
    exact stands
  · cases h
    exact ⟨stands.record, stands.housed.insert client keyed_empty⟩

/-- What the send of a received datagram starts from. -/
def inboundEgress (env : Env ω) (received : ReceivedTransparentDatagram)
    (s : Listener ε ω) : Egress ε ω :=
  match s.clients.lookup received.client with
  | some state => ⟨state.routes, s.tokens, (env.nextFlowId s.world).2⟩
  | none => ⟨{}, s.tokens, (env.now (env.now (env.nextFlowId s.world).2).2).2⟩

theorem touch_stands (client : SocketAddr) :
    Run.Preserves (Stands Made log) (touch (ε := ε) env.recording client) := by
  intro s result s' h stands
  unfold touch at h
  split at h
  · cases h
    exact stands
  · rename_i state found
    cases h
    exact ⟨stands.record, stands.housed.insert client (stands.housed client state found)⟩

theorem pollEvents_stands :
    Run.Preserves (Stands Made log) (pollEvents (ε := ε) env.recording) := by
  refine (instant_stands env).bind fun now => ?_
  intro s result s' h stands
  dsimp only at h
  split at h
  · rename_i answer
    have kept := congrArg (·.2.2) answer.symm
    split at h
    · cases h
      exact ⟨kept.trans stands.record, stands.housed⟩
    · cases h
      exact ⟨kept.trans stands.record, stands.housed⟩
  · rename_i events world answer
    have kept := congrArg (·.2.2) answer.symm
    cases h
    have polled := Stands.cleanupIdleClients
      (s := { s with world := (env.recording.now world).2 })
        ⟨kept.trans stands.record, stands.housed⟩
      (env.recording.now world).1
    exact ⟨polled.record, polled.housed⟩

/-- A datagram that is received is in the record; nothing else is. -/
theorem recvOriginalDatagram_record {s s' : ω × List (Observation ε ReceivedTransparentDatagram)}
    {result : Except IoError (Option ReceivedTransparentDatagram)}
    (h : recvOriginalDatagram env.recording s = (result, s')) :
    (∃ received, result = .ok (some received) ∧ s'.2 = s.2 ++ [.arrived received]) ∨
      ((∀ received, result ≠ .ok (some received)) ∧ s'.2 = s.2) := by
  cases recvOriginalDatagram_cases env.recording h with
  | again answer | interrupted answer | failed answer =>
      exact .inr ⟨nofun, (recvmsg_recorded answer).2.trans (List.append_nil _)⟩
  | @invalid message e _ answer checked =>
      have none : datagrams (ε := ε) (.ok message) = [] := by
        rw [datagrams, checked]
        rfl
      refine .inr ⟨nofun, (recvmsg_recorded answer).2.trans ?_⟩
      show s.2 ++ datagrams (.ok message) = s.2
      rw [none, List.append_nil]
  | @received message datagram _ answer checked =>
      have one : datagrams (ε := ε) (.ok message) = [.arrived datagram] := by
        rw [datagrams, checked]
        rfl
      exact .inl ⟨datagram, rfl, (recvmsg_recorded answer).2.trans (congrArg (s.2 ++ ·) one)⟩

theorem dropClients_rest (clients : List SocketAddr) (s : Recorded ε ω) :
    (clients.foldl dropClient s).tokens = s.tokens ∧
    (clients.foldl dropClient s).world = s.world := by
  induction clients generalizing s with
  | nil => exact ⟨rfl, rfl⟩
  | cons client clients ih =>
      obtain ⟨tokens, world⟩ := ih (dropClient s client)
      have one : (dropClient s client).tokens = s.tokens ∧
          (dropClient s client).world = s.world := by
        unfold dropClient
        split
        · exact ⟨rfl, rfl⟩
        · exact ⟨rfl, rfl⟩
      exact ⟨tokens.trans one.1, world.trans one.2⟩

/-- A client that is inserted has no routes yet; nothing else happens to the tokens and the
record. -/
theorem insertClient_cases (client : SocketAddr) (s : Recorded ε ω) :
    (∃ s', insertClient env.recording client s = some (.ok false, s') ∧ s'.world.2 = s.world.2) ∨
      ∃ s' lastActivity, insertClient env.recording client s = some (.ok true, s') ∧
        s'.clients.lookup client = some { lastActivity } ∧ s'.tokens = s.tokens ∧
          s'.world = (env.recording.now (env.recording.now s.world).2).2 := by
  obtain ⟨tokens, world⟩ := dropClients_rest
    ((s.clients.entries.filter fun entry =>
      clientIdleTimeout ≤ (env.recording (ε := ε).now s.world).1 - entry.2.lastActivity).map (·.1))
    { s with world := (env.recording.now s.world).2 }
  by_cases full : maxClients ≤ (cleanupIdleClients (env.recording (ε := ε).now s.world).1
      { s with world := (env.recording.now s.world).2 }).clients.size
  · refine .inl ⟨_, if_pos full, ?_⟩
    have kept := congrArg Prod.snd world
    exact kept
  · refine .inr ⟨_, _, if_neg full, AList.lookup_insert _, tokens, ?_⟩
    exact congrArg (fun w => (env.recording.now w).2) world

/-- What the record and the clients are determined by. -/
def trail (s : Recorded ε ω) :
    List (Observation ε ReceivedTransparentDatagram) × Map SocketAddr (ClientState ε) :=
  (s.world.2, s.clients)

theorem stands_of_trail {β : Type} {x : Run (Recorded ε ω) β} (kept : Run.Keeps trail x) :
    Run.Preserves (Stands Made log) x := by
  refine kept.preserves fun s s' same h => ?_
  obtain ⟨record, clients⟩ := Prod.mk.inj same
  exact ⟨record.trans h.record, clients ▸ h.housed⟩

theorem openReplySocket_trail (source : SocketAddr) :
    Run.Keeps trail (openReplySocket (ε := ε) env.recording source) := by
  refine Run.Keeps.bind ?_ fun now => Run.Keeps.bind (.modify fun s => rfl) fun _ => ?_
  · intro s result s' h
    cases h
    rfl
  · intro s result s' h
    dsimp only at h
    split at h
    · rename_i answer
      cases h
      exact Prod.ext (congrArg (·.2.2) answer.symm) rfl
    · rename_i answer
      cases h
      exact Prod.ext (congrArg (·.2.2) answer.symm) rfl

theorem sendReply_trail (source : Target) (client : SocketAddr) (payload : Bytes) :
    Run.Keeps trail (sendReply (ε := ε) env.recording source client payload) := by
  intro s result s' h
  unfold sendReply at h
  split at h
  · cases h
    rfl
  split at h
  · cases h
    rfl
  · refine Run.Keeps.bind ?_ (fun _ => ?_) s result s' h
    · exact (openReplySocket_trail env _).when
    · intro s result s' h
      dsimp only at h
      split at h
      · rename_i answer
        cases h
        exact Prod.ext (congrArg (·.2.2) answer.symm) rfl
      · rename_i answer
        have kept := congrArg (·.2.2) answer.symm
        split at h
        · cases h
          exact Prod.ext kept rfl
        · cases h
          exact Prod.ext kept rfl

/-- The record is justified, and the clients are in order. -/
structure Accounted (runtime : Runtime) (outbounds : Outbounds ε ω) (Made : Endpoint → ε → Prop)
    (s : Recorded ε ω) : Prop where
  justified : Justified (Permits runtime outbounds Made) s.world.2
  housed : Housed Made s.clients

theorem Accounted.preserved {β : Type} {x : Run (Recorded ε ω) β}
    (kept : ∀ log, Run.Preserves (Stands Made log) x) :
    Run.Preserves (Accounted runtime outbounds Made) x := by
  intro s result s' h accounted
  have stands := kept s.world.2 s result s' h ⟨rfl, accounted.housed⟩
  exact ⟨stands.record ▸ accounted.justified, stands.housed⟩

theorem answer_accounted (token : Nat) (client : SocketAddr) (ready : List (Nat × SocketAddr))
    (burst : Nat) (received : Option ReceivedDatagram) :
    Run.Preserves (Accounted runtime outbounds Made)
      (answer env.recording token client ready burst received) := by
  cases received with
  | none => exact .pure _
  | some received =>
      refine Run.Preserves.bind ?_ fun sent => Run.Preserves.bind ?_ fun _ => .pure _
      · exact Accounted.preserved runtime fun log =>
          stands_of_trail (sendReply_trail env _ _ _).succeeds
      · exact Accounted.preserved runtime fun log => (touch_stands env client).when

variable (identified : outbounds.Identified Made)

include identified

/-- A datagram is handed over as its plan says, or not at all. -/
theorem sendInbound_accounted {inserted : Bool} {received : ReceivedTransparentDatagram}
    {earlier : List (Observation ε ReceivedTransparentDatagram)} {endpoint : Endpoint}
    (approved : Approved runtime outbounds endpoint received.target)
    (justified : Justified (Permits runtime outbounds Made) (earlier ++ [.arrived received]))
    {s s' : Recorded ε ω} {result : Except IoError Bool}
    (h : Stands Made (earlier ++ [.arrived received]) s)
    (sent : sendInbound outbounds.recording inserted received.client endpoint received.target
      received.payload s = some (result, s')) :
    Accounted runtime outbounds Made s' := by
  have handing : ∀ {state : ClientState ε} {result : Except IoError Unit}
      {out : Egress ε (ω × List (Observation ε ReceivedTransparentDatagram))},
      s.clients.lookup received.client = some state →
      sendWith outbounds.recording.execution outbounds.recording.openDatagram endpoint
        received.target received.payload
        ⟨state.routes, s.tokens, s.world⟩ = some (result, out) →
      Accounted runtime outbounds Made (withEgress received.client state out s) := by
    intro state result out found sending
    have keyed := h.housed received.client state found
    obtain ⟨keyed', same | ⟨object, own, entry⟩⟩ := sendWith_record identified keyed sending
    · refine ⟨?_, h.housed.insert _ keyed'⟩
      have record : out.world.2 = earlier ++ [.arrived received] := same.trans h.record
      exact record ▸ justified
    · refine ⟨?_, h.housed.insert _ keyed'⟩
      have record : out.world.2 = s.world.2 ++ [.handed object received.target received.payload] :=
        entry
      show Justified _ out.world.2
      rw [record, h.record]
      exact justified.handed ⟨rfl, rfl, endpoint, own, approved⟩
  cases sendInbound_ends outbounds.recording sent with
  | noClient absent => exact ⟨h.record ▸ justified, h.housed⟩
  | accepted found sending =>
      obtain ⟨justified', housed⟩ := handing found sending
      constructor
      · rw [rememberTokens_world]
        exact justified'
      · rw [rememberTokens_clients]
        exact housed
  | removed new found sending =>
      obtain ⟨justified', housed⟩ := handing found sending
      exact ⟨justified', housed.erase _⟩
  | remains known found sending => exact handing found sending

theorem handleInbound_accounted {received : ReceivedTransparentDatagram}
    {earlier : List (Observation ε ReceivedTransparentDatagram)}
    (justified : Justified (Permits runtime outbounds Made) (earlier ++ [.arrived received]))
    {s s' : Recorded ε ω} {result : Except IoError Bool}
    (h : Stands Made (earlier ++ [.arrived received]) s)
    (handled : handleInbound env.recording runtime outbounds.recording received s =
      some (result, s')) :
    Accounted runtime outbounds Made s' := by
  have planned : Stands Made (earlier ++ [.arrived received])
      { s with world := (env.recording.nextFlowId s.world).2 } := ⟨h.record, h.housed⟩
  have approved : ∀ {id : FlowId} {endpoint : Endpoint},
      outbounds.select runtime received.target id = some endpoint →
        Approved runtime outbounds endpoint received.target := approved_of_select
  cases handleInbound_ends env.recording runtime outbounds.recording handled with
  | unplanned selected => exact ⟨planned.record ▸ justified, planned.housed⟩
  | known selected found sent =>
      exact sendInbound_accounted runtime identified (approved selected) justified planned sent
  | full selected absent inserts =>
      have next := insertClient_stands env received.client _ _ _ inserts planned
      exact ⟨next.record ▸ justified, next.housed⟩
  | entered selected absent inserts sent =>
      have next := insertClient_stands env received.client _ _ _ inserts planned
      exact sendInbound_accounted runtime identified (approved selected) justified next sent

theorem sendInbound_refused (inserted : Bool) {received : ReceivedTransparentDatagram}
    {endpoint : Endpoint}
    {s : Recorded ε ω} {state : ClientState ε}
    (found : s.clients.lookup received.client = some state)
    (none : state.routes.get endpoint = none) {e : IoError}
    {out : Egress ε (ω × List (Observation ε ReceivedTransparentDatagram))}
    (fails : openRoute outbounds.recording.execution outbounds.recording.openDatagram endpoint
      ⟨state.routes, s.tokens, s.world⟩ = some (.error e, out)) :
    ∃ s', sendInbound outbounds.recording inserted received.client endpoint received.target
        received.payload s = some (.ok false, s') ∧ s'.world.2 = s.world.2 := by
  obtain ⟨sent, record⟩ := sendWith_refused identified received.target received.payload none fails
  have failed : Run.succeeds (onEgress received.client state (sendWith outbounds.recording.execution
      outbounds.recording.openDatagram endpoint received.target received.payload)) s =
          some (.ok false, _) :=
    Run.succeeds_zoom_of_error sent
  unfold sendInbound
  rw [found]
  dsimp only
  rw [Run.bind_of_ok failed]
  cases inserted with
  | true => exact ⟨_, rfl, record⟩
  | false => exact ⟨_, rfl, record⟩

/-- A datagram that is refused is handed to nothing, and the listener goes on. -/
theorem handleInbound_refused {received : ReceivedTransparentDatagram} {s : Recorded ε ω}
    (refused : Refused runtime outbounds.recording received.target (env.nextFlowId s.world.1).1
      (inboundEgress env.recording received s)) :
    ∃ s', handleInbound env.recording runtime outbounds.recording received s =
      some (.ok false, s') ∧
      s'.world.2 = s.world.2 := by
  unfold handleInbound
  dsimp only
  split
  · exact ⟨_, rfl, rfl⟩
  · rename_i endpoint selected
    obtain ⟨none, e, out, fails⟩ := refused.of_select selected
    unfold inboundEgress at none fails
    cases known : s.clients.lookup received.client with
    | some state =>
        rw [known] at none fails
        exact sendInbound_refused identified false known none fails
    | none =>
        rw [known] at none fails
        obtain ⟨s₁, full, record⟩ | ⟨s₁, lastActivity, inserts, found, tokens, world⟩ :=
          insertClient_cases env received.client
            { s with world := (env.recording.nextFlowId s.world).2 }
        · exact ⟨s₁, (Run.bind_of_ok full).trans rfl, record⟩
        · have fails' :
            openRoute outbounds.recording.execution outbounds.recording.openDatagram endpoint
              ⟨{}, s₁.tokens, s₁.world⟩ = some (.error e, out) := by
            rw [tokens, world]
            exact fails
          obtain ⟨s', sent, record⟩ := sendInbound_refused identified true found none fails'
          refine ⟨s', (Run.bind_of_ok inserts).trans sent, record.trans ?_⟩
          rw [world]
          rfl

theorem receiveInbound_accounted (burst : Nat) (events : List PollEvent) :
    Run.Preserves (Accounted runtime outbounds Made)
      (receiveInbound env.recording runtime outbounds.recording burst events) := by
  intro s result s' received h
  cases receiveInbound_cases env.recording runtime outbounds.recording received with
  | failed answer =>
      obtain ⟨_, other, -⟩ | ⟨-, record⟩ := recvOriginalDatagram_record env answer
      · cases other
      · exact ⟨record ▸ h.justified, h.housed⟩
  | drained answer =>
      obtain ⟨_, other, -⟩ | ⟨-, record⟩ := recvOriginalDatagram_record env answer
      · cases other
      · exact ⟨record ▸ h.justified, h.housed⟩
  | @arrived datagram world _ _ _ answer handled touched =>
      obtain ⟨_, same, record⟩ | ⟨other, -⟩ := recvOriginalDatagram_record env answer
      · cases same
        have arrived := h.justified.arrived datagram
        have next : Stands Made (s.world.2 ++ [.arrived datagram]) { s with world } :=
          ⟨record, h.housed⟩
        have kept := handleInbound_accounted env runtime identified arrived next handled
        have touching : Run.Preserves (Accounted runtime outbounds Made)
            (touch (ε := ε) env.recording datagram.client) :=
          Accounted.preserved runtime fun log => touch_stands env _
        exact touching.when _ _ _ touched kept
      · exact absurd rfl (other datagram)

theorem receiveOutbound_accounted {client : SocketAddr} {state : ClientState ε} {token : Nat}
    {s s' : Recorded ε ω} {result : Except IoError (Option ReceivedDatagram)}
    (h : Accounted runtime outbounds Made s) (found : s.clients.lookup client = some state)
    (received : receiveOutbound outbounds.recording client state token s = some (result, s')) :
    Accounted runtime outbounds Made s' := by
  obtain ⟨out, got, rfl⟩ := Run.of_zoom received
  obtain ⟨record, keyed⟩ := receiveReady_record identified got
  have same : out.2.2 = s.world.2 := record
  exact ⟨same ▸ h.justified, h.housed.insert client (keyed (h.housed client state found))⟩

theorem step_accounted {point point' : Point} {s s' : Recorded ε ω}
    (h : Accounted runtime outbounds Made s)
    (stepped : step env.recording runtime outbounds.recording point s = some (point', s')) :
    Accounted runtime outbounds Made s' := by
  have kept : Run.Preserves (Accounted runtime outbounds Made)
      (proceed env.recording runtime outbounds.recording point) := by
    rcases point with _ | ⟨_ | burst, events⟩ | ⟨_ | ⟨⟨token, client⟩, ready⟩, _ | burst⟩ | _
    · exact Accounted.preserved runtime fun log => pollEvents_stands env
    · intro s result s' h accounted
      cases h
      exact accounted
    · exact receiveInbound_accounted env runtime identified burst events
    · exact .pure _
    · exact .pure _
    · exact .pure _
    · intro s result s' proceeded accounted
      cases found : s.clients.lookup client with
      | none =>
          rw [proceed] at proceeded
          dsimp only at proceeded
          rw [found] at proceeded
          cases proceeded
          exact ⟨accounted.justified, accounted.housed⟩
      | some state =>
          rw [proceed_receive _ _ _ found] at proceeded
          rcases Run.bind_eq_some proceeded with ⟨received, s₁, receives, rest⟩ | ⟨e, receives, -⟩
          · have next := receiveOutbound_accounted runtime identified accounted found receives
            exact answer_accounted env runtime token client ready burst received s₁
              result s' rest next
          · exact receiveOutbound_accounted runtime identified accounted found receives
    · exact .pure _
  obtain ⟨result, proceeded⟩ := proceed_of_step stepped
  exact kept s _ _ proceeded h

theorem Reaches.accounted {world : ω} {point : Point} {s : Recorded ε ω}
    (reached : Reaches env.recording runtime outbounds.recording (fun _ _ => True)
      { world := (world, []) } point s) :
    Accounted runtime outbounds Made s := by
  refine reached.invariant _ _ _ (I := fun _ s => Accounted runtime outbounds Made s) ?_ ?_
  · exact ⟨justified_nil, housed_empty⟩
  · intro point s point' s' accounted _ stepped
    exact step_accounted env runtime identified accounted stepped

end TransparentUdp

/-! ### Both executors -/

/-- In every run of either executor each datagram that is handed to an execution object comes right
behind the packet that carried it, whose plan names the endpoint the object was opened for, and a
packet that is refused is handed to none. -/
theorem datagrams_leave_by_planned_endpoint {δ π ρ ω : Type} (registry : OutboundRegistry π)
    (providers : DatagramProviders δ π ρ ω) (runtime : Runtime) :
    (∀ (env : Socks5Udp.Env ω) controlIp hint world point s,
      Socks5Udp.Reaches env.recording runtime (registry.outbounds providers).recording
        (fun _ _ => True) controlIp
        (Socks5Udp.established env.recording controlIp hint (world, [])) point s →
          Justified (Socks5Udp.Permits runtime (registry.outbounds providers)
            (registry.Made providers)) s.world.2) ∧
    (∀ (env : TransparentUdp.Env ω) world point s,
      TransparentUdp.Reaches env.recording runtime (registry.outbounds providers).recording
        (fun _ _ => True) { world := (world, []) } point s →
          Justified (TransparentUdp.Permits runtime (registry.outbounds providers)
            (registry.Made providers))
            s.world.2) ∧
    (∀ (env : Socks5Udp.Env ω) packet target payload (s : Socks5Udp.Recorded (Opened δ ρ) ω),
      Socks5.parseUdpRequest packet = .ok (target, payload) →
      Refused runtime (registry.outbounds providers).recording target (env.nextFlowId s.world.1).1
        { s.egress with world := (env.recording.nextFlowId s.world).2 } →
          ∃ s', Socks5Udp.handleUdpClientPacket env.recording runtime
              (registry.outbounds providers).recording packet s = some (.ok false, s') ∧
            s'.world.2 = s.world.2) ∧
    (∀ (env : TransparentUdp.Env ω) received (s : TransparentUdp.Recorded (Opened δ ρ) ω),
      Refused runtime (registry.outbounds providers).recording received.target
        (env.nextFlowId s.world.1).1 (TransparentUdp.inboundEgress env.recording received s) →
          ∃ s', TransparentUdp.handleInbound env.recording runtime
              (registry.outbounds providers).recording received s = some (.ok false, s') ∧
            s'.world.2 = s.world.2) := by
  have identified := registry.identified providers
  refine ⟨?_, ?_, ?_, ?_⟩
  · intro env controlIp hint world point s reached
    exact (reached.accounted env runtime identified).justified
  · intro env world point s reached
    exact (reached.accounted env runtime identified).justified
  · intro env packet target payload s parsed refused
    exact Socks5Udp.handleUdpClientPacket_refused env runtime identified parsed refused
  · intro env received s refused
    exact TransparentUdp.handleInbound_refused env runtime identified refused

/-! ### One datagram through a proxy endpoint -/

/-- The proxy endpoint's outbounds, with what a receive of its objects gives. -/
abbrev proxyOnly (received : Except IoError (Option ReceivedDatagram)) :
    Outbounds (Opened Unit Unit) Bool :=
  (OutboundRegistry.single proxyOne).outbounds (.scripted received)

/-- A packet for an address that policy sends through the proxy endpoint: it arrives, and the object
of that endpoint gets its payload. -/
theorem datagram_leaves_by_proxy_example :
    (∃ s, Socks5Udp.Reaches
        (Socks5Udp.Env.onePacket [0, 0, 0, 1, 1, 2, 3, 4, 0, 80, 7]
          ⟨.v4 ⟨10, 0, 0, 1⟩, 5000⟩).recording
        proxied (proxyOnly (.ok none)).recording (fun _ _ => True)
        (.v4 ⟨10, 0, 0, 1⟩)
        (Socks5Udp.established (Socks5Udp.Env.onePacket [0, 0, 0, 1, 1, 2, 3, 4, 0, 80, 7]
          ⟨.v4 ⟨10, 0, 0, 1⟩, 5000⟩).recording (.v4 ⟨10, 0, 0, 1⟩) {} (true, []))
        (.client 31 [] false) s ∧
      s.world.2 =
        [.arrived ([0, 0, 0, 1, 1, 2, 3, 4, 0, 80, 7], ⟨.v4 ⟨10, 0, 0, 1⟩, 5000⟩),
          .handed (.provided proxyOne ()) ⟨.ip (.v4 ⟨1, 2, 3, 4⟩), 80, by decide⟩ [7]] ∧
      Justified (Socks5Udp.Permits proxied (proxyOnly (.ok none))
        ((OutboundRegistry.single proxyOne).Made (.scripted (ω := Bool) (.ok none)))) s.world.2) ∧
    ∃ s, TransparentUdp.Reaches
        (TransparentUdp.Env.oneMessage ⟨[7], false, false, some ⟨.v4 ⟨10, 0, 0, 1⟩, 5000⟩,
          .ok [.ipv4OrigDstAddr ⟨.v4 ⟨1, 2, 3, 4⟩, 80⟩]⟩ [⟨0, { readable := true }⟩]).recording
        proxied (proxyOnly (.ok none)).recording (fun _ _ => True)
        { world := (true, []) } (.inbound 31 [⟨0, { readable := true }⟩]) s ∧
      s.world.2 =
        [.arrived ⟨⟨.v4 ⟨10, 0, 0, 1⟩, 5000⟩, ⟨.ip (.v4 ⟨1, 2, 3, 4⟩), 80, by decide⟩, [7]⟩,
          .handed (.provided proxyOne ()) ⟨.ip (.v4 ⟨1, 2, 3, 4⟩), 80, by decide⟩ [7]] ∧
      Justified (TransparentUdp.Permits proxied (proxyOnly (.ok none))
        ((OutboundRegistry.single proxyOne).Made (.scripted (ω := Bool) (.ok none))))
          s.world.2 := by
  obtain ⟨association, listener, -, -⟩ := datagrams_leave_by_planned_endpoint (ω := Bool)
    (OutboundRegistry.single proxyOne) (.scripted (.ok none)) proxied
  constructor
  · refine ⟨_, .step 0 (.step 0 .start trivial rfl) trivial rfl, rfl, ?_⟩
    exact association (.onePacket [0, 0, 0, 1, 1, 2, 3, 4, 0, 80, 7] ⟨.v4 ⟨10, 0, 0, 1⟩, 5000⟩)
      (.v4 ⟨10, 0, 0, 1⟩) {} true (.client 31 [] false) _
        (.step 0 (.step 0 .start trivial rfl) trivial rfl)
  · refine ⟨_, .step (.step .start trivial rfl) trivial rfl, rfl, ?_⟩
    exact listener (.oneMessage ⟨[7], false, false, some ⟨.v4 ⟨10, 0, 0, 1⟩, 5000⟩,
      .ok [.ipv4OrigDstAddr ⟨.v4 ⟨1, 2, 3, 4⟩, 80⟩]⟩ [⟨0, { readable := true }⟩]) true
      (.inbound 31 [⟨0, { readable := true }⟩]) _ (.step (.step .start trivial rfl) trivial rfl)

end Commeatus.Daemon
