import Commeatus.Daemon.DatagramEgress
import Commeatus.Daemon.TrojanDatagram

/-!
How far the failure of one route, or of one datagram, reaches.

Sends are local: a datagram whose route cannot be opened or refuses it is
dropped. Receives are not: an error of the receive step of one route, or a
datagram without a usable original destination, ends the loop of the executor
with everything it serves.
-/

namespace Commeatus.Daemon

open Commeatus.Lib Commeatus.Core

variable {ε ω : Type}

/-! ### The transparent listener -/

namespace TransparentUdp

variable (env : Env ω) (runtime : Runtime) (outbounds : Outbounds ε ω)

/-- The receive step of one client's route fails, or one received datagram is invalid. -/
inductive Fails : Point → Listener ε ω → IoError → Prop
  | route {token : Nat} {client : SocketAddr} {ready : List (Nat × SocketAddr)} {burst : Nat}
      {s : Listener ε ω} {state : ClientState ε} {e : IoError} {out : DatagramRouteSet ε × ω} :
      s.clients.lookup client = some state →
      DatagramRouteSet.receiveReady outbounds.execution token maxPacket (state.routes, s.world) =
        some (.error e, out) →
          Fails (.outbound ((token, client) :: ready) (burst + 1)) s e
  | datagram {burst : Nat} {events : List PollEvent} {s : Listener ε ω}
      {message : Message} {world : ω}
      {e : IoError} :
      env.recvmsg maxPacket s.world = (.ok message, world) → message.datagram = .error e →
        Fails (.inbound (burst + 1) events) s e

/-- All clients, routes and tokens but those of the affected route are as they were. -/
structure Unaffected (affected : Option (SocketAddr × Endpoint)) (s s' : Listener ε ω) : Prop where
  clients : ∀ client, (∀ endpoint, affected ≠ some (client, endpoint)) →
    s'.clients.lookup client = s.clients.lookup client
  routes : ∀ client endpoint, affected ≠ some (client, endpoint) →
    (s'.clients.lookup client).bind (·.routes.get endpoint) =
      (s.clients.lookup client).bind (·.routes.get endpoint)
  tokens : ∀ token client, (∀ endpoint, affected ≠ some (client, endpoint)) →
    s.tokenClients.lookup token = some client → s'.tokenClients.lookup token = some client

/-- The loop goes on, and one route at most is affected. -/
def Isolated (point : Point) (s : Listener ε ω) : Prop :=
  ∃ affected point' s', step env runtime outbounds point s = some (point', s') ∧
    (∀ result, point' ≠ .returned result) ∧ Unaffected affected s s'

/-- The points and states after a point and state. -/
def Onward : Point × Listener ε ω → Point × Listener ε ω → Prop :=
  Relation.ReflTransGen fun a b => step env runtime outbounds a.1 a.2 = some b

theorem proceed_of_fails {point : Point} {s : Listener ε ω} {e : IoError}
    (fails : Fails env outbounds point s e) :
    ∃ s', proceed env runtime outbounds point s = some (.error e, s') := by
  cases fails with
  | @route token client ready burst s state e out found failed =>
      have receives : receiveOutbound outbounds client state token s = some (.error e, _) :=
        Run.zoom_of_some failed
      exact ⟨_, (proceed_receive env runtime outbounds found token ready burst).trans
        (Run.bind_of_error receives)⟩
  | @datagram burst events s message world e arrived invalid =>
      have receives : recvOriginalDatagram env s.world = (.error e, world) := by
        rw [recvOriginalDatagram, arrived]
        dsimp only
        rw [invalid]
      refine ⟨{ s with world }, ?_⟩
      rw [proceed, receiveInbound, receives]

theorem step_of_fails {point : Point} {s : Listener ε ω} {e : IoError}
    (fails : Fails env outbounds point s e) :
    ∃ s', step env runtime outbounds point s = some (.returned (.error e), s') := by
  obtain ⟨s', failed⟩ := proceed_of_fails env runtime outbounds fails
  exact ⟨s', by rw [step, failed]⟩

end TransparentUdp

/-! ### The SOCKS5 association -/

namespace Socks5Udp

variable (env : Env ω) (runtime : Runtime) (outbounds : Outbounds ε ω)
    (controlIp : IpAddr) (rounds : Nat)

/-- The receive step of one route fails. -/
inductive Fails : Point → Association ε ω → IoError → Prop
  | route {token : Nat} {tokens : List Nat} {burst : Nat} {writable : Bool} {s : Association ε ω}
      {e : IoError} {out : DatagramRouteSet ε × ω} :
      DatagramRouteSet.receiveReady outbounds.execution token maxUdpPacket (s.routes, s.world) =
        some (.error e, out) →
          Fails (.outbound (token :: tokens) (burst + 1) writable) s e

/-- The client and all routes but the affected one are as they were. -/
structure Unaffected (affected : Endpoint) (s s' : Association ε ω) : Prop where
  client : s'.clientAddress = s.clientAddress
  routes : ∀ endpoint, endpoint ≠ affected → s'.routes.get endpoint = s.routes.get endpoint

/-- The loop goes on, and one route at most is affected. -/
def Isolated (point : Point) (s : Association ε ω) : Prop :=
  ∃ affected point' s', step env runtime outbounds controlIp rounds point s = some (point', s') ∧
    (∀ result, point' ≠ .returned result) ∧ Unaffected affected s s'

/-- The points and states after a point and state. -/
def Onward : Point × Association ε ω → Point × Association ε ω → Prop :=
  Relation.ReflTransGen fun a b => step env runtime outbounds controlIp rounds a.1 a.2 = some b

theorem step_of_fails {point : Point} {s : Association ε ω} {e : IoError}
    (fails : Fails outbounds point s e) :
    ∃ s', step env runtime outbounds controlIp rounds point s =
      some (.returned (.error e), s') := by
  cases fails with
  | @route token tokens burst writable s e out failed =>
      have receives : receiveOutbound outbounds token s = some (.error e, _) :=
        Run.zoom_of_some failed
      have proceeds : proceed env runtime outbounds controlIp rounds
          (.outbound (token :: tokens) (burst + 1) writable) s = some (.error e, _) :=
        Run.bind_of_error receives
      exact ⟨_, by rw [step, proceeds]⟩

end Socks5Udp

/-! ### Both executors -/

/-- At whatever state of either executor the receive step of one route fails, or one transparent
datagram is invalid, the failure is not isolated: the executor returns the error, and comes to no
other point any more. -/
theorem one_failure_ends_executor (runtime : Runtime) (outbounds : Outbounds ε ω) :
    (∀ (env : TransparentUdp.Env ω) point s e, TransparentUdp.Fails env outbounds point s e →
      ¬TransparentUdp.Isolated env runtime outbounds point s ∧
        ∀ point' s', TransparentUdp.Onward env runtime outbounds (point, s) (point', s') →
          (point', s') = (point, s) ∨ point' = .returned (.error e)) ∧
    (∀ (env : Socks5Udp.Env ω) controlIp rounds point s e, Socks5Udp.Fails outbounds point s e →
      ¬Socks5Udp.Isolated env runtime outbounds controlIp rounds point s ∧
        ∀ point' s', Socks5Udp.Onward env runtime outbounds controlIp rounds
          (point, s) (point', s') →
          (point', s') = (point, s) ∨ point' = .returned (.error e)) := by
  constructor
  · intro env point s e fails
    obtain ⟨last, stepped⟩ := TransparentUdp.step_of_fails env runtime outbounds fails
    constructor
    · rintro ⟨_, point', s', other, running, -⟩
      rw [stepped] at other
      cases other
      exact running _ rfl
    · intro point' s' onward
      rcases halted_of_step (fun a => TransparentUdp.step env runtime outbounds a.1 a.2) stepped rfl
        onward with same | same
      · exact .inl same
      · exact .inr (congrArg Prod.fst same)
  · intro env controlIp rounds point s e fails
    obtain ⟨last, stepped⟩ := Socks5Udp.step_of_fails env runtime outbounds controlIp rounds fails
    constructor
    · rintro ⟨_, point', s', other, running, -⟩
      rw [stepped] at other
      cases other
      exact running _ rfl
    · intro point' s' onward
      rcases halted_of_step (fun a => Socks5Udp.step env runtime outbounds controlIp rounds a.1 a.2)
        stepped rfl onward with same | same
      · exact .inl same
      · exact .inr (congrArg Prod.fst same)

/-! ### A carrier that closes -/

/-- A connection whose peer takes what is written and has closed its side. -/
def closedCarrier : Transport.Rustls Unit where
  write bytes _ := (.ok bytes.length, ())
  read _ _ := (.error ⟨.wouldBlock, "no plaintext"⟩, ())
  wantsRead _ := true
  wantsWrite _ := false
  readTls _ := (.ok 0, ())
  writeTls _ := (.ok 0, ())
  processNewPackets _ := (.ok (), ())
  sendCloseNotify _ := ()
  registry _ _ := (.ok (), ())
  write_le := by
    intro bytes t n t' h
    cases h
    exact le_refl _
  read_le := by
    intro limit t bytes t' h
    cases h

/-- DIRECT associations that take every datagram, and Trojan carriers that the peer has closed. -/
def closedProviders (verifier : Trojan.TrojanVerifier) :
    DatagramProviders Unit Unit (TrojanDatagram.TrojanDatagramExecution Unit) ω where
  direct := ⟨fun _ => 1, fun _ => pure (), fun _ _ => pure (), fun _ => pure none⟩
  openDirect := pure ()
  provided := TrojanDatagram.execution closedCarrier 4
  openProvided _ := TrojanDatagram.openDatagram closedCarrier 4 verifier ()

abbrev closedOutbounds :
    Outbounds (Opened Unit (TrojanDatagram.TrojanDatagramExecution Unit))
      (List TransparentUdp.Message) :=
  (OutboundRegistry.single proxyOne).outbounds (closedProviders TrojanDatagram.zeroVerifier)

def carrierClosed : IoError :=
  ⟨.unexpectedEof, "Trojan UDP TLS carrier closed without another complete frame"⟩

/-- Two clients send a datagram each, one through the Trojan endpoint and one directly. The first
one's carrier closes, and the listener returns with the second one's route in use. -/
theorem closed_carrier_ends_listener :
    ∃ s, TransparentUdp.Reaches TransparentUdp.Env.messages proxied
      closedOutbounds (fun _ _ => True)
        { world := [TransparentUdp.messageFrom 1 true, TransparentUdp.messageFrom 2 false] }
        (.outbound [(1, ⟨.v4 ⟨10, 0, 0, 1⟩, 5000⟩)] 32) s ∧
      TransparentUdp.Fails TransparentUdp.Env.messages closedOutbounds
        (.outbound [(1, ⟨.v4 ⟨10, 0, 0, 1⟩, 5000⟩)] 32) s carrierClosed ∧
      ((s.clients.lookup ⟨.v4 ⟨10, 0, 0, 2⟩, 5000⟩).bind (·.routes.get .direct)).isSome ∧
      ¬TransparentUdp.Isolated TransparentUdp.Env.messages proxied closedOutbounds
        (.outbound [(1, ⟨.v4 ⟨10, 0, 0, 1⟩, 5000⟩)] 32) s := by
  refine ⟨_,
    .step (.step (.step (.step (.step (.step (.step .start trivial rfl) trivial rfl) trivial rfl)
      trivial rfl) trivial rfl) trivial rfl) trivial rfl,
    .route rfl rfl, rfl, ?_⟩
  rintro ⟨_, point', s', stepped, running, -⟩
  cases stepped
  exact running _ rfl

/-- An association with one route, which owns token 2. -/
def Socks5Udp.Association.oneRoute : Socks5Udp.Association (Opened Unit Unit) Bool where
  world := true
  routes := ⟨(∅ : Map Endpoint (DatagramRoute (Opened Unit Unit))).insert (.proxy proxyOne)
    ⟨.provided proxyOne (), [2]⟩⟩
  clientAddress := none
  lastActivity := 0

/-- An invalid datagram, for port 0, and a route of an association whose carrier has closed. -/
theorem one_failure_ends_executor_example :
    ¬TransparentUdp.Isolated TransparentUdp.Env.messages proxied closedOutbounds (.inbound 32 [])
      { world := [⟨[7], false, false, some ⟨.v4 ⟨10, 0, 0, 1⟩, 5000⟩,
        .ok [.ipv4OrigDstAddr ⟨.v4 ⟨1, 2, 3, 4⟩, 0⟩]⟩] } ∧
    ¬Socks5Udp.Isolated (Socks5Udp.Env.onePacket [] ⟨.v4 ⟨10, 0, 0, 1⟩, 5000⟩) proxied
      (proxyOnly (.error carrierClosed)) (.v4 ⟨10, 0, 0, 1⟩) 0
        (.outbound [2] 32 false) .oneRoute := by
  constructor
  · refine ((one_failure_ends_executor proxied closedOutbounds).1 TransparentUdp.Env.messages
      (.inbound 32 []) _ ⟨.invalidInput, "destination port must not be zero"⟩ ?_).1
    exact .datagram rfl rfl
  · refine ((one_failure_ends_executor proxied (proxyOnly (.error carrierClosed))).2 _ _ _ _ _
      carrierClosed ?_).1
    exact .route rfl

end Commeatus.Daemon
