import Commeatus.Daemon.TrojanDatagram
import Commeatus.Daemon.Socks5Udp
import Commeatus.Daemon.TransparentUdp

/-!
Frames left in the receive buffers of Trojan routes.

A receive step of a Trojan route moves all plaintext there is into the route's
buffer and takes one frame from it. An executor makes at most 32 receive steps
for an event, and no later event announces what has already been read, so what
a step reads must be taken in the steps that are left. Runs in which it is go
back to the poll with no complete frame in any buffer.
-/

namespace Commeatus.Daemon

open Commeatus.Lib Commeatus.Core

variable {ε ω : Type}

/-- Execution objects with a buffer: `holds n` says that at most `n` datagrams are complete in it,
and `overfull n` that a receive step brings in more than it takes and `n` further ones. -/
structure Outbounds.Buffered (outbounds : Outbounds ε ω)
    (holds overfull : Nat → ε → Prop) : Prop where
  empty : ∀ {n object}, holds 0 object → holds n object
  opened : ∀ {endpoint world object world'},
    outbounds.openDatagram endpoint world = some (.ok object, world') → holds 0 object
  registered : ∀ {tokens object world object' world'},
    outbounds.execution.registerReadiness tokens (object, world) = (.ok (), (object', world')) →
      holds 0 object → holds 0 object'
  sent : ∀ {target payload object world result object' world'},
    outbounds.execution.send target payload (object, world) = some (result, (object', world')) →
      holds 0 object → holds 0 object'
  taken : ∀ {limit object world datagram object' world' n},
    outbounds.execution.receive limit (object, world) =
      some (.ok (some datagram), (object', world')) →
      holds (n + 1) object → ¬overfull n object → holds n object'
  emptied : ∀ {limit object world object' world'},
    outbounds.execution.receive limit (object, world) = some (.ok none, (object', world')) →
      holds 0 object'

namespace DatagramRouteSet

/-- The route that a receive step for the token is made on. -/
def owner (routes : DatagramRouteSet ε) (token : Nat) : Option (Endpoint × DatagramRoute ε) :=
  routes.routes.findValue fun route => route.tokens.contains token

variable {holds overfull : Nat → ε → Prop}

/-- No route holds a complete datagram. -/
def Drained (holds : Nat → ε → Prop) (routes : DatagramRouteSet ε) : Prop :=
  ∀ endpoint route, routes.get endpoint = some route → holds 0 route.execution

/-- No route holds a complete datagram, but for the owner of a token, which may hold `n`. -/
def DrainedBut (holds : Nat → ε → Prop) (token n : Nat) (routes : DatagramRouteSet ε) : Prop :=
  ∀ endpoint route, routes.get endpoint = some route →
    holds 0 route.execution ∨
      (routes.owner token = some (endpoint, route) ∧ holds n route.execution)

theorem Drained.but {routes : DatagramRouteSet ε} (drained : routes.Drained holds) (token n : Nat) :
    routes.DrainedBut holds token n :=
  fun endpoint route found => .inl (drained endpoint route found)

theorem DrainedBut.drained {routes : DatagramRouteSet ε} {token : Nat}
    (drained : routes.DrainedBut holds token 0) :
    routes.Drained holds := by
  intro endpoint route found
  rcases drained endpoint route found with empty | ⟨-, empty⟩
  · exact empty
  · exact empty

theorem Drained.put {routes : DatagramRouteSet ε} (drained : routes.Drained holds)
    {endpoint : Endpoint}
    {route : DatagramRoute ε} (empty : holds 0 route.execution) :
    (routes.put endpoint route).Drained holds := by
  intro endpoint' route' found
  unfold DatagramRouteSet.get DatagramRouteSet.put at found
  rw [Map.lookup_insert] at found
  split at found
  · cases found
    exact empty
  · exact drained endpoint' route' found

/-- After a receive step on its owner only the owner can hold datagrams. -/
theorem DrainedBut.put {routes : DatagramRouteSet ε} {token n k : Nat}
    (drained : routes.DrainedBut holds token n)
    {endpoint : Endpoint} {route : DatagramRoute ε}
    (owns : routes.owner token = some (endpoint, route))
    {object : ε} (left : holds k object) :
    (routes.put endpoint { route with execution := object }).DrainedBut holds token k := by
  have contains : route.tokens.contains token = true := (Map.lookup_of_findValue owns).2
  intro endpoint' route' found
  unfold DatagramRouteSet.get DatagramRouteSet.put at found
  rw [Map.lookup_insert] at found
  split at found
  · rename_i same
    cases found
    subst same
    exact .inr ⟨Map.findValue_insert routes.routes _ contains, left⟩
  · rename_i other
    rcases drained endpoint' route' found with empty | ⟨owns', -⟩
    · exact .inl empty
    · rw [owns] at owns'
      cases owns'
      exact absurd rfl other

variable {outbounds : Outbounds ε ω}

end DatagramRouteSet

/-! ### Trojan routes -/

namespace TrojanDatagram

open Commeatus.Transport Trojan

variable {κ : Type} (tls : Rustls κ)

/-- The plaintext that a connection gives to reads into the given room, until it has none left or
has ended. -/
inductive Gives : Nat → κ → Bytes → Prop
  | blocked {room : Nat} {t t' : κ} {error : IoError} :
      tls.read (min (room + 1) tlsPlaintextReadChunk) t = (.error error, t') →
        error.kind = .wouldBlock →
        Gives (room + 1) t []
  | ended {room : Nat} {t t' : κ} :
      tls.read (min (room + 1) tlsPlaintextReadChunk) t = (.ok [], t') → Gives (room + 1) t []
  | interrupted {room : Nat} {t t' : κ} {error : IoError} {plaintext : Bytes} :
      tls.read (min (room + 1) tlsPlaintextReadChunk) t = (.error error, t') →
        error.kind = .interrupted →
        Gives (room + 1) t' plaintext → Gives (room + 1) t plaintext
  | more {room : Nat} {t t' : κ} {bytes plaintext : Bytes} :
      tls.read (min (room + 1) tlsPlaintextReadChunk) t = (.ok bytes, t') → bytes ≠ [] →
        Gives (room + 1 - bytes.length) t' plaintext → Gives (room + 1) t (bytes ++ plaintext)

/-- The part of `service_ready` before its reads: what is pending and the ciphertext. -/
def exchange (rounds : Nat) : Run (TrojanDatagramExecution κ) Unit := do
  drainPending tls rounds
  onTls (TlsFramedSession.serviceIo tls rounds)
  drainPending tls rounds

/-- No frame is complete, and with the plaintext that the connection then gives to a receive step
there are more than this step and the ones left in the burst can take. -/
def Overfull (rounds burst : Nat) (e : TrojanDatagramExecution κ) : Prop :=
  udpFraming.AtMost 0 e.rx ∧ ∃ e₁ plaintext, exchange tls rounds e = some (.ok (), e₁) ∧
    Gives tls (maxRxBytes - e.rx.length) e₁.tls.connection plaintext ∧
      ¬udpFraming.AtMost (burst + 1) (e.rx ++ plaintext)

/-- No frame is complete exactly if the parser returns none. -/
theorem atMost_zero_iff {rx : Bytes} :
    udpFraming.AtMost 0 rx ↔ ∀ frame, parseUdpFrame rx ≠ .ok (some frame) := by
  have decodes : udpFraming.decode rx = decodeFrame rx := rfl
  constructor
  · intro incomplete frame parsed
    have decoded : udpFraming.decode rx = .ok (some ((frame.source,
        (rx.drop frame.payloadStart).take (frame.consumed - frame.payloadStart)),
            frame.consumed)) := by
      rw [decodes, decodeFrame, parsed]
      rfl
    exact incomplete _ decoded
  · intro incomplete frame decoded
    rw [decodes, decodeFrame] at decoded
    match parsed : parseUdpFrame rx with
    | .error e =>
        rw [parsed] at decoded
        cases decoded
    | .ok none =>
        rw [parsed] at decoded
        cases decoded
    | .ok (some frame) => exact incomplete frame parsed

theorem takeFrame_some_rx {outputLen : Nat} {e e' : TrojanDatagramExecution κ}
    {datagram : ReceivedDatagram}
    (taken : takeFrame outputLen e = (.ok (some datagram), e')) :
    ∃ a, udpFraming.take e.rx = (.ok (some a), e'.rx) := by
  have decodes : udpFraming.decode e.rx = decodeFrame e.rx := rfl
  unfold takeFrame at taken
  unfold Framing.take
  rw [decodes, decodeFrame]
  split at taken
  · cases taken
  · cases taken
  · rename_i frame parsed
    rw [parsed]
    dsimp only at taken
    split at taken
    · cases taken
    · cases taken
      rw [shiftOut_eq_drop]
      exact ⟨_, rfl⟩

theorem takeFrame_none_rx {outputLen : Nat} {e e' : TrojanDatagramExecution κ}
    (taken : takeFrame outputLen e = (.ok none, e')) : e' = e ∧ udpFraming.AtMost 0 e.rx := by
  obtain ⟨same, parsed⟩ := takeFrame_none taken
  refine ⟨same, atMost_zero_iff.mpr ?_⟩
  intro frame other
  rw [parsed] at other
  cases other

theorem drainPending_rx (rounds : Nat) :
    Run.Keeps TrojanDatagramExecution.rx (drainPending tls rounds) := by
  refine .loop fun e => ?_
  rcases drainRound_cases tls e with ⟨-, stop⟩ | ⟨frame, rest, -, cases⟩
  · rw [stop]
  rcases cases with ⟨-, popped⟩ | ⟨-, error, connection, -, after⟩ | ⟨-, connection, -, after⟩ |
    ⟨-, written, connection, -, -, after⟩
  · rw [popped]
  · rw [after]
  · rw [after]
  · rw [after]

theorem refreshReadiness_rx : Run.Keeps TrojanDatagramExecution.rx (refreshReadiness tls) := by
  intro e result e' h
  unfold refreshReadiness at h
  split at h
  · obtain ⟨session, -, rfl⟩ := Run.of_zoom h
    rfl
  · cases h
    rfl
  · cases h
    rfl

theorem exchange_rx (rounds : Nat) :
    Run.Keeps TrojanDatagramExecution.rx (exchange tls rounds) := by
  refine (drainPending_rx tls rounds).bind fun _ => .bind ?_ fun _ => drainPending_rx tls rounds
  intro e result e' h
  obtain ⟨session, -, rfl⟩ := Run.of_zoom h
  rfl

/-- What the reads move into the buffer is what the connection gives. -/
theorem readPlaintext_gives {rounds : Nat} {e e' : TrojanDatagramExecution κ}
    (read : iterate (readPlaintextRound tls) rounds e = (some (.ok ()), e')) :
    ∃ plaintext, Gives tls (maxRxBytes - e.rx.length) e.tls.connection plaintext ∧
      e'.rx = e.rx ++ plaintext := by
  induction rounds generalizing e with
  | zero => cases read
  | succ rounds ih =>
      by_cases full : maxRxBytes ≤ e.rx.length
      · rw [iterate, readPlaintextRound, if_pos full] at read
        cases read
      obtain ⟨room, left⟩ : ∃ room, maxRxBytes - e.rx.length = room + 1 :=
        Nat.exists_eq_succ_of_ne_zero (Nat.sub_ne_zero_of_lt (Nat.lt_of_not_le full))
      rw [left]
      rw [iterate, readPlaintextRound, if_neg full, left, TlsFramedSession.readPlaintext] at read
      rcases given : tls.read (min (room + 1) tlsPlaintextReadChunk) e.tls.connection with
        ⟨error | (_ | ⟨byte, bytes⟩), t⟩
      · rw [given] at read
        dsimp only at read
        by_cases blocked : error.kind = .wouldBlock
        · rw [if_pos blocked] at read
          cases read
          exact ⟨[], .blocked given blocked, (List.append_nil _).symm⟩
        by_cases interrupted : error.kind = .interrupted
        · rw [if_neg blocked, if_pos interrupted] at read
          obtain ⟨plaintext, gives, rx⟩ := ih read
          rw [left] at gives
          exact ⟨plaintext, .interrupted given interrupted gives, rx⟩
        · rw [if_neg blocked, if_neg interrupted] at read
          cases read
      · rw [given] at read
        cases read
        exact ⟨[], .ended given, (List.append_nil _).symm⟩
      · rw [given] at read
        obtain ⟨plaintext, gives, rx⟩ := ih read
        refine ⟨byte :: bytes ++ plaintext, .more given (by simp) ?_, ?_⟩
        · rw [← left, Nat.sub_sub, ← List.length_append]
          exact gives
        · rw [rx, List.append_assoc]

/-- A service that succeeds moves what the connection gives into the buffer. -/
theorem serviceReady_gives {rounds : Nat} {e e' : TrojanDatagramExecution κ}
    (serviced : serviceReady tls rounds e = some (.ok (), e')) :
    ∃ e₁ plaintext, exchange tls rounds e = some (.ok (), e₁) ∧
      Gives tls (maxRxBytes - e.rx.length) e₁.tls.connection plaintext ∧
      e'.rx = e.rx ++ plaintext := by
  obtain ⟨_, e₁, exchanged, rest⟩ : ∃ _ : Unit, ∃ e₁, exchange tls rounds e = some (.ok (), e₁) ∧
      (readPlaintextIntoRx tls rounds >>= fun _ => refreshReadiness tls) e₁ =
          some (.ok (), e') := by
    rcases Run.bind_eq_some serviced with ⟨_, e₂, drained, rest⟩ | ⟨_, -, no⟩
    · rcases Run.bind_eq_some rest with ⟨_, e₃, moved, rest⟩ | ⟨_, -, no⟩
      · rcases Run.bind_eq_some rest with ⟨_, e₁, drained', rest⟩ | ⟨_, -, no⟩
        · refine ⟨(), e₁, ?_, rest⟩
          rw [exchange, Run.bind_of_ok drained, Run.bind_of_ok moved, drained']
        · cases no
      · cases no
    · cases no
  have same := exchange_rx tls rounds _ _ _ exchanged
  rcases Run.bind_eq_some rest with ⟨_, e₂, read, refreshed⟩ | ⟨_, -, no⟩
  · obtain ⟨plaintext, gives, rx⟩ := readPlaintext_gives tls (Run.iterate_of_loop read)
    rw [same] at gives rx
    have kept := refreshReadiness_rx tls _ _ _ refreshed
    rw [← kept] at rx
    exact ⟨e₁, plaintext, exchanged, gives, rx⟩
  · cases no

theorem enqueue_rx (bytes : Bytes) :
    Run.Keeps TrojanDatagramExecution.rx (Run.ofIo (enqueue (κ := κ) bytes)) := by
  intro e result e' h
  have same : enqueue bytes e = (result, e') := Option.some.inj h
  rcases enqueue_cases bytes e with ⟨error, refused⟩ | ⟨-, -, admitted⟩
  · rw [refused] at same
    cases same
    rfl
  · rw [admitted] at same
    cases same
    rfl

theorem send_rx (rounds : Nat) (target : Target) (payload : Bytes) :
    Run.Keeps TrojanDatagramExecution.rx (send tls rounds target payload) := by
  unfold send
  split
  · intro e result e' h
    cases h
    rfl
  · exact (enqueue_rx _).bind fun _ => (drainPending_rx tls rounds).bind fun _ =>
      refreshReadiness_rx tls

theorem openExecution_rx {rounds : Nat} {verifier : TrojanVerifier} {connection : κ}
    {result : Except IoError Unit} {e : TrojanDatagramExecution κ}
    (opened : openExecution tls rounds verifier connection = some (result, e)) : e.rx = [] := by
  have kept : Run.Keeps TrojanDatagramExecution.rx (do
      Run.ofIo (enqueue (encodeUdpAssociateRequest verifier))
      drainPending tls rounds : Run (TrojanDatagramExecution κ) Unit) :=
    (enqueue_rx _).bind fun _ => drainPending_rx tls rounds
  exact kept _ _ _ opened

theorem registerReadiness_rx {tokens : List Nat} {e e' : TrojanDatagramExecution κ}
    {result : Except IoError Unit}
    (registered : registerReadiness tls tokens e = (result, e')) : e'.rx = e.rx := by
  unfold registerReadiness at registered
  split at registered
  · cases registered
    rfl
  split at registered
  · cases registered
    rfl
  split at registered
  · cases registered
    rfl
  · cases registered
    rfl

theorem noFrame_ok {e e' : TrojanDatagramExecution κ} {datagram : Option ReceivedDatagram}
    (ends : noFrame e = some (.ok datagram, e')) : datagram = none ∧ e' = e := by
  unfold noFrame at ends
  split at ends
  · cases ends
  · cases ends
    exact ⟨rfl, rfl⟩

/-- What a receive step gives a datagram from. -/
theorem receive_some_rx {rounds limit n : Nat} {e e' : TrojanDatagramExecution κ}
    {datagram : ReceivedDatagram}
    (received : receive tls rounds limit e = some (.ok (some datagram), e'))
    (few : udpFraming.AtMost (n + 1) e.rx) (within : ¬Overfull tls rounds n e) :
    udpFraming.AtMost n e'.rx := by
  rcases Run.bind_eq_some received with ⟨first, e₁, took, rest⟩ | ⟨_, -, no⟩
  · have took : takeFrame limit e = (.ok first, e₁) := Option.some.inj took
    cases first with
    | some datagram' =>
        cases rest
        obtain ⟨a, taken⟩ := takeFrame_some_rx took
        exact few.take taken
    | none =>
        obtain ⟨rfl, incomplete⟩ := takeFrame_none_rx took
        rcases Run.bind_eq_some rest with ⟨_, e₂, serviced, rest⟩ | ⟨_, -, no⟩
        · rcases Run.bind_eq_some rest with ⟨second, e₃, took, rest⟩ | ⟨_, -, no⟩
          · have took : takeFrame limit e₂ = (.ok second, e₃) := Option.some.inj took
            cases second with
            | some datagram' =>
                cases rest
                obtain ⟨a, taken⟩ := takeFrame_some_rx took
                have fits : udpFraming.AtMost (n + 1) e₂.rx := by
                  obtain ⟨e₁, plaintext, exchanged, gives, rx⟩ := serviceReady_gives tls serviced
                  by_contra many
                  rw [rx] at many
                  exact within ⟨incomplete, e₁, plaintext, exchanged, gives, many⟩
                exact fits.take taken
            | none =>
                obtain ⟨no, -⟩ := noFrame_ok rest
                cases no
          · cases no
        · cases no
  · cases no

theorem receive_none_rx {rounds limit : Nat} {e e' : TrojanDatagramExecution κ}
    (received : receive tls rounds limit e = some (.ok none, e')) : udpFraming.AtMost 0 e'.rx := by
  rcases Run.bind_eq_some received with ⟨first, e₁, took, rest⟩ | ⟨_, -, no⟩
  · cases first with
    | some datagram' => cases rest
    | none =>
        rcases Run.bind_eq_some rest with ⟨_, e₂, -, rest⟩ | ⟨_, -, no⟩
        · rcases Run.bind_eq_some rest with ⟨second, e₃, took, ends⟩ | ⟨_, -, no⟩
          · have took : takeFrame limit e₂ = (.ok second, e₃) := Option.some.inj took
            cases second with
            | some datagram' => cases ends
            | none =>
                obtain ⟨-, rfl⟩ := noFrame_ok ends
                obtain ⟨rfl, incomplete⟩ := takeFrame_none_rx took
                exact incomplete
          · cases no
        · cases no
  · cases no

/-- The code behind execution objects where every proxy endpoint with datagrams is a Trojan
endpoint. DIRECT associations and `connect_framed` are parameters. -/
def providers {δ π ω : Type} (direct : DatagramExecution δ ω) (openDirect : Run ω δ)
    (verifier : π → TrojanVerifier) (connectFramed : π → Run ω κ) (rounds : Nat) :
    DatagramProviders δ π (TrojanDatagramExecution κ) ω where
  direct := direct
  openDirect := openDirect
  provided := execution tls rounds
  openProvided provider := do
    let connection ← connectFramed provider
    openDatagram tls rounds (verifier provider) connection

/-- The complete frames in the buffer of a Trojan execution; DIRECT associations have no buffer. -/
def holds {δ : Type} (n : Nat) : Opened δ (TrojanDatagramExecution κ) → Prop
  | .direct _ => True
  | .provided _ e => udpFraming.AtMost n e.rx

def overfull {δ : Type} (rounds n : Nat) : Opened δ (TrojanDatagramExecution κ) → Prop
  | .direct _ => False
  | .provided _ e => Overfull tls rounds n e

variable {δ π ω : Type}

/-- Where only the state of the object takes part, the object after a call is what the call made. -/
theorem provided_of_map {α : Type} {x : Run (TrojanDatagramExecution κ) α} {id : EndpointId}
    {e : TrojanDatagramExecution κ} {world : ω} {result : Except IoError α}
    {out : Opened δ (TrojanDatagramExecution κ) × ω}
    (h : (Run.zoom Prod.fst (fun e s => (e, s.2)) x (e, world)).map (fun out =>
      (out.1, (Opened.provided (δ := δ) id out.2.1, out.2.2))) = some (result, out)) :
    ∃ e', x e = some (result, e') ∧ out.1 = .provided id e' := by
  obtain ⟨inner, zoomed, same⟩ := Option.map_eq_some_iff.mp h
  obtain ⟨e', ran, rest⟩ := Run.of_zoom zoomed
  cases same
  exact ⟨e', ran, congrArg (fun s => Opened.provided id s.1) rest⟩

theorem openDatagram_rx {rounds : Nat} {verifier : TrojanVerifier}
    {connection : κ} {world world' : ω}
    {e : TrojanDatagramExecution κ}
    (made : openDatagram tls rounds verifier connection world = some (.ok e, world')) :
    e.rx = [] := by
  unfold openDatagram at made
  split at made
  · cases made
  · cases made
  · rename_i fresh
    cases made
    exact openExecution_rx tls fresh

theorem openDatagram_holds (registry : OutboundRegistry π) (direct : DatagramExecution δ ω)
    (openDirect : Run ω δ) (verifier : π → TrojanVerifier)
    (connectFramed : π → Run ω κ) (rounds : Nat)
    {endpoint : Endpoint} {world world' : ω} {object : Opened δ (TrojanDatagramExecution κ)}
    (opened : (providers tls direct openDirect verifier connectFramed rounds).openDatagram
      registry endpoint world =
      some (.ok object, world')) : holds 0 object := by
  cases endpoint with
  | direct =>
      rcases Run.bind_eq_some opened with ⟨association, world₁, -, rest⟩ | ⟨e, -, no⟩
      · cases rest
        trivial
      · cases no
  | proxy id =>
      rw [DatagramProviders.openDatagram] at opened
      match found : registry.endpoints.lookup id with
      | none =>
          rw [found] at opened
          cases opened
      | some config =>
          rw [found] at opened
          dsimp only at opened
          match configured : config.datagram with
          | none =>
              rw [configured] at opened
              cases opened
          | some provider =>
              rw [configured] at opened
              rcases Run.bind_eq_some opened with ⟨e, world₁, made, rest⟩ | ⟨e, -, no⟩
              · cases rest
                rcases Run.bind_eq_some made with ⟨connection, world₂, -, made⟩ | ⟨e, -, no⟩
                · show udpFraming.AtMost 0 e.rx
                  rw [openDatagram_rx tls made]
                  exact fun frame no => nomatch no
                · cases no
              · cases no

theorem buffered (registry : OutboundRegistry π) (direct : DatagramExecution δ ω)
    (openDirect : Run ω δ) (verifier : π → TrojanVerifier)
    (connectFramed : π → Run ω κ) (rounds : Nat) :
    (registry.outbounds (providers tls direct openDirect verifier connectFramed rounds)).Buffered
      holds
      (overfull tls rounds) := by
  have ofDirect : ∀ {α : Type} {n} {x : Option (Except IoError α × δ × ω)} {result object world},
      x.map (fun out =>
        (out.1, (Opened.direct (ρ := TrojanDatagramExecution κ) out.2.1, out.2.2))) =
        some (result, (object, world)) → holds n object := by
    intro α n x result object world called
    obtain ⟨out, -, same⟩ := Option.map_eq_some_iff.mp called
    cases same
    trivial
  constructor
  · intro n object empty
    cases object with
    | direct association => trivial
    | provided id e => exact Framing.atMost_of_incomplete empty n
  · exact openDatagram_holds tls registry direct openDirect verifier connectFramed rounds
  · intro tokens object world object' world' registered empty
    cases object with
    | direct association =>
        have same : object' = .direct _ := (congrArg (·.2.1) registered).symm
        rw [same]
        trivial
    | provided id e =>
        have same : object' = .provided id (registerReadiness tls tokens e).2 :=
          (congrArg (·.2.1) registered).symm
        have kept : (registerReadiness tls tokens e).2.rx = e.rx :=
          registerReadiness_rx tls (Prod.mk.eta).symm
        rw [same]
        show udpFraming.AtMost 0 (registerReadiness tls tokens e).2.rx
        rw [kept]
        exact empty
  · intro target payload object world result object' world' handed empty
    cases object with
    | direct association => exact ofDirect handed
    | provided id e =>
        obtain ⟨e', sent, rfl⟩ := provided_of_map handed
        show udpFraming.AtMost 0 e'.rx
        rw [send_rx tls rounds target payload e result e' sent]
        exact empty
  · intro limit object world datagram object' world' n received held within
    cases object with
    | direct association => exact ofDirect received
    | provided id e =>
        obtain ⟨e', received', rfl⟩ := provided_of_map received
        exact receive_some_rx tls received' held within
  · intro limit object world object' world' received
    cases object with
    | direct association => exact ofDirect received
    | provided id e =>
        obtain ⟨e', received', rfl⟩ := provided_of_map received
        exact receive_none_rx tls received'

end TrojanDatagram

/-! ### The SOCKS5 executor -/

namespace Socks5Udp

open DatagramRouteSet

variable {holds overfull : Nat → ε → Prop} {outbounds : Outbounds ε ω}
    (env : Env ω) (runtime : Runtime)

/-- What the routes may hold where the loop stands: only the route that is being served may hold
datagrams, as many as receive steps are left in its burst. -/
def Drained (holds : Nat → ε → Prop) (s : Association ε ω) : Point → Prop
  | .outbound (token :: _) burst _ => s.routes.DrainedBut holds token burst
  | .returned _ => True
  | _ => s.routes.Drained holds

/-- A receive step on a Trojan route is about to bring in more frames than the burst can take. -/
def Overfull (overfull : Nat → ε → Prop) (s : Association ε ω) (point : Point) : Prop :=
  ∃ token tokens burst writable endpoint route,
    point = .outbound (token :: tokens) (burst + 1) writable ∧
    s.routes.owner token = some (endpoint, route) ∧ overfull burst route.execution

end Socks5Udp

/-! ### The transparent executor -/

namespace TransparentUdp

open DatagramRouteSet

variable {holds overfull : Nat → ε → Prop} {outbounds : Outbounds ε ω}
    (env : Env ω) (runtime : Runtime)
variable {P : SocketAddr → DatagramRouteSet ε → Prop}

/-- The routes of every client have a property. -/
def Each (P : SocketAddr → DatagramRouteSet ε → Prop) (s : Listener ε ω) : Prop :=
  ∀ client state, s.clients.lookup client = some state → P client state.routes

theorem each_insert {s s' : Listener ε ω} {client : SocketAddr} {state : ClientState ε}
    (others : ∀ client' state', client' ≠ client → s.clients.lookup client' = some state' →
      P client' state'.routes)
    (clients : s'.clients = s.clients.insert client state) (property : P client state.routes) :
    Each P s' := by
  intro client' state' found
  rw [clients, Map.lookup_insert] at found
  split at found
  · rename_i same
    cases found
    rw [same]
    exact property
  · rename_i other
    exact others client' state' other found

theorem Each.insert {s s' : Listener ε ω} (each : Each P s) {client : SocketAddr}
    {state : ClientState ε}
    (clients : s'.clients = s.clients.insert client state)
    (property : P client state.routes) : Each P s' :=
  each_insert (fun client' state' _ found => each client' state' found) clients property

theorem Each.erase {s s' : Listener ε ω} (each : Each P s) (client : SocketAddr)
    (clients : s'.clients = s.clients.erase client) : Each P s' := by
  intro client' state' found
  rw [clients, Map.lookup_erase] at found
  split at found
  · cases found
  · exact each client' state' found

theorem Each.cleanupIdleClients {s : Listener ε ω} (each : Each P s) (now : Nat) :
    Each P (cleanupIdleClients now s) := by
  refine cleanupIdleClients_induction (fun s client state found each => ?_) now each
  refine each.erase client ?_
  unfold dropClient
  rw [found]

/-- What the routes may hold where the loop stands: only the route that is being served may hold
datagrams, as many as receive steps are left in its burst. -/
def Drained (holds : Nat → ε → Prop) (s : Listener ε ω) : Point → Prop
  | .outbound ((token, client) :: _) burst =>
      Each (fun client' routes => routes.Drained holds ∨
        (client' = client ∧ routes.DrainedBut holds token burst)) s
  | .returned _ => True
  | _ => Each (fun _ routes => routes.Drained holds) s

/-- A receive step on a Trojan route is about to bring in more frames than the burst can take. -/
def Overfull (overfull : Nat → ε → Prop) (s : Listener ε ω) (point : Point) : Prop :=
  ∃ token client ready burst state endpoint route,
    point = .outbound ((token, client) :: ready) (burst + 1) ∧
    s.clients.lookup client = some state ∧ state.routes.owner token = some (endpoint, route) ∧
      overfull burst route.execution

end TransparentUdp

/-! ### No frame is left behind -/

/-- The Trojan endpoint's outbounds, on a connection on which the server has sent the given number
of empty datagrams from 1.2.3.4:80. -/
abbrev served (frames : Nat) :
    Outbounds (Opened Unit (TrojanDatagram.TrojanDatagramExecution Bytes)) Bool :=
  (OutboundRegistry.single proxyOne).outbounds
    (TrojanDatagram.providers Transport.serving
      ⟨fun _ => 1, fun _ => pure (), fun _ _ => pure (), fun _ => pure none⟩ (pure ())
      (fun _ => TrojanDatagram.zeroVerifier)
      (fun _ => pure (List.replicate frames [1, 1, 2, 3, 4, 0, 80, 0, 0, 13, 10]).flatten) 3)

end Commeatus.Daemon
