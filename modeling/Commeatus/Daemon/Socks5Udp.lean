import Commeatus.Lib.Mio
import Commeatus.Daemon.Outbound
import Commeatus.Daemon.Socks5

/-!
The SOCKS5 UDP executor (`handle_udp_associate` in `daemon/src/socks5.rs`).

One loop serves an association: the TCP control connection that owns its
lifetime, the relay socket the client talks to, and the outbound routes. Of a
batch of events the control connection comes first, then packets of the
client, then datagrams of the routes, then queued replies.
-/

namespace Commeatus.Daemon.Socks5Udp

open Commeatus.Lib Commeatus.Core Socks5

/-- Durations and instants are nanoseconds. -/
def udpIdleTimeout : Nat := 120 * 10 ^ 9
def maxUdpPacket : Nat := 65535
def maxUdpEventBurst : Nat := 32
def maxPendingClientReplies : Nat := 64
def udpControlToken : Nat := 0
def udpClientToken : Nat := 1
def udpOutboundFirstToken : Nat := 2

/-- The calls of the executor on the outside: clock, flow ids, poll, control connection and relay
socket. -/
structure Env (ω : Type) where
  now : ω → Nat × ω
  nextFlowId : ω → FlowId × ω
  poll : Nat → IoM ω (List PollEvent)
  controlRead : Nat → IoM ω Bytes
  recvFrom : Nat → IoM ω (Bytes × SocketAddr)
  sendTo : Bytes → SocketAddr → IoM ω Nat
  reregister : Interest → IoM ω Unit

/-- The variables of the loop. -/
structure Association (ε ω : Type) where
  world : ω
  routes : DatagramRouteSet ε := {}
  routeTokens : DatagramTokenAllocator := ⟨udpOutboundFirstToken⟩
  clientAddress : Option SocketAddr
  pendingReplies : List (Bytes × SocketAddr) := []
  relayWritable : Bool := false
  lastActivity : Nat

namespace Association

variable {ε ω : Type}

def egress (s : Association ε ω) : Egress ε ω := ⟨s.routes, s.routeTokens, s.world⟩

def withEgress (out : Egress ε ω) (s : Association ε ω) : Association ε ω :=
  { s with routes := out.routes, routeTokens := out.tokens, world := out.world }

end Association

variable {ε ω : Type} (env : Env ω) (runtime : Runtime) (outbounds : Outbounds ε ω)

/-- `last_activity = Instant::now()`. -/
def touch : Run (Association ε ω) Unit := fun s =>
  some (.ok (), { s with lastActivity := (env.now s.world).1, world := (env.now s.world).2 })

/-! ### The control connection -/

/-- The reads of `control_event_is_closed`, at most the given number. -/
def controlReads : Nat → IoM ω Bool
  | 0 => pure false
  | reads + 1 => fun world =>
      match env.controlRead 256 world with
      | (.ok [], world) => (.ok true, world)
      | (.ok _, world) => controlReads reads world
      | (.error e, world) =>
          if e.kind = .wouldBlock then (.ok false, world)
          else if e.kind = .interrupted then controlReads reads world
          else if e.kind = .connectionReset ∨ e.kind = .brokenPipe ∨ e.kind = .notConnected then
            (.ok true, world)
          else (.error e, world)

def controlEventIsClosed (event : Readiness) : IoM ω Bool :=
  if event.readClosed || event.error then pure true
  else if !event.readable then pure false
  else controlReads env 4

/-- The control events of a batch, up to the first that closes the association. -/
def controlClosed : List PollEvent → IoM ω Bool
  | [] => pure false
  | event :: events =>
      if event.token = udpControlToken then do
        if ← controlEventIsClosed env event.readiness then pure true else controlClosed events
      else controlClosed events

variable {env} in
/-- Reading the control connection makes no other calls. -/
theorem controlReads_frame {W : ω → Prop}
    (control : ∀ limit {world}, W world → W (env.controlRead limit world).2)
    (reads : Nat) {world : ω} (start : W world) : W (controlReads env reads world).2 := by
  induction reads generalizing world with
  | zero => exact start
  | succ reads ih =>
      have next := control 256 start
      unfold controlReads
      split
      · rename_i answer
        rw [answer] at next
        exact next
      · rename_i answer
        rw [answer] at next
        exact ih next
      · rename_i answer
        rw [answer] at next
        split
        · exact next
        split
        · exact ih next
        split
        · exact next
        · exact next

variable {env} in
theorem controlClosed_frame {W : ω → Prop}
    (control : ∀ limit {world}, W world → W (env.controlRead limit world).2)
    (events : List PollEvent) {world : ω} (start : W world) :
    W (controlClosed env events world).2 := by
  induction events generalizing world with
  | nil => exact start
  | cons event events ih =>
      have closes : W (controlEventIsClosed env event.readiness world).2 := by
        unfold controlEventIsClosed
        split
        · exact start
        split
        · exact start
        · exact controlReads_frame control 4 start
      unfold controlClosed
      split
      · match answer : controlEventIsClosed env event.readiness world with
        | (.error e, world₁) =>
            rw [answer] at closes
            rw [IoM.bind_of_error answer]
            exact closes
        | (.ok true, world₁) =>
            rw [answer] at closes
            rw [IoM.bind_of_ok answer]
            exact closes
        | (.ok false, world₁) =>
            rw [answer] at closes
            rw [IoM.bind_of_ok answer]
            exact ih closes
      · exact ih start

/-! ### Packets of the client -/

def isClientPacket (source : SocketAddr) (controlIp : IpAddr) (client : Option SocketAddr) : Bool :=
  match client with
  | none => source.ip == controlIp
  | some client => source == client

/-- `handle_udp_client_packet`: whether the packet was accepted by its route. -/
def handleUdpClientPacket (packet : Bytes) : Run (Association ε ω) Bool :=
  match parseUdpRequest packet with
  | .error _ => pure false
  | .ok (target, payload) => fun s =>
      let id := (env.nextFlowId s.world).1
      let s := { s with world := (env.nextFlowId s.world).2 }
      match outbounds.select runtime target id with
      | none => some (.ok false, s)
      | some endpoint =>
          Run.succeeds (Run.zoom Association.egress Association.withEgress
            (DatagramRouteSet.sendWith outbounds.execution outbounds.openDatagram endpoint
              target payload)) s

/-- What becomes of a packet: it is no datagram, or nothing is planned for it, or it goes to the
route of its endpoint. -/
inductive Handling (packet : Bytes) (s : Association ε ω) : Except IoError Bool →
    Association ε ω → Prop where
  | malformed {e : IoError} (parsed : parseUdpRequest packet = .error e) :
      Handling packet s (.ok false) s
  | unplanned {target : Target} {payload : Bytes}
      (parsed : parseUdpRequest packet = .ok (target, payload))
      (selected : outbounds.select runtime target (env.nextFlowId s.world).1 = none) :
      Handling packet s (.ok false) { s with world := (env.nextFlowId s.world).2 }
  | routed {target : Target} {payload : Bytes} {endpoint : Endpoint}
      {result : Except IoError Unit} {out : Egress ε ω}
      (parsed : parseUdpRequest packet = .ok (target, payload))
      (selected : outbounds.select runtime target (env.nextFlowId s.world).1 = some endpoint)
      (sending : DatagramRouteSet.sendWith outbounds.execution outbounds.openDatagram
        endpoint target payload
        ⟨s.routes, s.routeTokens, (env.nextFlowId s.world).2⟩ = some (result, out)) :
      Handling packet s (.ok result.toBool) (s.withEgress out)

theorem handleUdpClientPacket_cases {packet : Bytes} {s s' : Association ε ω}
    {result : Except IoError Bool}
    (handled : handleUdpClientPacket env runtime outbounds packet s = some (result, s')) :
    Handling env runtime outbounds packet s result s' := by
  unfold handleUdpClientPacket at handled
  cases parsed : parseUdpRequest packet with
  | error e =>
      rw [parsed] at handled
      cases handled
      exact .malformed parsed
  | ok request =>
      obtain ⟨target, payload⟩ := request
      rw [parsed] at handled
      dsimp only at handled
      split at handled
      · rename_i selected
        cases handled
        exact .unplanned parsed selected
      · rename_i endpoint selected
        obtain ⟨result', out, sending, rfl, rfl⟩ := Run.of_succeeds_zoom handled
        exact .routed parsed selected sending

/-- What an accepted packet changes. -/
def accept (source : SocketAddr) : Run (Association ε ω) Unit := do
  Run.modify fun s => { s with clientAddress := s.clientAddress.or (some source) }
  touch env

/-! ### Replies -/

def sendOrQueueClientReply (packet : Bytes) (client : SocketAddr) :
    Run (Association ε ω) Bool := fun s =>
  match env.sendTo packet client s.world with
  | (.ok sent, world) => some (.ok (decide (sent = packet.length)), { s with world })
  | (.error e, world) =>
      if e.kind = .wouldBlock ∨ e.kind = .interrupted then
        if maxPendingClientReplies ≤ s.pendingReplies.length then some (.ok false, { s with world })
        else
          some (.ok true,
            { s with world, pendingReplies := s.pendingReplies ++ [(packet, client)] })
      else some (.ok false, { s with world })

/-- One round of `flush_pending_client_replies`, with the flag whether any was sent. -/
def flushRound (s : Association ε ω × Bool) :
    Round (Except IoError Bool) × (Association ε ω × Bool) :=
  match s.1.pendingReplies with
  | [] => (.done (.ok s.2), s)
  | (packet, client) :: rest =>
      match env.sendTo packet client s.1.world with
      | (.ok sent, world) =>
          (.again, ({ s.1 with world, pendingReplies := rest },
            s.2 || decide (sent = packet.length)))
      | (.error e, world) =>
          if e.kind = .wouldBlock then (.done (.ok s.2), ({ s.1 with world }, s.2))
          else if e.kind = .interrupted then (.again, ({ s.1 with world }, s.2))
          else (.again, ({ s.1 with world, pendingReplies := rest }, s.2))

def flushPendingClientReplies (rounds : Nat) : Run (Association ε ω) Bool :=
  Run.zoom (fun s => (s, false)) (fun out _ => out.1) (Run.loop rounds (flushRound env))

/-- A received datagram goes to the client, if it is known. -/
def reply (received : ReceivedDatagram) : Run (Association ε ω) Unit := fun s =>
  match s.clientAddress with
  | none => some (.ok (), s)
  | some client =>
      match encodeUdpResponse received.source received.payload with
      | .error e => some (.error e, s)
      | .ok response =>
          (do
            let sent ← sendOrQueueClientReply env response client
            Run.when sent (touch env)) s

/-- The interest in the relay socket follows the reply queue. -/
def updateRelayInterest : Run (Association ε ω) Unit := fun s =>
  let wantsWritable := !s.pendingReplies.isEmpty
  if wantsWritable != s.relayWritable then
    match env.reregister ⟨true, wantsWritable⟩ s.world with
    | (.ok (), world) => some (.ok (), { s with world, relayWritable := wantsWritable })
    | (.error e, world) => some (.error e, { s with world })
  else some (.ok (), s)

/-! ### The loop -/

/-- Where the loop stands: before its poll; at the client's packets, with the number of reads left
in the burst; at the datagrams of the routes whose tokens are ready; or at the queued replies. -/
inductive Point where
  | top
  | client (burst : Nat) (outbound : List Nat) (writable : Bool)
  | outbound (tokens : List Nat) (burst : Nat) (writable : Bool)
  | replies (writable : Bool)
  | returned (result : Except IoError Unit)

/-- What the loop does with a batch of events. -/
def dispatch (events : List PollEvent) (s : Association ε ω) : Point :=
  let readable := events.any fun e => e.token == udpClientToken && e.readiness.readable
  let writable := events.any fun e => e.token == udpClientToken && e.readiness.writable
  let outbound := (events.map (·.token)).filter s.routes.ownsToken
  .client (if readable then maxUdpEventBurst else 0) outbound writable

def pollEvents : Run (Association ε ω) Point := fun s =>
  let now := (env.now s.world).1
  let s := { s with world := (env.now s.world).2 }
  let remaining := udpIdleTimeout - (now - s.lastActivity)
  if remaining = 0 then some (.ok (.returned (.ok ())), s)
  else
    match env.poll remaining s.world with
    | (.error e, world) =>
        if e.kind = .interrupted then some (.ok .top, { s with world })
          else some (.error e, { s with world })
    | (.ok events, world) =>
        let s := { s with world }
        if events.isEmpty then some (.ok (.returned (.ok ())), s)
        else
          match controlClosed env events s.world with
          | (.error e, world) => some (.error e, { s with world })
          | (.ok true, world) => some (.ok (.returned (.ok ())), { s with world })
          | (.ok false, world) => some (.ok (dispatch events s), { s with world })

variable {env} in
/-- A poll changes the world only. -/
theorem pollEvents_fields {s s' : Association ε ω} {result : Except IoError Point}
    (polled : pollEvents env s = some (result, s')) : s' = { s with world := s'.world } := by
  unfold pollEvents at polled
  dsimp only at polled
  split at polled
  · cases polled
    rfl
  split at polled
  · split at polled
    · cases polled
      rfl
    · cases polled
      rfl
  · split at polled
    · cases polled
      rfl
    split at polled
    · cases polled
      rfl
    · cases polled
      rfl
    · cases polled
      rfl

variable {env} in
/-- The calls of a poll are the clock, the poll and the reads of the control connection. -/
theorem pollEvents_world {W : ω → Prop} (now : ∀ {world}, W world → W (env.now world).2)
    (poll : ∀ timeout {world}, W world → W (env.poll timeout world).2)
    (control : ∀ limit {world}, W world → W (env.controlRead limit world).2)
      {s s' : Association ε ω}
    {result : Except IoError Point} (polled : pollEvents env s = some (result, s'))
    (start : W s.world) : W s'.world := by
  have timed := now start
  unfold pollEvents at polled
  dsimp only at polled
  split at polled
  · cases polled
    exact timed
  have waited := poll (udpIdleTimeout - ((env.now s.world).1 - s.lastActivity)) timed
  split at polled
  · rename_i answer
    rw [answer] at waited
    split at polled
    · cases polled
      exact waited
    · cases polled
      exact waited
  · rename_i events world answer
    rw [answer] at waited
    have closes := controlClosed_frame control events waited
    split at polled
    · cases polled
      exact waited
    split at polled
    · rename_i closed
      rw [closed] at closes
      cases polled
      exact closes
    · rename_i closed
      rw [closed] at closes
      cases polled
      exact closes
    · rename_i closed
      rw [closed] at closes
      cases polled
      exact closes

/-- One read from the relay socket. -/
def receiveClient (controlIp : IpAddr) (burst : Nat) (outbound : List Nat) (writable : Bool) :
    Run (Association ε ω) Point := fun s =>
  match env.recvFrom maxUdpPacket s.world with
  | (.ok (packet, source), world) =>
      let s := { s with world }
      if !isClientPacket source controlIp s.clientAddress then
        some (.ok (.client burst outbound writable), s)
      else
        (do
          let accepted ← handleUdpClientPacket env runtime outbounds packet
          Run.when accepted (accept env source)
          pure (Point.client burst outbound writable)) s
  | (.error e, world) =>
      if e.kind = .wouldBlock then
        some (.ok (.outbound outbound maxUdpEventBurst writable), { s with world })
      else if e.kind = .interrupted then
        some (.ok (.client burst outbound writable), { s with world })
      else some (.error e, { s with world })

/-- What a read from the relay socket comes to. -/
inductive ClientRead (controlIp : IpAddr) (burst : Nat) (outbound : List Nat) (writable : Bool)
    (s : Association ε ω) :
    Except IoError Point → Association ε ω → Prop where
  | foreign {packet : Bytes} {source : SocketAddr} {world : ω}
      (arrived : env.recvFrom maxUdpPacket s.world = (.ok (packet, source), world))
      (other : isClientPacket source controlIp s.clientAddress = false) :
      ClientRead controlIp burst outbound writable s
        (.ok (.client burst outbound writable)) { s with world }
  | refused {packet : Bytes} {source : SocketAddr} {world : ω} {s' : Association ε ω}
      (arrived : env.recvFrom maxUdpPacket s.world = (.ok (packet, source), world))
      (own : isClientPacket source controlIp s.clientAddress = true)
      (handled : handleUdpClientPacket env runtime outbounds packet { s with world } =
        some (.ok false, s')) :
      ClientRead controlIp burst outbound writable s (.ok (.client burst outbound writable)) s'
  | accepted {packet : Bytes} {source : SocketAddr} {world : ω} {s₁ s' : Association ε ω}
      (arrived : env.recvFrom maxUdpPacket s.world = (.ok (packet, source), world))
      (own : isClientPacket source controlIp s.clientAddress = true)
      (handled : handleUdpClientPacket env runtime outbounds packet { s with world } =
        some (.ok true, s₁))
      (accepts : accept env source s₁ = some (.ok (), s')) :
      ClientRead controlIp burst outbound writable s (.ok (.client burst outbound writable)) s'
  | drained {e : IoError} {world : ω}
      (answer : env.recvFrom maxUdpPacket s.world = (.error e, world))
      (blocks : e.kind = .wouldBlock) :
      ClientRead controlIp burst outbound writable s
        (.ok (.outbound outbound maxUdpEventBurst writable)) { s with world }
  | interrupted {e : IoError} {world : ω}
      (answer : env.recvFrom maxUdpPacket s.world = (.error e, world))
      (again : e.kind = .interrupted) :
      ClientRead controlIp burst outbound writable s
        (.ok (.client burst outbound writable)) { s with world }
  | failed {e : IoError} {world : ω}
      (answer : env.recvFrom maxUdpPacket s.world = (.error e, world))
      (hard : e.kind ≠ .wouldBlock ∧ e.kind ≠ .interrupted) :
      ClientRead controlIp burst outbound writable s (.error e) { s with world }

theorem receiveClient_cases {controlIp : IpAddr} {burst : Nat}
    {outbound : List Nat} {writable : Bool}
    {s s' : Association ε ω} {result : Except IoError Point}
    (received : receiveClient env runtime outbounds controlIp burst outbound writable s =
      some (result, s')) :
    ClientRead env runtime outbounds controlIp burst outbound writable s result s' := by
  unfold receiveClient at received
  split at received
  · rename_i packet source world arrived
    dsimp only at received
    split at received
    · rename_i other
      cases received
      exact .foreign arrived (by simpa using other)
    · rename_i own
      have own' : isClientPacket source controlIp s.clientAddress = true := by simpa using own
      rcases Run.bind_eq_some received with ⟨accepted, s₁, handled, rest⟩ | ⟨e, handled, -⟩
      · cases accepted with
        | true =>
            cases rest
            exact .accepted arrived own' handled rfl
        | false =>
            cases rest
            exact .refused arrived own' handled
      · cases handleUdpClientPacket_cases env runtime outbounds handled
  · rename_i e world answer
    split at received
    · rename_i blocks
      cases received
      exact .drained answer blocks
    rename_i waits
    split at received
    · rename_i again
      cases received
      exact .interrupted answer again
    · rename_i stops
      cases received
      exact .failed answer ⟨waits, stops⟩

/-- The receive step of the route that owns a token. -/
def receiveOutbound (token : Nat) : Run (Association ε ω) (Option ReceivedDatagram) :=
  Run.zoom (fun s => (s.routes, s.world)) (fun out s => { s with routes := out.1, world := out.2 })
    (DatagramRouteSet.receiveReady outbounds.execution token maxUdpPacket)

/-- The loop, up to its next point. -/
def proceed (controlIp : IpAddr) (rounds : Nat) : Point → Run (Association ε ω) Point
  | .top => pollEvents env
  | .client 0 outbound writable => pure (.outbound outbound maxUdpEventBurst writable)
  | .client (burst + 1) outbound writable =>
      receiveClient env runtime outbounds controlIp burst outbound writable
  | .outbound [] _ writable => pure (.replies writable)
  | .outbound (_ :: tokens) 0 writable => pure (.outbound tokens maxUdpEventBurst writable)
  | .outbound (token :: tokens) (burst + 1) writable => do
      match ← receiveOutbound outbounds token with
      | none => pure (.outbound tokens maxUdpEventBurst writable)
      | some received => do
          reply env received
          pure (.outbound (token :: tokens) burst writable)
  | .replies writable => do
      if writable then do
        let sent ← flushPendingClientReplies env rounds
        Run.when sent (touch env)
      updateRelayInterest env
      pure .top
  | .returned result => pure (.returned result)

/-- One step of `handle_udp_associate`; an error makes it return. -/
def step (controlIp : IpAddr) (rounds : Nat) (point : Point) (s : Association ε ω) :
    Option (Point × Association ε ω) :=
  match proceed env runtime outbounds controlIp rounds point s with
  | none => none
  | some (.ok point, s) => some (point, s)
  | some (.error e, s) => some (.returned (.error e), s)

/-- A step goes to the next point, or the loop returns the error. -/
theorem step_cases {controlIp : IpAddr} {rounds : Nat} {point point' : Point}
    {s s' : Association ε ω}
    (stepped : step env runtime outbounds controlIp rounds point s = some (point', s')) :
    proceed env runtime outbounds controlIp rounds point s = some (.ok point', s') ∨
      ∃ e, point' = .returned (.error e) ∧ proceed env runtime outbounds controlIp rounds point s =
        some (.error e, s') := by
  unfold step at stepped
  split at stepped
  · cases stepped
  · rename_i proceeded
    cases stepped
    exact .inl proceeded
  · rename_i e _ proceeded
    cases stepped
    exact .inr ⟨e, rfl, proceeded⟩

/-- The association as the loop finds it: the address of the client is known if its request named a
port. -/
def established (controlIp : IpAddr) (hint : UdpClientHint) (world : ω) : Association ε ω :=
  { world := (env.now world).2
    clientAddress := hint.port.map fun port => ⟨controlIp, port⟩
    lastActivity := (env.now world).1 }

/-- The points and states the loop comes to, by steps that each meet a condition. -/
inductive Reaches (Meets : Point → Association ε ω → Prop) (controlIp : IpAddr)
    (start : Association ε ω) : Point → Association ε ω → Prop
  | start : Reaches Meets controlIp start .top start
  | step (rounds : Nat) {point point' : Point} {s s' : Association ε ω} :
      Reaches Meets controlIp start point s → Meets point s →
        step env runtime outbounds controlIp rounds point s = some (point', s') →
          Reaches Meets controlIp start point' s'

/-- What the steps preserve holds throughout. -/
theorem Reaches.invariant {Meets I : Point → Association ε ω → Prop} {controlIp : IpAddr}
    {start : Association ε ω} (initial : I .top start)
    (preserved : ∀ rounds point s point' s', I point s → Meets point s →
      Socks5Udp.step env runtime outbounds controlIp rounds point s =
        some (point', s') → I point' s')
    {point : Point} {s : Association ε ω}
    (reached : Reaches env runtime outbounds Meets controlIp start point s) : I point s := by
  induction reached with
  | start => exact initial
  | step rounds _ meets stepped ih => exact preserved rounds _ _ _ _ ih meets stepped

/-- A number of steps. -/
def steps (controlIp : IpAddr) (rounds : Nat) : Nat → Point × Association ε ω →
    Option (Point × Association ε ω)
  | 0, s => some s
  | n + 1, s =>
      (step env runtime outbounds controlIp rounds s.1 s.2).bind (steps controlIp rounds n)

theorem Reaches.steps {controlIp : IpAddr} {rounds n : Nat} {start s s' : Association ε ω}
    {point point' : Point}
    (reached : Reaches env runtime outbounds (fun _ _ => True) controlIp start point s)
    (stepped : steps env runtime outbounds controlIp rounds n (point, s) = some (point', s')) :
    Reaches env runtime outbounds (fun _ _ => True) controlIp start point' s' := by
  induction n generalizing point s with
  | zero =>
      cases stepped
      exact reached
  | succ n ih =>
      obtain ⟨⟨point₁, s₁⟩, first, rest⟩ := Option.bind_eq_some_iff.mp stepped
      exact ih (.step rounds reached trivial first) rest

/-- One packet waits in the relay socket; the flag says whether it still does. -/
def Env.onePacket (packet : Bytes) (source : SocketAddr) : Env Bool where
  now world := (0, world)
  nextFlowId world := (1, world)
  poll _ := fun world => (.ok [⟨udpClientToken, { readable := true }⟩], world)
  controlRead _ := IoM.fail ⟨.wouldBlock, "no bytes"⟩
  recvFrom _ := fun waiting =>
    if waiting then (.ok (packet, source), false) else (.error ⟨.wouldBlock, "no packet"⟩, false)
  sendTo packet _ := pure packet.length
  reregister _ := pure ()

/-- The same, and when the packet is read the first route has an event. -/
def Env.packetThenRoute (packet : Bytes) (source : SocketAddr) : Env Bool :=
  { Env.onePacket packet source with
    poll := fun _ waiting =>
      if waiting then (.ok [⟨udpClientToken, { readable := true }⟩], waiting)
      else (.ok [⟨udpOutboundFirstToken, { readable := true }⟩], waiting) }

end Commeatus.Daemon.Socks5Udp
