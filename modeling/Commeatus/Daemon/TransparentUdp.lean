import Commeatus.Lib.Mio
import Commeatus.Daemon.Outbound

/-!
The transparent UDP executor (`serve_forever` in `daemon/src/transparent_udp.rs`).

One loop serves all clients of the listener. A client has its own set of
routes; the readiness tokens of all routes come from one allocator, and
`token_clients` leads from a token back to the client. Clients that have been
idle for too long are dropped, with their routes.
-/

namespace Commeatus.Daemon.TransparentUdp

open Commeatus.Lib Commeatus.Core

def inboundToken : Nat := 0
def outboundFirstToken : Nat := 1
def maxPacket : Nat := 65535
def maxEventBurst : Nat := 32
def maxClients : Nat := 512
def maxReplySockets : Nat := 256

/-- Durations and instants are nanoseconds. -/
def clientIdleTimeout : Nat := 120 * 10 ^ 9
def replySocketIdleTimeout : Nat := 120 * 10 ^ 9

/-- The control messages the listener looks at. -/
inductive ControlMessage where
  | ipv4OrigDstAddr (address : SocketAddr)
  | ipv6OrigDstAddr (address : SocketAddr)
  | other

/-- What `recvmsg` returns: the payload, the flags `MSG_TRUNC` and `MSG_CTRUNC`, the sender and the
control messages, if they can be read. -/
structure Message where
  payload : Bytes
  truncated : Bool := false
  controlTruncated : Bool := false
  address : Option SocketAddr
  cmsgs : Except IoError (List ControlMessage)

inductive RecvError where
  | again
  | interrupted
  | other (error : IoError)

/-- The calls of the executor on the outside. -/
structure Env (ω : Type) where
  now : ω → Nat × ω
  nextFlowId : ω → FlowId × ω
  poll : Option Nat → IoM ω (List PollEvent)
  recvmsg : Nat → ω → Except RecvError Message × ω
  bindTransparentReplySocket : SocketAddr → IoM ω Unit
  replySendTo : SocketAddr → Bytes → SocketAddr → IoM ω Nat

structure ReceivedTransparentDatagram where
  client : SocketAddr
  target : Target
  payload : Bytes
  deriving DecidableEq

structure ClientState (ε : Type) where
  routes : DatagramRouteSet ε := {}
  lastActivity : Nat

/-- The variables of the loop; a reply socket is known by its address and last use. -/
structure Listener (ε ω : Type) where
  world : ω
  clients : Map SocketAddr (ClientState ε) := ∅
  tokenClients : Map Nat SocketAddr := ∅
  tokens : DatagramTokenAllocator := ⟨outboundFirstToken⟩
  replySockets : Map SocketAddr Nat := ∅

variable {ε ω : Type} (env : Env ω) (runtime : Runtime) (outbounds : Outbounds ε ω)

/-- `Instant::now()`. -/
def instant : Run (Listener ε ω) Nat := fun s =>
  some (.ok (env.now s.world).1, { s with world := (env.now s.world).2 })

/-! ### Datagrams of the clients -/

/-- The original destination: the last control message that has one. -/
def originalDestination (cmsgs : List ControlMessage) : Option SocketAddr :=
  cmsgs.foldl (fun original cmsg =>
    match cmsg with
    | .ipv4OrigDstAddr address | .ipv6OrigDstAddr address => some address
    | .other => original) none

/-- The checks of `recv_original_datagram` on a message. -/
def Message.datagram (message : Message) : Except IoError ReceivedTransparentDatagram :=
  if message.truncated || message.controlTruncated then
    .error ⟨.invalidData, "transparent UDP datagram or original-destination metadata was truncated"⟩
  else
    match message.address with
    | none => .error ⟨.invalidData, "UDP client address missing"⟩
    | some client =>
        match message.cmsgs with
        | .error e => .error e
        | .ok cmsgs =>
            match originalDestination cmsgs with
            | none =>
                .error ⟨.invalidData,
                  "TPROXY UDP datagram arrived without original destination metadata"⟩
            | some original =>
                match Target.new (.ip original.ip) original.port with
                | .error e => .error e
                | .ok target => .ok ⟨client, target, message.payload⟩

/-- The target of a datagram is an address with its port. -/
theorem Message.datagram_target {message : Message} {received : ReceivedTransparentDatagram}
    (made : message.datagram = .ok received) :
    ∃ original : SocketAddr, received.target.host = .ip original.ip ∧
      received.target.port = original.port := by
  unfold datagram at made
  split at made
  · cases made
  split at made
  · cases made
  split at made
  · cases made
  split at made
  · cases made
  · split at made
    · cases made
    · rename_i original _ _ target new
      cases made
      obtain ⟨host, port⟩ := Target.new_eq_ok new
      exact ⟨original, host, port⟩

def recvOriginalDatagram : IoM ω (Option ReceivedTransparentDatagram) := fun world =>
  match env.recvmsg maxPacket world with
  | (.error .again, world) => (.ok none, world)
  | (.error .interrupted, world) => (.ok none, world)
  | (.error (.other e), world) => (.error e, world)
  | (.ok message, world) =>
      match message.datagram with
      | .error e => (.error e, world)
      | .ok received => (.ok (some received), world)

/-- What a read of a message comes to. -/
inductive OriginalRead (world : ω) :
    Except IoError (Option ReceivedTransparentDatagram) → ω → Prop where
  | again {world' : ω} (answer : env.recvmsg maxPacket world = (.error .again, world')) :
      OriginalRead world (.ok none) world'
  | interrupted {world' : ω}
      (answer : env.recvmsg maxPacket world = (.error .interrupted, world')) :
      OriginalRead world (.ok none) world'
  | failed {e : IoError} {world' : ω}
      (answer : env.recvmsg maxPacket world = (.error (.other e), world')) :
      OriginalRead world (.error e) world'
  | invalid {message : Message} {e : IoError} {world' : ω}
      (answer : env.recvmsg maxPacket world = (.ok message, world'))
      (checked : message.datagram = .error e) : OriginalRead world (.error e) world'
  | received {message : Message} {datagram : ReceivedTransparentDatagram} {world' : ω}
      (answer : env.recvmsg maxPacket world = (.ok message, world'))
        (checked : message.datagram = .ok datagram) :
      OriginalRead world (.ok (some datagram)) world'

theorem recvOriginalDatagram_cases {world world' : ω}
    {result : Except IoError (Option ReceivedTransparentDatagram)}
    (read : recvOriginalDatagram env world = (result, world')) :
    OriginalRead env world result world' := by
  unfold recvOriginalDatagram at read
  split at read
  · rename_i answer
    cases read
    exact .again answer
  · rename_i answer
    cases read
    exact .interrupted answer
  · rename_i answer
    cases read
    exact .failed answer
  · rename_i answer
    split at read
    · rename_i checked
      cases read
      exact .invalid answer checked
    · rename_i checked
      cases read
      exact .received answer checked

/-- The client is dropped, and its tokens with it. -/
def dropClient (s : Listener ε ω) (client : SocketAddr) : Listener ε ω :=
  match s.clients.lookup client with
  | none => s
  | some state =>
      { s with
        clients := s.clients.erase client
        tokenClients :=
          state.routes.ownedTokens.foldl (fun tokens token => tokens.erase token) s.tokenClients }

def cleanupIdleClients (now : Nat) (s : Listener ε ω) : Listener ε ω :=
  let expired := s.clients.entries.filter fun entry => clientIdleTimeout ≤
    now - entry.2.lastActivity
  (expired.map (·.1)).foldl dropClient s

/-- What every dropped client preserves, the cleanup preserves. -/
theorem cleanupIdleClients_induction {P : Listener ε ω → Prop}
    (each : ∀ s client state, s.clients.lookup client = some state → P s → P (dropClient s client))
    (now : Nat) {s : Listener ε ω} (start : P s) : P (cleanupIdleClients now s) := by
  have all : ∀ clients : List SocketAddr, P (clients.foldl dropClient s) := by
    intro clients
    induction clients generalizing s with
    | nil => exact start
    | cons client clients ih =>
        refine ih ?_
        cases found : s.clients.lookup client with
        | none =>
            rw [dropClient, found]
            exact start
        | some state => exact each s client state found start
  exact all _

/-- Work on the routes of a client that is there. -/
def onEgress {α : Type} (client : SocketAddr) (state : ClientState ε) (x : Run (Egress ε ω) α) :
    Run (Listener ε ω) α :=
  Run.zoom (fun s => ⟨state.routes, s.tokens, s.world⟩)
    (fun out s =>
      { s with
        clients := s.clients.insert client { state with routes := out.routes }
        tokens := out.tokens
        world := out.world }) x

/-- A new client is made room for, if there can be room. -/
def insertClient (client : SocketAddr) : Run (Listener ε ω) Bool := do
  let now ← instant env
  Run.modify (cleanupIdleClients now)
  fun s =>
    if maxClients ≤ s.clients.size then some (.ok false, s)
    else
      let lastActivity := (env.now s.world).1
      some (.ok true,
        { s with
          clients := s.clients.insert client { lastActivity }, world := (env.now s.world).2 })

/-- The tokens of the client's routes lead to the client. -/
def rememberTokens (client : SocketAddr) (s : Listener ε ω) : Listener ε ω :=
  match s.clients.lookup client with
  | none => s
  | some state =>
      { s with
        tokenClients :=
          state.routes.ownedTokens.foldl (fun tokens token => tokens.insert token client)
          s.tokenClients }

@[simp] theorem rememberTokens_clients (client : SocketAddr) (s : Listener ε ω) :
    (rememberTokens client s).clients = s.clients := by
  unfold rememberTokens
  split
  · rfl
  · rfl

@[simp] theorem rememberTokens_world (client : SocketAddr) (s : Listener ε ω) :
    (rememberTokens client s).world = s.world := by
  unfold rememberTokens
  split
  · rfl
  · rfl

/-- The send of `handle_inbound`, for a client that is there. A client that was inserted for it is
removed again where it fails. -/
def sendInbound (inserted : Bool) (client : SocketAddr) (endpoint : Endpoint) (target : Target)
    (payload : Bytes) : Run (Listener ε ω) Bool := fun s =>
  match s.clients.lookup client with
  | none => some (.ok false, s)
  | some state =>
      (do
        let sent ← Run.succeeds (onEgress client state
          (DatagramRouteSet.sendWith outbounds.execution outbounds.openDatagram endpoint
            target payload))
        if sent then Run.modify (rememberTokens client)
        else Run.when inserted (Run.modify fun s => { s with clients := s.clients.erase client })
        pure sent) s

/-- `handle_inbound`: whether the datagram was accepted by its route. -/
def handleInbound (received : ReceivedTransparentDatagram) : Run (Listener ε ω) Bool := fun s =>
  let id := (env.nextFlowId s.world).1
  let s := { s with world := (env.nextFlowId s.world).2 }
  match outbounds.select runtime received.target id with
  | none => some (.ok false, s)
  | some endpoint =>
      if (s.clients.lookup received.client).isSome then
        sendInbound outbounds false received.client endpoint received.target received.payload s
      else
        (do
          if ← insertClient env received.client then
            sendInbound outbounds true received.client endpoint received.target received.payload
          else pure false) s

/-- The listener after a send of a client: its routes are those that the send left. -/
def withEgress (client : SocketAddr) (state : ClientState ε) (out : Egress ε ω)
    (s : Listener ε ω) : Listener ε ω :=
  { s with
    clients := s.clients.insert client { state with routes := out.routes }
    tokens := out.tokens
    world := out.world }

/-- How the send of `handle_inbound` ends. -/
inductive InboundSend (inserted : Bool) (client : SocketAddr) (endpoint : Endpoint)
    (target : Target) (payload : Bytes)
    (s : Listener ε ω) : Except IoError Bool → Listener ε ω → Prop where
  | noClient (absent : s.clients.lookup client = none) :
      InboundSend inserted client endpoint target payload s (.ok false) s
  | accepted {state : ClientState ε} {out : Egress ε ω}
      (found : s.clients.lookup client = some state)
      (sending : DatagramRouteSet.sendWith outbounds.execution outbounds.openDatagram
        endpoint target payload
        ⟨state.routes, s.tokens, s.world⟩ = some (.ok (), out)) :
      InboundSend inserted client endpoint target payload s (.ok true)
        (rememberTokens client (withEgress client state out s))
  | removed {state : ClientState ε} {e : IoError} {out : Egress ε ω} (new : inserted = true)
      (found : s.clients.lookup client = some state)
      (sending : DatagramRouteSet.sendWith outbounds.execution outbounds.openDatagram
        endpoint target payload
        ⟨state.routes, s.tokens, s.world⟩ = some (.error e, out)) :
      InboundSend inserted client endpoint target payload s (.ok false)
        { withEgress client state out s with
          clients := (withEgress client state out s).clients.erase client }
  | remains {state : ClientState ε} {e : IoError} {out : Egress ε ω} (known : inserted = false)
      (found : s.clients.lookup client = some state)
      (sending : DatagramRouteSet.sendWith outbounds.execution outbounds.openDatagram
        endpoint target payload
        ⟨state.routes, s.tokens, s.world⟩ = some (.error e, out)) :
      InboundSend inserted client endpoint target payload s (.ok false)
        (withEgress client state out s)

theorem sendInbound_ends {inserted : Bool} {client : SocketAddr} {endpoint : Endpoint}
    {target : Target} {payload : Bytes}
    {s s' : Listener ε ω} {result : Except IoError Bool}
    (sent : sendInbound outbounds inserted client endpoint target payload s = some (result, s')) :
    InboundSend outbounds inserted client endpoint target payload s result s' := by
  unfold sendInbound at sent
  split at sent
  · rename_i absent
    cases sent
    exact .noClient absent
  · rename_i state found
    rcases Run.bind_eq_some sent with ⟨accepted, s₁, succeeds, rest⟩ | ⟨e, succeeds, -⟩
    · obtain ⟨outcome, out, sending, rfl, same⟩ := Run.of_succeeds_zoom succeeds
      cases same
      cases outcome with
      | ok done =>
          cases rest
          exact .accepted found sending
      | error e =>
          cases inserted with
          | true =>
              cases rest
              exact .removed rfl found sending
          | false =>
              cases rest
              exact .remains rfl found sending
    · obtain ⟨outcome, out, -, -, same⟩ := Run.of_succeeds_zoom succeeds
      cases same

/-! #### A datagram never fails the loop -/

theorem sendInbound_never {e : IoError} (inserted : Bool) (client : SocketAddr)
    (endpoint : Endpoint) (target : Target)
    (payload : Bytes) :
    Run.Never e (sendInbound (ε := ε) (ω := ω) outbounds inserted client endpoint
      target payload) := by
  intro s s' sent
  cases sendInbound_ends outbounds sent

theorem insertClient_never {e : IoError} (client : SocketAddr) :
    Run.Never e (insertClient (ε := ε) env client) := by
  refine Run.Never.bind (fun s s' h => nomatch h) fun now => Run.Never.bind (.modify _) fun _ => ?_
  intro s s' h
  dsimp only at h
  split at h
  · cases h
  · cases h

/-- What becomes of a datagram: nothing is planned for it, or its client is there, or is entered for
it if there is room. -/
inductive InboundHandling (received : ReceivedTransparentDatagram) (s : Listener ε ω) :
    Except IoError Bool → Listener ε ω → Prop where
  | unplanned (selected : outbounds.select runtime received.target (env.nextFlowId s.world).1 =
      none) :
      InboundHandling received s (.ok false) { s with world := (env.nextFlowId s.world).2 }
  | known {endpoint : Endpoint} {result : Except IoError Bool} {s' : Listener ε ω}
      (selected : outbounds.select runtime received.target (env.nextFlowId s.world).1 =
        some endpoint)
      (found : (s.clients.lookup received.client).isSome)
      (sent : sendInbound outbounds false received.client endpoint received.target received.payload
        { s with world := (env.nextFlowId s.world).2 } = some (result, s')) :
          InboundHandling received s result s'
  | full {endpoint : Endpoint} {s' : Listener ε ω}
      (selected : outbounds.select runtime received.target (env.nextFlowId s.world).1 =
        some endpoint)
      (absent : s.clients.lookup received.client = none)
      (inserts : insertClient env received.client { s with world := (env.nextFlowId s.world).2 } =
        some (.ok false, s')) :
      InboundHandling received s (.ok false) s'
  | entered {endpoint : Endpoint} {result : Except IoError Bool} {s₁ s' : Listener ε ω}
      (selected : outbounds.select runtime received.target (env.nextFlowId s.world).1 =
        some endpoint)
      (absent : s.clients.lookup received.client = none)
      (inserts : insertClient env received.client { s with world := (env.nextFlowId s.world).2 } =
        some (.ok true, s₁))
      (sent : sendInbound outbounds true received.client endpoint received.target received.payload
        s₁ = some (result, s')) :
      InboundHandling received s result s'

theorem handleInbound_ends {received : ReceivedTransparentDatagram} {s s' : Listener ε ω}
    {result : Except IoError Bool}
    (handled : handleInbound env runtime outbounds received s = some (result, s')) :
    InboundHandling env runtime outbounds received s result s' := by
  unfold handleInbound at handled
  dsimp only at handled
  split at handled
  · rename_i selected
    cases handled
    exact .unplanned selected
  rename_i endpoint selected
  split at handled
  · rename_i found
    exact .known selected found handled
  · rename_i unknown
    have absent : s.clients.lookup received.client = none := by simpa using unknown
    rcases Run.bind_eq_some handled with ⟨inserted, s₁, inserts, rest⟩ | ⟨e, inserts, -⟩
    · cases inserted with
      | true => exact .entered selected absent inserts rest
      | false =>
          cases rest
          exact .full selected absent inserts
    · exact absurd inserts (insertClient_never env received.client _ _)

theorem handleInbound_never {e : IoError} (received : ReceivedTransparentDatagram) :
    Run.Never e (handleInbound env runtime outbounds received) := by
  intro s s' handled
  cases handleInbound_ends env runtime outbounds handled with
  | known selected found sent => exact sendInbound_never outbounds _ _ _ _ _ _ _ sent
  | entered selected absent inserts sent => exact sendInbound_never outbounds _ _ _ _ _ _ _ sent

/-- `state.last_activity = Instant::now()` for a client that is there. -/
def touch (client : SocketAddr) : Run (Listener ε ω) Unit := fun s =>
  match s.clients.lookup client with
  | none => some (.ok (), s)
  | some state =>
      let lastActivity := (env.now s.world).1
      some (.ok (),
        { s with
          clients := s.clients.insert client { state with lastActivity }
          world := (env.now s.world).2 })

theorem touch_never {e : IoError} (client : SocketAddr) :
    Run.Never e (touch (ε := ε) env client) := by
  intro s s' h
  unfold touch at h
  split at h
  · cases h
  · cases h

/-! ### Replies -/

def cleanupExpired (now : Nat) (sockets : Map SocketAddr Nat) : Map SocketAddr Nat :=
  let expired := sockets.entries.filter fun entry => replySocketIdleTimeout ≤ now - entry.2
  (expired.map (·.1)).foldl (fun sockets source => sockets.erase source) sockets

def targetSocketAddr (target : Target) : Except IoError SocketAddr :=
  match target.host with
  | .ip ip => .ok ⟨ip, target.port⟩
  | .domain _ => .error ⟨.addrNotAvailable, "transparent UDP reply source must be an IP address"⟩

def isIpv4 (address : SocketAddr) : Bool :=
  match address.ip with
  | .v4 _ => true
  | .v6 _ => false

/-- The reply socket that was used least recently. -/
def oldest (sockets : Map SocketAddr Nat) : Option SocketAddr :=
  (sockets.entries.foldl (fun best entry =>
    match best with
    | none => some (entry.1, entry.2)
    | some (source, used) =>
        if entry.2 < used then some (entry.1, entry.2) else some (source, used))
    none).map (·.1)

/-- A reply socket for a source that has none; the oldest makes room for it. -/
def openReplySocket (source : SocketAddr) : Run (Listener ε ω) Unit := do
  let now ← instant env
  Run.modify fun s =>
    let sockets := cleanupExpired now s.replySockets
    let sockets := if maxReplySockets ≤ sockets.size then
      match oldest sockets with
      | none => sockets
      | some source => sockets.erase source
    else sockets
    { s with replySockets := sockets }
  fun s =>
    match env.bindTransparentReplySocket source s.world with
    | (.error e, world) => some (.error e, { s with world })
    | (.ok (), world) =>
        some (.ok (),
          { s with
            replySockets := s.replySockets.insert source (env.now world).1
            world := (env.now world).2 })

/-- `ReplySocketCache::send`. -/
def sendReply (source : Target) (client : SocketAddr) (payload : Bytes) :
    Run (Listener ε ω) Unit := fun s =>
  match targetSocketAddr source with
  | .error e => some (.error e, s)
  | .ok source =>
      if isIpv4 source != isIpv4 client then
        some (.error ⟨.invalidInput, "transparent UDP reply source/client address families differ"⟩,
          s)
      else
        (do
          Run.when (s.replySockets.lookup source).isNone (openReplySocket env source)
          fun s =>
            match env.replySendTo source payload client s.world with
            | (.error e, world) => some (.error e, { s with world })
            | (.ok sent, world) =>
                if sent ≠ payload.length then
                  some (.error ⟨.writeZero,
                    "transparent UDP reply reported a partial datagram send"⟩,
                    { s with world })
                else
                  some (.ok (), { s with
                    replySockets := s.replySockets.insert source (env.now world).1
                    world := (env.now world).2 })) s

/-! ### The loop -/

def nextClientTimeout (clients : Map SocketAddr (ClientState ε)) (now : Nat) : Option Nat :=
  (clients.entries.map fun entry => clientIdleTimeout - (now - entry.2.lastActivity)).min?

/-- Where the loop stands: before its poll; at the datagrams of the clients, with the number of
reads left in the burst; or at the datagrams of the routes whose tokens are ready. -/
inductive Point where
  | top
  | inbound (burst : Nat) (events : List PollEvent)
  | outbound (ready : List (Nat × SocketAddr)) (burst : Nat)
  | returned (result : Except IoError Unit)

def pollEvents : Run (Listener ε ω) Point := do
  let now ← instant env
  fun s =>
    match env.poll (nextClientTimeout s.clients now) s.world with
    | (.error e, world) =>
        if e.kind = .interrupted then some (.ok .top, { s with world })
          else some (.error e, { s with world })
    | (.ok events, world) =>
        let now := (env.now world).1
        let s := cleanupIdleClients now { s with world := (env.now world).2 }
        let readable := events.any fun e => e.token == inboundToken && e.readiness.readable
        some (.ok (.inbound (if readable then maxEventBurst else 0) events),
          { s with replySockets := cleanupExpired now s.replySockets })

/-- The events of known tokens, with their clients. -/
def outboundReady (events : List PollEvent) (s : Listener ε ω) : List (Nat × SocketAddr) :=
  events.filterMap fun event => (s.tokenClients.lookup event.token).map fun client =>
    (event.token, client)

/-- One read from the listening socket. -/
def receiveInbound (burst : Nat) (events : List PollEvent) : Run (Listener ε ω) Point := fun s =>
  match recvOriginalDatagram env s.world with
  | (.error e, world) => some (.error e, { s with world })
  | (.ok none, world) =>
      some (.ok (.outbound (outboundReady events s) maxEventBurst), { s with world })
  | (.ok (some received), world) =>
      (do
        let accepted ← handleInbound env runtime outbounds received
        Run.when accepted (touch env received.client)
        pure (Point.inbound burst events)) { s with world }

/-- What a read from the listening socket comes to. -/
inductive InboundRead (burst : Nat) (events : List PollEvent) (s : Listener ε ω) :
    Except IoError Point → Listener ε ω → Prop where
  | failed {e : IoError} {world : ω} (answer : recvOriginalDatagram env s.world =
      (.error e, world)) :
      InboundRead burst events s (.error e) { s with world }
  | drained {world : ω} (answer : recvOriginalDatagram env s.world = (.ok none, world)) :
      InboundRead burst events s (.ok (.outbound (outboundReady events s) maxEventBurst))
        { s with world }
  | arrived {received : ReceivedTransparentDatagram} {world : ω} {accepted : Bool}
      {s₁ s' : Listener ε ω}
      (answer : recvOriginalDatagram env s.world = (.ok (some received), world))
      (handled : handleInbound env runtime outbounds received { s with world } =
        some (.ok accepted, s₁))
      (touched : Run.when accepted (touch env received.client) s₁ = some (.ok (), s')) :
      InboundRead burst events s (.ok (.inbound burst events)) s'

theorem receiveInbound_cases {burst : Nat} {events : List PollEvent} {s s' : Listener ε ω}
    {result : Except IoError Point}
    (h : receiveInbound env runtime outbounds burst events s = some (result, s')) :
    InboundRead env runtime outbounds burst events s result s' := by
  unfold receiveInbound at h
  split at h
  · rename_i answer
    cases h
    exact .failed answer
  · rename_i answer
    cases h
    exact .drained answer
  · rename_i received world answer
    rcases Run.bind_eq_some h with ⟨accepted, s₁, handled, rest⟩ | ⟨e, handled, -⟩
    · rcases Run.bind_eq_some rest with ⟨_, s₂, touched, last⟩ | ⟨e, touched, -⟩
      · cases last
        exact .arrived answer handled touched
      · exact absurd touched ((touch_never env received.client).when _ _)
    · exact absurd handled (handleInbound_never env runtime outbounds received _ _)

/-- The receive step of a client's route. -/
def receiveOutbound (client : SocketAddr) (state : ClientState ε) (token : Nat) :
    Run (Listener ε ω) (Option ReceivedDatagram) :=
  Run.zoom (fun s => (state.routes, s.world))
    (fun out s =>
      { s with clients := s.clients.insert client { state with routes := out.1 }, world := out.2 })
    (DatagramRouteSet.receiveReady outbounds.execution token maxPacket)

/-- What a receive gave goes to the client; a failed reply is dropped. -/
def answer (token : Nat) (client : SocketAddr) (ready : List (Nat × SocketAddr)) (burst : Nat) :
    Option ReceivedDatagram → Run (Listener ε ω) Point
  | none => pure (.outbound ready maxEventBurst)
  | some received => do
      let sent ← Run.succeeds (sendReply env received.source client received.payload)
      Run.when sent (touch env client)
      pure (.outbound ((token, client) :: ready) burst)

/-- The loop, up to its next point. -/
def proceed : Point → Run (Listener ε ω) Point
  | .top => pollEvents env
  | .inbound 0 events => fun s => some (.ok (.outbound (outboundReady events s) maxEventBurst), s)
  | .inbound (burst + 1) events => receiveInbound env runtime outbounds burst events
  | .outbound [] _ => pure .top
  | .outbound (_ :: ready) 0 => pure (.outbound ready maxEventBurst)
  | .outbound ((token, client) :: ready) (burst + 1) => fun s =>
      match s.clients.lookup client with
      | none =>
          some (.ok (.outbound ready maxEventBurst),
            { s with tokenClients := s.tokenClients.erase token })
      | some state =>
          (do
            let received ← receiveOutbound outbounds client state token
            answer env token client ready burst received) s
  | .returned result => pure (.returned result)

/-- For a client that is there, its route's receive step comes first. -/
theorem proceed_receive {client : SocketAddr} {s : Listener ε ω} {state : ClientState ε}
    (found : s.clients.lookup client = some state) (token : Nat) (ready : List (Nat × SocketAddr))
    (burst : Nat) :
    proceed env runtime outbounds (.outbound ((token, client) :: ready) (burst + 1)) s =
      (receiveOutbound outbounds client state token >>= answer env token client ready burst) s := by
  rw [proceed]
  dsimp only
  rw [found]

/-- One step of `serve_forever`; an error makes it return. -/
def step (point : Point) (s : Listener ε ω) : Option (Point × Listener ε ω) :=
  match proceed env runtime outbounds point s with
  | none => none
  | some (.ok point, s) => some (point, s)
  | some (.error e, s) => some (.returned (.error e), s)

/-- A step goes to the next point, or the loop returns the error. -/
theorem step_cases {point point' : Point} {s s' : Listener ε ω}
    (stepped : step env runtime outbounds point s = some (point', s')) :
    proceed env runtime outbounds point s = some (.ok point', s') ∨
      ∃ e, point' = .returned (.error e) ∧ proceed env runtime outbounds point s =
        some (.error e, s') := by
  unfold step at stepped
  split at stepped
  · cases stepped
  · rename_i proceeded
    cases stepped
    exact .inl proceeded
  · rename_i e _ proceeded
    cases stepped
    exact .inr ⟨e, rfl, proceeded⟩

theorem proceed_of_step {env : Env ω} {runtime : Runtime} {outbounds : Outbounds ε ω}
    {point point' : Point}
    {s s' : Listener ε ω} (stepped : step env runtime outbounds point s = some (point', s')) :
    ∃ result, proceed env runtime outbounds point s = some (result, s') := by
  rcases step_cases env runtime outbounds stepped with proceeded | ⟨e, -, proceeded⟩
  · exact ⟨_, proceeded⟩
  · exact ⟨_, proceeded⟩

/-- The points and states the loop comes to, by steps that each meet a condition. -/
inductive Reaches (Meets : Point → Listener ε ω → Prop) (start : Listener ε ω) :
    Point → Listener ε ω → Prop
  | start : Reaches Meets start .top start
  | step {point point' : Point} {s s' : Listener ε ω} :
      Reaches Meets start point s → Meets point s →
        step env runtime outbounds point s = some (point', s') → Reaches Meets start point' s'

/-- What the steps preserve holds throughout. -/
theorem Reaches.invariant {Meets I : Point → Listener ε ω → Prop} {start : Listener ε ω}
    (initial : I .top start)
    (preserved : ∀ point s point' s', I point s → Meets point s →
      TransparentUdp.step env runtime outbounds point s = some (point', s') → I point' s')
    {point : Point} {s : Listener ε ω}
    (reached : Reaches env runtime outbounds Meets start point s) : I point s := by
  induction reached with
  | start => exact initial
  | step _ meets stepped ih => exact preserved _ _ _ _ ih meets stepped

/-- One message waits in the listening socket; the flag says whether it still does. -/
def Env.oneMessage (message : Message) (events : List PollEvent) : Env Bool where
  now world := (0, world)
  nextFlowId world := (1, world)
  poll _ := fun world => (.ok events, world)
  recvmsg _ := fun waiting => if waiting then (.ok message, false) else (.error .again, false)
  bindTransparentReplySocket _ := pure ()
  replySendTo _ payload _ := pure payload.length

/-- The messages wait in the listening socket; when all are read, the first route has an event. -/
def Env.messages : Env (List Message) where
  now waiting := (0, waiting)
  nextFlowId waiting := (1, waiting)
  poll _ := fun waiting =>
    if waiting.isEmpty then (.ok [⟨outboundFirstToken, { readable := true }⟩], waiting)
    else (.ok [⟨inboundToken, { readable := true }⟩], waiting)
  recvmsg _ := fun waiting =>
    match waiting with
    | [] => (.error .again, [])
    | message :: waiting => (.ok message, waiting)
  bindTransparentReplySocket _ := pure ()
  replySendTo _ payload _ := pure payload.length

/-- A datagram from the given client to an address behind the proxy, or to another one. -/
def messageFrom (client : UInt8) (proxied : Bool) : Message :=
  ⟨[7], false, false, some ⟨.v4 ⟨10, 0, 0, client⟩, 5000⟩,
    .ok [.ipv4OrigDstAddr ⟨.v4 (if proxied then ⟨1, 2, 3, 4⟩ else ⟨5, 6, 7, 8⟩), 80⟩]⟩

end Commeatus.Daemon.TransparentUdp
