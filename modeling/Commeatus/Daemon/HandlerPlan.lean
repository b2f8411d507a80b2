import Commeatus.Daemon.Handlers

/-!
What the handlers of TCP connections never do.

A handler is watched from its first action on: what it has read from its client
and written to it, and which carrier it has opened. `Permitted` says of every
action when it may be performed. A handler resolves, dials, writes and relays for
the target its client has asked for and the endpoint planned for it only; it
answers its client once, and positively only for a carrier that stands.
-/

namespace Commeatus.Daemon

open Commeatus.Lib Commeatus.Core Commeatus.Dns
open Handler Monitor

variable {η : Type}

/-! ### The watch -/

/-- What has been seen of the client's connection. `broken` is set when a write to it has failed,
and `handedOver` when it has been given to a relay or an association. -/
structure ClientSeen where
  received : Bytes := []
  sent : Bytes := []
  broken : Bool := false
  readBound : Bool := false
  writeBound : Bool := false
  original : Option SocketAddr := none
  flow : Option FlowId := none
  handedOver : Bool := false

/-- What has been seen of the outbound. -/
structure CarrierSeen (η : Type) where
  resolved : List IpAddr := []
  dialled : Option ScopedAddr := none
  secured : Option η := none

structure Watch (η : Type) where
  client : ClientSeen := {}
  carrier : CarrierSeen η := {}

namespace Watch

/-- What an event adds to what has been seen. -/
def next (w : Watch η) : HandlerEvent η → Watch η
  | ⟨.configure .client (.readTimeout limit), .ok ()⟩ => { w with client.readBound := limit.isSome }
  | ⟨.configure .client (.writeTimeout limit), .ok ()⟩ =>
      { w with client.writeBound := limit.isSome }
  | ⟨.readExact .client _, .ok bytes⟩ => { w with client.received := w.client.received ++ bytes }
  | ⟨.read .client _, .ok bytes⟩ => { w with client.received := w.client.received ++ bytes }
  | ⟨.writeAll .client bytes, .ok ()⟩ => { w with client.sent := w.client.sent ++ bytes }
  | ⟨.writeAll .client _, .error _⟩ => { w with client.broken := true }
  | ⟨.localAddr .client, .ok address⟩ => { w with client.original := some address }
  | ⟨.flowId, id⟩ => { w with client.flow := some id }
  | ⟨.resolve _, .ok addresses⟩ => { w with carrier.resolved := addresses }
  | ⟨.dial address _, .ok ()⟩ => { w with carrier.dialled := some address }
  | ⟨.secure serverName, .ok false⟩ => { w with carrier.secured := some serverName }
  | ⟨.relay, _⟩ => { w with client.handedOver := true }
  | ⟨.associate _ _, _⟩ => { w with client.handedOver := true }
  | _ => w

end Watch

/-- What is promised of the outside: a read that succeeds has filled its buffer. -/
def Answered (event : HandlerEvent η) : Prop :=
  match event with
  | ⟨.readExact _ count, .ok bytes⟩ => bytes.length = count
  | _ => True

/-! ### What is permitted -/

/-- The bytes are the whole of a SOCKS5 request. -/
def IsRequest (bytes : Bytes) (request : Socks5.Request) : Prop :=
  ∀ (s : ByteStream) (rest : Bytes), s.incoming = bytes ++ rest →
    Socks5.readRequest s = (.ok request, { s with incoming := rest })

/-- A greeting that offers no authentication. -/
inductive Greets : Bytes → Prop where
  | intro {count : UInt8} {methods : Bytes} (size : methods.length = count.toNat)
      (offers : (0x00 : UInt8) ∈ methods) :
      Greets (Socks5.version :: count :: methods)

/-- The client has sent a greeting and then this request. -/
def AsksSocks5 (c : ClientSeen) (request : Socks5.Request) : Prop :=
  ∃ greeting bytes, c.received = greeting ++ bytes ∧ Greets greeting ∧ IsRequest bytes request

/-- The client asks for a TCP connection to the target. -/
def Asks (protocol : ListenerProtocol) (c : ClientSeen) (target : Target) : Prop :=
  match protocol with
  | .socks5 => AsksSocks5 c (.connect target)
  | .httpConnect => ∃ head rest, FirstAt HttpConnect.headerEnd c.received head rest ∧
      HttpConnect.ConnectHead head target
  | .tproxyTcp => ∃ original, c.original = some original ∧ targetFromStream original = .ok target
  | .tproxyUdp => False

section Permission

variable (protocol : ListenerProtocol) (runtime : Runtime) (registry : Registry η)

/-- The endpoint is planned for what the client asks for. -/
def Decided (c : ClientSeen) (target : Target) (endpoint : Endpoint) : Prop :=
  Asks protocol c target ∧ ∃ id, c.flow = some id ∧
    planAction runtime target .tcp id = .route endpoint

/-- The endpoint is reached at the address: DIRECT at an address of the target, a proxy at its
own. -/
def ReachedAt (o : CarrierSeen η) (target : Target) (endpoint : Endpoint)
    (address : ScopedAddr) : Prop :=
  match endpoint with
  | .direct => address.port = target.port ∧ address.scopeId = 0 ∧
      match target.host with
      | .ip ip => address.ip = ip
      | .domain _ => address.ip ∈ o.resolved
  | .proxy id =>
      ∃ config, registry.endpoints.lookup id = some config ∧ config.transport.address = address

/-- The carrier of the endpoint stands: dialled where the endpoint is reached, and over TLS if the
endpoint has TLS or its protocol requires it. -/
def Carried (o : CarrierSeen η) (target : Target) (endpoint : Endpoint) : Prop :=
  ∃ address, o.dialled = some address ∧ ReachedAt registry o target endpoint address ∧
    ∀ id, endpoint = .proxy id → ∀ config, registry.endpoints.lookup id = some config →
      (∀ transport, config.transport = .tls transport → o.secured = some transport.serverName) ∧
        (config.protocol.capabilities.requiresTls = true → o.secured.isSome = true)

/-- A carrier stands for what is planned. -/
def Connected (w : Watch η) : Prop :=
  ∃ target endpoint, Decided protocol runtime w.client target endpoint ∧
    Carried registry w.carrier target endpoint

/-- What a handshake says for the target to the proxy of an endpoint. -/
inductive Speech (target : Target) : Endpoint → Bytes → Prop where
  | greeting {id : EndpointId} {config : EndpointConfig η}
      (registered : registry.endpoints.lookup id = some config)
      (speaks : config.protocol = .socks5) : Speech target (.proxy id) Socks5Protocol.greeting
  | request {id : EndpointId} {config : EndpointConfig η} {bytes : Bytes}
      (registered : registry.endpoints.lookup id = some config)
      (speaks : config.protocol = .socks5)
        (encoded : Socks5Protocol.connectRequest target = .ok bytes) :
      Speech target (.proxy id) bytes
  | piece {id : EndpointId} {config : EndpointConfig η} {text : Str}
      (registered : registry.endpoints.lookup id = some config)
      (speaks : config.protocol = .httpConnect) (piece : text ∈ Protocol.requestPieces target) :
      Speech target (.proxy id) (utf8 text)
  | trojan {id : EndpointId} {config : EndpointConfig η}
      {verifier : Trojan.TrojanVerifier} {bytes : Bytes}
      (registered : registry.endpoints.lookup id = some config)
        (speaks : config.protocol = .trojan verifier)
      (encoded : Trojan.encodeConnectRequest verifier target = .ok bytes) :
        Speech target (.proxy id) bytes

/-- What a client has sent behind the head of its CONNECT request. -/
def Tunnel (c : ClientSeen) (bytes : Bytes) : Prop :=
  protocol = .httpConnect ∧ c.sent = HttpConnect.established ∧
    ∃ head, FirstAt HttpConnect.headerEnd c.received head bytes

/-- What may be written to the client. -/
def Reply (w : Watch η) (bytes : Bytes) : Prop :=
  match protocol with
  | .socks5 =>
      (w.client.sent = [] ∧ (bytes = Socks5.methodAccepted ∨ bytes = Socks5.methodUnacceptable)) ∨
        (w.client.sent = Socks5.methodAccepted ∧ ∃ code address,
          bytes = Socks5.replyBytes code address ∧
          (code = 0 → Connected protocol runtime registry w ∨ ∃ hint,
            AsksSocks5 w.client (.udpAssociate hint)))
  | .httpConnect =>
      w.client.sent = [] ∧
        (bytes = HttpConnect.badRequest ∨ bytes = HttpConnect.badGateway ∨
          (bytes = HttpConnect.forbidden ∧ ∃ target id reason, Asks protocol w.client target ∧
            w.client.flow = some id ∧
            planAction runtime target .tcp id = .reject reason) ∨
          (bytes = HttpConnect.established ∧ Connected protocol runtime registry w))
  | _ => False

/-- The client has had its positive answer, and no timeout is left on its connection. -/
def Tunnelled (c : ClientSeen) : Prop :=
  match protocol with
  | .socks5 => (∃ address, c.sent = Socks5.methodAccepted ++ Socks5.replyBytes 0x00 address) ∧
      c.readBound = false ∧
      c.writeBound = false
  | .httpConnect => c.sent = HttpConnect.established ∧ c.readBound = false ∧ c.writeBound = false
  | .tproxyTcp => c.sent = [] ∧ c.readBound = false ∧ c.writeBound = false
  | .tproxyUdp => False

/-- When an action may be performed. -/
def Permitted (w : Watch η) : HandlerAct η → Prop
  | .readExact .client _ => w.client.readBound = true ∧ w.client.handedOver = false
  | .read .client _ => w.client.readBound = true ∧ w.client.handedOver = false
  | .writeAll .client bytes =>
      w.client.writeBound = true ∧ w.client.broken = false ∧ w.client.handedOver = false ∧
      Reply protocol runtime registry w bytes
  | .readExact .remote _ => Connected protocol runtime registry w
  | .read .remote _ => Connected protocol runtime registry w
  | .writeAll .remote bytes =>
      ∃ target endpoint, Decided protocol runtime w.client target endpoint ∧
      Carried registry w.carrier target endpoint ∧
        (Speech registry target endpoint bytes ∨ Tunnel protocol w.client bytes)
  | .flush .remote => Connected protocol runtime registry w
  | .flush .client => False
  | .resolve name =>
      ∃ target, Decided protocol runtime w.client target .direct ∧ target.host = .domain name
  | .dial address timeout => w.carrier.dialled = none ∧ 0 < timeout ∧
      ∃ target endpoint, Decided protocol runtime w.client target endpoint ∧
        ReachedAt registry w.carrier target endpoint address
  | .secure serverName =>
      ∃ target id config transport, Decided protocol runtime w.client target (.proxy id) ∧
      registry.endpoints.lookup id = some config ∧ config.transport = .tls transport ∧
        w.carrier.dialled = some transport.address ∧ serverName = transport.serverName
  | .relay => Connected protocol runtime registry w ∧ Tunnelled protocol w.client ∧
      w.client.broken = false ∧
      w.client.handedOver = false
  | .bindRelay _ => protocol = .socks5 ∧ ∃ hint, AsksSocks5 w.client (.udpAssociate hint)
  | .associate _ _ => protocol = .socks5 ∧ (∃ hint, AsksSocks5 w.client (.udpAssociate hint)) ∧
      Tunnelled protocol w.client ∧ w.client.broken = false
  | _ => True

/-- A handler is allowed what is permitted. -/
def planMonitor : Monitor (HandlerAct η) HandlerAns (Watch η) where
  allows := Permitted protocol runtime registry
  expects _ event := Answered event
  next := Watch.next

end Permission

section Watched

variable {protocol : ListenerProtocol} {runtime : Runtime} {registry : Registry η}
    {α β : Type} {w : Watch η}

/-- Watched from the given moment on, the program does what is permitted, and ends as the
postconditions say. -/
abbrev Watched (protocol : ListenerProtocol) (runtime : Runtime) (registry : Registry η)
    (p : Handler η α) (w : Watch η)
    (good : α → Watch η → Prop) (bad : IoError → Watch η → Prop) : Prop :=
  (planMonitor protocol runtime registry).Obeys p w (ends good bad)

/-- The client's connection is the handler's, and it has its timeouts. -/
structure Attended (c : ClientSeen) : Prop where
  readBound : c.readBound = true
  writeBound : c.writeBound = true
  whole : c.broken = false
  free : c.handedOver = false

/-! ### Single actions -/

theorem watched_configure {side : Side} {option : SocketOption} {good : Unit → Watch η → Prop}
    {bad : IoError → Watch η → Prop}
    (ok : good () (w.next ⟨.configure side option, .ok ()⟩)) (error : ∀ e, bad e w) :
    Watched protocol runtime registry (configure side option) w good bad := by
  apply Obeys.perform trivial
  intro answer _
  cases answer with
  | ok u => exact ok
  | error e =>
      cases side <;> cases option <;> exact error e

theorem watched_localAddr {side : Side} {good : SocketAddr → Watch η → Prop}
    {bad : IoError → Watch η → Prop}
    (ok : ∀ address, good address (w.next ⟨.localAddr side, .ok address⟩)) (error : ∀ e, bad e w) :
    Watched protocol runtime registry (localAddr side) w good bad := by
  apply Obeys.perform trivial
  intro answer _
  cases answer with
  | ok address => exact ok address
  | error e =>
      cases side <;> exact error e

theorem watched_flowId {good : FlowId → Watch η → Prop} {bad : IoError → Watch η → Prop}
    (ok : ∀ id, good id { w with client.flow := some id }) :
      Watched protocol runtime registry flowId w good bad := by
  apply Obeys.ofProg
  apply Obeys.perform trivial
  intro id _
  exact ok id

theorem watched_now {good : Nat → Watch η → Prop} {bad : IoError → Watch η → Prop}
    (ok : ∀ instant, good instant w) :
    Watched protocol runtime registry now w good bad := by
  apply Obeys.ofProg
  apply Obeys.perform trivial
  intro instant _
  exact ok instant

theorem watched_lift {result : Except IoError α} {good : α → Watch η → Prop}
    {bad : IoError → Watch η → Prop}
    (ok : ∀ a, result = .ok a → good a w) (error : ∀ e, bad e w) :
    Watched protocol runtime registry (Attempt.lift result) w good bad := by
  cases result with
  | ok a => exact ok a rfl
  | error e => exact error e

theorem watched_writeAll {bytes : Bytes} {good : Unit → Watch η → Prop}
    {bad : IoError → Watch η → Prop}
    (attended : Attended w.client) (permitted : Reply protocol runtime registry w bytes)
    (ok : good () { w with client.sent := w.client.sent ++ bytes })
    (error : ∀ e, bad e { w with client.broken := true }) :
    Watched protocol runtime registry (writeAll .client bytes) w good bad := by
  have allowed : Permitted protocol runtime registry w (.writeAll .client bytes) :=
    ⟨attended.writeBound, attended.whole, attended.free, permitted⟩
  apply Obeys.perform allowed
  intro answer _
  cases answer with
  | ok u => exact ok
  | error e => exact error e

theorem watched_dial {address : ScopedAddr} {timeout : Nat} {good : Unit → Watch η → Prop}
    {bad : IoError → Watch η → Prop}
    (first : w.carrier.dialled = none) (positive : 0 < timeout) {target : Target}
    {endpoint : Endpoint}
    (planned : Decided protocol runtime w.client target endpoint)
    (reached : ReachedAt registry w.carrier target endpoint address)
    (ok : good () { w with carrier.dialled := some address }) (error : ∀ e, bad e w) :
    Watched protocol runtime registry (dial address timeout) w good bad := by
  have allowed : Permitted protocol runtime registry w (.dial address timeout) :=
    ⟨first, positive, target, endpoint, planned, reached⟩
  apply Obeys.perform allowed
  intro answer _
  cases answer with
  | ok u => exact ok
  | error e => exact error e

/-! ### Readers -/

/-- The client has sent the bytes. -/
def Watch.take (w : Watch η) (bytes : Bytes) : Watch η :=
  { w with client.received := w.client.received ++ bytes }

/-- The program reads what the computation on a stream reads, and does nothing else. -/
def Takes (protocol : ListenerProtocol) (runtime : Runtime)
    (registry : Registry η) (p : Handler η α)
    (x : IoM ByteStream α) : Prop :=
  ∀ w : Watch η, Attended w.client →
    Watched protocol runtime registry p w
      (fun a w' => ∃ bytes, w' = w.take bytes ∧
        ∀ (s : ByteStream) (rest : Bytes), s.incoming = bytes ++ rest →
          x s = (.ok a, { s with incoming := rest }))
      (fun _ w' => ∃ bytes, w' = w.take bytes)

theorem Watch.take_nil (w : Watch η) : w.take [] = w := by simp [Watch.take]

theorem Attended.take {c : ClientSeen} (attended : Attended c) (bytes : Bytes) :
    Attended { c with received := c.received ++ bytes } :=
  ⟨attended.readBound, attended.writeBound, attended.whole, attended.free⟩

theorem Watch.take_take (w : Watch η) (bytes more : Bytes) :
    (w.take bytes).take more = w.take (bytes ++ more) := by
  simp [Watch.take]

theorem Takes.pure (a : α) :
    Takes protocol runtime registry (Pure.pure a : Handler η α) (Pure.pure a) := by
  intro w attended
  apply Obeys.pure
  refine ⟨[], w.take_nil.symm, fun s rest incoming => ?_⟩
  rw [List.nil_append] at incoming
  rw [← incoming]
  rfl

theorem Takes.fail (e : IoError) (x : IoM ByteStream α) :
    Takes protocol runtime registry (Attempt.fail e : Handler η α) x := by
  intro w attended
  apply Obeys.fail
  exact ⟨[], w.take_nil.symm⟩

theorem Takes.readExact (count : Nat) :
    Takes protocol runtime registry (readExact .client count : Handler η Bytes)
      (ByteStream.readExact count) := by
  intro w attended
  have allowed : Permitted protocol runtime registry w (.readExact .client count) :=
    ⟨attended.readBound, attended.free⟩
  apply Obeys.perform allowed
  intro answer filled
  cases answer with
  | ok bytes =>
      exact ⟨bytes, rfl, fun s rest incoming => ByteStream.readExact_append filled s rest incoming⟩
  | error e => exact ⟨[], w.take_nil.symm⟩

theorem Takes.bind {p : Handler η α} {x : IoM ByteStream α} {f : α → Handler η β}
    {g : α → IoM ByteStream β}
    (first : Takes protocol runtime registry p x)
    (next : ∀ a, Takes protocol runtime registry (f a) (g a)) :
    Takes protocol runtime registry (p >>= f) (x >>= g) := by
  intro w attended
  apply Obeys.bind
  apply (first w attended).ends_mono
  · rintro a w' ⟨bytes, rfl, reads⟩
    apply (next a (w.take bytes) (attended.take bytes)).ends_mono
    · rintro b w'' ⟨more, rfl, reads'⟩
      refine ⟨bytes ++ more, w.take_take bytes more, fun s rest incoming => ?_⟩
      rw [List.append_assoc] at incoming
      rw [IoM.bind_of_ok (reads s _ incoming)]
      exact reads' _ rest rfl
    · rintro e w'' ⟨more, rfl⟩
      exact ⟨bytes ++ more, w.take_take bytes more⟩
  · rintro e w' ⟨bytes, rfl⟩
    exact ⟨bytes, rfl⟩

theorem takes_readHost (addressType : UInt8) :
    Takes protocol runtime registry (Socks5.Client.readHost addressType : Handler η DestinationHost)
      (Socks5.readHost addressType) := by
  unfold Socks5.Client.readHost Socks5.readHost
  split
  · exact (Takes.readExact 4).bind fun bytes => .pure _
  split
  · apply (Takes.readExact 1).bind
    intro lengthByte
    dsimp only
    split
    · exact .fail _ _
    · apply (Takes.readExact _).bind
      intro bytes
      cases fromUtf8 bytes with
      | none => exact .fail _ _
      | some text =>
          dsimp only
          split
          · exact .fail _ _
          · exact .pure _
  split
  · exact (Takes.readExact 16).bind fun bytes => .pure _
  · exact .fail _ _

theorem takes_readAddress (addressType : UInt8) :
    Takes protocol runtime registry
      (Socks5.Client.readAddress addressType : Handler η (DestinationHost × UInt16))
      (Socks5.readAddress addressType) :=
  (takes_readHost addressType).bind fun _ => (Takes.readExact 2).bind fun _ => .pure _

/-! ### Handshakes -/

/-- Over a carrier that stands, the program speaks to the proxy only. -/
def Speaks (protocol : ListenerProtocol) (runtime : Runtime) (registry : Registry η)
    (target : Target) (endpoint : Endpoint)
    (p : Handler η α) : Prop :=
  ∀ w : Watch η, Decided protocol runtime w.client target endpoint →
    Carried registry w.carrier target endpoint →
    Watched protocol runtime registry p w (fun _ w' => w' = w) fun _ w' => w' = w

section Speaking

variable {target : Target} {endpoint : Endpoint}

theorem Speaks.pure (a : α) :
    Speaks protocol runtime registry target endpoint (Pure.pure a : Handler η α) := by
  intro w planned carried
  apply Obeys.pure
  rfl

theorem Speaks.fail (e : IoError) :
    Speaks protocol runtime registry target endpoint (Attempt.fail e : Handler η α) := by
  intro w planned carried
  apply Obeys.fail
  rfl

theorem Speaks.lift (result : Except IoError α) :
    Speaks protocol runtime registry target endpoint (Attempt.lift result : Handler η α) := by
  intro w planned carried
  apply watched_lift
  · intro a _
    rfl
  · intro e
    rfl

theorem Speaks.readExact (count : Nat) :
    Speaks protocol runtime registry target endpoint
      (readExact .remote count : Handler η Bytes) := by
  intro w planned carried
  have allowed : Permitted protocol runtime registry w (.readExact .remote count) :=
    ⟨target, endpoint, planned, carried⟩
  apply Obeys.perform allowed
  intro answer _
  cases answer <;> rfl

theorem Speaks.flush :
    Speaks protocol runtime registry target endpoint (flush .remote : Handler η Unit) := by
  intro w planned carried
  have allowed : Permitted protocol runtime registry w (.flush .remote) :=
    ⟨target, endpoint, planned, carried⟩
  apply Obeys.perform allowed
  intro answer _
  cases answer <;> rfl

theorem Speaks.writeAll {bytes : Bytes} (speech : Speech registry target endpoint bytes) :
    Speaks protocol runtime registry target endpoint (writeAll .remote bytes : Handler η Unit) := by
  intro w planned carried
  have allowed : Permitted protocol runtime registry w (.writeAll .remote bytes) :=
    ⟨target, endpoint, planned, carried, .inl speech⟩
  apply Obeys.perform allowed
  intro answer _
  cases answer <;> rfl

theorem Speaks.bind {p : Handler η α} {f : α → Handler η β}
    (first : Speaks protocol runtime registry target endpoint p)
    (next : ∀ a, Speaks protocol runtime registry target endpoint (f a)) :
    Speaks protocol runtime registry target endpoint (p >>= f) := by
  intro w planned carried
  apply Obeys.bind
  apply (first w planned carried).ends_mono
  · rintro a w' rfl
    exact next a w' planned carried
  · rintro e w' rfl
    rfl

theorem speaks_discardSocksAddress (addressType : UInt8) :
    Speaks protocol runtime registry target endpoint
      (Socks5Protocol.Remote.discardSocksAddress addressType : Handler η Unit) := by
  unfold Socks5Protocol.Remote.discardSocksAddress
  split
  · exact (Speaks.readExact 4).bind fun _ => .pure _
  split
  · exact (Speaks.readExact 1).bind fun _ => (Speaks.readExact _).bind fun _ => .pure _
  split
  · exact (Speaks.readExact 16).bind fun _ => .pure _
  · exact .fail _

theorem speaks_readReply :
    Speaks protocol runtime registry target endpoint
      (Socks5Protocol.Remote.readReply : Handler η Unit) := by
  apply (Speaks.readExact 4).bind
  intro reply
  split
  · exact .fail _
  split
  · exact .fail _
  · exact (speaks_discardSocksAddress _).bind fun _ => (Speaks.readExact 2).bind fun _ => .pure _

variable {id : EndpointId} {config : EndpointConfig η}
    (registered : registry.endpoints.lookup id = some config)

include registered

theorem speaks_socks5 (speaks : config.protocol = .socks5) :
    Speaks protocol runtime registry target (.proxy id)
      (Socks5Protocol.Remote.handshakeStream target) := by
  apply (Speaks.writeAll (.greeting registered speaks)).bind
  intro _
  apply Speaks.flush.bind
  intro _
  apply (Speaks.readExact 2).bind
  intro method
  split
  · exact .fail _
  cases encoded : Socks5Protocol.connectRequest target with
  | error e =>
      exact (Speaks.fail e : Speaks protocol runtime registry target (.proxy id)
        (Attempt.fail e : Handler η Unit))
  | ok request =>
      apply (Speaks.writeAll (.request registered speaks encoded)).bind
      intro _
      exact Speaks.flush.bind fun _ => speaks_readReply

theorem speaks_writePieces (speaks : config.protocol = .httpConnect) {pieces : List Str}
    (all : ∀ text ∈ pieces, text ∈ Protocol.requestPieces target) :
    Speaks protocol runtime registry target (.proxy id)
    (Protocol.Remote.writePieces pieces : Handler η Unit) := by
  induction pieces with
  | nil => exact .pure ()
  | cons text pieces ih =>
      apply (Speaks.writeAll (.piece registered speaks (all text List.mem_cons_self))).bind
      intro _
      exact ih fun other member => all other (List.mem_cons_of_mem _ member)

omit registered in
theorem speaks_readHttpResponseHead (remaining : Nat) (head : Bytes) :
    Speaks protocol runtime registry target endpoint
      (Protocol.Remote.readHttpResponseHead remaining head : Handler η Bytes) := by
  induction remaining generalizing head with
  | zero =>
      unfold Protocol.Remote.readHttpResponseHead
      split
      · exact .pure _
      · exact .fail _
  | succ remaining ih =>
      unfold Protocol.Remote.readHttpResponseHead
      split
      · exact .pure _
      · exact (Speaks.readExact 1).bind fun byte => ih _

theorem speaks_httpConnect (speaks : config.protocol = .httpConnect) :
    Speaks protocol runtime registry target (.proxy id)
      (Protocol.Remote.handshakeStream target) := by
  apply (speaks_writePieces registered speaks fun _ member => member).bind
  intro _
  apply Speaks.flush.bind
  intro _
  exact (speaks_readHttpResponseHead _ _).bind fun head => .lift _

theorem speaks_trojan {verifier : Trojan.TrojanVerifier}
    (speaks : config.protocol = .trojan verifier) :
    Speaks protocol runtime registry target (.proxy id)
      (Trojan.Remote.handshakeStream verifier target) := by
  unfold Trojan.Remote.handshakeStream
  cases encoded : Trojan.encodeConnectRequest verifier target with
  | error e =>
      exact (Speaks.fail e : Speaks protocol runtime registry target (.proxy id)
        (Attempt.fail e : Handler η Unit))
  | ok request => exact (Speaks.writeAll (.trojan registered speaks encoded)).bind fun _ => .flush

/-- Each protocol speaks to the proxy of its own endpoint. -/
theorem speaks_handshakeStream :
    Speaks protocol runtime registry target (.proxy id)
      (config.protocol.handshakeStream target) := by
  cases speaks : config.protocol with
  | socks5 => exact speaks_socks5 registered speaks
  | httpConnect => exact speaks_httpConnect registered speaks
  | trojan verifier => exact speaks_trojan registered speaks

end Speaking

/-! ### Carriers -/

/-- How opening an outbound ends: the client has seen nothing of it, and if it succeeds, the carrier
stands. -/
abbrev Opens (protocol : ListenerProtocol) (runtime : Runtime) (registry : Registry η)
    (target : Target) (endpoint : Endpoint)
    (p : Handler η Unit) (w : Watch η) : Prop :=
  Watched protocol runtime registry p w
    (fun _ w' => w'.client = w.client ∧ Carried registry w'.carrier target endpoint) fun _ w' =>
      w'.client = w.client

/-- A carrier of DIRECT needs nothing but its address. -/
theorem carried_direct {o : CarrierSeen η} {target : Target} {address : ScopedAddr}
    (dialled : o.dialled = some address)
    (reached : ReachedAt registry o target .direct address) : Carried registry o target .direct :=
  ⟨address, dialled, reached, fun _ no => by cases no⟩

theorem opens_connectAny {target : Target}
    (planned : Decided protocol runtime w.client target .direct)
    (first : w.carrier.dialled = none) (deadline : Nat) {addresses : List ScopedAddr}
    (lastError : Option IoError)
    (reached : ∀ address ∈ addresses, ReachedAt registry w.carrier target .direct address) :
    Opens protocol runtime registry target .direct (connectAny deadline addresses lastError) w := by
  induction addresses generalizing lastError with
  | nil =>
      apply Obeys.fail
      rfl
  | cons address addresses ih =>
      apply Obeys.bind
      apply watched_now
      intro instant
      dsimp only
      split
      · apply Obeys.fail
        rfl
      rename_i left
      apply Obeys.bind
      apply Obeys.caught
      apply watched_dial first (Nat.pos_of_ne_zero left) planned
        (reached address List.mem_cons_self)
      · apply watched_configure
        · exact ⟨rfl, carried_direct rfl (reached address List.mem_cons_self)⟩
        · intro e
          rfl
      · intro e
        exact ih (some e) fun other member => reached other (List.mem_cons_of_mem _ member)

/-- The candidates of a target are addresses at which DIRECT reaches it. -/
theorem watched_candidatesOf {target : Target}
    (planned : Decided protocol runtime w.client target .direct) :
    Watched protocol runtime registry (candidatesOf target) w
      (fun addresses w' => w'.client = w.client ∧ w'.carrier.dialled = w.carrier.dialled ∧
        ∀ address ∈ addresses, ReachedAt registry w'.carrier target .direct address)
      fun _ w' => w'.client = w.client := by
  have found : ∀ {resolved : Resolved} {addresses : List ScopedAddr},
    candidates target.port resolved = .ok addresses →
      ∃ ips, resolved = .ok ips ∧ addresses = ips.map fun ip => ⟨ip, target.port, 0⟩ := by
    intro resolved addresses made
    cases resolved with
    | error e => cases made
    | ok ips =>
        obtain ⟨-, same⟩ := refuse_bind_eq_ok_iff.mp made
        cases same
        exact ⟨ips, rfl, rfl⟩
  have ends_of : ∀ (resolved : Resolved) (w' : Watch η), w'.client = w.client →
    w'.carrier.dialled = w.carrier.dialled →
      (∀ ips, resolved = .ok ips → ∀ ip ∈ ips,
        ReachedAt registry w'.carrier target .direct ⟨ip, target.port, 0⟩) →
      ends (fun addresses w' => w'.client = w.client ∧ w'.carrier.dialled = w.carrier.dialled ∧
        ∀ address ∈ addresses, ReachedAt registry w'.carrier target .direct address)
          (fun _ w' => w'.client = w.client)
        (candidates target.port resolved) w' := by
    intro resolved w' client dialled reached
    cases made : candidates target.port resolved with
    | error e => exact client
    | ok addresses =>
        obtain ⟨ips, rfl, rfl⟩ := found made
        refine ⟨client, dialled, fun address member => ?_⟩
        obtain ⟨ip, inside, rfl⟩ := List.mem_map.mp member
        exact reached ips rfl ip inside
  unfold candidatesOf resolveTarget
  cases named : target.host with
  | ip ip =>
      apply ends_of (.ok [ip]) w rfl rfl
      intro ips same other member
      cases same
      obtain rfl := List.mem_singleton.mp member
      refine ⟨rfl, rfl, ?_⟩
      rw [named]
  | domain name =>
      have allowed : Permitted protocol runtime registry w (.resolve name) :=
        ⟨target, planned, named⟩
      refine ⟨allowed, fun resolved _ => ?_⟩
      cases resolved with
      | error e =>
          apply ends_of (.error e) _ rfl rfl
          intro ips no
          cases no
      | ok addresses =>
          apply ends_of (.ok addresses) (w.next ⟨.resolve name, .ok addresses⟩) rfl rfl
          intro ips same ip member
          cases same
          refine ⟨rfl, rfl, ?_⟩
          rw [named]
          exact member

theorem opens_connectDirect {target : Target}
    (planned : Decided protocol runtime w.client target .direct)
    (first : w.carrier.dialled = none) :
    Opens protocol runtime registry target .direct (connectDirect target) w := by
  apply Obeys.bind
  apply (watched_candidatesOf planned).ends_mono
  · rintro addresses w' ⟨client, dialled, reached⟩
    apply Obeys.bind
    apply watched_now
    intro start
    rw [← client] at planned
    apply (opens_connectAny planned (dialled.trans first) _ none reached).ends_mono
    · rintro u w'' ⟨same, carried⟩
      exact ⟨same.trans client, carried⟩
    · intro e w'' same
      exact same.trans client
  · intro e w' client
    exact client

section Proxies

variable {target : Target} {id : EndpointId} {config : EndpointConfig η}

theorem opens_connectCarrier {address : ScopedAddr} {endpoint : Endpoint}
    (planned : Decided protocol runtime w.client target endpoint) (first : w.carrier.dialled = none)
    (reached : ReachedAt registry w.carrier target endpoint address) :
    Watched protocol runtime registry (connectCarrier address) w
      (fun _ w' => w' = { w with carrier.dialled := some address }) fun _ w' =>
        w'.client = w.client := by
  apply Obeys.bind
  apply watched_dial first (by decide) planned reached
  · apply Obeys.bind
    apply watched_configure
    · apply Obeys.bind
      apply watched_configure
      · apply watched_configure
        · rfl
        · intro e
          rfl
      · intro e
        rfl
    · intro e
      rfl
  · intro e
    rfl

variable (secured : registry.Secured) (registered : registry.endpoints.lookup id = some config)

include secured registered

/-- The carrier of a proxy stands when it has been dialled, and secured if it is a TLS carrier. -/
theorem carried_proxy {o : CarrierSeen η} (dialled : o.dialled = some config.transport.address)
    (tls : ∀ transport, config.transport = .tls transport → o.secured = some transport.serverName) :
    Carried registry o target (.proxy id) := by
  refine ⟨config.transport.address, dialled, ⟨config, registered, rfl⟩, ?_⟩
  intro id' same config' registered'
  cases same
  cases registered.symm.trans registered'
  refine ⟨tls, fun required => ?_⟩
  have isTls := secured ⟨id, config⟩ (Map.mem_entries_iff.mpr registered) required
  cases carrier : config.transport with
  | tcp address =>
      rw [carrier] at isTls
      cases isTls
  | tls transport => rw [tls transport carrier]; rfl

theorem opens_connect (planned : Decided protocol runtime w.client target (.proxy id))
    (first : w.carrier.dialled = none) :
    Opens protocol runtime registry target (.proxy id) config.transport.connect w := by
  have reached : ReachedAt registry w.carrier target (.proxy id) config.transport.address :=
    ⟨config, registered, rfl⟩
  have stands (o : CarrierSeen η) (dialled : o.dialled = some config.transport.address)
      (tls : ∀ transport, config.transport = .tls transport →
        o.secured = some transport.serverName) :
      Carried registry o target (.proxy id) := carried_proxy secured registered dialled tls
  cases carrier : config.transport with
  | tcp address =>
      rw [carrier] at reached stands
      apply (opens_connectCarrier planned first reached).ends_mono
      · rintro u w' rfl
        exact ⟨rfl, stands _ rfl fun _ no => by cases no⟩
      · intro e w' client
        exact client
  | tls transport =>
      rw [carrier] at reached stands
      apply Obeys.bind
      apply (opens_connectCarrier planned first reached).ends_mono
      · rintro u w' rfl
        have allowed :
            Permitted protocol runtime registry
              { w with carrier.dialled := some transport.address }
              (.secure transport.serverName) :=
          ⟨target, id, config, transport, planned, registered, carrier, rfl, rfl⟩
        apply Obeys.bind
        apply Obeys.perform allowed
        intro answer _
        cases answer with
        | error e => rfl
        | ok handshaking =>
            cases handshaking with
            | true => rfl
            | false => exact ⟨rfl, stands _ rfl fun _ same => by cases same; rfl⟩
      · intro e w' client
        exact client

end Proxies

theorem opens_connectTcp (secured : registry.Secured) {target : Target} {endpoint : Endpoint}
    (planned : Decided protocol runtime w.client target endpoint)
    (first : w.carrier.dialled = none) :
    Opens protocol runtime registry target endpoint (registry.connectTcp endpoint target) w := by
  unfold Registry.connectTcp
  split
  · apply Obeys.fail
    rfl
  cases endpoint with
  | direct => exact opens_connectDirect planned first
  | proxy id =>
      dsimp only
      cases registered : registry.endpoints.lookup id with
      | none =>
          apply Obeys.fail
          rfl
      | some config =>
          apply Obeys.bind
          apply (opens_connect secured registered planned first).ends_mono
          · rintro u w' ⟨client, carried⟩
            rw [← client] at planned
            apply (speaks_handshakeStream registered w' planned carried).ends_mono
            · rintro u w'' rfl
              exact ⟨client, carried⟩
            · rintro e w'' rfl
              exact client
          · intro e w' client
            exact client

/-! ### Handlers -/

/-- Nothing is claimed of how a handler ends. -/
abbrev Complies (protocol : ListenerProtocol) (runtime : Runtime) (registry : Registry η)
    (p : Handler η α) (w : Watch η) :
    Prop :=
  Watched protocol runtime registry p w (fun _ _ => True) fun _ _ => True

theorem complies_boundClient_bind {f : Unit → Handler η α}
    (next : Complies protocol runtime registry (f ())
      { w with client := { w.client with readBound := true, writeBound := true } }) :
    Complies protocol runtime registry (boundClient >>= f) w := by
  apply Obeys.bind
  apply Obeys.bind
  apply watched_configure
  · apply watched_configure
    · exact next
    · intro e
      trivial
  · intro e
    trivial

theorem complies_unboundClient_bind {f : Unit → Handler η α}
    (next : Complies protocol runtime registry (f ())
      { w with client := { w.client with readBound := false, writeBound := false } }) :
    Complies protocol runtime registry (unboundClient >>= f) w := by
  apply Obeys.bind
  apply Obeys.bind
  apply watched_configure
  · apply watched_configure
    · exact next
    · intro e
      trivial
  · intro e
    trivial

/-- A last answer before the handler leaves with an error. -/
theorem complies_lastReply {bytes : Bytes} {e : IoError} (attended : Attended w.client)
    (permitted : Reply protocol runtime registry w bytes) :
    Complies protocol runtime registry
      (do
        let _ ← Attempt.caught (writeAll .client bytes)
        Attempt.fail e : Handler η α) w := by
  apply Obeys.bind
  apply Obeys.caught
  apply watched_writeAll attended permitted
  · trivial
  · intro e'
    trivial

theorem complies_relay (connected : Connected protocol runtime registry w)
    (tunnelled : Tunnelled protocol w.client)
    (whole : w.client.broken = false) (free : w.client.handedOver = false) :
    Complies protocol runtime registry (relay : Handler η Unit) w := by
  have allowed : Permitted protocol runtime registry w .relay := ⟨connected, tunnelled, whole, free⟩
  apply Obeys.perform allowed
  intro answer _
  cases answer <;> trivial

/-! ### SOCKS5 -/

theorem watched_negotiateMethod {runtime : Runtime} (attended : Attended w.client)
    (silent : w.client.sent = []) :
    Watched .socks5 runtime registry Socks5.Client.negotiateMethod w
      (fun _ w' => ∃ greeting, Greets greeting ∧
        w' = { w.take greeting with client.sent := Socks5.methodAccepted }) fun _ _ => True := by
  apply Obeys.bind
  apply (Takes.readExact 2 w attended).ends_mono
  · rintro header w' ⟨bytes, rfl, reads⟩
    -- The two octets that were read are what the client has sent.
    obtain ⟨first, -⟩ :=
      ByteStream.readExact_split (reads ⟨bytes, [], none, []⟩ [] (List.append_nil _).symm)
    have size : header.length = 2 :=
      (ByteStream.readExact_split (reads ⟨bytes, [], none, []⟩ [] (List.append_nil _).symm)).2
    rw [List.append_nil] at first
    change bytes = header at first
    subst first
    split
    · trivial
    rename_i valid
    obtain ⟨version, count, rfl⟩ : ∃ version count, bytes = [version, count] :=
      List.length_eq_two.mp size
    rw [not_or, not_not] at valid
    obtain ⟨isVersion, -⟩ := valid
    change version = Socks5.version at isVersion
    subst isVersion
    apply Obeys.bind
    apply (Takes.readExact count.toNat (w.take [Socks5.version, count]) (attended.take _)).ends_mono
    · rintro methods w'' ⟨more, rfl, reads'⟩
      obtain ⟨second, size'⟩ :=
        ByteStream.readExact_split (reads' ⟨more, [], none, []⟩ [] (List.append_nil _).symm)
      rw [List.append_nil] at second
      change more = methods at second
      subst second
      rw [Watch.take_take]
      have later := attended.take ([Socks5.version, count] ++ more)
      split
      · rename_i offers
        apply watched_writeAll later
        · exact .inl ⟨silent, .inl rfl⟩
        · refine ⟨_, .intro size' (List.contains_iff_mem.mp offers), ?_⟩
          have sent : (w.take ([Socks5.version, count] ++ more)).client.sent = [] := silent
          rw [sent]
          rfl
        · intro e
          trivial
      · apply Obeys.bind
        apply watched_writeAll later
        · exact .inl ⟨silent, .inr rfl⟩
        · trivial
        · intro e
          trivial
    · intro e w'' _
      trivial
  · intro e w' _
    trivial

theorem watched_readRequest {runtime : Runtime} (attended : Attended w.client)
    (accepted : w.client.sent = Socks5.methodAccepted) :
    Watched .socks5 runtime registry Socks5.Client.readRequest w
      (fun request w' => ∃ bytes, w' = w.take bytes ∧ IsRequest bytes request) fun _ _ => True := by
  apply Obeys.bind
  apply (Takes.readExact 4 w attended).ends_mono
  · rintro header w' ⟨bytes, rfl, reads⟩
    split
    · trivial
    rename_i valid
    apply Obeys.bind
    apply (takes_readAddress _ (w.take bytes) (attended.take bytes)).ends_mono
    · rintro ⟨host, port⟩ w'' ⟨more, rfl, reads'⟩
      rw [Watch.take_take]
      dsimp only
      split
      · rename_i connects
        apply Obeys.bind
        apply watched_lift
        · intro target made
          refine ⟨bytes ++ more, rfl, fun s rest incoming => ?_⟩
          rw [List.append_assoc] at incoming
          unfold Socks5.readRequest
          rw [IoM.bind_of_ok (reads s _ incoming), if_neg valid, IoM.bind_of_ok (reads' _ rest rfl)]
          dsimp only
          rw [if_pos connects, made]
          rfl
        · intro e
          trivial
      split
      · rename_i other associates
        refine ⟨bytes ++ more, rfl, fun s rest incoming => ?_⟩
        rw [List.append_assoc] at incoming
        unfold Socks5.readRequest
        rw [IoM.bind_of_ok (reads s _ incoming), if_neg valid, IoM.bind_of_ok (reads' _ rest rfl)]
        dsimp only
        rw [if_neg other, if_pos associates]
        rfl
      · have later := attended.take (bytes ++ more)
        apply Obeys.bind
        apply watched_writeAll later
        · refine .inr ⟨accepted, 0x07, none, rfl, fun no => ?_⟩
          exact absurd no (by decide)
        · trivial
        · intro e
          trivial
    · intro e w'' _
      trivial
  · intro e w' _
    trivial

theorem complies_handleConnect (secured : registry.Secured) (attended : Attended w.client)
    (undialled : w.carrier.dialled = none)
    (accepted : w.client.sent = Socks5.methodAccepted) {target : Target}
    (asks : AsksSocks5 w.client (.connect target)) :
    Complies .socks5 runtime registry (Socks5.handleConnect runtime registry target) w := by
  apply Obeys.bind
  apply watched_flowId
  intro id
  have later : Attended { w.client with flow := some id } :=
    ⟨attended.readBound, attended.writeBound, attended.whole, attended.free⟩
  cases plan : planAction runtime target .tcp id with
  | reject reason =>
      apply watched_writeAll later
      · refine .inr ⟨accepted, 0x02, none, rfl, fun no => ?_⟩
        exact absurd no (by decide)
      · trivial
      · intro e
        trivial
  | route endpoint =>
      have planned : Decided .socks5 runtime { w.client with flow := some id } target endpoint :=
        ⟨asks, id, rfl, plan⟩
      apply Obeys.bind
      apply Obeys.caught
      apply (opens_connectTcp (w := { w with client.flow := some id }) secured planned
        undialled).ends_mono
      · rintro u ⟨client, carrier⟩ ⟨same, carried⟩
        cases same
        have connected :
            Connected .socks5 runtime registry ⟨{ w.client with flow := some id }, carrier⟩ :=
          ⟨target, endpoint, planned, carried⟩
        apply Obeys.bind
        apply Obeys.caught
        -- Whether the local address is known or not, the reply is positive.
        have answers : ∀ bound : Except IoError SocketAddr, Complies .socks5 runtime registry
            (do
              Socks5.Client.writeReply 0x00 bound.toOption
              unboundClient
              relay) ⟨{ w.client with flow := some id }, carrier⟩ := by
          intro bound
          apply Obeys.bind
          apply watched_writeAll later
          · exact .inr ⟨accepted, 0x00, bound.toOption, rfl, fun _ => .inl connected⟩
          · apply complies_unboundClient_bind
            apply complies_relay
            · exact connected
            · refine ⟨⟨bound.toOption, ?_⟩, rfl, rfl⟩
              exact congrArg (· ++ Socks5.replyBytes 0x00 bound.toOption) accepted
            · exact later.whole
            · exact later.free
          · intro e
            trivial
        apply watched_localAddr
        · intro address
          exact answers (.ok address)
        · intro e
          exact answers (.error e)
      · rintro e ⟨client, carrier⟩ same
        cases same
        apply complies_lastReply later
        refine .inr ⟨accepted, Socks5.connectErrorCode e, none, rfl, fun no => ?_⟩
        unfold Socks5.connectErrorCode at no
        split at no <;> exact absurd no (by decide)

theorem complies_handleUdpAssociate (attended : Attended w.client)
    (accepted : w.client.sent = Socks5.methodAccepted)
    {hint : Socks5.UdpClientHint} (asks : AsksSocks5 w.client (.udpAssociate hint)) :
    Complies .socks5 runtime registry (Socks5.handleUdpAssociate hint) w := by
  apply Obeys.bind
  apply Obeys.perform trivial
  intro answer _
  cases answer with
  | error e => trivial
  | ok controlPeer =>
      dsimp only [ends]
      split
      · apply Obeys.bind
        apply watched_writeAll attended
        · refine .inr ⟨accepted, 0x02, none, rfl, fun no => ?_⟩
          exact absurd no (by decide)
        · trivial
        · intro e
          trivial
      · apply Obeys.bind
        apply watched_localAddr
        · intro controlLocal
          have asked : ∃ hint,
              AsksSocks5 { w.client with original := some controlLocal } (.udpAssociate hint) :=
            ⟨hint, asks⟩
          have allowed :
              Permitted .socks5 runtime registry { w with client.original := some controlLocal }
                (.bindRelay controlLocal.ip) :=
            ⟨rfl, asked⟩
          have later : Attended { w.client with original := some controlLocal } :=
            ⟨attended.readBound, attended.writeBound, attended.whole, attended.free⟩
          apply Obeys.bind
          apply Obeys.perform allowed
          intro answer _
          cases answer with
          | error e => trivial
          | ok relayAddress =>
              apply Obeys.bind
              apply watched_writeAll later
              · exact .inr ⟨accepted, 0x00, some relayAddress, rfl, fun _ => .inr asked⟩
              · apply complies_unboundClient_bind
                apply Obeys.bind
                apply watched_configure
                · have tunnelled : Tunnelled .socks5 { w.client with
                      original := some controlLocal
                      sent := w.client.sent ++ Socks5.replyBytes 0x00 (some relayAddress)
                      readBound := false
                      writeBound := false } :=
                    ⟨⟨some relayAddress, congrArg (· ++ Socks5.replyBytes 0x00 (some relayAddress))
                      accepted⟩, rfl, rfl⟩
                  refine ⟨⟨rfl, asked, tunnelled, later.whole⟩, ?_⟩
                  intro answer _
                  cases answer <;> trivial
                · intro e
                  trivial
              · intro e
                trivial
        · intro e
          trivial

theorem complies_socks5 (secured : registry.Secured) :
    Complies .socks5 runtime registry (Socks5.handle runtime registry) {} := by
  apply complies_boundClient_bind
  apply Obeys.bind
  apply (watched_negotiateMethod (w := { client := { readBound := true, writeBound := true } })
    ⟨rfl, rfl, rfl, rfl⟩ rfl).ends_mono
  · rintro u w' ⟨greeting, greets, rfl⟩
    have attended : Attended
        { received := greeting
          sent := Socks5.methodAccepted
          readBound := true
          writeBound := true } :=
      ⟨rfl, rfl, rfl, rfl⟩
    apply Obeys.bind
    apply (watched_readRequest attended rfl).ends_mono
    · rintro request w'' ⟨bytes, rfl, isRequest⟩
      have later := attended.take bytes
      cases request with
      | connect target =>
          exact complies_handleConnect secured later rfl rfl ⟨greeting, bytes, rfl,
            greets, isRequest⟩
      | udpAssociate hint =>
          exact complies_handleUdpAssociate later rfl ⟨greeting, bytes, rfl, greets, isRequest⟩
    · intro e w'' _
      trivial
  · intro e w' _
    trivial

/-! ### HTTP CONNECT -/

/-- The loop adds what it reads to its buffer, and ends where the buffer has an empty line. -/
theorem watched_readHead {buffer : Bytes} (attended : Attended w.client)
    (read : w.client.received = buffer) :
    Watched protocol runtime registry (HttpConnect.Client.readHead buffer) w
      (fun head w' => w' = { w with client.received := head.1 } ∧
        HttpConnect.findHeaderEnd head.1 = some head.2)
      (fun _ w' => ∃ received, w' = { w with client.received := received }) := by
  -- The induction is on the room that is left in the buffer.
  induction room : HttpConnect.maxHeaderBytes -
      buffer.length using Nat.strong_induction_on generalizing buffer w with
  | _ n ih =>
      cases found : HttpConnect.findHeaderEnd buffer with
      | some position =>
          rw [HttpConnect.Client.readHead_found found]
          subst read
          exact ⟨rfl, found⟩
      | none =>
          by_cases full : HttpConnect.maxHeaderBytes ≤ buffer.length
          · rw [HttpConnect.Client.readHead_full found full]
            exact ⟨w.client.received, rfl⟩
          rw [HttpConnect.Client.readHead_reads found full]
          refine ⟨⟨attended.readBound, attended.free⟩, fun answer _ => ?_⟩
          cases answer with
          | error e => exact ⟨w.client.received, rfl⟩
          | ok bytes =>
              cases bytes with
              | nil => exact ⟨w.client.received ++ [], rfl⟩
              | cons b chunk =>
                  have fewer : HttpConnect.maxHeaderBytes - (buffer ++ b :: chunk).length < n := by
                    rw [List.length_append, List.length_cons]
                    omega
                  have more : (w.take (b :: chunk)).client.received = buffer ++ b :: chunk := by
                    rw [← read]
                    rfl
                  exact ih _ fewer (attended.take (b :: chunk)) more rfl

/-- A request that is read is what the client asks for, and what was read behind its head is for the
tunnel. -/
theorem watched_httpRequest {runtime : Runtime} (attended : Attended w.client)
    (fresh : w.client.received = []) :
    Watched .httpConnect runtime registry HttpConnect.Client.readRequest w
      (fun request w' => ∃ received head, w' = { w with client.received := received } ∧
        FirstAt HttpConnect.headerEnd received head request.2 ∧
        HttpConnect.ConnectHead head request.1)
      (fun _ w' => ∃ received, w' = { w with client.received := received }) := by
  apply Obeys.bind
  apply (watched_readHead attended fresh).ends_mono
  · rintro ⟨buffer, position⟩ w' ⟨rfl, found⟩
    obtain ⟨head, rest, first, size⟩ := HttpConnect.findHeaderEnd_eq_some_iff.mp found
    dsimp only at first size
    have front : buffer.take position = head := by rw [first.split, List.take_left' size]
    have behind : buffer.drop (position + 4) = rest := by
      rw [first.split, ← List.append_assoc]
      exact List.drop_left' (by simp [HttpConnect.headerEnd, size])
    apply Obeys.bind
    apply watched_lift
    · intro target parsed
      dsimp only at parsed
      rw [front] at parsed
      refine ⟨buffer, head, rfl, ?_, HttpConnect.parseRequestHead_eq_ok_iff.mp parsed⟩
      dsimp only
      rw [behind]
      exact first
    · intro e
      exact ⟨buffer, rfl⟩
  · intro e w' received
    exact received

/-- What follows once the outbound has been opened. -/
theorem complies_tunnel {target : Target} {endpoint : Endpoint} {head buffered : Bytes}
    (attended : Attended w.client)
    (silent : w.client.sent = []) (planned : Decided .httpConnect runtime w.client target endpoint)
    (carried : Carried registry w.carrier target endpoint)
    (first : FirstAt HttpConnect.headerEnd w.client.received head buffered) :
    Complies .httpConnect runtime registry
      (do
        writeAll .client HttpConnect.established
        if buffered = [] then do
          unboundClient
          relay
        else do
          writeAll .remote buffered
          unboundClient
          relay) w := by
  have connected : Connected .httpConnect runtime registry w := ⟨target, endpoint, planned, carried⟩
  have answered : w.client.sent ++ HttpConnect.established = HttpConnect.established := by
    rw [silent, List.nil_append]
  have relays : Complies .httpConnect runtime registry
      (do
        unboundClient
        relay) { w with client.sent := w.client.sent ++ HttpConnect.established } := by
    apply complies_unboundClient_bind
    apply complies_relay
    · exact connected
    · exact ⟨answered, rfl, rfl⟩
    · exact attended.whole
    · exact attended.free
  apply Obeys.bind
  apply watched_writeAll attended
  · exact ⟨silent, .inr (.inr (.inr ⟨rfl, connected⟩))⟩
  · split
    · exact relays
    · have allowed :
        Permitted .httpConnect runtime registry
          { w with client.sent := w.client.sent ++ HttpConnect.established }
          (.writeAll .remote buffered) :=
            ⟨target, endpoint, planned, carried, .inr ⟨rfl, answered, head, first⟩⟩
      apply Obeys.bind
      apply Obeys.perform allowed
      intro answer _
      cases answer with
      | ok u => exact relays
      | error e => trivial
  · intro e
    trivial

theorem complies_serve (secured : registry.Secured) {target : Target} {head buffered : Bytes}
    (attended : Attended w.client)
    (silent : w.client.sent = []) (undialled : w.carrier.dialled = none)
    (first : FirstAt HttpConnect.headerEnd w.client.received head buffered)
    (connect : HttpConnect.ConnectHead head target) :
    Complies .httpConnect runtime registry
      (HttpConnect.Client.serve runtime registry target buffered) w := by
  apply Obeys.bind
  apply watched_flowId
  intro id
  have later : Attended { w.client with flow := some id } :=
    ⟨attended.readBound, attended.writeBound, attended.whole, attended.free⟩
  have asks : Asks .httpConnect { w.client with flow := some id } target :=
    ⟨head, buffered, first, connect⟩
  cases plan : planAction runtime target .tcp id with
  | reject reason =>
      apply watched_writeAll later
      · exact ⟨silent, .inr (.inr (.inl ⟨rfl, target, id, reason, asks, rfl, plan⟩))⟩
      · trivial
      · intro e
        trivial
  | route endpoint =>
      have planned :
          Decided .httpConnect runtime { w.client with flow := some id } target endpoint :=
        ⟨asks, id, rfl, plan⟩
      apply Obeys.bind
      apply Obeys.caught
      apply (opens_connectTcp (w := { w with client.flow := some id }) secured planned
        undialled).ends_mono
      · rintro u ⟨client, carrier⟩ ⟨same, carried⟩
        cases same
        exact complies_tunnel later silent planned carried first
      · rintro e ⟨client, carrier⟩ same
        cases same
        apply complies_lastReply later
        exact ⟨silent, .inr (.inl rfl)⟩

theorem complies_httpConnect (secured : registry.Secured) :
    Complies .httpConnect runtime registry (HttpConnect.Client.handle runtime registry) {} := by
  have attended : ∀ received :
      Bytes, Attended { received := received, readBound := true, writeBound := true } := fun _ =>
    ⟨rfl, rfl, rfl, rfl⟩
  apply complies_boundClient_bind
  apply Obeys.bind
  apply Obeys.caught
  apply (watched_httpRequest (w := { client := { readBound := true, writeBound := true } })
    (attended []) rfl).ends_mono
  · rintro ⟨target, buffered⟩ w' ⟨received, head, rfl, first, connect⟩
    exact complies_serve secured (attended received) rfl rfl first connect
  · rintro e w' ⟨received, rfl⟩
    apply complies_lastReply (attended received)
    exact ⟨rfl, .inl rfl⟩

/-! ### All handlers -/

theorem complies_transparentTcp (secured : registry.Secured) :
    Complies .tproxyTcp runtime registry (TransparentTcp.handle runtime registry) {} := by
  apply Obeys.bind
  apply watched_localAddr
  · intro original
    apply Obeys.bind
    apply watched_lift
    · intro target made
      apply Obeys.bind
      apply watched_flowId
      intro id
      cases plan : planAction runtime target .tcp id with
      | reject reason => trivial
      | route endpoint =>
          have planned :
              Decided .tproxyTcp runtime { original := some original, flow := some id }
                  target endpoint :=
            ⟨⟨original, rfl, made⟩, id, rfl, plan⟩
          apply Obeys.bind
          apply (opens_connectTcp
            (w := { client := { original := some original, flow := some id } }) secured planned
              rfl).ends_mono
          · rintro u ⟨client, carrier⟩ ⟨same, carried⟩
            cases same
            apply complies_relay
            · exact ⟨target, endpoint, planned, carried⟩
            · exact ⟨rfl, rfl, rfl⟩
            · rfl
            · rfl
          · intro e w' _
            trivial
    · intro e
      trivial
  · intro e
    trivial

theorem complies_handleConnection (secured : registry.Secured) (protocol : ListenerProtocol) :
    Complies protocol runtime registry (handleConnection protocol runtime registry) {} := by
  cases protocol with
  | socks5 => exact complies_socks5 secured
  | httpConnect => exact complies_httpConnect secured
  | tproxyTcp => exact complies_transparentTcp secured
  | tproxyUdp => trivial

end Watched

/-- In every run of a connection handler, whatever the client sends and the outside answers: each
action is permitted where the events before it have left the handler. Names are resolved, addresses
dialled and bytes sent for the target that the client asked for and the endpoint planned for it
only; what an outbound is told goes to its own carrier, which is a TLS session if its protocol
requires one; the client gets one answer, a positive one only for a carrier that stands; and the
relay starts only after it. -/
theorem handlers_keep_to_the_plan {protocol : ListenerProtocol} {runtime : Runtime}
    {registry : Registry η}
    {configs : List (EndpointConfig η)} (made : Registry.new configs = .ok registry)
    {before after : List (HandlerEvent η)} {event : HandlerEvent η}
    {left : Prog (HandlerAct η) HandlerAns (Except IoError Unit)}
    (path : Prog.Path (handleConnection protocol runtime registry) (before ++ event :: after) left)
    (answered : ∀ event' ∈ before ++ event :: after, Answered event') :
    Permitted protocol runtime registry (before.foldl Watch.next {}) event.1 := by
  have expected : ∀ (events : List (HandlerEvent η)) (w : Watch η),
    (∀ event' ∈ events, Answered event') →
      (planMonitor protocol runtime registry).Expected w events := by
    intro events
    induction events with
    | nil => exact fun _ _ => trivial
    | cons first rest ih =>
        intro w all
        exact ⟨all first List.mem_cons_self, ih _ fun other member =>
          all other (List.mem_cons_of_mem _ member)⟩
  exact allowed_of_path path (complies_handleConnection (Registry.secured_new made) protocol)
    (expected _ _ answered)

/-- A redirected connection, up to the dialling of its original destination. -/
def redirectedEvents : List (HandlerEvent Unit) :=
  [⟨.localAddr .client, .ok ⟨.v4 ⟨192, 0, 2, 1⟩, 80⟩⟩, ⟨.flowId, (1 : FlowId)⟩,
    ⟨.now, (5 : Nat)⟩, ⟨.now, (6 : Nat)⟩]

def redirectedDial : HandlerEvent Unit := ⟨.dial ⟨.v4 ⟨192, 0, 2, 1⟩, 80, 0⟩ 9999999999, .ok ()⟩

/-- The address that is dialled is that of a target the client asks for. -/
theorem handlers_keep_to_the_plan_example :
    Permitted .tproxyTcp HttpConnect.sampleRuntime {} (redirectedEvents.foldl Watch.next {})
      redirectedDial.1 := by
  have path :
    Prog.Path (handleConnection .tproxyTcp HttpConnect.sampleRuntime {})
      (redirectedEvents ++ [redirectedDial])
      (configure .remote .nodelay >>= fun _ => relay : Handler Unit Unit) :=
    .step _ (.step _ (.step _ (.step _ (.step _ (.here _)))))
  have answered : ∀ event ∈ redirectedEvents ++ [redirectedDial], Answered event := by
    simp [redirectedEvents, redirectedDial, Answered]
  exact handlers_keep_to_the_plan (show Registry.new [] = .ok {} from rfl) path answered

end Commeatus.Daemon
