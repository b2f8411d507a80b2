import Commeatus.Lib.Monitor
import Commeatus.Daemon.Candidates
import Commeatus.Daemon.HttpTunnel
import Commeatus.Daemon.Protocol
import Commeatus.Daemon.Registry
import Commeatus.Daemon.Socks5Outbound

/-!
What a connection handler does outside itself, and how it opens the outbound of a
TCP flow (`daemon/src/proxy.rs`, `daemon/src/outbound.rs`, `daemon/src/protocol.rs`,
`transport/src/lib.rs`, `transport/src/tls.rs`).

A handler is a program: sockets, clock, resolution and dialling are its actions,
and everything else is computed. The outside may answer an action in any way.
-/

namespace Commeatus.Daemon

open Commeatus.Lib Commeatus.Core Commeatus.Dns

/-- The two connections of a handler: the client it serves, and the carrier it has dialled last. -/
inductive Side where
  | client | remote
  deriving DecidableEq

inductive SocketOption where
  | readTimeout (limit : Option Nat)
  | writeTimeout (limit : Option Nat)
  | nodelay
  | nonblocking
  deriving DecidableEq

/-- The actions of a handler. `associate` is the datagram executor of an association, and `relay` is
what a carrier does in `relay_to_client`. -/
inductive HandlerAct (η : Type) where
  | configure (side : Side) (option : SocketOption)
  | readExact (side : Side) (count : Nat)
  | read (side : Side) (limit : Nat)
  | writeAll (side : Side) (bytes : Bytes)
  | flush (side : Side)
  | localAddr (side : Side)
  | peerAddr (side : Side)
  | flowId
  | now
  | resolve (name : Str)
  | dial (address : ScopedAddr) (timeout : Nat)
  | secure (serverName : η)
  | relay
  | bindRelay (ip : IpAddr)
  | associate (controlIp : IpAddr) (client : Option SocketAddr)
  deriving DecidableEq

/-- What an action gives back. A TLS handshake that ends says whether the connection is still
handshaking. -/
abbrev HandlerAns {η : Type} : HandlerAct η → Type
  | .configure _ _ => Except IoError Unit
  | .readExact _ _ => Except IoError Bytes
  | .read _ _ => Except IoError Bytes
  | .writeAll _ _ => Except IoError Unit
  | .flush _ => Except IoError Unit
  | .localAddr _ => Except IoError SocketAddr
  | .peerAddr _ => Except IoError SocketAddr
  | .flowId => FlowId
  | .now => Nat
  | .resolve _ => Resolved
  | .dial _ _ => Except IoError Unit
  | .secure _ => Except IoError Bool
  | .relay => Except IoError Unit
  | .bindRelay _ => Except IoError SocketAddr
  | .associate _ _ => Except IoError Unit

abbrev HandlerEvent (η : Type) : Type := Prog.Event (HandlerAct η) HandlerAns

/-- A function of a handler. -/
abbrev Handler (η α : Type) : Type := Attempt (HandlerAct η) HandlerAns IoError α

namespace Handler

variable {η : Type}

abbrev perform (action : HandlerAct η) : Prog (HandlerAct η) HandlerAns (HandlerAns action) :=
  Prog.perform action

def configure (side : Side) (option : SocketOption) : Handler η Unit :=
  perform (.configure side option)

def readExact (side : Side) (count : Nat) : Handler η Bytes := perform (.readExact side count)

def read (side : Side) (limit : Nat) : Handler η Bytes := perform (.read side limit)

def writeAll (side : Side) (bytes : Bytes) : Handler η Unit := perform (.writeAll side bytes)

def flush (side : Side) : Handler η Unit := perform (.flush side)

def localAddr (side : Side) : Handler η SocketAddr := perform (.localAddr side)

def peerAddr (side : Side) : Handler η SocketAddr := perform (.peerAddr side)

def flowId : Handler η FlowId := Attempt.ofProg (perform .flowId)

def now : Handler η Nat := Attempt.ofProg (perform .now)

def dial (address : ScopedAddr) (timeout : Nat) : Handler η Unit := perform (.dial address timeout)

def secure (serverName : η) : Handler η Bool := perform (.secure serverName)

def relay : Handler η Unit := perform .relay

def bindRelay (ip : IpAddr) : Handler η SocketAddr := perform (.bindRelay ip)

def associate (controlIp : IpAddr) (client : Option SocketAddr) : Handler η Unit :=
  perform (.associate controlIp client)

end Handler

open Handler

variable {η : Type}

/-! ### DIRECT (`proxy.rs`) -/

/-- `CONNECT_TIMEOUT`; the transports have the same. -/
def connectTimeout : Nat := 10 * 10 ^ 9

def handshakeTimeout : Nat := 10 * 10 ^ 9

def noneConnected : IoError := ⟨.timedOut, "no resolved address connected before timeout"⟩

/-- `resolve_target`: the engine's resolution of a name is one action here. -/
def candidatesOf (target : Target) : Handler η (List ScopedAddr) :=
  resolveTarget (m := Prog (HandlerAct η) HandlerAns) (fun name => perform (.resolve name)) target

/-- The loop of `connect_direct`: each address gets the time that is left, and the first that
connects ends the loop. -/
def connectAny (deadline : Nat) : List ScopedAddr → Option IoError → Handler η Unit
  | [], lastError => Attempt.fail (lastError.getD noneConnected)
  | address :: addresses, lastError => do
      let instant ← now
      let remaining := deadline - instant
      if remaining = 0 then Attempt.fail (lastError.getD noneConnected)
      else
        match ← Attempt.caught (dial address remaining) with
        | .ok () => configure .remote .nodelay
        | .error e => connectAny deadline addresses (some e)

def connectDirect (target : Target) : Handler η Unit := do
  let addresses ← candidatesOf target
  let start ← now
  connectAny (start + connectTimeout) addresses none

/-! ### Carriers (`transport`) -/

def connectCarrier (address : ScopedAddr) : Handler η Unit := do
  dial address connectTimeout
  configure .remote .nodelay
  configure .remote (.readTimeout (some handshakeTimeout))
  configure .remote (.writeTimeout (some handshakeTimeout))

def TransportConfig.address : TransportConfig η → ScopedAddr
  | .tcp address => address
  | .tls transport => transport.address

/-- `TransportConnector::connect`. -/
def TransportConfig.connect : TransportConfig η → Handler η Unit
  | .tcp address => connectCarrier address
  | .tls transport => do
      connectCarrier transport.address
      if ← secure transport.serverName then
        Attempt.fail ⟨.timedOut, "TLS handshake did not complete"⟩ else pure ()

/-! ### Handshakes (`protocol.rs`) -/

namespace Socks5Protocol

/-- `discard_socks_address`. -/
def Remote.discardSocksAddress (addressType : UInt8) : Handler η Unit :=
  if addressType = 0x01 then do
    let _ ← readExact .remote 4
    pure ()
  else if addressType = 0x03 then do
    let length ← readExact .remote 1
    let _ ← readExact .remote (byteAt length 0).toNat
    pure ()
  else if addressType = 0x04 then do
    let _ ← readExact .remote 16
    pure ()
  else Attempt.fail ⟨.invalidData, "unsupported upstream SOCKS5 bound address type"⟩

def Remote.readReply : Handler η Unit := do
  let reply ← readExact .remote 4
  if byteAt reply 0 ≠ 0x05 ∨ byteAt reply 2 ≠ 0x00 then
    Attempt.fail ⟨.invalidData, "invalid upstream SOCKS5 CONNECT reply"⟩
  else if byteAt reply 1 ≠ 0x00 then
    Attempt.fail ⟨.connectionRefused,
      "upstream SOCKS5 CONNECT failed with reply code " ++
        String.ofList (decimal (byteAt reply 1).toNat)⟩
  else do
    Remote.discardSocksAddress (byteAt reply 3)
    let _ ← readExact .remote 2
    pure ()

/-- `Socks5Protocol::handshake_stream`. -/
def Remote.handshakeStream (target : Target) : Handler η Unit := do
  writeAll .remote greeting
  flush .remote
  let method ← readExact .remote 2
  if method ≠ [0x05, 0x00] then
    Attempt.fail ⟨.permissionDenied, "upstream SOCKS5 proxy did not accept no-auth"⟩
  else do
    let request ← Attempt.lift (connectRequest target)
    writeAll .remote request
    flush .remote
    Remote.readReply

end Socks5Protocol

namespace Protocol

/-- The pieces in which `write!` writes the request. -/
def requestPieces (target : Target) : List Str :=
  ["CONNECT ".toList, targetAuthority target, " HTTP/1.1\r\nHost: ".toList, targetAuthority target,
    "\r\nProxy-Connection: Keep-Alive\r\n\r\n".toList]

def Remote.writePieces : List Str → Handler η Unit
  | [] => pure ()
  | piece :: pieces => do
      writeAll .remote (utf8 piece)
      Remote.writePieces pieces

def Remote.readHttpResponseHead : (remaining : Nat) → (head : Bytes) → Handler η Bytes
  | 0, head =>
      if HttpConnect.headerEnd <:+ head then pure head
      else Attempt.fail ⟨.invalidData, "upstream HTTP CONNECT response header is too large"⟩
  | remaining + 1, head =>
      if HttpConnect.headerEnd <:+ head then pure head
      else do
        let byte ← readExact .remote 1
        Remote.readHttpResponseHead remaining (head ++ byte)

/-- `HttpConnectProtocol::handshake_stream`. -/
def Remote.handshakeStream (target : Target) : Handler η Unit := do
  Remote.writePieces (requestPieces target)
  flush .remote
  let head ← Remote.readHttpResponseHead maxHttpResponseHead []
  Attempt.lift (checkResponse head)

theorem requestPieces_flatten (target : Target) :
    (requestPieces target).flatten = connectRequest target := by
  have joined : ∀ a b c d e : Str, [a, b, c, d, e].flatten = a ++ b ++ c ++ d ++ e := by simp
  exact joined _ _ _ _ _

end Protocol

namespace Trojan

/-- `TrojanProtocol::handshake_stream`: nothing is read back. -/
def Remote.handshakeStream (verifier : TrojanVerifier) (target : Target) : Handler η Unit := do
  let request ← Attempt.lift (encodeConnectRequest verifier target)
  writeAll .remote request
  flush .remote

end Trojan

def OutboundProtocol.handshakeStream : OutboundProtocol → Target → Handler η Unit
  | .socks5, target => Socks5Protocol.Remote.handshakeStream target
  | .httpConnect, target => Protocol.Remote.handshakeStream target
  | .trojan verifier, target => Trojan.Remote.handshakeStream verifier target

/-! ### The registry (`outbound.rs`) -/

def EndpointCapabilities.supportsTcp (c : EndpointCapabilities) : Bool := c.tcp

/-- `OutboundRegistry::connect_tcp`. -/
def Registry.connectTcp (registry : Registry η) (endpoint : Endpoint)
    (target : Target) : Handler η Unit :=
  if !(registry.capabilities endpoint).any EndpointCapabilities.supportsTcp then
    Attempt.fail ⟨.unsupported, "selected outbound endpoint does not support TCP"⟩
  else
    match endpoint with
    | .direct => connectDirect target
    | .proxy id =>
        match registry.endpoints.lookup id with
        | none =>
            Attempt.fail ⟨.notFound, "proxy endpoint `" ++ String.ofList id.value ++
              "` is not registered"⟩
        | some config => do
            config.transport.connect
            config.protocol.handshakeStream target

end Commeatus.Daemon
