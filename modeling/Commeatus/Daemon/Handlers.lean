import Commeatus.Daemon.Connector
import Commeatus.Daemon.ConfigFile

/-!
The handlers of accepted TCP connections (`daemon/src/socks5.rs`,
`daemon/src/http_connect.rs`, `daemon/src/transparent_tcp.rs`) and their dispatch
(`handle_connection` in `daemon/src/server.rs`).

The codecs above read from a byte stream that is given as a whole; here
they are written once more as programs, so that a handler can be watched action
by action.
-/

namespace Commeatus.Daemon

open Commeatus.Lib Commeatus.Core
open Handler

variable {η : Type}

/-- The timeouts under which a handler talks to its client. -/
def boundClient : Handler η Unit := do
  configure .client (.readTimeout (some handshakeTimeout))
  configure .client (.writeTimeout (some handshakeTimeout))

/-- A tunnel may be silent for any time. -/
def unboundClient : Handler η Unit := do
  configure .client (.readTimeout none)
  configure .client (.writeTimeout none)

/-! ### SOCKS5 -/

namespace Socks5

/-- `read_address`, up to the port. -/
def Client.readHost (addressType : UInt8) : Handler η DestinationHost :=
  if addressType = 0x01 then do
    let bytes ← readExact .client 4
    pure (.ip (.v4 (.ofOctets bytes)))
  else if addressType = 0x03 then do
    let lengthByte ← readExact .client 1
    let length := (byteAt lengthByte 0).toNat
    if length = 0 ∨ 253 < length then Attempt.fail (invalidData "invalid SOCKS5 domain length")
    else do
      let bytes ← readExact .client length
      match fromUtf8 bytes with
      | none => Attempt.fail (invalidData "SOCKS5 domain is not UTF-8")
      | some text =>
          let domain := toAsciiLowercase (trimEndMatches '.' text)
          if domain.isEmpty then Attempt.fail (invalidData "empty SOCKS5 domain")
          else pure (.domain domain)
  else if addressType = 0x04 then do
    let bytes ← readExact .client 16
    pure (.ip (.v6 (.ofOctets bytes)))
  else Attempt.fail (invalidData "unsupported SOCKS5 address type")

/-- `read_address`. -/
def Client.readAddress (addressType : UInt8) : Handler η (DestinationHost × UInt16) := do
  let host ← Client.readHost addressType
  let port ← readExact .client 2
  pure (host, fromBeBytes (byteAt port 0) (byteAt port 1))

/-- The address of a reply that has none. -/
def unspecified : SocketAddr := ⟨.v4 ⟨0, 0, 0, 0⟩, 0⟩

/-- What `write_reply` writes. -/
def replyBytes (code : UInt8) (address : Option SocketAddr) : Bytes :=
  let address := address.getD unspecified
  match address.ip with
  | .v4 ip => [version, code, 0x00, 0x01] ++ ip.octets ++ toBeBytes address.port
  | .v6 ip => [version, code, 0x00, 0x04] ++ ip.octets ++ toBeBytes address.port

def Client.writeReply (code : UInt8) (address : Option SocketAddr) : Handler η Unit :=
  writeAll .client (replyBytes code address)

/-- `read_request`. -/
def Client.readRequest : Handler η Request := do
  let header ← readExact .client 4
  if byteAt header 0 ≠ version ∨ byteAt header 2 ≠ 0 then
    Attempt.fail (invalidData "invalid SOCKS5 request header")
  else do
    let (host, port) ← Client.readAddress (byteAt header 3)
    if byteAt header 1 = commandConnect then do
      let target ← Attempt.lift (Target.new host port)
      pure (.connect target)
    else if byteAt header 1 = commandUdpAssociate then
      pure (.udpAssociate
        { ip := match host with
            | .ip address => if address.isUnspecified then none else some address
            | .domain _ => none
          port := if port ≠ 0 then some port else none })
    else do
      Client.writeReply 0x07 none
      Attempt.fail ⟨.unsupported, "SOCKS5 command is not CONNECT or UDP ASSOCIATE"⟩

def methodAccepted : Bytes := [version, 0x00]

def methodUnacceptable : Bytes := [version, 0xff]

/-- `negotiate_method`. -/
def Client.negotiateMethod : Handler η Unit := do
  let header ← readExact .client 2
  if byteAt header 0 ≠ version ∨ byteAt header 1 = 0 then
    Attempt.fail (invalidData "invalid SOCKS5 greeting")
  else do
    let methods ← readExact .client (byteAt header 1).toNat
    if methods.contains 0x00 then writeAll .client methodAccepted
    else do
      writeAll .client methodUnacceptable
      Attempt.fail ⟨.permissionDenied, "SOCKS5 client did not offer no-auth method"⟩

/-- `connect_error_code`. -/
def connectErrorCode (e : IoError) : UInt8 :=
  match e.kind with
  | .connectionRefused => 0x05
  | .timedOut => 0x04
  | .permissionDenied => 0x02
  | .notFound => 0x04
  | .addrNotAvailable => 0x04
  | .unsupported => 0x07
  | _ => 0x01

/-- `handle_connect`. -/
def handleConnect (runtime : Runtime) (registry : Registry η)
    (target : Target) : Handler η Unit := do
  let id ← flowId
  match planAction runtime target .tcp id with
  | .reject _ => Client.writeReply 0x02 none
  | .route endpoint =>
      match ← Attempt.caught (registry.connectTcp endpoint target) with
      | .error e =>
          let _ ← Attempt.caught (Client.writeReply (connectErrorCode e) none)
          Attempt.fail e
      | .ok () =>
          let bound ← Attempt.caught (localAddr .remote)
          Client.writeReply 0x00 bound.toOption
          unboundClient
          relay

/-- `handle_udp_associate`, up to its loop: the loop is the action `associate`. -/
def handleUdpAssociate (hint : UdpClientHint) : Handler η Unit := do
  let controlPeer ← peerAddr .client
  if hint.ip.any (· != controlPeer.ip) then do
    Client.writeReply 0x02 none
    Attempt.fail ⟨.permissionDenied, "SOCKS5 UDP client hint does not match TCP control peer"⟩
  else do
    let controlLocal ← localAddr .client
    let relayAddress ← bindRelay controlLocal.ip
    Client.writeReply 0x00 (some relayAddress)
    unboundClient
    configure .client .nonblocking
    associate controlPeer.ip (hint.port.map fun port => ⟨controlPeer.ip, port⟩)

/-- `handle`. -/
def handle (runtime : Runtime) (registry : Registry η) : Handler η Unit := do
  boundClient
  Client.negotiateMethod
  match ← Client.readRequest with
  | .connect target => handleConnect runtime registry target
  | .udpAssociate hint => handleUdpAssociate hint

end Socks5

/-! ### HTTP CONNECT -/

namespace HttpConnect

/-- The read loop of `read_request`. -/
def Client.readHead (buffer : Bytes) : Handler η (Bytes × Nat) :=
  match findHeaderEnd buffer with
  | some position => Prog.done (.ok (buffer, position))
  | none =>
      if _ : maxHeaderBytes ≤ buffer.length then
        Prog.done (.error (invalidData "HTTP CONNECT header is too large"))
      else
        Prog.act (HandlerAct.read .client (min (maxHeaderBytes - buffer.length) 1024)) fun
          | .error e => Prog.done (.error e)
          | .ok [] =>
              Prog.done (.error ⟨.unexpectedEof,
                "HTTP CONNECT client closed before headers completed"⟩)
          | .ok (b :: chunk) => Client.readHead (buffer ++ b :: chunk)
termination_by maxHeaderBytes - buffer.length
decreasing_by simp only [List.length_append, List.length_cons]; omega

theorem Client.readHead_found {buffer : Bytes} {position : Nat}
    (found : findHeaderEnd buffer = some position) :
    Client.readHead buffer = (Prog.done (.ok (buffer, position)) : Handler η (Bytes × Nat)) := by
  rw [Client.readHead.eq_def, found]

theorem Client.readHead_full {buffer : Bytes} (none : findHeaderEnd buffer = none)
    (full : maxHeaderBytes ≤ buffer.length) :
    Client.readHead buffer =
      (Prog.done (.error (invalidData "HTTP CONNECT header is too large")) :
        Handler η (Bytes × Nat)) := by
  rw [Client.readHead.eq_def, none]
  exact dif_pos full

theorem Client.readHead_reads {buffer : Bytes} (none : findHeaderEnd buffer = none)
    (room : ¬ maxHeaderBytes ≤ buffer.length) :
    Client.readHead buffer =
      (Prog.act (HandlerAct.read .client (min (maxHeaderBytes - buffer.length) 1024)) fun
        | .error e => Prog.done (.error e)
        | .ok [] =>
            Prog.done (.error ⟨.unexpectedEof,
              "HTTP CONNECT client closed before headers completed"⟩)
        | .ok (b :: chunk) =>
            Client.readHead (buffer ++ b :: chunk) : Handler η (Bytes × Nat)) := by
  rw [Client.readHead.eq_def, none]
  exact dif_neg room

/-- `read_request`. -/
def Client.readRequest : Handler η (Target × Bytes) := do
  let head ← Client.readHead []
  let target ← Attempt.lift (parseRequestHead (head.1.take head.2))
  pure (target, head.1.drop (head.2 + 4))

/-- What `handle` does for a request that was read. -/
def Client.serve (runtime : Runtime) (registry : Registry η) (target : Target)
    (buffered : Bytes) : Handler η Unit := do
  let id ← flowId
  match planAction runtime target .tcp id with
  | .reject _ => writeAll .client forbidden
  | .route endpoint =>
      match ← Attempt.caught (registry.connectTcp endpoint target) with
      | .error e =>
          let _ ← Attempt.caught (writeAll .client badGateway)
          Attempt.fail e
      | .ok () =>
          writeAll .client established
          if buffered = [] then do
            unboundClient
            relay
          else do
            writeAll .remote buffered
            unboundClient
            relay

/-- `handle`. -/
def Client.handle (runtime : Runtime) (registry : Registry η) : Handler η Unit := do
  boundClient
  match ← Attempt.caught Client.readRequest with
  | .error e =>
      let _ ← Attempt.caught (writeAll .client badRequest)
      Attempt.fail e
  | .ok (target, buffered) => Client.serve runtime registry target buffered

end HttpConnect

/-! ### Transparent TCP -/

namespace TransparentTcp

/-- The reason as `{:?}` shows it. -/
def reasonText : RejectReason → String
  | .policy => "Policy"
  | .security => "Security"
  | .unsupported => "Unsupported"

/-- `handle`: the local address of a redirected connection is its original destination. -/
def handle (runtime : Runtime) (registry : Registry η) : Handler η Unit := do
  let original ← localAddr .client
  let target ← Attempt.lift (targetFromStream original)
  let id ← flowId
  match planAction runtime target .tcp id with
  | .route endpoint =>
      registry.connectTcp endpoint target
      relay
  | .reject reason =>
      Attempt.fail ⟨.permissionDenied, "transparent TCP flow rejected by policy: " ++
        reasonText reason⟩

end TransparentTcp

/-- `handle_connection`. -/
def handleConnection (protocol : ListenerProtocol) (runtime : Runtime)
    (registry : Registry η) : Handler η Unit :=
  match protocol with
  | .socks5 => Socks5.handle runtime registry
  | .httpConnect => HttpConnect.Client.handle runtime registry
  | .tproxyTcp => TransparentTcp.handle runtime registry
  | .tproxyUdp => Attempt.fail ⟨.invalidInput, "UDP listener cannot enter TCP connection dispatch"⟩

end Commeatus.Daemon
