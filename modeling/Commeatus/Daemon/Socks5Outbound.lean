import Commeatus.Daemon.Socks5Codec
import Commeatus.Daemon.TransparentUdp
import Commeatus.Daemon.Trojan
import Commeatus.Lib.Fallible

/-!
The SOCKS5 outbound (`daemon/src/protocol.rs`), and how the targets of the
inbounds come through a chain of proxies.

The encoders allow longer names than the readers do, and the readers lowercase
and trim what they read. What an inbound lets in is short enough and stays as
it is under both, so the daemon's own readers get back the target that was
written.
-/

namespace Commeatus.Daemon

open Commeatus.Lib Commeatus.Core

/-- `target_from_stream` of the transparent TCP inbound: the local address of the stream is its
original destination. -/
def targetFromStream (localAddr : SocketAddr) : Except IoError Target :=
  Target.new (.ip localAddr.ip) localAddr.port

namespace Socks5Protocol

/-- `encode_socks_address`. -/
def encodeSocksAddress (host : DestinationHost) : Except IoError Bytes :=
  match host with
  | .ip (.v4 address) => .ok (0x01 :: address.octets)
  | .domain domain =>
      if 255 < byteLen domain then .error ⟨.invalidInput, "SOCKS5 domain is too long"⟩
      else if byteLen domain = 0 then .error ⟨.invalidInput, "SOCKS5 domain must not be empty"⟩
      else .ok (0x03 :: UInt8.ofNat (byteLen domain) :: utf8 domain)
  | .ip (.v6 address) => .ok (0x04 :: address.octets)

/-- `discard_socks_address`. -/
def discardSocksAddress (addressType : UInt8) : IoM ByteStream Unit :=
  if addressType = 0x01 then do
    let _ ← ByteStream.readExact 4
    pure ()
  else if addressType = 0x03 then do
    let length ← ByteStream.readExact 1
    let _ ← ByteStream.readExact (byteAt length 0).toNat
    pure ()
  else if addressType = 0x04 then do
    let _ ← ByteStream.readExact 16
    pure ()
  else IoM.fail ⟨.invalidData, "unsupported upstream SOCKS5 bound address type"⟩

/-- The CONNECT request that `handshake_stream` writes. -/
def connectRequest (target : Target) : Except IoError Bytes := do
  let address ← encodeSocksAddress target.host
  return [0x05, 0x01, 0x00] ++ address ++ toBeBytes target.port

/-- What `handshake_stream` writes first: no authentication is offered. -/
def greeting : Bytes := [0x05, 0x01, 0x00]

/-- The reply to the request, up to the end of the bound address. -/
def readReply : IoM ByteStream Unit := do
  let reply ← ByteStream.readExact 4
  if byteAt reply 0 ≠ 0x05 ∨ byteAt reply 2 ≠ 0x00 then
    IoM.fail ⟨.invalidData, "invalid upstream SOCKS5 CONNECT reply"⟩
  else if byteAt reply 1 ≠ 0x00 then
    IoM.fail ⟨.connectionRefused,
      "upstream SOCKS5 CONNECT failed with reply code " ++
        String.ofList (decimal (byteAt reply 1).toNat)⟩
  else do
    discardSocksAddress (byteAt reply 3)
    let _ ← ByteStream.readExact 2
    pure ()

/-- `Socks5Protocol::handshake_stream`. -/
def handshakeStream (target : Target) : IoM ByteStream Unit := do
  ByteStream.writeAll greeting
  let method ← ByteStream.readExact 2
  if method ≠ [0x05, 0x00] then
    IoM.fail ⟨.permissionDenied, "upstream SOCKS5 proxy did not accept no-auth"⟩
  else do
    let request ← IoM.lift (connectRequest target)
    ByteStream.writeAll request
    readReply

variable {target : Target} {host : DestinationHost}

theorem discardSocksAddress_outgoing (addressType : UInt8) :
    IoM.Keeps ByteStream.outgoing (discardSocksAddress addressType) := by
  unfold discardSocksAddress
  split
  · exact (ByteStream.readExact_outgoing 4).bind fun _ => .pure ()
  split
  · exact (ByteStream.readExact_outgoing 1).bind fun _ =>
      (ByteStream.readExact_outgoing _).bind fun _ => .pure ()
  split
  · exact (ByteStream.readExact_outgoing 16).bind fun _ => .pure ()
  · exact fun _ => rfl

theorem readReply_outgoing : IoM.Keeps ByteStream.outgoing readReply := by
  refine (ByteStream.readExact_outgoing 4).bind fun reply => ?_
  split
  · exact fun _ => rfl
  split
  · exact fun _ => rfl
  · exact (discardSocksAddress_outgoing _).bind fun _ =>
      (ByteStream.readExact_outgoing 2).bind fun _ => .pure ()

/-- Once the proxy has accepted the method, the request goes out behind the greeting, whatever the
proxy replies. -/
theorem handshakeStream_outgoing {request : Bytes} (encoded : connectRequest target = .ok request)
    {session : ByteStream}
    (accepted : session.incoming.take 2 = [0x05, 0x00]) :
    (handshakeStream target session).2.outgoing = session.outgoing ++ greeting ++ request := by
  have both : 2 ≤ session.incoming.length := by
    have length := congrArg List.length accepted
    simp only [List.length_take, List.length_cons, List.length_nil] at length
    omega
  have written : ByteStream.writeAll greeting session =
      (.ok (), { session with outgoing := session.outgoing ++ greeting }) := rfl
  have read : ByteStream.readExact 2 { session with outgoing := session.outgoing ++ greeting } =
      (.ok [0x05, 0x00],
          { session with
            incoming := session.incoming.drop 2, outgoing := session.outgoing ++ greeting }) := by
    rw [ByteStream.readExact, if_pos both, accepted]
  unfold handshakeStream
  rw [IoM.bind_of_ok written, IoM.bind_of_ok read, if_neg (by simp), encoded,
    IoM.bind_of_ok (IoM.lift_ok _ _)]
  exact readReply_outgoing _

/-- The request is encoded when the name, if there is one, fits its length octet. -/
theorem encodeSocksAddress_ok (fits : ∀ d, host = .domain d → d ≠ [] ∧ byteLen d ≤ 255) :
    ∃ addressType field, encodeSocksAddress host = .ok (addressType :: field) := by
  cases host with
  | ip address => cases address <;> exact ⟨_, _, rfl⟩
  | domain d =>
      obtain ⟨nonempty, short⟩ := fits d rfl
      rw [encodeSocksAddress, if_neg (by omega), if_neg (by rwa [byteLen_eq_zero])]
      exact ⟨_, _, rfl⟩

theorem connectRequest_ok (fits : ∀ d, target.host = .domain d → d ≠ [] ∧ byteLen d ≤ 255) :
    ∃ request, connectRequest target = .ok request := by
  obtain ⟨addressType, field, encoded⟩ := encodeSocksAddress_ok fits
  exact ⟨_, bind_eq_ok_iff.mpr ⟨_, encoded, rfl⟩⟩

/-- The field that is written stands for the host. -/
theorem addressField_encoded {addressType : UInt8} {field : Bytes}
    (encoded : encodeSocksAddress host = .ok (addressType :: field))
    (inbound : ∀ d, host = .domain d → InboundName d) :
      Socks5.AddressField addressType field host := by
  cases host with
  | ip address =>
      cases address with
      | v4 address =>
          cases encoded
          exact Socks5.addressField_ipv4 address
      | v6 address =>
          cases encoded
          exact Socks5.addressField_ipv6 address
  | domain d =>
      have short := (inbound d rfl).short
      have positive : byteLen d ≠ 0 := by
        rw [Ne, byteLen_eq_zero]
        exact (inbound d rfl).nonempty
      rw [encodeSocksAddress, if_neg (by omega), if_neg positive] at encoded
      cases encoded
      exact Socks5.addressField_name (inbound d rfl)

/-- The daemon's reader takes the whole request for a CONNECT to the target. -/
theorem readRequest_connectRequest {request : Bytes} (encoded : connectRequest target = .ok request)
    (inbound : ∀ d, target.host = .domain d → InboundName d) {s : ByteStream}
      (incoming : s.incoming = request) :
    ∃ s', Socks5.readRequest s = (.ok (.connect target), s') ∧ s'.incoming = [] := by
  obtain ⟨address, addressed, rest⟩ := bind_eq_ok_iff.mp encoded
  cases rest
  obtain ⟨addressType, field, split⟩ := encodeSocksAddress_ok fun d isDomain =>
    ⟨(inbound d isDomain).nonempty, Nat.le_trans (inbound d isDomain).short (by decide)⟩
  cases addressed.symm.trans split
  have header :=
    @ByteStream.readExact_append [0x05, 0x01, 0x00, addressType] 4 rfl s
      (field ++ toBeBytes target.port)
    (by simpa using incoming)
  have stands := addressField_encoded split inbound
  have made : IoM.lift (Target.new target.host target.port) =
      (pure target : IoM ByteStream Target) := by
    rw [Target.new_self]
    rfl
  refine ⟨{ s with incoming := [] }, ?_, rfl⟩
  unfold Socks5.readRequest
  have valid :
      ¬ (byteAt [0x05, 0x01, 0x00, addressType] 0 ≠ Socks5.version ∨
          byteAt [0x05, 0x01, 0x00, addressType] 2 ≠ 0) := by
    simp [byteAt, Socks5.version]
  have connects : byteAt [0x05, 0x01, 0x00, addressType] 1 = Socks5.commandConnect := rfl
  rw [IoM.bind_of_ok header, if_neg valid]
  have address : Socks5.readAddress (byteAt [0x05, 0x01, 0x00, addressType] 3)
      { s with incoming := field ++ toBeBytes target.port } =
          (.ok (target.host, target.port), { s with incoming := [] }) :=
    Socks5.readAddress_of_field stands (by rw [List.append_nil])
  rw [IoM.bind_of_ok address]
  dsimp only
  rw [if_pos connects, made]
  rfl

end Socks5Protocol

/-- A target that an inbound makes: of what a client sends, or of the original destination of what
was redirected. -/
inductive InboundTarget : Target → Prop where
  | client {input : InboundInput} {target : Target} (accepted : input.accepts = some target) :
      InboundTarget target
  | transparentTcp {localAddr : SocketAddr} {target : Target}
      (made : targetFromStream localAddr = .ok target) :
      InboundTarget target
  | transparentUdp {message : TransparentUdp.Message}
      {received : TransparentUdp.ReceivedTransparentDatagram}
      (made : message.datagram = .ok received) : InboundTarget received.target

/-- A target that was redirected has an address, and a name that a client sent went through its
parser. -/
theorem InboundTarget.inboundName {target : Target} (inbound : InboundTarget target) {d : Str}
    (isDomain : target.host = .domain d) :
    InboundName d := by
  cases inbound with
  | client accepted => exact InboundInput.inboundName accepted isDomain
  | transparentTcp made =>
      rw [(Target.new_eq_ok made).1] at isDomain
      cases isDomain
  | @transparentUdp message received made =>
      obtain ⟨original, host, -⟩ := TransparentUdp.Message.datagram_target made
      rw [host] at isDomain
      cases isDomain

/-- The targets of all inbounds survive both outbounds: the daemon's own SOCKS5 reader takes the
CONNECT request for the target to its last octet, and the reader of Trojan addresses takes the
target back and leaves the line end. -/
theorem inbound_targets_survive_proxies {target : Target} (inbound : InboundTarget target) :
    (∃ request, Socks5Protocol.connectRequest target = .ok request ∧
      (∀ session : ByteStream, session.incoming.take 2 = [0x05, 0x00] →
        (Socks5Protocol.handshakeStream target session).2.outgoing =
          session.outgoing ++ Socks5Protocol.greeting ++ request) ∧
      ∀ s : ByteStream, s.incoming = request →
        ∃ s', Socks5.readRequest s = (.ok (.connect target), s') ∧ s'.incoming = []) ∧
    ∀ verifier, ∃ bytes, Trojan.encodeConnectRequest verifier target = .ok bytes ∧
      bytes.take 59 = verifier.bytes ++ Trojan.crlf ++ [Trojan.trojanConnect] ∧
      ∃ consumed, Trojan.parseTarget (bytes.drop 59) = .ok (some (target, consumed)) ∧
        (bytes.drop 59).drop consumed = Trojan.crlf := by
  have name : ∀ d, target.host = .domain d → InboundName d := fun d => inbound.inboundName
  have fits : ∀ d, target.host = .domain d → d ≠ [] ∧ byteLen d ≤ 255 := fun d isDomain =>
    ⟨(name d isDomain).nonempty, Nat.le_trans (name d isDomain).short (by decide)⟩
  constructor
  · obtain ⟨request, encoded⟩ := Socks5Protocol.connectRequest_ok fits
    exact ⟨request, encoded, fun session => Socks5Protocol.handshakeStream_outgoing encoded,
      fun s => Socks5Protocol.readRequest_connectRequest encoded name⟩
  · intro verifier
    obtain ⟨address, encoded⟩ := Trojan.encodeTarget_ok fits
    have parsed := Trojan.parseTarget_encodeTarget encoded
    have stays := Trojan.parseTarget_append (by rw [parsed]; exact fun no => nomatch no) Trojan.crlf
    have front : (verifier.bytes ++ Trojan.crlf ++ [Trojan.trojanConnect]).length = 59 := by
      simp [verifier.length_eq, Trojan.crlf]
    have split : verifier.bytes ++ Trojan.crlf ++ Trojan.trojanConnect :: address ++ Trojan.crlf =
        (verifier.bytes ++ Trojan.crlf ++ [Trojan.trojanConnect]) ++
          (address ++ Trojan.crlf) := by simp
    refine ⟨_, by rw [Trojan.encodeConnectRequest, encoded], ?_, address.length, ?_, ?_⟩
    · rw [split, List.take_left' front]
    · rw [split, List.drop_left' front, stays, parsed]
    · rw [split, List.drop_left' front, List.drop_left]

/-- A name that a client wrote in capitals with a dot behind it. -/
theorem inbound_targets_survive_proxies_example :
    (∃ request,
      Socks5Protocol.connectRequest ⟨.domain "example.com".toList, 443, by decide⟩ = .ok request ∧
        (Socks5Protocol.handshakeStream ⟨.domain "example.com".toList, 443, by decide⟩
          ⟨[5, 0], [], none, []⟩).2.outgoing = Socks5Protocol.greeting ++ request ∧
        ∀ s : ByteStream, s.incoming = request → ∃ s',
          Socks5.readRequest s =
            (.ok (.connect ⟨.domain "example.com".toList, 443, by decide⟩), s') ∧
            s'.incoming = []) ∧
    ∃ bytes consumed,
      Trojan.encodeConnectRequest ⟨List.replicate 56 0x30, by simp⟩
          ⟨.domain "example.com".toList, 443, by decide⟩ = .ok bytes ∧
        bytes.take 59 = List.replicate 56 0x30 ++ Trojan.crlf ++ [Trojan.trojanConnect] ∧
        Trojan.parseTarget (bytes.drop 59) =
          .ok (some (⟨.domain "example.com".toList, 443, by decide⟩, consumed)) ∧
        (bytes.drop 59).drop consumed = Trojan.crlf := by
  have accepted : InboundInput.accepts (.httpAuthority "Example.com.:443".toList) =
      some ⟨.domain "example.com".toList, 443, by decide⟩ := by decide
  obtain ⟨⟨request, encoded, writes, reads⟩, trojan⟩ :=
    inbound_targets_survive_proxies (.client accepted)
  obtain ⟨bytes, encoded', front, consumed, parsed, rest⟩ :=
    trojan ⟨List.replicate 56 0x30, by simp⟩
  exact ⟨⟨request, encoded, writes _ rfl, reads⟩, bytes, consumed, encoded', front, parsed, rest⟩

end Commeatus.Daemon
