import Commeatus.Daemon.Proxy

/-!
The SOCKS5 inbound codec (`daemon/src/socks5.rs`): the request on the TCP
control connection and the UDP request header. Both read the same address
form, but they are written separately in the source and are kept separate here.
-/

namespace Commeatus.Daemon.Socks5

open Commeatus.Lib Commeatus.Core

def version : UInt8 := 0x05
def commandConnect : UInt8 := 0x01
def commandUdpAssociate : UInt8 := 0x03

def invalidData (message : String) : IoError := ⟨.invalidData, message⟩

structure UdpClientHint where
  ip : Option IpAddr := none
  port : Option UInt16 := none
  deriving DecidableEq

inductive Request where
  | connect (target : Target)
  | udpAssociate (hint : UdpClientHint)
  deriving DecidableEq

/-- The match on the address type in `read_address`. -/
def readHost (addressType : UInt8) : IoM ByteStream DestinationHost :=
  if addressType = 0x01 then do
    let bytes ← ByteStream.readExact 4
    pure (.ip (.v4 (.ofOctets bytes)))
  else if addressType = 0x03 then do
    let lengthByte ← ByteStream.readExact 1
    let length := (byteAt lengthByte 0).toNat
    if length = 0 ∨ 253 < length then IoM.fail (invalidData "invalid SOCKS5 domain length")
    else do
      let bytes ← ByteStream.readExact length
      match fromUtf8 bytes with
      | none => IoM.fail (invalidData "SOCKS5 domain is not UTF-8")
      | some text =>
          let domain := toAsciiLowercase (trimEndMatches '.' text)
          if domain.isEmpty then IoM.fail (invalidData "empty SOCKS5 domain")
          else pure (.domain domain)
  else if addressType = 0x04 then do
    let bytes ← ByteStream.readExact 16
    pure (.ip (.v6 (.ofOctets bytes)))
  else IoM.fail (invalidData "unsupported SOCKS5 address type")

/-- `read_address`: the host and port after the address type. -/
def readAddress (addressType : UInt8) : IoM ByteStream (DestinationHost × UInt16) := do
  let host ← readHost addressType
  let port ← ByteStream.readExact 2
  pure (host, fromBeBytes (byteAt port 0) (byteAt port 1))

/-- `write_reply` without a bound address. -/
def writeReply (code : UInt8) : IoM ByteStream Unit :=
  ByteStream.writeAll [version, code, 0x00, 0x01, 0, 0, 0, 0, 0, 0]

/-- `read_request`. -/
def readRequest : IoM ByteStream Request := do
  let header ← ByteStream.readExact 4
  if byteAt header 0 ≠ version ∨ byteAt header 2 ≠ 0 then
    IoM.fail (invalidData "invalid SOCKS5 request header")
  else do
    let (host, port) ← readAddress (byteAt header 3)
    if byteAt header 1 = commandConnect then do
      let target ← IoM.lift (Target.new host port)
      pure (.connect target)
    else if byteAt header 1 = commandUdpAssociate then
      pure (.udpAssociate
        { ip := match host with
            | .ip address => if address.isUnspecified then none else some address
            | .domain _ => none
          port := if port ≠ 0 then some port else none })
    else do
      writeReply 0x07
      IoM.fail ⟨.unsupported, "SOCKS5 command is not CONNECT or UDP ASSOCIATE"⟩

/-- `slice.get(offset..offset + count)`. -/
def slice (bytes : Bytes) (offset count : Nat) : Option Bytes :=
  if offset + count ≤ bytes.length then some ((bytes.drop offset).take count) else none

/-- The host of a UDP request and the offset after it. -/
def parseUdpHost (packet : Bytes) : Except IoError (DestinationHost × Nat) :=
  let addressType := byteAt packet 3
  if addressType = 0x01 then
    match slice packet 4 4 with
    | none => .error (invalidData "truncated SOCKS5 UDP IPv4 address")
    | some bytes => .ok (.ip (.v4 (.ofOctets bytes)), 8)
  else if addressType = 0x03 then
    match packet[4]? with
    | none => .error (invalidData "truncated SOCKS5 UDP domain length")
    | some lengthByte =>
        let length := lengthByte.toNat
        if length = 0 ∨ 253 < length then .error (invalidData "invalid SOCKS5 UDP domain length")
        else
          match slice packet 5 length with
          | none => .error (invalidData "truncated SOCKS5 UDP domain")
          | some bytes =>
              match fromUtf8 bytes with
              | none => .error (invalidData "SOCKS5 UDP domain is not UTF-8")
              | some text =>
                  let domain := toAsciiLowercase (trimEndMatches '.' text)
                  if domain.isEmpty then .error (invalidData "empty SOCKS5 UDP domain")
                  else .ok (.domain domain, 5 + length)
  else if addressType = 0x04 then
    match slice packet 4 16 with
    | none => .error (invalidData "truncated SOCKS5 UDP IPv6 address")
    | some bytes => .ok (.ip (.v6 (.ofOctets bytes)), 20)
  else .error (invalidData "unsupported SOCKS5 UDP address type")

/-- `parse_udp_request`: the target and the payload of one client packet. -/
def parseUdpRequest (packet : Bytes) : Except IoError (Target × Bytes) :=
  if packet.length < 4 ∨ byteAt packet 0 ≠ 0 ∨ byteAt packet 1 ≠ 0 then
    .error (invalidData "invalid SOCKS5 UDP reserved field")
  else if byteAt packet 2 ≠ 0 then
    .error ⟨.unsupported, "SOCKS5 UDP fragmentation is not supported"⟩
  else
    match parseUdpHost packet with
    | .error e => .error e
    | .ok (host, offset) =>
        match slice packet offset 2 with
        | none => .error (invalidData "truncated SOCKS5 UDP port")
        | some port =>
            match Target.new host (fromBeBytes (byteAt port 0) (byteAt port 1)) with
            | .error e => .error e
            | .ok target => .ok (target, packet.drop (offset + 2))

/-- `encode_udp_response`: the packet that carries a reply to the client. -/
def encodeUdpResponse (source : Target) (payload : Bytes) : Except IoError Bytes :=
  let packet :=
    fun address : Bytes => [0x00, 0x00, 0x00] ++ address ++ toBeBytes source.port ++ payload
  match source.host with
  | .ip (.v4 address) => .ok (packet (0x01 :: address.octets))
  | .ip (.v6 address) => .ok (packet (0x04 :: address.octets))
  | .domain domain =>
      if 255 < byteLen domain then .error (invalidData "SOCKS5 UDP response domain is too long")
      else if byteLen domain = 0 then .error (invalidData "SOCKS5 UDP response domain is empty")
      else .ok (packet (0x03 :: UInt8.ofNat (byteLen domain) :: utf8 domain))

/-! ### What the two readers accept

The address type, the length byte and the name stand at the same offsets in a
TCP request and in a UDP packet, so one description serves both. -/

/-- The name a client wrote in an address of type 3, as it stands on the wire. -/
def nameField (bytes : Bytes) : Option Str :=
  if byteAt bytes 3 = 0x03 then fromUtf8 ((bytes.drop 5).take (byteAt bytes 4).toNat) else none

/-- The address of a request whose address type is binary. -/
def binaryAddress (bytes : Bytes) : Option IpAddr :=
  if byteAt bytes 3 = 0x01 then some (.v4 (.ofOctets (bytes.drop 4)))
  else if byteAt bytes 3 = 0x04 then some (.v6 (.ofOctets (bytes.drop 4)))
  else none

/-- The host a reader produces from the bytes of a request. -/
inductive HostField (bytes : Bytes) : DestinationHost → Prop where
  | ip {address : IpAddr} : binaryAddress bytes = some address → nameField bytes = none →
      HostField bytes (.ip address)
  | domain {text : Str} : binaryAddress bytes = none → nameField bytes = some text →
      byteLen text ≤ 253 → toAsciiLowercase (trimEndMatches '.' text) ≠ [] →
      HostField bytes (.domain (toAsciiLowercase (trimEndMatches '.' text)))

/-- A name field of a decoded length fits its length byte. -/
theorem byteLen_le_of_fromUtf8 {bytes : Bytes} {text : Str} {count : Nat}
    (decoded : fromUtf8 (bytes.take count) = some text) : byteLen text ≤ count := by
  rw [byteLen, fromUtf8_eq_some_iff.mp decoded]
  simp

theorem HostField.ipv4 {bytes : Bytes} (type : byteAt bytes 3 = 0x01) :
    HostField bytes (.ip (.v4 (.ofOctets ((bytes.drop 4).take 4)))) := by
  refine .ip ?_ ?_
  · simp [binaryAddress, type, Ipv4Addr.ofOctets_take]
  · simp [nameField, type]

theorem HostField.ipv6 {bytes : Bytes} (type : byteAt bytes 3 = 0x04) :
    HostField bytes (.ip (.v6 (.ofOctets ((bytes.drop 4).take 16)))) := by
  refine .ip ?_ ?_
  · simp [binaryAddress, type, Ipv6Addr.ofOctets_take]
  · simp [nameField, type]

/-- A name within the bounds of its length byte. -/
theorem HostField.name {bytes : Bytes} {text : Str} (type : byteAt bytes 3 = 0x03)
    (bounds : ¬((byteAt bytes 4).toNat = 0 ∨ 253 < (byteAt bytes 4).toNat))
    (decoded : fromUtf8 ((bytes.drop 5).take (byteAt bytes 4).toNat) = some text)
    (nonempty : ¬(toAsciiLowercase (trimEndMatches '.' text)).isEmpty = true) :
    HostField bytes (.domain (toAsciiLowercase (trimEndMatches '.' text))) := by
  refine .domain ?_ ?_ ?_ (by simpa using nonempty)
  · simp [binaryAddress, type]
  · simp [nameField, type, decoded]
  · have := byteLen_le_of_fromUtf8 decoded
    omega

theorem readHost_host {s s' : ByteStream} {bytes : Bytes} {host : DestinationHost}
    (rest : s.incoming = bytes.drop 4)
    (hhost : readHost (byteAt bytes 3) s = (.ok host, s')) : HostField bytes host := by
  unfold readHost at hhost
  split at hhost
  · -- IPv4
    rename_i type
    obtain ⟨octets, s₃, read, hhost⟩ := IoM.bind_eq_ok.mp hhost
    obtain ⟨-, rfl, -⟩ := ByteStream.readExact_eq_ok read
    cases hhost
    rw [rest]
    exact .ipv4 type
  split at hhost
  · -- a name
    rename_i type
    obtain ⟨lengthByte, s₃, readLength, hhost⟩ := IoM.bind_eq_ok.mp hhost
    obtain ⟨-, rfl, rfl⟩ := ByteStream.readExact_eq_ok readLength
    have length : byteAt (s.incoming.take 1) 0 = byteAt bytes 4 := by
      rw [byteAt_take (by omega), rest, byteAt_drop]
    rw [length] at hhost
    dsimp only at hhost
    split at hhost
    · cases hhost
    · rename_i bounds
      obtain ⟨name, s₄, readName, hhost⟩ := IoM.bind_eq_ok.mp hhost
      obtain ⟨-, rfl, -⟩ := ByteStream.readExact_eq_ok readName
      have field : s.incoming.drop 1 = bytes.drop 5 := by rw [rest, List.drop_drop]
      dsimp only at hhost
      rw [field] at hhost
      cases decoded : fromUtf8 ((bytes.drop 5).take (byteAt bytes 4).toNat) with
      | none =>
          rw [decoded] at hhost
          cases hhost
      | some text =>
          rw [decoded] at hhost
          dsimp only at hhost
          split at hhost
          · cases hhost
          · rename_i nonempty
            cases hhost
            exact .name type bounds decoded nonempty
  split at hhost
  · -- IPv6
    rename_i type
    obtain ⟨octets, s₃, read, hhost⟩ := IoM.bind_eq_ok.mp hhost
    obtain ⟨-, rfl, -⟩ := ByteStream.readExact_eq_ok read
    cases hhost
    rw [rest]
    exact .ipv6 type
  · cases hhost

theorem readAddress_host {s s' : ByteStream} {bytes : Bytes}
    {host : DestinationHost} {port : UInt16}
    (rest : s.incoming = bytes.drop 4)
    (h : readAddress (byteAt bytes 3) s = (.ok (host, port), s')) : HostField bytes host := by
  unfold readAddress at h
  obtain ⟨host', s₁, hhost, h⟩ := IoM.bind_eq_ok.mp h
  obtain ⟨portBytes, s₂, -, h⟩ := IoM.bind_eq_ok.mp h
  cases h
  exact readHost_host rest hhost

/-- The host of an accepted CONNECT request. -/
theorem readRequest_connect {s s' : ByteStream} {t : Target}
    (h : readRequest s = (.ok (.connect t), s')) : HostField s.incoming t.host := by
  unfold readRequest at h
  obtain ⟨header, s₁, readHeader, h⟩ := IoM.bind_eq_ok.mp h
  obtain ⟨-, rfl, rfl⟩ := ByteStream.readExact_eq_ok readHeader
  split at h
  · cases h
  · obtain ⟨⟨host, port⟩, s₂, address, h⟩ := IoM.bind_eq_ok.mp h
    rw [byteAt_take (by omega)] at address
    have field := readAddress_host rfl address
    dsimp only at h
    split at h
    · obtain ⟨target, s₃, made, h⟩ := IoM.bind_eq_ok.mp h
      cases h
      cases hnew : Target.new host port with
      | error e =>
          rw [hnew] at made
          cases made
      | ok t' =>
          rw [hnew] at made
          cases made
          rw [(Target.new_eq_ok hnew).1]
          exact field
    · split at h
      · cases h
      · obtain ⟨-, s₃, -, h⟩ := IoM.bind_eq_ok.mp h
        cases h

theorem parseUdpHost_host {packet : Bytes} {host : DestinationHost} {offset : Nat}
    (h : parseUdpHost packet = .ok (host, offset)) : HostField packet host := by
  unfold parseUdpHost at h
  dsimp only at h
  split at h
  · rename_i type
    split at h
    · cases h
    · rename_i octets found
      cases h
      obtain ⟨-, rfl⟩ : _ ∧ (packet.drop 4).take 4 = octets := by simpa [slice] using found
      exact .ipv4 type
  split at h
  · rename_i type
    split at h
    · cases h
    · rename_i lengthByte found
      obtain rfl : byteAt packet 4 = lengthByte := by simp [byteAt, found]
      split at h
      · cases h
      · rename_i bounds
        split at h
        · cases h
        · rename_i name sliced
          obtain ⟨-, rfl⟩ : _ ∧ (packet.drop 5).take (byteAt packet 4).toNat = name := by
            simpa [slice] using sliced
          split at h
          · cases h
          · rename_i text decoded
            split at h
            · cases h
            · rename_i nonempty
              cases h
              exact .name type bounds decoded nonempty
  split at h
  · rename_i type
    split at h
    · cases h
    · rename_i octets found
      cases h
      obtain ⟨-, rfl⟩ : _ ∧ (packet.drop 4).take 16 = octets := by simpa [slice] using found
      exact .ipv6 type
  · cases h

/-- The host of an accepted UDP packet. -/
theorem parseUdpRequest_host {packet payload : Bytes} {t : Target}
    (h : parseUdpRequest packet = .ok (t, payload)) : HostField packet t.host := by
  unfold parseUdpRequest at h
  split at h
  · cases h
  split at h
  · cases h
  split at h
  · cases h
  · rename_i host offset hhost
    split at h
    · cases h
    · split at h
      · cases h
      · rename_i target made
        cases h
        rw [(Target.new_eq_ok made).1]
        exact parseUdpHost_host hhost

end Commeatus.Daemon.Socks5
