import Commeatus.Lib.Framing
import Commeatus.Daemon.Proxy

/-!
The Trojan wire format (`daemon/src/trojan.rs`): request prefaces, UDP frames
and the incremental frame parser.
-/

namespace Commeatus.Daemon.Trojan

open Commeatus.Lib Commeatus.Core

def crlf : Bytes := [13, 10]

def trojanConnect : UInt8 := 0x01
def trojanUdpAssociate : UInt8 := 0x03

/-- The hexadecimal SHA-224 digest of the password. -/
structure TrojanVerifier where
  bytes : Bytes
  length_eq : bytes.length = 56

/-- `encode_host`. -/
def encodeHost (host : DestinationHost) : Except IoError Bytes :=
  match host with
  | .ip (.v4 address) => .ok (0x01 :: address.octets)
  | .domain domain =>
      if 255 < byteLen domain then .error ⟨.invalidInput, "Trojan domain is too long"⟩
      else if byteLen domain = 0 then .error ⟨.invalidInput, "Trojan domain must not be empty"⟩
      else .ok (0x03 :: UInt8.ofNat (byteLen domain) :: utf8 domain)
  | .ip (.v6 address) => .ok (0x04 :: address.octets)

/-- `encode_target`. -/
def encodeTarget (target : Target) : Except IoError Bytes :=
  match encodeHost target.host with
  | .error e => .error e
  | .ok host => .ok (host ++ toBeBytes target.port)

/-- `encode_connect_request`. -/
def encodeConnectRequest (verifier : TrojanVerifier) (target : Target) : Except IoError Bytes :=
  match encodeTarget target with
  | .error e => .error e
  | .ok address => .ok (verifier.bytes ++ crlf ++ trojanConnect :: address ++ crlf)

/-- `encode_udp_associate_request`: the target is the wildcard `0.0.0.0:0`. -/
def encodeUdpAssociateRequest (verifier : TrojanVerifier) : Bytes :=
  verifier.bytes ++ crlf ++ trojanUdpAssociate :: [0x01, 0, 0, 0, 0, 0, 0] ++ crlf

/-- `encode_udp_frame`. -/
def encodeUdpFrame (target : Target) (payload : Bytes) : Except IoError Bytes :=
  if 65535 < payload.length then
    .error ⟨.invalidInput, "Trojan UDP payload exceeds 65535-byte wire limit"⟩
  else
    match encodeTarget target with
    | .error e => .error e
    | .ok address => .ok (address ++ toBeBytes (UInt16.ofNat payload.length) ++ crlf ++ payload)

/-- The host of `parse_target` and the offset after it; `none` asks for more bytes. -/
def parseHost (data : Bytes) : Except IoError (Option (DestinationHost × Nat)) :=
  match data.head? with
  | none => .ok none
  | some addressType =>
      if addressType = 0x01 then
        if data.length < 5 then .ok none
        else .ok (some (.ip (.v4 (.ofOctets (data.drop 1))), 5))
      else if addressType = 0x03 then
        if data.length < 2 then .ok none
        else
          let length := (byteAt data 1).toNat
          if length = 0 then .error ⟨.invalidData, "Trojan domain address is empty"⟩
          else if data.length < 2 + length then .ok none
          else
            match fromUtf8 ((data.drop 2).take length) with
            | none => .error ⟨.invalidData, "Trojan domain is not UTF-8"⟩
            | some domain => .ok (some (.domain domain, 2 + length))
      else if addressType = 0x04 then
        if data.length < 17 then .ok none
        else .ok (some (.ip (.v6 (.ofOctets (data.drop 1))), 17))
      else
        .error ⟨.invalidData, "unsupported Trojan address type " ++
          String.ofList (decimal addressType.toNat)⟩

/-- `parse_target`. -/
def parseTarget (data : Bytes) : Except IoError (Option (Target × Nat)) :=
  match parseHost data with
  | .error e => .error e
  | .ok none => .ok none
  | .ok (some (host, hostEnd)) =>
      if data.length < hostEnd + 2 then .ok none
      else
        match Target.new host (fromBeBytes (byteAt data hostEnd) (byteAt data (hostEnd + 1))) with
        | .error e => .error ⟨.invalidData, "invalid Trojan target: " ++ e.message⟩
        | .ok target => .ok (some (target, hostEnd + 2))

structure ParsedUdpFrame where
  source : Target
  payloadStart : Nat
  consumed : Nat

/-- `parse_udp_frame`. The payload is the range from `payloadStart` to `consumed`. -/
def parseUdpFrame (data : Bytes) : Except IoError (Option ParsedUdpFrame) :=
  match parseTarget data with
  | .error e => .error e
  | .ok none => .ok none
  | .ok (some (source, addressLen)) =>
      if data.length < addressLen + 4 then .ok none
      else
        let length := (fromBeBytes (byteAt data addressLen) (byteAt data (addressLen + 1))).toNat
        if (data.drop (addressLen + 2)).take 2 ≠ crlf then
          .error ⟨.invalidData, "Trojan UDP length is not followed by CRLF"⟩
        else if usizeMax < addressLen + 4 + length then
          .error ⟨.invalidData, "Trojan UDP frame length overflow"⟩
        else if data.length < addressLen + 4 + length then .ok none
        else .ok (some ⟨source, addressLen + 4, addressLen + 4 + length⟩)

/-! ### Error kinds: the parser blames the data, the encoder its input -/

theorem parseHost_error_kind {data : Bytes} {error : IoError} (h : parseHost data = .error error) :
    error.kind = .invalidData := by
  unfold parseHost at h
  split at h
  · cases h
  split at h
  · split at h <;> cases h
  split at h
  · split at h
    · cases h
    dsimp only at h
    split at h
    · cases h
      rfl
    split at h
    · cases h
    split at h
    · cases h
      rfl
    · cases h
  split at h
  · split at h <;> cases h
  · cases h
    rfl

theorem parseTarget_error_kind {data : Bytes} {error : IoError}
    (h : parseTarget data = .error error) :
    error.kind = .invalidData := by
  unfold parseTarget at h
  split at h
  · rename_i host
    cases h
    exact parseHost_error_kind host
  · cases h
  · split at h
    · cases h
    split at h
    · cases h
      rfl
    · cases h

theorem parseUdpFrame_error_kind {data : Bytes} {error : IoError}
    (h : parseUdpFrame data = .error error) : error.kind = .invalidData := by
  unfold parseUdpFrame at h
  split at h
  · rename_i target
    cases h
    exact parseTarget_error_kind target
  · cases h
  · split at h
    · cases h
    dsimp only at h
    split at h
    · cases h
      rfl
    split at h
    · cases h
      rfl
    split at h <;> cases h

theorem encodeHost_error_kind {host : DestinationHost} {error : IoError}
    (h : encodeHost host = .error error) : error.kind = .invalidInput := by
  cases host with
  | ip address => cases address <;> cases h
  | domain domain =>
      unfold encodeHost at h
      dsimp only at h
      split at h
      · cases h
        rfl
      split at h
      · cases h
        rfl
      · cases h

theorem encodeUdpFrame_error_kind {target : Target} {payload : Bytes} {error : IoError}
    (h : encodeUdpFrame target payload = .error error) : error.kind = .invalidInput := by
  unfold encodeUdpFrame at h
  split at h
  · cases h
    rfl
  split at h
  · rename_i address
    cases h
    unfold encodeTarget at address
    split at address
    · rename_i host
      cases address
      exact encodeHost_error_kind host
    · cases address
  · cases h

/-! ### A verdict is final -/

/-- Bytes before an offset do not change when more arrive. -/
theorem take_drop_append {data : Bytes} {offset count : Nat} (h : offset + count ≤ data.length)
    (more : Bytes) : ((data ++ more).drop offset).take count = (data.drop offset).take count := by
  rw [List.drop_append_of_le_length (by omega), List.take_append_of_le_length (by simp; omega)]

theorem ofOctets_drop_append {data : Bytes} (more : Bytes) :
    (5 ≤ data.length → Ipv4Addr.ofOctets ((data ++ more).drop 1) = .ofOctets (data.drop 1)) ∧
      (17 ≤ data.length → Ipv6Addr.ofOctets ((data ++ more).drop 1) = .ofOctets (data.drop 1)) := by
  constructor
  · intro long
    rw [← Ipv4Addr.ofOctets_take, take_drop_append long, Ipv4Addr.ofOctets_take]
  · intro long
    rw [← Ipv6Addr.ofOctets_take, take_drop_append long, Ipv6Addr.ofOctets_take]

theorem parseHost_append {data : Bytes} (verdict : parseHost data ≠ .ok none) (more : Bytes) :
    parseHost (data ++ more) = parseHost data := by
  cases data with
  | nil => exact absurd rfl verdict
  | cons addressType rest =>
      generalize whole : addressType :: rest = data at verdict ⊢
      have first : data.head? = some addressType := by rw [← whole]; rfl
      have firstMore : (data ++ more).head? = some addressType := by rw [← whole]; rfl
      unfold parseHost at verdict ⊢
      rw [first] at verdict ⊢
      rw [firstMore]
      dsimp only at verdict ⊢
      by_cases v4 : addressType = 0x01
      · simp only [v4, if_true] at verdict ⊢
        by_cases short : data.length < 5
        · simp [short] at verdict
        · rw [if_neg short, if_neg (by simp; omega), (ofOctets_drop_append more).1 (by omega)]
      by_cases name : addressType = 0x03
      · have notV4 : ¬ (0x03 : UInt8) = 0x01 := by decide
        simp only [name, notV4, if_true, if_false] at verdict ⊢
        by_cases short : data.length < 2
        · simp [short] at verdict
        rw [if_neg short] at verdict
        rw [if_neg short, if_neg (by simp; omega), byteAt_append (by omega)]
        by_cases empty : (byteAt data 1).toNat = 0
        · simp only [empty, if_true]
        rw [if_neg empty] at verdict
        rw [if_neg empty, if_neg empty]
        by_cases cut : data.length < 2 + (byteAt data 1).toNat
        · simp [cut] at verdict
        · rw [if_neg cut, if_neg (by simp; omega), take_drop_append (by omega)]
      by_cases v6 : addressType = 0x04
      · have notV4 : ¬ (0x04 : UInt8) = 0x01 := by decide
        have notName : ¬ (0x04 : UInt8) = 0x03 := by decide
        simp only [v6, notV4, notName, if_true, if_false] at verdict ⊢
        by_cases short : data.length < 17
        · simp [short] at verdict
        · rw [if_neg short, if_neg (by simp; omega), (ofOctets_drop_append more).2 (by omega)]
      · simp only [v4, name, v6, if_false]

theorem parseTarget_append {data : Bytes} (verdict : parseTarget data ≠ .ok none) (more : Bytes) :
    parseTarget (data ++ more) = parseTarget data := by
  unfold parseTarget at verdict ⊢
  cases host : parseHost data with
  | error e => rw [parseHost_append (by rw [host]; exact fun eq => nomatch eq) more, host]
  | ok result =>
      cases result with
      | none => simp [host] at verdict
      | some found =>
          obtain ⟨host', hostEnd⟩ := found
          rw [parseHost_append (by rw [host]; exact fun eq => nomatch eq) more, host]
          rw [host] at verdict
          dsimp only at verdict ⊢
          by_cases short : data.length < hostEnd + 2
          · simp [short] at verdict
          · rw [if_neg short, if_neg (by simp; omega), byteAt_append (by omega),
              byteAt_append (by omega)]

/-- A frame or an error stays what it is when more bytes arrive. -/
theorem parseUdpFrame_append {data : Bytes} (verdict : parseUdpFrame data ≠ .ok none)
    (more : Bytes) :
    parseUdpFrame (data ++ more) = parseUdpFrame data := by
  unfold parseUdpFrame at verdict ⊢
  cases target : parseTarget data with
  | error e => rw [parseTarget_append (by rw [target]; exact fun eq => nomatch eq) more, target]
  | ok result =>
      cases result with
      | none => simp [target] at verdict
      | some found =>
          obtain ⟨source, addressLen⟩ := found
          rw [parseTarget_append (by rw [target]; exact fun eq => nomatch eq) more, target]
          rw [target] at verdict
          dsimp only at verdict ⊢
          by_cases short : data.length < addressLen + 4
          · simp [short] at verdict
          rw [if_neg short] at verdict
          rw [if_neg short, if_neg (by simp; omega), byteAt_append (by omega),
            byteAt_append (by omega), take_drop_append (by omega)]
          by_cases noCrlf : (data.drop (addressLen + 2)).take 2 ≠ crlf
          · rw [if_pos noCrlf, if_pos noCrlf]
          rw [if_neg noCrlf] at verdict
          rw [if_neg noCrlf, if_neg noCrlf]
          by_cases overflow : usizeMax < addressLen + 4 +
              (fromBeBytes (byteAt data addressLen) (byteAt data (addressLen + 1))).toNat
          · rw [if_pos overflow, if_pos overflow]
          rw [if_neg overflow] at verdict
          rw [if_neg overflow, if_neg overflow]
          by_cases cut : data.length < addressLen + 4 +
              (fromBeBytes (byteAt data addressLen) (byteAt data (addressLen + 1))).toNat
          · simp [cut] at verdict
          · rw [if_neg cut, if_neg (by simp; omega)]

/-- A parsed frame lies inside the data and its payload fits a 65535-byte buffer. -/
theorem parseUdpFrame_le {data : Bytes} {frame : ParsedUdpFrame}
    (h : parseUdpFrame data = .ok (some frame)) :
    frame.payloadStart ≤ frame.consumed ∧ frame.consumed ≤ data.length ∧
      frame.consumed - frame.payloadStart ≤ 65535 := by
  unfold parseUdpFrame at h
  split at h
  · cases h
  · cases h
  rename_i source addressLen target
  split at h
  · cases h
  dsimp only at h
  split at h
  · cases h
  split at h
  · cases h
  split at h
  · cases h
  · cases h
    have small := (fromBeBytes (byteAt data addressLen) (byteAt data (addressLen + 1))).toNat_lt
    refine ⟨?_, ?_, ?_⟩ <;> dsimp only <;> omega

/-! ### The parser undoes the encoder -/

theorem parseHost_encodeHost {host : DestinationHost} {bytes : Bytes}
    (h : encodeHost host = .ok bytes) :
    parseHost bytes = .ok (some (host, bytes.length)) := by
  cases host with
  | ip address =>
      cases address with
      | v4 address =>
          cases h
          rfl
      | v6 address =>
          cases h
          have long : (0x04 :: address.octets).length = 17 := by simp
          unfold parseHost
          simp [long]
  | domain domain =>
      unfold encodeHost at h
      dsimp only at h
      split at h
      · cases h
      split at h
      · cases h
      rename_i short nonempty
      cases h
      have length : (UInt8.ofNat (byteLen domain)).toNat = byteLen domain := by
        simp only [UInt8.toNat_ofNat']
        omega
      have second : byteAt (0x03 :: UInt8.ofNat (byteLen domain) :: utf8 domain) 1 =
          UInt8.ofNat (byteLen domain) := rfl
      have total : (0x03 :: UInt8.ofNat (byteLen domain) :: utf8 domain).length =
          2 + byteLen domain := by
        simp only [List.length_cons, byteLen]
        omega
      have name : (utf8 domain).take (byteLen domain) = utf8 domain := List.take_of_length_le le_rfl
      unfold parseHost
      simp only [List.head?_cons, second, length, total]
      rw [if_neg (by decide), if_pos trivial, if_neg (by omega), if_neg nonempty, if_neg (by omega)]
      simp [name]

theorem parseTarget_encodeTarget {target : Target} {bytes : Bytes}
    (h : encodeTarget target = .ok bytes) :
    parseTarget bytes = .ok (some (target, bytes.length)) := by
  unfold encodeTarget at h
  split at h
  · cases h
  · rename_i host encoded
    cases h
    have parsed := parseHost_encodeHost encoded
    have stays :=
      parseHost_append (by rw [parsed]; exact fun eq => nomatch eq) (toBeBytes target.port)
    have high : byteAt (host ++ toBeBytes target.port) host.length =
        UInt8.ofNat (target.port.toNat / 256) := by
      simp [byteAt, toBeBytes]
    have low : byteAt (host ++ toBeBytes target.port) (host.length + 1) =
        UInt8.ofNat (target.port.toNat % 256) := by
      simp [byteAt, toBeBytes]
    have total : (host ++ toBeBytes target.port).length = host.length + 2 := by simp [toBeBytes]
    unfold parseTarget
    rw [stays, parsed]
    simp only [high, low, total, lt_irrefl, if_false, fromBeBytes_toBeBytes, Target.new_self]

theorem encodeTarget_length {target : Target} {bytes : Bytes}
    (h : encodeTarget target = .ok bytes) :
    bytes.length ≤ 259 := by
  obtain ⟨host, port, positive⟩ := target
  unfold encodeTarget encodeHost at h
  cases host with
  | ip address =>
      cases address with
      | v4 address =>
          cases h
          simp [Ipv4Addr.octets, toBeBytes]
      | v6 address =>
          cases h
          simp [toBeBytes]
  | domain domain =>
      dsimp only at h
      by_cases long : 255 < byteLen domain
      · simp [long] at h
      by_cases empty : byteLen domain = 0
      · simp [empty] at h
      simp only [long, empty, if_false, Except.ok.injEq] at h
      subst h
      simp only [toBeBytes, List.length_append, List.length_cons, List.length_nil]
      simp only [byteLen] at long
      omega

/-- The target is encoded when the name, if there is one, fits its length octet. -/
theorem encodeTarget_ok {target : Target}
    (fits : ∀ d, target.host = .domain d → d ≠ [] ∧ byteLen d ≤ 255) :
    ∃ bytes, encodeTarget target = .ok bytes := by
  obtain ⟨host, port, positive⟩ := target
  cases host with
  | ip address => cases address <;> exact ⟨_, rfl⟩
  | domain d =>
      obtain ⟨nonempty, short⟩ := fits d rfl
      have notLong : ¬ 255 < byteLen d := not_lt.mpr short
      have notEmpty : ¬ byteLen d = 0 := by rwa [byteLen_eq_zero]
      simp [encodeTarget, encodeHost, notLong, notEmpty]

/-- An address, a length field, CRLF and a payload of that length are one frame. -/
theorem parseUdpFrame_parts {target : Target} {address payload : Bytes} {high low : UInt8}
    (parsed : parseTarget address = .ok (some (target, address.length)))
    (small : address.length ≤ 259) (value : (fromBeBytes high low).toNat = payload.length) :
    parseUdpFrame (address ++ high :: low :: 13 :: 10 :: payload) =
      .ok (some ⟨target, address.length + 4, address.length + 4 + payload.length⟩) := by
  have stays := parseTarget_append (by rw [parsed]; exact fun eq => nomatch eq)
    (high :: low :: 13 :: 10 :: payload)
  generalize whole : address ++ high :: low :: 13 :: 10 :: payload = data at stays ⊢
  have first : byteAt data address.length = high := by simp [byteAt, ← whole]
  have second : byteAt data (address.length + 1) = low := by simp [byteAt, ← whole]
  have total : data.length = address.length + 4 + payload.length := by
    simp only [← whole, List.length_append, List.length_cons]
    omega
  have marker : (data.drop (address.length + 2)).take 2 = crlf := by simp [← whole, crlf]
  have bound := (fromBeBytes high low).toNat_lt
  unfold parseUdpFrame
  rw [stays, parsed]
  dsimp only
  rw [first, second, value, if_neg (by omega), if_neg (not_not.mpr marker),
    if_neg (by unfold usizeMax; omega), if_neg (by omega)]

/-- A frame as `encode_udp_frame` makes it is parsed as its target and payload. -/
theorem parseUdpFrame_encodeUdpFrame {target : Target} {payload frame : Bytes}
    (h : encodeUdpFrame target payload = .ok frame) :
    ∃ start, parseUdpFrame frame = .ok (some ⟨target, start, frame.length⟩) ∧
      frame.drop start = payload := by
  unfold encodeUdpFrame at h
  split at h
  · cases h
  rename_i fits
  split at h
  · cases h
  rename_i address encoded
  cases h
  have value : (UInt16.ofNat payload.length).toNat = payload.length := by
    simp only [UInt16.toNat_ofNat']
    omega
  have shape : address ++ toBeBytes (UInt16.ofNat payload.length) ++ crlf ++ payload =
      address ++ UInt8.ofNat ((UInt16.ofNat payload.length).toNat / 256) ::
        UInt8.ofNat ((UInt16.ofNat payload.length).toNat % 256) :: 13 :: 10 :: payload := by
    simp only [toBeBytes, crlf, List.append_assoc, List.cons_append, List.nil_append]
  have field : (fromBeBytes (UInt8.ofNat ((UInt16.ofNat payload.length).toNat / 256))
      (UInt8.ofNat ((UInt16.ofNat payload.length).toNat % 256))).toNat = payload.length := by
    rw [fromBeBytes_toBeBytes, value]
  have parsed :=
    parseUdpFrame_parts (parseTarget_encodeTarget encoded) (encodeTarget_length encoded)
    field
  have total : (address ++ UInt8.ofNat ((UInt16.ofNat payload.length).toNat / 256) ::
      UInt8.ofNat ((UInt16.ofNat payload.length).toNat % 256) :: 13 :: 10 :: payload).length =
      address.length + 4 + payload.length := by
    simp only [List.length_append, List.length_cons]
    omega
  rw [shape, total]
  exact ⟨address.length + 4, parsed, by simp⟩

/-! ### The frames as a framing -/

/-- What a reader of UDP frames delivers: the source and the payload of one frame. -/
def decodeFrame (data : Bytes) : Except IoError (Option ((Target × Bytes) × Nat)) :=
  (parseUdpFrame data).map <| Option.map fun frame =>
    ((frame.source, (data.drop frame.payloadStart).take (frame.consumed - frame.payloadStart)),
      frame.consumed)

theorem decodeFrame_append {data : Bytes} (verdict : decodeFrame data ≠ .ok none) (more : Bytes) :
    decodeFrame (data ++ more) = decodeFrame data := by
  have final : parseUdpFrame data ≠ .ok none := by
    intro eq
    exact verdict (by rw [decodeFrame, eq]; rfl)
  unfold decodeFrame
  rw [parseUdpFrame_append final]
  cases parsed : parseUdpFrame data with
  | error e => rfl
  | ok result =>
      cases result with
      | none => exact absurd parsed final
      | some frame =>
          obtain ⟨ordered, inside, -⟩ := parseUdpFrame_le parsed
          simp only [Except.map, Option.map_some]
          rw [take_drop_append (by omega)]

def udpFraming : Framing UInt8 (Target × Bytes) IoError where
  decode := decodeFrame
  decode_nil := rfl
  consumed_le := by
    intro data a n h
    cases parsed : parseUdpFrame data with
    | error e => simp [decodeFrame, parsed, Except.map] at h
    | ok result =>
        cases result with
        | none => simp [decodeFrame, parsed, Except.map] at h
        | some frame =>
            have inside := (parseUdpFrame_le parsed).2.1
            simp only [decodeFrame, parsed, Except.map, Option.map_some, Except.ok.injEq,
              Option.some.injEq, Prod.mk.injEq] at h
            omega
  stable := fun verdict more => decodeFrame_append verdict more

/-- An encoded frame is a frame of the framing. -/
theorem encodes_encodeUdpFrame {target : Target} {payload frame : Bytes}
    (h : encodeUdpFrame target payload = .ok frame) :
    udpFraming.Encodes (target, payload) frame := by
  obtain ⟨start, parsed, rest⟩ := parseUdpFrame_encodeUdpFrame h
  show decodeFrame frame = _
  have size : payload.length = frame.length - start := by rw [← rest, List.length_drop]
  unfold decodeFrame
  simp only [parsed, Except.map, Option.map_some, rest, ← size, List.take_length]

/-- A datagram that has a frame: its domain, if it has one, fits a length byte, and its payload the
length field. -/
def Encodable (datagram : Target × Bytes) : Prop :=
  (∀ d, datagram.1.host = .domain d → 1 ≤ byteLen d ∧ byteLen d ≤ 255) ∧ datagram.2.length ≤ 65535

theorem encodeUdpFrame_ok {datagram : Target × Bytes} (h : Encodable datagram) :
    ∃ frame, encodeUdpFrame datagram.1 datagram.2 = .ok frame := by
  obtain ⟨name, small⟩ := h
  have fits : ∀ d, datagram.1.host = .domain d → d ≠ [] ∧ byteLen d ≤ 255 := by
    intro d isDomain
    obtain ⟨nonempty, short⟩ := name d isDomain
    refine ⟨fun empty => ?_, short⟩
    rw [byteLen_eq_zero.mpr empty] at nonempty
    omega
  obtain ⟨address, encoded⟩ := encodeTarget_ok fits
  rw [encodeUdpFrame, if_neg (not_lt.mpr small), encoded]
  exact ⟨_, rfl⟩

end Commeatus.Daemon.Trojan
