import Commeatus.Daemon.Inbound
import Commeatus.Lib.Fallible

/-!
The SOCKS5 address on a stream and in a packet (`daemon/src/socks5.rs`).

Two readers take the same field: one from the control connection as it comes,
one from a packet by offsets. Each takes exactly the fields that stand for a
host, so they agree, and a packet that the encoder made is read back.
-/

namespace Commeatus.Daemon.Socks5

open Commeatus.Lib Commeatus.Core

/-- The field behind an address type that stands for the host. -/
inductive AddressField : UInt8 → Bytes → DestinationHost → Prop where
  | ipv4 {octets : Bytes} (size : octets.length = 4) :
      AddressField 0x01 octets (.ip (.v4 (.ofOctets octets)))
  | name {length : UInt8} {name : Bytes} {text : Str} (size : name.length = length.toNat)
      (bounds : 1 ≤ length.toNat ∧ length.toNat ≤ 253) (decoded : fromUtf8 name = some text)
      (nonempty : toAsciiLowercase (trimEndMatches '.' text) ≠ []) :
      AddressField 0x03 (length :: name) (.domain (toAsciiLowercase (trimEndMatches '.' text)))
  | ipv6 {octets : Bytes} (size : octets.length = 16) :
      AddressField 0x04 octets (.ip (.v6 (.ofOctets octets)))

variable {addressType : UInt8} {field rest payload : Bytes} {host : DestinationHost}
    {port : UInt16} {target : Target}
  {s s' : ByteStream}

/-! ### The reader of the stream -/

theorem readHost_takes (read : readHost addressType s = (.ok host, s')) :
    ∃ field, AddressField addressType field host ∧ s.incoming = field ++ s'.incoming := by
  unfold readHost at read
  split at read
  · rename_i type
    obtain ⟨octets, s₁, first, ends⟩ := IoM.bind_eq_ok.mp read
    cases ends
    obtain ⟨taken, size⟩ := ByteStream.readExact_split first
    exact ⟨octets, type ▸ .ipv4 size, taken⟩
  split at read
  · rename_i type
    obtain ⟨one, s₁, first, named⟩ := IoM.bind_eq_ok.mp read
    obtain ⟨taken, size⟩ := ByteStream.readExact_split first
    obtain ⟨length, rfl⟩ := List.length_eq_one_iff.mp size
    have octet : byteAt [length] 0 = length := rfl
    dsimp only at named
    rw [octet] at named
    split at named
    · cases named
    rename_i bounds
    obtain ⟨name, s₂, second, decodes⟩ := IoM.bind_eq_ok.mp named
    obtain ⟨taken', size'⟩ := ByteStream.readExact_split second
    cases decoded : fromUtf8 name with
    | none =>
        rw [decoded] at decodes
        cases decodes
    | some text =>
        rw [decoded] at decodes
        dsimp only at decodes
        split at decodes
        · cases decodes
        rename_i nonempty
        cases decodes
        refine ⟨length :: name, type ▸ .name size' (by omega) decoded (by simpa using nonempty), ?_⟩
        rw [taken, taken', List.singleton_append, List.cons_append]
  split at read
  · rename_i type
    obtain ⟨octets, s₁, first, ends⟩ := IoM.bind_eq_ok.mp read
    cases ends
    obtain ⟨taken, size⟩ := ByteStream.readExact_split first
    exact ⟨octets, type ▸ .ipv6 size, taken⟩
  · cases read

theorem readHost_of_field (stands : AddressField addressType field host)
    (incoming : s.incoming = field ++ rest) :
    readHost addressType s = (.ok host, { s with incoming := rest }) := by
  cases stands with
  | ipv4 size =>
      rw [readHost, if_pos rfl, IoM.bind_of_ok (ByteStream.readExact_append size s rest incoming)]
      rfl
  | @name length name text size bounds decoded nonempty =>
      have first := @ByteStream.readExact_append [length] 1 rfl s (name ++ rest) incoming
      have second := ByteStream.readExact_append size { s with incoming := name ++ rest } rest rfl
      have octet : byteAt [length] 0 = length := rfl
      rw [readHost, if_neg (by decide), if_pos rfl, IoM.bind_of_ok first, octet]
      dsimp only
      rw [if_neg (by omega), IoM.bind_of_ok second, decoded]
      dsimp only
      rw [if_neg (by simpa using nonempty)]
      rfl
  | ipv6 size =>
      rw [readHost, if_neg (by decide), if_neg (by decide), if_pos rfl,
        IoM.bind_of_ok (ByteStream.readExact_append size s rest incoming)]
      rfl

/-! ### The reader of the packet -/

theorem slice_eq_some_iff {bytes part : Bytes} {offset count : Nat} :
    slice bytes offset count = some part ↔
    ∃ front rest, bytes = front ++ (part ++ rest) ∧ front.length = offset ∧
      part.length = count := by
  unfold slice
  constructor
  · intro found
    split at found
    · rename_i inside
      cases found
      refine ⟨bytes.take offset, (bytes.drop offset).drop count, ?_,
        List.length_take_of_le (by omega), ?_⟩
      · rw [List.take_append_drop, List.take_append_drop]
      · rw [List.length_take, List.length_drop]
        omega
    · cases found
  · rintro ⟨front, rest, rfl, rfl, rfl⟩
    rw [if_pos (by simp), List.drop_left, List.take_left]

/-- Behind the three reserved octets and the address type. -/
theorem slice_body (a b c addressType : UInt8) (body : Bytes) (offset count : Nat) :
    slice (a :: b :: c :: addressType :: body) (offset + 4) count = slice body offset count := by
  have inside : offset + 4 + count ≤ (a :: b :: c :: addressType :: body).length ↔
      offset + count ≤ body.length := by
    simp only [List.length_cons]
    omega
  unfold slice
  simp only [inside, List.drop_succ_cons]

theorem slice_front {part rest : Bytes} : slice (part ++ rest) 0 part.length = some part :=
  slice_eq_some_iff.mpr ⟨[], rest, rfl, rfl, rfl⟩

/-- The reader of the packet takes the field that stands for the host. -/
theorem parseUdpHost_iff {a b c : UInt8} {body : Bytes} {offset : Nat} :
    parseUdpHost (a :: b :: c :: addressType :: body) = .ok (host, offset) ↔
      ∃ field rest, AddressField addressType field host ∧ body = field ++ rest ∧
        offset = field.length + 4 := by
  have type : byteAt (a :: b :: c :: addressType :: body) 3 = addressType := rfl
  have fifth : (a :: b :: c :: addressType :: body)[4]? = body[0]? := rfl
  constructor
  · intro parsed
    unfold parseUdpHost at parsed
    dsimp only at parsed
    rw [type, fifth] at parsed
    split at parsed
    · rename_i is
      split at parsed
      · cases parsed
      rename_i octets found
      cases parsed
      obtain ⟨front, rest, rfl, empty, size⟩ :=
        slice_eq_some_iff.mp (slice_body a b c addressType body 0 4 ▸ found)
      rw [List.length_eq_zero_iff.mp empty]
      exact ⟨octets, rest, is ▸ .ipv4 size, rfl, by rw [size]⟩
    split at parsed
    · rename_i is
      split at parsed
      · cases parsed
      rename_i length first
      obtain ⟨name', rfl⟩ : ∃ name', body = length :: name' := by
        cases body with
        | nil => cases first
        | cons octet name' =>
            cases first
            exact ⟨name', rfl⟩
      split at parsed
      · cases parsed
      rename_i bounds
      split at parsed
      · cases parsed
      rename_i name found
      split at parsed
      · cases parsed
      rename_i text decoded
      split at parsed
      · cases parsed
      rename_i nonempty
      cases parsed
      obtain ⟨front, rest, split, one, size⟩ :=
        slice_eq_some_iff.mp (slice_body a b c addressType (length :: name') 1 length.toNat ▸ found)
      obtain ⟨octet, rfl⟩ := List.length_eq_one_iff.mp one
      obtain ⟨rfl, rfl⟩ := List.cons.inj split
      refine ⟨length :: name, rest,
        is ▸ .name size (by omega) decoded (by simpa using nonempty), rfl, ?_⟩
      rw [List.length_cons, size]
      omega
    split at parsed
    · rename_i is
      split at parsed
      · cases parsed
      rename_i octets found
      cases parsed
      obtain ⟨front, rest, rfl, empty, size⟩ :=
        slice_eq_some_iff.mp (slice_body a b c addressType body 0 16 ▸ found)
      rw [List.length_eq_zero_iff.mp empty]
      exact ⟨octets, rest, is ▸ .ipv6 size, rfl, by rw [size]⟩
    · cases parsed
  · rintro ⟨field, rest, stands, rfl, rfl⟩
    unfold parseUdpHost
    dsimp only
    rw [type, fifth]
    cases stands with
    | ipv4 size =>
        have found : slice (a :: b :: c :: 0x01 :: (field ++ rest)) 4 4 = some field := by
          rw [slice_body a b c 0x01 (field ++ rest) 0 4, ← size, slice_front]
        rw [if_pos rfl, found, size]
    | @name length name text size bounds decoded nonempty =>
        have found : slice (a :: b :: c :: 0x03 :: (length :: name ++ rest)) 5 length.toNat =
            some name := by
          rw [slice_body a b c 0x03 (length :: name ++ rest) 1 length.toNat]
          exact slice_eq_some_iff.mpr ⟨[length], rest, rfl, rfl, size⟩
        have first : (length :: name ++ rest)[0]? = some length := rfl
        rw [if_neg (by decide), if_pos rfl, first]
        dsimp only
        rw [if_neg (by omega), found]
        dsimp only
        rw [decoded]
        dsimp only
        rw [if_neg (by simpa using nonempty), List.length_cons, size]
        congr 2
        omega
    | ipv6 size =>
        have found : slice (a :: b :: c :: 0x04 :: (field ++ rest)) 4 16 = some field := by
          rw [slice_body a b c 0x04 (field ++ rest) 0 16, ← size, slice_front]
        rw [if_neg (by decide), if_neg (by decide), if_pos rfl, found, size]

/-! ### Addresses with ports -/

theorem readAddress_takes (read : readAddress addressType s = (.ok (host, port), s')) :
    ∃ field, AddressField addressType field host ∧
      s.incoming = field ++ (toBeBytes port ++ s'.incoming) := by
  obtain ⟨host', s₁, first, after⟩ := IoM.bind_eq_ok.mp read
  obtain ⟨octets, s₂, second, ends⟩ := IoM.bind_eq_ok.mp after
  cases ends
  obtain ⟨field, stands, taken⟩ := readHost_takes first
  obtain ⟨taken', size⟩ := ByteStream.readExact_split second
  obtain ⟨high, low, rfl⟩ := List.length_eq_two.mp size
  refine ⟨field, stands, ?_⟩
  have both : toBeBytes (fromBeBytes (byteAt [high, low] 0) (byteAt [high, low] 1)) = [high, low] :=
    toBeBytes_fromBeBytes high low
  rw [taken, taken', both]

theorem readAddress_of_field (stands : AddressField addressType field host)
    (incoming : s.incoming = field ++ (toBeBytes port ++ rest)) :
    readAddress addressType s = (.ok (host, port), { s with incoming := rest }) := by
  have first := readHost_of_field stands incoming
  have second :=
    @ByteStream.readExact_append (toBeBytes port) 2 rfl
      { s with incoming := toBeBytes port ++ rest } rest rfl
  have value : fromBeBytes (byteAt (toBeBytes port) 0) (byteAt (toBeBytes port) 1) = port :=
    fromBeBytes_toBeBytes port
  unfold readAddress
  rw [IoM.bind_of_ok first, IoM.bind_of_ok second, value]
  rfl

/-- A packet is accepted if it has the field of the target's host, its port, and the payload behind
the reserved octets. -/
theorem parseUdpRequest_iff {packet : Bytes} : parseUdpRequest packet = .ok (target, payload) ↔
    ∃ addressType field, AddressField addressType field target.host ∧
      packet = 0 :: 0 :: 0 :: addressType :: (field ++ (toBeBytes target.port ++ payload)) := by
  constructor
  · intro parsed
    unfold parseUdpRequest at parsed
    split at parsed
    · cases parsed
    rename_i reserved
    simp only [not_or, Nat.not_lt, not_not] at reserved
    obtain ⟨long, first, second⟩ := reserved
    split at parsed
    · cases parsed
    rename_i whole
    rw [not_not] at whole
    match packet, long with
    | a :: b :: c :: addressType :: body, _ =>
        change a = 0 at first
        change b = 0 at second
        change c = 0 at whole
        subst first second whole
        split at parsed
        · cases parsed
        rename_i host offset named
        split at parsed
        · cases parsed
        rename_i octets found
        split at parsed
        · cases parsed
        rename_i made
        cases parsed
        obtain ⟨field, rest, stands, rfl, rfl⟩ := parseUdpHost_iff.mp named
        obtain ⟨front, payload, split, size, two⟩ :=
          slice_eq_some_iff.mp (slice_body 0 0 0 addressType (field ++ rest) field.length 2 ▸ found)
        obtain ⟨high, low, rfl⟩ := List.length_eq_two.mp two
        obtain ⟨rfl, rfl⟩ := List.append_inj split size.symm
        obtain ⟨is, port⟩ := Target.new_eq_ok made
        have both : toBeBytes target.port = [high, low] := by
          rw [port]
          exact toBeBytes_fromBeBytes high low
        have behind :
            (0 :: 0 :: 0 :: addressType :: (field ++ ([high, low] ++ payload))).drop
                (field.length + 4 + 2) = payload := by
          simp [← List.drop_drop]
        rw [behind, both]
        exact ⟨addressType, field, is ▸ stands, rfl⟩
  · rintro ⟨addressType, field, stands, rfl⟩
    have named :
      parseUdpHost (0 :: 0 :: 0 :: addressType :: (field ++ (toBeBytes target.port ++ payload))) =
        .ok (target.host, field.length + 4) := parseUdpHost_iff.mpr ⟨field, _, stands, rfl, rfl⟩
    have found : slice (0 :: 0 :: 0 :: addressType :: (field ++ (toBeBytes target.port ++ payload)))
      (field.length + 4) 2 =
        some (toBeBytes target.port) := by
      rw [slice_body]
      exact slice_eq_some_iff.mpr ⟨field, payload, rfl, rfl, rfl⟩
    have value : fromBeBytes (byteAt (toBeBytes target.port) 0) (byteAt (toBeBytes target.port) 1) =
        target.port :=
      fromBeBytes_toBeBytes target.port
    have behind : (0 :: 0 :: 0 :: addressType :: (field ++ (toBeBytes target.port ++ payload))).drop
        (field.length + 4 + 2) = payload := by
      simp [← List.drop_drop, toBeBytes]
    unfold parseUdpRequest
    rw [if_neg (by simp [byteAt]), if_neg (by simp [byteAt]), named]
    dsimp only
    rw [found]
    dsimp only
    rw [value, Target.new_self]
    dsimp only
    rw [behind]

/-! ### The encoder -/

/-- A name of 1 to 253 bytes without capitals or a dot at the end. -/
structure CanonicalName (name : Str) : Prop where
  nonempty : name ≠ []
  short : byteLen name ≤ 253
  lowercase : ∀ c ∈ name, ¬ c.isUpper = true
  undotted : name.getLast? ≠ some '.'

theorem CanonicalName.inbound {name : Str} (canonical : CanonicalName name) : InboundName name where
  nonempty := canonical.nonempty
  short := canonical.short
  noTrailingDot := trimEndMatches_eq_self canonical.undotted
  lowercase := by
    unfold toAsciiLowercase
    rw [List.map_congr_left fun c mem => toLower_of_not_isUpper (canonical.lowercase c mem)]
    exact List.map_id' name

theorem addressField_ipv4 (address : Ipv4Addr) :
    AddressField 0x01 address.octets (.ip (.v4 address)) := by
  have stands := @AddressField.ipv4 address.octets rfl
  rwa [Ipv4Addr.ofOctets_octets] at stands

theorem addressField_ipv6 (address : Ipv6Addr) :
    AddressField 0x04 address.octets (.ip (.v6 address)) := by
  have stands := @AddressField.ipv6 address.octets address.length_octets
  rwa [Ipv6Addr.ofOctets_octets] at stands

/-- The field of a name that the readers leave alone. -/
theorem addressField_name {name : Str} (inbound : InboundName name) :
    AddressField 0x03 (UInt8.ofNat (byteLen name) :: utf8 name) (.domain name) := by
  obtain ⟨nonempty, lowercase, noTrailingDot, short⟩ := inbound
  have positive : byteLen name ≠ 0 := by rwa [Ne, byteLen_eq_zero]
  have value : (UInt8.ofNat (byteLen name)).toNat = byteLen name := by
    rw [UInt8.toNat_ofNat']
    omega
  have fixed : toAsciiLowercase (trimEndMatches '.' name) = name := by rw [noTrailingDot, lowercase]
  have stands :=
    @AddressField.name (UInt8.ofNat (byteLen name)) (utf8 name) name value.symm (by omega)
      (fromUtf8_utf8 name)
    (by rwa [fixed])
  rwa [fixed] at stands

theorem encodeUdpResponse_encodes
    (canonical : ∀ name, target.host = .domain name → CanonicalName name) (payload : Bytes) :
    ∃ addressType field, AddressField addressType field target.host ∧
      encodeUdpResponse target payload =
      .ok (0 :: 0 :: 0 :: addressType :: (field ++ (toBeBytes target.port ++ payload))) := by
  unfold encodeUdpResponse
  cases host : target.host with
  | ip address =>
      cases address with
      | v4 address => exact ⟨0x01, address.octets, addressField_ipv4 address, by simp⟩
      | v6 address => exact ⟨0x04, address.octets, addressField_ipv6 address, by simp⟩
  | domain name =>
      have inbound := (canonical name host).inbound
      have positive : byteLen name ≠ 0 := by
        rw [Ne, byteLen_eq_zero]
        exact inbound.nonempty
      have short := inbound.short
      dsimp only
      rw [if_neg (by omega), if_neg positive]
      exact ⟨0x03, _, addressField_name inbound, by simp⟩

/-- The packet of a reply from a canonical target is read back as the target and the payload. What
the reader of the stream takes for an address to its last byte is read from a packet in the same
way, with the payload behind it; and every packet that is accepted has such an address. -/
theorem udp_codec :
    (∀ target payload, (∀ name, target.host = .domain name → CanonicalName name) →
      ∃ packet, encodeUdpResponse target payload = .ok packet ∧ parseUdpRequest packet =
        .ok (target, payload)) ∧
    (∀ addressType a payload (target : Target) (s s' : ByteStream),
      s.incoming = a → s'.incoming = [] →
      readAddress addressType s = (.ok (target.host, target.port), s') →
        parseUdpRequest ([0, 0, 0] ++ (addressType :: a) ++ payload) = .ok (target, payload)) ∧
    ∀ packet target payload, parseUdpRequest packet = .ok (target, payload) →
      ∃ addressType a, packet = [0, 0, 0] ++ (addressType :: a) ++ payload ∧
        ∀ s : ByteStream, s.incoming = a →
          ∃ s', readAddress addressType s = (.ok (target.host, target.port), s') ∧
            s'.incoming = [] := by
  refine ⟨?_, ?_, ?_⟩
  · intro target payload canonical
    obtain ⟨addressType, field, stands, encoded⟩ := encodeUdpResponse_encodes canonical payload
    exact ⟨_, encoded, parseUdpRequest_iff.mpr ⟨addressType, field, stands, rfl⟩⟩
  · intro addressType a payload target s s' incoming ends read
    obtain ⟨field, stands, taken⟩ := readAddress_takes read
    rw [incoming, ends, List.append_nil] at taken
    refine parseUdpRequest_iff.mpr ⟨addressType, field, stands, ?_⟩
    rw [taken]
    simp
  · intro packet target payload parsed
    obtain ⟨addressType, field, stands, rfl⟩ := parseUdpRequest_iff.mp parsed
    refine ⟨addressType, field ++ toBeBytes target.port, by simp, fun s incoming => ?_⟩
    exact ⟨_, readAddress_of_field stands (by rw [incoming, List.append_nil]), rfl⟩

def sampleName : Target := ⟨.domain "a.b".toList, 53, by decide⟩

/-- A name in capitals with a dot behind it, on the stream and in a packet. -/
theorem udp_codec_example :
    parseUdpRequest ([0, 0, 0] ++ (3 :: [4, 65, 46, 66, 46, 0, 53]) ++ [7]) =
      .ok (sampleName, [7]) ∧
      ∃ packet, encodeUdpResponse sampleName [7] = .ok packet ∧ parseUdpRequest packet =
        .ok (sampleName, [7]) := by
  obtain ⟨encoded, agree, -⟩ := udp_codec
  constructor
  · apply agree 3 [4, 65, 46, 66, 46, 0, 53] [7] sampleName ⟨[4, 65, 46, 66, 46, 0, 53], [2], none,
      []⟩ ⟨[], [2], none, []⟩ rfl rfl
    decide +kernel
  · apply encoded
    rintro _ ⟨⟩
    exact ⟨by simp, by decide, by simp [isUpper_iff], by simp⟩

end Commeatus.Daemon.Socks5
