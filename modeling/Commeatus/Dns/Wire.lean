import Commeatus.Dns.Engine

/-!
DNS messages (`dns/src/wire.rs`): the address query, and the parser of its
response with name decompression and the alias chain.

Offsets are passed along explicitly. The name decoder ends because a label
adds to the bounded length of the name and a pointer to the bounded number of
hops.
-/

namespace Commeatus.Dns

open Commeatus.Lib Commeatus.Core

def dnsHeaderBytes : Nat := 12
def maxDnsMessageBytes : Nat := 65535
def maxDnsAnswerRecords : Nat := 512
def maxDnsNamePointerHops : Nat := 32
def maxDnsAliasHops : Nat := 16

def flagQr : UInt16 := 0x8000
def flagTc : UInt16 := 0x0200
def flagRd : UInt16 := 0x0100
def rcodeMask : UInt16 := 0x000f

def classIn : UInt16 := 1
def typeA : UInt16 := 1
def typeCname : UInt16 := 5
def typeAaaa : UInt16 := 28

inductive AddressRecordType where
  | a | aaaa
  deriving DecidableEq, Repr

def AddressRecordType.code : AddressRecordType → UInt16
  | .a => typeA
  | .aaaa => typeAaaa

/-- The data of a record is a range of the message. -/
structure ResourceRecord where
  owner : Str
  rrType : UInt16
  cls : UInt16
  ttl : Nat
  start : Nat
  stop : Nat
  deriving DecidableEq

def invalidResponse (message : String) : DnsError := ⟨.invalidResponse, message⟩

/-! ### The query -/

/-- The labels of a name, each with its length in front. -/
def encodeLabels : List Str → Except DnsError Bytes
  | [] => .ok []
  | label :: labels => do
      refuse (255 < byteLen label) ⟨.invalidName, "DNS label is too long"⟩
      refuse (byteLen label = 0 ∨ 63 < byteLen label) ⟨.invalidName, "invalid DNS label length"⟩
      let rest ← encodeLabels labels
      return UInt8.ofNat (byteLen label) :: utf8 label ++ rest

/-- The name joins what has been written. -/
def encodeName (name : Str) (output : Bytes) : Except DnsError Bytes := do
  let labels ← encodeLabels (name.splitOn '.')
  let output := output ++ labels ++ [0]
  refuse (maxDnsMessageBytes < output.length)
    ⟨.invalidConfiguration, "encoded DNS query exceeds maximum message size"⟩
  return output

def encodeAddressQuery (id : UInt16) (query : DnsQuery) (recordType : AddressRecordType) :
    Except DnsError Bytes := do
  let header := toBeBytes id ++ toBeBytes flagRd ++ toBeBytes 1 ++ toBeBytes 0 ++
    toBeBytes 0 ++ toBeBytes 0
  let message ← encodeName query.name header
  return message ++ toBeBytes recordType.code ++ toBeBytes classIn

/-! ### Reading -/

def readU16 (message : Bytes) (offset : Nat) : Except DnsError UInt16 :=
  if offset + 2 ≤ message.length then
    .ok (fromBeBytes (byteAt message offset) (byteAt message (offset + 1)))
  else .error (invalidResponse "DNS message is truncated")

/-- The number and the offset behind it. -/
def takeU16 (message : Bytes) (offset : Nat) : Except DnsError (UInt16 × Nat) := do
  let value ← readU16 message offset
  return (value, offset + 2)

def takeU32 (message : Bytes) (offset : Nat) : Except DnsError (Nat × Nat) :=
  if offset + 4 ≤ message.length then
    .ok ((fromBeBytes (byteAt message offset) (byteAt message (offset + 1))).toNat * 65536 +
      (fromBeBytes (byteAt message (offset + 2)) (byteAt message (offset + 3))).toNat, offset + 4)
  else .error (invalidResponse "DNS message is truncated")

/-- The state of the name decoder: `resume` is where reading goes on behind the name once a pointer
was followed. -/
structure NameState where
  cursor : Nat
  resume : Option Nat := none
  labels : List Str := []
  hops : Nat := 0
  decodedBytes : Nat := 0

/-- The labels of a name and the offset behind it. -/
def decodeLabels (message : Bytes) (s : NameState) : Except DnsError (List Str × Nat) :=
  match message[s.cursor]? with
  | none => .error (invalidResponse "DNS name is truncated")
  | some length =>
      if length &&& 0xc0 = 0xc0 then
        match message[s.cursor + 1]? with
        | none => .error (invalidResponse "DNS compression pointer is truncated")
        | some second =>
            let pointer := (length &&& 0x3f).toNat * 256 + second.toNat
            if message.length ≤ pointer then
              .error (invalidResponse "DNS compression pointer is out of bounds")
            else if s.cursor ≤ pointer then
              .error (invalidResponse "DNS compression pointer does not point backward")
            else if maxDnsNamePointerHops < s.hops + 1 then
              .error (invalidResponse "DNS compression pointer chain exceeds the bound")
            else
              decodeLabels message
                { s with
                  cursor := pointer
                  resume := some (s.resume.getD (s.cursor + 2))
                  hops := s.hops + 1 }
      else if length &&& 0xc0 ≠ 0 then
        .error (invalidResponse "DNS name uses an unsupported label encoding")
      else if length = 0 then .ok (s.labels, s.resume.getD (s.cursor + 1))
      else if 63 < length.toNat then .error (invalidResponse "DNS label exceeds 63 bytes")
      else if message.length < s.cursor + 1 + length.toNat then
        .error (invalidResponse "DNS label is truncated")
      else
        match fromUtf8 ((message.drop (s.cursor + 1)).take length.toNat) with
        | none => .error (invalidResponse "DNS response name is not UTF-8/ASCII")
        | some label =>
            if !isAscii label then .error (invalidResponse "DNS response name is not ASCII")
            else if 253 < s.decodedBytes + (length.toNat + if s.labels.isEmpty then 0 else 1) then
              .error (invalidResponse "DNS decoded name exceeds 253 bytes")
            else
              decodeLabels message
                { s with
                  cursor := s.cursor + 1 + length.toNat
                  labels := s.labels ++ [toAsciiLowercase label]
                  decodedBytes :=
                    s.decodedBytes + (length.toNat + if s.labels.isEmpty then 0 else 1) }
termination_by (254 - s.decodedBytes) + (33 - s.hops)
decreasing_by
  · rename_i bound
    simp only [maxDnsNamePointerHops] at bound
    omega
  · rename_i nonzero _ _ _ bound
    have positive : 0 < length.toNat :=
      Nat.pos_of_ne_zero fun none => nonzero (UInt8.toNat_inj.mp none)
    omega

/-- `decode_name`. -/
def decodeName (message : Bytes) (offset : Nat) : Except DnsError (Str × Nat) := do
  let (labels, offset) ← decodeLabels message { cursor := offset }
  refuse (labels = []) (invalidResponse "DNS response contains an empty root name")
  match normalizeName (['.'].intercalate labels) with
  | .ok name => return (name, offset)
  | .error _ => .error (invalidResponse "DNS response contains an invalid hostname")

/-- One record of the answer section, and the offset behind it. -/
def parseRecord (message : Bytes) (offset : Nat) : Except DnsError (ResourceRecord × Nat) := do
  let (owner, offset) ← decodeName message offset
  let (rrType, offset) ← takeU16 message offset
  let (cls, offset) ← takeU16 message offset
  let (ttl, offset) ← takeU32 message offset
  let (rdlength, offset) ← takeU16 message offset
  let stop := offset + rdlength.toNat
  refuse (message.length < stop) (invalidResponse "DNS resource record data is truncated")
  return (⟨owner, rrType, cls, fromSecs ttl, offset, stop⟩, stop)

def parseRecords (message : Bytes) : Nat → Nat → Except DnsError (List ResourceRecord)
  | 0, _ => .ok []
  | count + 1, offset => do
      let (record, offset) ← parseRecord message offset
      let records ← parseRecords message count offset
      return record :: records

/-! ### The alias chain -/

def minTtl (current : Option Nat) (candidate : Nat) : Nat :=
  match current with
  | none => candidate
  | some current => min current candidate

structure AliasState where
  acceptedNames : Finset Str
  chainTtl : Option Nat := none
  changed : Bool := false

/-- The target of an alias record. -/
def aliasTarget (message : Bytes) (record : ResourceRecord) : Except DnsError Str := do
  let (target, offset) ← decodeName message record.start
  refuse (offset ≠ record.stop) (invalidResponse "DNS CNAME record has trailing or malformed data")
  return target

/-- One pass over the records: the aliases of accepted names are accepted too. -/
def followAliases (message : Bytes) : List ResourceRecord → AliasState → Except DnsError AliasState
  | [], s => .ok s
  | record :: records, s =>
      if record.cls ≠ classIn ∨ record.rrType ≠ typeCname ∨ record.owner ∉ s.acceptedNames then
        followAliases message records s
      else do
        let target ← aliasTarget message record
        followAliases message records
          { acceptedNames := insert target s.acceptedNames
            chainTtl := some (minTtl s.chainTtl record.ttl)
            changed := s.changed || decide (target ∉ s.acceptedNames) }

/-- The passes: at most the given number, until one accepts no new name. -/
def acceptNames (message : Bytes) (records : List ResourceRecord) : Nat → AliasState →
    Except DnsError AliasState
  | 0, s => .ok s
  | hops + 1, s => do
      let s ← followAliases message records { s with changed := false }
      if !s.changed then return s
      else do
        refuse (maxDnsAliasHops + 1 < s.acceptedNames.card)
          (invalidResponse "DNS CNAME chain exceeds the configured bound")
        acceptNames message records hops s

/-- The address that a record of the type holds. -/
def recordAddress (recordType : AddressRecordType) (message : Bytes) (record : ResourceRecord) :
    Except DnsError IpAddr :=
  let octets := (message.drop record.start).take (record.stop - record.start)
  match recordType with
  | .a => do
      refuse (record.stop - record.start ≠ 4) (invalidResponse "DNS A record has invalid RDLENGTH")
      return .v4 (.ofOctets octets)
  | .aaaa => do
      refuse (record.stop - record.start ≠ 16)
        (invalidResponse "DNS AAAA record has invalid RDLENGTH")
      return .v6 (.ofOctets octets)

/-- The loop over the records that collects addresses and the least lifetime. -/
def collectAddresses (recordType : AddressRecordType) (message : Bytes)
    (acceptedNames : Finset Str) :
    List ResourceRecord → List IpAddr × Option Nat → Except DnsError (List IpAddr × Option Nat)
  | [], state => .ok state
  | record :: records, (addresses, ttl) =>
      if record.cls ≠ classIn ∨ record.rrType ≠ recordType.code ∨ record.owner ∉ acceptedNames then
        collectAddresses recordType message acceptedNames records (addresses, ttl)
      else do
        let address ← recordAddress recordType message record
        collectAddresses recordType message acceptedNames records (pushNew addresses address,
          some (minTtl ttl record.ttl))

def resolveAddressesThroughAliases (query : DnsQuery)
    (recordType : AddressRecordType) (message : Bytes)
    (records : List ResourceRecord) : Except DnsError DnsAnswer := do
  let s ← acceptNames message records maxDnsAliasHops { acceptedNames := {query.name} }
  let (addresses, ttl) ← collectAddresses recordType message s.acceptedNames
    records ([], s.chainTtl)
  DnsAnswer.new addresses ttl

/-! ### The response -/

/-- The verdict of the header's response code. -/
def checkRcode (flags : UInt16) (query : DnsQuery) : Except DnsError Unit :=
  let code := flags &&& rcodeMask
  if code = 0 then .ok ()
  else if code = 3 then
    .error ⟨.noRecords, "DNS upstream reported NXDOMAIN for " ++ String.ofList query.name⟩
  else
    .error ⟨.resolverFailure,
      "DNS upstream returned response code " ++ String.ofList (decimal code.toNat) ++ " for " ++
        String.ofList query.name⟩

/-- The records of a response to the query, once its header and question are as expected. -/
def parseAnswerRecords (expectedId : UInt16) (query : DnsQuery)
    (recordType : AddressRecordType) (message : Bytes) :
    Except DnsError (List ResourceRecord) := do
  refuse (message.length < dnsHeaderBytes ∨ maxDnsMessageBytes < message.length)
    (invalidResponse "DNS response size is outside the supported bounds")
  let id ← readU16 message 0
  refuse (id ≠ expectedId) (invalidResponse "DNS response transaction ID does not match query")
  let flags ← readU16 message 2
  refuse (flags &&& flagQr = 0) (invalidResponse "DNS response is missing the response flag")
  refuse (flags &&& flagTc ≠ 0) ⟨.resolverFailure, "DNS response is truncated"⟩
  checkRcode flags query
  let questionCount ← readU16 message 4
  let answerCount ← readU16 message 6
  refuse (questionCount ≠ 1) (invalidResponse "DNS response must contain exactly one question")
  refuse (maxDnsAnswerRecords < answerCount.toNat)
    (invalidResponse "DNS response answer count exceeds the configured bound")
  let (questionName, offset) ← decodeName message dnsHeaderBytes
  refuse (questionName ≠ query.name)
    (invalidResponse "DNS response question name does not match query")
  let (questionType, offset) ← takeU16 message offset
  let (questionClass, offset) ← takeU16 message offset
  refuse (questionType ≠ recordType.code ∨ questionClass ≠ classIn)
    (invalidResponse "DNS response question type/class does not match query")
  parseRecords message answerCount.toNat offset

def parseAddressResponse (expectedId : UInt16) (query : DnsQuery)
    (recordType : AddressRecordType) (message : Bytes) :
    Except DnsError DnsAnswer := do
  let records ← parseAnswerRecords expectedId query recordType message
  resolveAddressesThroughAliases query recordType message records

end Commeatus.Dns
